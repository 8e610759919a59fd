import ContainerCP.Concurrency.Interleaving
import ContainerCP.Text.Decimal
import ContainerCP.Text.Streams
import Mathlib.Data.List.Count
import Mathlib.Data.List.Perm.Basic

/-! `BackupJobService` under every schedule of its callers and of the workers of the
executor: its set of keys, the queue, and the operations that the workers run. -/
namespace ContainerCP.BackupJobs

open Concurrency

/-- A call of `enqueue_create` or of `enqueue_restore`. -/
inductive Request where
  | create (siteId : Nat)
  | restore (backupId targetSiteId : Nat)
  deriving DecidableEq

/-- `lock_key`. -/
def lockKey (id : Nat) (operation : Bytes) : Bytes := decimal id ++ bytes ":" ++ operation

def Request.key : Request → Bytes
  | create siteId => lockKey siteId (bytes "create")
  | restore backupId _ => lockKey backupId (bytes "restore")

/-- The site that the operation of a request works on, by the sites of the backups; a
restore of a backup that is not there works on none. -/
def Request.site (backupSite : Nat → Option Nat) : Request → Option Nat
  | create siteId => some siteId
  | restore backupId targetSiteId => (backupSite backupId).map fun own => if targetSiteId = 0 then own else targetSiteId

/-- A request that has its lock. The ticket tells it from every other one, and its body
takes a number of operations. -/
structure Job where
  ticket : Nat
  request : Request
  operations : Nat
  deriving DecidableEq

def Job.key (job : Job) : Bytes := job.request.key

inductive LockEvent where
  | taken (ticket : Nat)
  | released (ticket : Nat)
  deriving DecidableEq

/-- The locks of the service, and the executor with its queue. -/
structure Service where
  locks : List Bytes := []
  running : Bool := false
  maxQueue : Nat
  queue : List Job := []
  tickets : Nat := 0
  log : List LockEvent := []
  deriving DecidableEq

/-- Where a caller or a worker is; a worker comes in by `start`. -/
inductive BackupPc where
  | starting
  | entering (request : Request) (operations : Nat)
  | submitting (job : Job)
  | refused (job : Job)
  | returned (code : Bytes)
  | waiting
  | working (job : Job) (left : Nat)
  | releasing (job : Job)
  deriving DecidableEq

namespace BackupPc

/-- One step. `acquire`, `submit`, `release` and the wait of a worker each hold their mutex
throughout. The destructor behind the operation releases the lock, also when the operation
throws. -/
def next : BackupPc → Service → Option (BackupPc × Service)
  | starting, service => some (waiting, { service with running := true })
  | entering request operations, service =>
      if request.key ∈ service.locks then some (returned (bytes "operation_already_running"), service)
      else
        some (submitting ⟨service.tickets, request, operations⟩,
          { service with
            locks := request.key :: service.locks
            tickets := service.tickets + 1
            log := service.log ++ [.taken service.tickets] })
  | submitting job, service =>
      if !service.running || service.maxQueue ≤ service.queue.length then some (refused job, service)
      else some (returned (bytes "job_queued"), { service with queue := service.queue ++ [job] })
  | refused job, service =>
      some (returned (bytes "queue_unavailable"),
        { service with locks := service.locks.erase job.key, log := service.log ++ [.released job.ticket] })
  | returned _, _ => none
  | waiting, service =>
      match service.queue with
      | [] => none
      | job :: rest => some (working job job.operations, { service with queue := rest })
  | working job 0, service => some (releasing job, service)
  | working job (left + 1), service => some (working job left, service)
  | releasing job, service =>
      some (waiting, { service with locks := service.locks.erase job.key, log := service.log ++ [.released job.ticket] })

/-- The job whose lock a thread is to release or to hand on. -/
def holder : BackupPc → Option Job
  | submitting job => some job
  | refused job => some job
  | working job _ => some job
  | releasing job => some job
  | _ => none

/-- Callers come in with the requests that are allowed, and `start` brings in any number
of workers. -/
def isEntry (allowed : Request → Bool) : BackupPc → Bool
  | entering request _ => allowed request
  | starting => true
  | _ => false

end BackupPc

def backupJobs (allowed : Request → Bool) : Program Service BackupPc := ⟨BackupPc.isEntry allowed, BackupPc.next⟩

/-- The service before its first call. -/
def idle (maxQueue : Nat) : System Service BackupPc := ⟨{ maxQueue := maxQueue }, []⟩

/-- The jobs that have their locks. -/
def held (system : System Service BackupPc) : List Job := system.shared.queue ++ system.threads.filterMap BackupPc.holder

/-- No two operations on one site run at a time; each lock was taken once, and it is either
with one job or was released once; and the locks are those of the jobs that have one. -/
structure Sound (backupSite : Nat → Option Nat) (system : System Service BackupPc) : Prop where
  exclusive : ∀ (first second : Nat) (job job' : Job) (left left' : Nat), first ≠ second →
    system.threads[first]? = some (.working job left) → system.threads[second]? = some (.working job' left') →
      ∀ site, job.request.site backupSite = some site → job'.request.site backupSite ≠ some site
  taken : ∀ ticket < system.shared.tickets, system.shared.log.count (.taken ticket) = 1
  released : ∀ ticket < system.shared.tickets,
    system.shared.log.count (.released ticket) + ((held system).map Job.ticket).count ticket = 1
  locks : system.shared.locks.Perm ((held system).map Job.key)

/-! ## Keys -/

theorem lockKey_inj {id id' : Nat} {operation operation' : Bytes} (h : lockKey id operation = lockKey id' operation') :
    id = id' ∧ operation = operation' := by
  have hColon : bytes ":" = [ascii ':'] := by decide
  have hCut : ∀ (id : Nat) (operation : Bytes), cutAt (ascii ':') (lockKey id operation) = some (decimal id, operation) := by
    intro id operation
    rw [lockKey, hColon, List.append_assoc, List.singleton_append]
    exact cutAt_eq_some.mpr ⟨rfl, not_mem_decimal (by decide)⟩
  have hParts := congrArg (cutAt (ascii ':')) h
  rw [hCut, hCut] at hParts
  obtain ⟨hId, hOperation⟩ := Prod.mk.inj (Option.some.inj hParts)
  exact ⟨decimal_injective hId, hOperation⟩

/-- Both make a backup of the same site, or both restore the same backup. -/
def Request.SameLock : Request → Request → Prop
  | create siteId, create siteId' => siteId = siteId'
  | restore backupId _, restore backupId' _ => backupId = backupId'
  | _, _ => False

theorem key_eq_iff (first second : Request) : first.key = second.key ↔ first.SameLock second := by
  have hOperations : bytes "create" ≠ bytes "restore" := by decide
  cases first with
  | create siteId =>
      cases second with
      | create siteId' => exact ⟨fun h => (lockKey_inj h).1, fun h => by rw [show siteId = siteId' from h]⟩
      | restore backupId targetSiteId => exact ⟨fun h => hOperations (lockKey_inj h).2, fun h => h.elim⟩
  | restore backupId targetSiteId =>
      cases second with
      | create siteId => exact ⟨fun h => hOperations.symm (lockKey_inj h).2, fun h => h.elim⟩
      | restore backupId' targetSiteId' =>
          refine ⟨fun h => (lockKey_inj h).1, fun h => ?_⟩
          rw [Request.key, Request.key, show backupId = backupId' from h]

theorem Request.sameLock_refl (request : Request) : request.SameLock request := (key_eq_iff request request).mp rfl

/-! ## What one step does -/

open BackupPc

/-- The kinds of steps, by what they do to the locks and to the jobs that have one. -/
inductive Effect (service : Service) (jobs : List Job) (service' : Service) (jobs' : List Job) : Prop
  | keep (hLocks : service'.locks = service.locks) (hTickets : service'.tickets = service.tickets)
      (hLog : service'.log = service.log) (hJobs : jobs'.Perm jobs)
  | take (job : Job) (hTicket : job.ticket = service.tickets) (hFree : job.key ∉ service.locks)
      (hLocks : service'.locks = job.key :: service.locks) (hTickets : service'.tickets = service.tickets + 1)
      (hLog : service'.log = service.log ++ [.taken job.ticket]) (hJobs : jobs'.Perm (job :: jobs))
  | release (job : Job) (hLocks : service'.locks = service.locks.erase job.key)
      (hTickets : service'.tickets = service.tickets)
      (hLog : service'.log = service.log ++ [.released job.ticket]) (hJobs : jobs.Perm (job :: jobs'))

/-- The jobs that have their locks, where one thread is here and the others have these. -/
def holding (pc : BackupPc) (service : Service) (others : List Job) : List Job := pc.holder.toList ++ (service.queue ++ others)

theorem effect_of_next {pc pc' : BackupPc} {service service' : Service} (others : List Job)
    (h : pc.next service = some (pc', service')) :
    Effect service (holding pc service others) service' (holding pc' service' others) := by
  cases pc with
  | starting =>
      cases h
      exact .keep rfl rfl rfl (List.Perm.refl _)
  | entering request operations =>
      rw [next] at h
      split at h
      · cases h
        exact .keep rfl rfl rfl (List.Perm.refl _)
      · next hFree =>
        cases h
        exact .take ⟨service.tickets, request, operations⟩ rfl hFree rfl rfl rfl (List.Perm.refl _)
  | submitting job =>
      rw [next] at h
      split at h
      · cases h
        exact .keep rfl rfl rfl (List.Perm.refl _)
      · cases h
        refine .keep rfl rfl rfl ?_
        show (service.queue ++ [job] ++ others).Perm (job :: (service.queue ++ others))
        rw [List.append_assoc]
        exact List.perm_middle
  | refused job =>
      cases h
      exact .release job rfl rfl rfl (List.Perm.refl _)
  | returned code => cases h
  | waiting =>
      rw [next] at h
      split at h
      · cases h
      · next job rest hQueue =>
        cases h
        refine .keep rfl rfl rfl ?_
        rw [holding, holding, hQueue]
        exact List.Perm.refl _
  | working job left =>
      cases left <;> cases h <;> exact .keep rfl rfl rfl (List.Perm.refl _)
  | releasing job =>
      cases h
      exact .release job rfl rfl rfl (List.Perm.refl _)

/-! ## The invariant -/

/-- The locks are those of the jobs that have one, each once; and of every ticket the lock
was taken, and is had or was released. -/
structure Consistent (service : Service) (jobs : List Job) : Prop where
  locks : service.locks.Perm (jobs.map Job.key)
  distinct : service.locks.Nodup
  taken : ∀ ticket, service.log.count (.taken ticket) = if ticket < service.tickets then 1 else 0
  released : ∀ ticket, service.log.count (.released ticket) + (jobs.map Job.ticket).count ticket =
    if ticket < service.tickets then 1 else 0

theorem Consistent.perm {service : Service} {jobs jobs' : List Job} (h : Consistent service jobs)
    (hJobs : jobs'.Perm jobs) : Consistent service jobs' := by
  refine ⟨h.locks.trans (hJobs.symm.map _), h.distinct, h.taken, fun ticket => ?_⟩
  rw [(hJobs.map Job.ticket).count_eq]
  exact h.released ticket

theorem Consistent.effect {service service' : Service} {jobs jobs' : List Job} (h : Consistent service jobs)
    (hEffect : Effect service jobs service' jobs') : Consistent service' jobs' := by
  cases hEffect with
  | keep hLocks hTickets hLog hJobs =>
      have hKept : Consistent service' jobs := by
        refine ⟨?_, ?_, ?_, ?_⟩
        · rw [hLocks]
          exact h.locks
        · rw [hLocks]
          exact h.distinct
        · rw [hLog, hTickets]
          exact h.taken
        · rw [hLog, hTickets]
          exact h.released
      exact hKept.perm hJobs
  | take job hTicket hFree hLocks hTickets hLog hJobs =>
      refine Consistent.perm ⟨?_, ?_, fun ticket => ?_, fun ticket => ?_⟩ hJobs
      · rw [hLocks, List.map_cons]
        exact h.locks.cons job.key
      · rw [hLocks]
        exact List.nodup_cons.mpr ⟨hFree, h.distinct⟩
      · have hBefore := h.taken ticket
        rw [hLog, hTickets, List.count_append, List.count_singleton, hBefore, hTicket]
        by_cases hNew : ticket = service.tickets
        · simp [hNew]
        · have hOther : ¬ service.tickets = ticket := fun hEq => hNew hEq.symm
          have hLt : ticket < service.tickets + 1 ↔ ticket < service.tickets := by omega
          simp [hOther, hLt]
      · have hBefore := h.released ticket
        rw [hLog, hTickets, List.count_append, List.map_cons, List.count_cons, hTicket]
        by_cases hNew : ticket = service.tickets
        · subst hNew
          simp only [Nat.lt_irrefl, if_false] at hBefore
          simp
          omega
        · have hOther : ¬ service.tickets = ticket := fun hEq => hNew hEq.symm
          have hLt : ticket < service.tickets + 1 ↔ ticket < service.tickets := by omega
          simpa [hOther, hLt] using hBefore
  | release job hLocks hTickets hLog hJobs =>
      have hAll := h.perm hJobs.symm
      refine ⟨?_, ?_, fun ticket => ?_, fun ticket => ?_⟩
      · have hErased := hAll.locks.erase job.key
        rw [List.map_cons, List.erase_cons_head] at hErased
        rw [hLocks]
        exact hErased
      · rw [hLocks]
        exact h.distinct.erase _
      · rw [hLog, hTickets, List.count_append, h.taken ticket]
        simp
      · have hBefore := hAll.released ticket
        rw [List.map_cons, List.count_cons] at hBefore
        rw [hLog, hTickets, ← hBefore, List.count_append, List.count_singleton]
        by_cases hEq : job.ticket = ticket
        · simp [hEq]
          omega
        · simp [hEq]

/-- The jobs that have their locks, with one thread taken out. -/
theorem held_perm (service : Service) (before : List BackupPc) (pc : BackupPc) (after : List BackupPc) :
    (held ⟨service, before ++ pc :: after⟩).Perm (holding pc service ((before ++ after).filterMap holder)) := by
  have hThreads : ((before ++ pc :: after).filterMap holder).Perm (pc.holder.toList ++ (before ++ after).filterMap holder) := by
    refine (List.perm_middle.filterMap holder).trans ?_
    rw [List.filterMap_cons]
    cases pc.holder <;> exact List.Perm.refl _
  refine (hThreads.append_left service.queue).trans ?_
  rw [holding, ← List.append_assoc, ← List.append_assoc]
  exact List.perm_append_comm.append_right _

section Runs

variable {allowed : Request → Bool}

theorem holder_of_isEntry {pc : BackupPc} (h : isEntry allowed pc = true) : pc.holder = none := by
  cases pc with
  | starting => rfl
  | entering request operations => rfl
  | _ => cases h

/-- The invariant holds under every schedule. -/
theorem consistent_run (maxQueue : Nat) (schedule : List (Choice BackupPc)) :
    Consistent ((backupJobs allowed).run (idle maxQueue) schedule).shared (held ((backupJobs allowed).run (idle maxQueue) schedule)) := by
  have hPreserves : (backupJobs allowed).Preserves fun system => Consistent system.shared (held system) := by
    refine ⟨fun service threads entry hEntry h => ?_, fun service before pc after pc' service' hNext h => ?_⟩
    · have hNone : held ⟨service, threads ++ [entry]⟩ = held ⟨service, threads⟩ := by
        rw [held, held, List.filterMap_append, List.filterMap_cons_none (holder_of_isEntry hEntry), List.filterMap_nil, List.append_nil]
      rw [hNone]
      exact h
    · have hStep := (h.perm (held_perm service before pc after).symm).effect (effect_of_next _ hNext)
      exact hStep.perm (held_perm service' before pc' after)
  exact hPreserves.run ⟨List.Perm.refl _, List.nodup_nil, fun _ => rfl, fun _ => rfl⟩ schedule

/-- The request that a thread works on, also before its lock. -/
def BackupPc.request : BackupPc → Option Request
  | entering request _ => some request
  | pc => pc.holder.map Job.request

/-- All that is worked on, or is to be, was allowed. -/
structure Admitted (allowed : Request → Bool) (system : System Service BackupPc) : Prop where
  threads : ∀ pc ∈ system.threads, ∀ request ∈ pc.request, allowed request = true
  queue : ∀ job ∈ system.shared.queue, allowed job.request = true

/-- A thread goes on with its request, or takes that of the queue; and it puts only its own
there. -/
theorem request_of_next {pc pc' : BackupPc} {service service' : Service} (h : pc.next service = some (pc', service')) :
    (∀ request ∈ pc'.request, request ∈ pc.request ∨ ∃ job ∈ service.queue, request = job.request) ∧
      ∀ job ∈ service'.queue, job ∈ service.queue ∨ job.request ∈ pc.request := by
  cases pc with
  | starting =>
      cases h
      exact ⟨fun request hMem => (Option.not_mem_none _ hMem).elim, fun job hMem => Or.inl hMem⟩
  | entering request operations =>
      rw [next] at h
      split at h
      · cases h
        exact ⟨fun request hMem => (Option.not_mem_none _ hMem).elim, fun job hMem => Or.inl hMem⟩
      · cases h
        exact ⟨fun request hMem => Or.inl hMem, fun job hMem => Or.inl hMem⟩
  | submitting job =>
      rw [next] at h
      split at h
      · cases h
        exact ⟨fun request hMem => Or.inl hMem, fun job hMem => Or.inl hMem⟩
      · cases h
        refine ⟨fun request hMem => (Option.not_mem_none _ hMem).elim, fun other hMem => ?_⟩
        rcases List.mem_append.mp hMem with hOld | hNew
        · exact Or.inl hOld
        · obtain rfl := List.mem_singleton.mp hNew
          exact Or.inr rfl
  | refused job =>
      cases h
      exact ⟨fun request hMem => (Option.not_mem_none _ hMem).elim, fun job hMem => Or.inl hMem⟩
  | returned code => cases h
  | waiting =>
      rw [next] at h
      split at h
      · cases h
      · next job rest hQueue =>
        cases h
        rw [hQueue]
        refine ⟨fun request hMem => Or.inr ⟨job, List.mem_cons_self, ?_⟩, fun other hMem => Or.inl (List.mem_cons_of_mem job hMem)⟩
        exact (Option.some.inj hMem).symm
  | working job left =>
      cases left <;> cases h <;> exact ⟨fun request hMem => Or.inl hMem, fun job hMem => Or.inl hMem⟩
  | releasing job =>
      cases h
      exact ⟨fun request hMem => (Option.not_mem_none _ hMem).elim, fun job hMem => Or.inl hMem⟩

theorem admitted_run (maxQueue : Nat) (schedule : List (Choice BackupPc)) :
    Admitted allowed ((backupJobs allowed).run (idle maxQueue) schedule) := by
  have hPreserves : (backupJobs allowed).Preserves (Admitted allowed) := by
    refine ⟨fun service threads entry hEntry h => ⟨fun pc hMem request hRequest => ?_, h.queue⟩,
      fun service before pc after pc' service' hNext h => ⟨fun other hMem request hRequest => ?_, fun job hMem => ?_⟩⟩
    · rcases List.mem_append.mp hMem with hOld | hNew
      · exact h.threads pc hOld request hRequest
      · obtain rfl := List.mem_singleton.mp hNew
        cases pc with
        | entering other operations =>
            obtain rfl := Option.some.inj hRequest
            exact hEntry
        | starting => cases hRequest
        | _ => cases hEntry
    · have hMoved := (request_of_next hNext).1
      by_cases hOther : other ∈ before ++ pc :: after
      · exact h.threads other hOther request hRequest
      · have hSelf : other = pc' := by
          simp only [List.mem_append, List.mem_cons] at hMem hOther
          tauto
        subst hSelf
        rcases hMoved request hRequest with hOwn | ⟨job, hQueue, rfl⟩
        · exact h.threads pc (by simp) request hOwn
        · exact h.queue job hQueue
    · rcases (request_of_next hNext).2 job hMem with hOld | hOwn
      · exact h.queue job hOld
      · exact h.threads pc (by simp) job.request hOwn
  exact hPreserves.run ⟨fun pc hMem => (List.not_mem_nil hMem).elim, fun job hMem => (List.not_mem_nil hMem).elim⟩ schedule

/-! ## What callers can rely on -/

/-- Two workers are never at jobs with the same lock. -/
theorem Consistent.key_ne {system : System Service BackupPc} (h : Consistent system.shared (held system)) {first second : Nat}
    {job job' : Job} {left left' : Nat} (hNe : first ≠ second) (hFirst : system.threads[first]? = some (.working job left))
    (hSecond : system.threads[second]? = some (.working job' left')) : job.key ≠ job'.key := by
  intro hKey
  have hNodup : ((held system).map Job.key).Nodup := h.locks.nodup_iff.mp h.distinct
  rw [held, List.map_append] at hNodup
  have hThreads := (List.nodup_append.mp hNodup).2.1
  rw [List.map_filterMap] at hThreads
  refine hNe (index_eq_of_nodup_filterMap hThreads hFirst hSecond rfl ?_)
  rw [hKey]
  rfl

/-- Two workers at two requests for one site, behind a schedule that both callers and both
workers go through. -/
theorem run_overlap {maxQueue : Nat} (hQueue : 0 < maxQueue) {first second : Request} (hFirst : allowed first = true)
    (hSecond : allowed second = true) (hKeys : first.key ≠ second.key) :
    ∃ schedule, ((backupJobs allowed).run (idle maxQueue) schedule).threads[0]? = some (.working ⟨0, first, 0⟩ 0) ∧
      ((backupJobs allowed).run (idle maxQueue) schedule).threads[1]? = some (.working ⟨1, second, 0⟩ 0) := by
  have hFree : second.key ∉ [first.key] := by
    rw [List.mem_singleton]
    exact hKeys.symm
  have hRoom : ¬ maxQueue ≤ 0 := by omega
  refine ⟨[.start .starting, .start .starting, .start (.entering first 0), .start (.entering second 0), .resume 0, .resume 1,
    .resume 2, .resume 3, .resume 2, .resume 0, .resume 3, .resume 1], ?_⟩
  simp [Program.run, Program.turn, backupJobs, idle, isEntry, next, hFirst, hSecond, hFree, hRoom]

/-- The jobs of one service exclude each other on their sites exactly when all requests for
one site have the same lock: they all make a backup of it, or all restore one backup. Its
locks are taken and released once in any case. -/
theorem run_sound_iff (backupSite : Nat → Option Nat) (allowed : Request → Bool) (maxQueue : Nat) (hQueue : 0 < maxQueue) :
    (∀ schedule, Sound backupSite ((backupJobs allowed).run (idle maxQueue) schedule)) ↔
      ∀ first second, allowed first = true → allowed second = true → ∀ site, first.site backupSite = some site →
        second.site backupSite = some site → first.SameLock second := by
  constructor
  · intro hSound first second hFirst hSecond site hSite hSite'
    rw [← key_eq_iff]
    by_contra hKeys
    obtain ⟨schedule, hWorking, hWorking'⟩ := run_overlap hQueue hFirst hSecond hKeys
    exact (hSound schedule).exclusive 0 1 _ _ 0 0 (by decide) hWorking hWorking' site hSite hSite'
  · intro hSame schedule
    have hConsistent : Consistent ((backupJobs allowed).run (idle maxQueue) schedule).shared _ := consistent_run maxQueue schedule
    have hAdmitted : Admitted allowed ((backupJobs allowed).run (idle maxQueue) schedule) := admitted_run maxQueue schedule
    refine ⟨?_, fun ticket hTicket => ?_, fun ticket hTicket => ?_, hConsistent.locks⟩
    · intro first second job job' left left' hNe hFirst hSecond site hSite hSite'
      refine hConsistent.key_ne hNe hFirst hSecond ((key_eq_iff _ _).mpr ?_)
      exact hSame job.request job'.request (hAdmitted.threads _ (List.mem_of_getElem? hFirst) _ rfl)
        (hAdmitted.threads _ (List.mem_of_getElem? hSecond) _ rfl) site hSite hSite'
    · rw [hConsistent.taken ticket, if_pos hTicket]
    · rw [hConsistent.released ticket, if_pos hTicket]

/-- One site is only backed up, and another only restored from its one backup: both jobs
wait in the queue and the first starts. -/
theorem run_sound_iff_sample : Sound (fun id => if id = 7 then some 2 else none)
    ((backupJobs fun request => request = .create 1 || request = .restore 7 0).run (idle 64)
      [.start .starting, .start (.entering (.create 1) 0), .start (.entering (.restore 7 0) 0),
        .resume 0, .resume 1, .resume 2]) := by
  refine (run_sound_iff _ _ 64 (by decide)).mpr (fun first second hFirst hSecond site hSite hSite' => ?_) _
  rcases (by simpa using hFirst : first = .create 1 ∨ first = .restore 7 0) with rfl | rfl
  · obtain rfl | rfl := (by simpa using hSecond : second = .create 1 ∨ second = .restore 7 0)
    · exact Request.sameLock_refl _
    · rw [← hSite] at hSite'
      exact absurd hSite' (by decide)
  · obtain rfl | rfl := (by simpa using hSecond : second = .create 1 ∨ second = .restore 7 0)
    · rw [← hSite] at hSite'
      exact absurd hSite' (by decide)
    · exact Request.sameLock_refl _

/-- A site is backed up and restored at the same time. -/
theorem run_not_sound : ¬ Sound (fun _ => some 1) ((backupJobs fun _ => true).run (idle 64)
    [.start .starting, .start .starting, .start (.entering (.create 1) 0), .start (.entering (.restore 1 0) 0),
      .resume 0, .resume 1, .resume 2, .resume 3, .resume 2, .resume 0, .resume 3, .resume 1]) := by
  intro hSound
  exact hSound.exclusive 0 1 ⟨0, .create 1, 0⟩ ⟨1, .restore 1 0, 0⟩ 0 0 (by decide) (by decide) (by decide) 1 rfl rfl

end Runs

end ContainerCP.BackupJobs
