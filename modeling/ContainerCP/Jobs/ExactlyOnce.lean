import ContainerCP.Jobs.JobExecutor
import Mathlib.Data.List.Count
import Mathlib.Data.List.Nodup

/-! Every accepted job is executed or cancelled, once, by the time `shutdown`
returns. -/
namespace ContainerCP.Jobs

/-- Each accepted job of a log has been executed once or cancelled once, not both. -/
def Settled (log : List JobEvent) : Prop :=
  ∀ job ∈ acceptedIn log,
    (log.count (.executed job) = 1 ∧ log.count (.cancelled job) = 0) ∨
      (log.count (.executed job) = 0 ∧ log.count (.cancelled job) = 1)

/-- No job starts behind the return of `shutdown`, where the call found what `p`
says. -/
def QuietAfterReturn (p : Bool → Prop) (log : List JobEvent) : Prop :=
  ∀ before found after, log = before ++ .shutdownReturned found :: after → p found → ∀ job, .started job ∉ after

/-- What the executor promises of a run, with a condition on the call of `shutdown`
under which it is the end of all work. -/
structure ExactlyOnce (maxQueue : Nat) (p : Bool → Prop) (executor : JobExecutor) : Prop where
  ordered : leftIn executor.log <+: acceptedIn executor.log
  bounded : executor.queue.length ≤ maxQueue
  settled : ∀ before found after, executor.log = before ++ .shutdownReturned found :: after → Settled before
  quiet : QuietAfterReturn p executor.log

/-- The bookkeeping of a log against the queue and the workers. -/
structure Consistent (executor : JobExecutor) : Prop where
  ordered : leftIn executor.log ++ executor.queue = acceptedIn executor.log
  numbered : (acceptedIn executor.log).map Job.ticket = List.range (acceptedIn executor.log).length
  bounded : executor.queue.length ≤ executor.maxQueue
  executing : ∀ job, executor.log.count (.started job) =
    executor.log.count (.executed job) + executor.workers.count (.busy job)

/-- Before the first start. -/
def Fresh (executor : JobExecutor) : Prop :=
  executor.running = false ∧ executor.workers = [] ∧ acceptedIn executor.log = []

/-- What the state says about the calls of `start` so far, at each point of the
call of `shutdown`. -/
def Staged (starts : Nat) (executor : JobExecutor) : Prop :=
  match executor.stopper with
  | .idle => if executor.running then starts = 1 else starts = 0 ∧ Fresh executor
  | .joining next => starts = 1 ∧ executor.running = false ∧ ∀ worker ∈ executor.workers.take next, worker = .done
  | .draining => starts = 1 ∧ executor.running = false ∧ executor.workers = []
  | .returned => .shutdownReturned true ∈ executor.log → starts = 1 ∧ executor.running = false ∧ executor.workers = []

structure Invariant (starts : Nat) (executor : JobExecutor) : Prop where
  consistent : Consistent executor
  staged : Staged starts executor
  silent : executor.stopper ≠ .returned → ∀ found, .shutdownReturned found ∉ executor.log
  settled : ∀ before found after, executor.log = before ++ .shutdownReturned found :: after → Settled before
  quiet : QuietAfterReturn (· = true) executor.log

@[simp] theorem acceptedIn_append (first second : List JobEvent) :
    acceptedIn (first ++ second) = acceptedIn first ++ acceptedIn second := List.filterMap_append

@[simp] theorem leftIn_append (first second : List JobEvent) : leftIn (first ++ second) = leftIn first ++ leftIn second :=
  List.filterMap_append

/-- A job leaves the queue by its start or by its cancellation. -/
theorem count_leftIn (log : List JobEvent) (job : Job) :
    (leftIn log).count job = log.count (.started job) + log.count (.cancelled job) := by
  induction log with
  | nil => rfl
  | cons event rest ih =>
      cases event <;> simp_all [leftIn, List.count_cons] <;> omega

/-- A worker that moves is counted in its new place instead of its old one. -/
theorem count_set_of_getElem? {workers : List Worker} {worker : Nat} {before : Worker}
    (h : workers[worker]? = some before) (after other : Worker) :
    (workers.set worker after).count other + (if before = other then 1 else 0) =
      workers.count other + if after = other then 1 else 0 := by
  obtain ⟨hLt, hBefore⟩ := List.getElem?_eq_some_iff.mp h
  rw [List.count_set hLt, hBefore]
  by_cases hEq : before = other
  · have hPos : 0 < workers.count other := List.count_pos_iff.mpr (hEq ▸ hBefore ▸ List.getElem_mem hLt)
    simp only [beq_iff_eq, hEq, if_true]
    omega
  · simp [hEq]

/-- A return of `shutdown` stands where it stood when the log has grown by other
events. -/
theorem split_of_append {log events before after : List JobEvent} {found : Bool}
    (hEvents : ∀ found, .shutdownReturned found ∉ events)
    (h : log ++ events = before ++ .shutdownReturned found :: after) :
    ∃ rest, log = before ++ .shutdownReturned found :: rest ∧ after = rest ++ events := by
  obtain ⟨rest, hLog, hRest⟩ | ⟨rest, hBefore, hEnd⟩ := List.append_eq_append_iff.mp h
  · exact absurd (hRest ▸ List.mem_append_right rest List.mem_cons_self) (hEvents found)
  · cases rest with
    | nil =>
        rw [List.nil_append] at hEnd
        exact absurd (hEnd ▸ List.mem_cons_self) (hEvents found)
    | cons event rest =>
        obtain ⟨rfl, rfl⟩ := List.cons.inj hEnd
        exact ⟨rest, hBefore, rfl⟩

/-- Neither a refusal nor the end of a task changes what the state says about the
calls of `start`. -/
theorem Staged.append {starts : Nat} {executor : JobExecutor} (h : Staged starts executor) {events : List JobEvent}
    (hAccepted : acceptedIn events = []) (hEvents : ∀ found, .shutdownReturned found ∉ events) :
    Staged starts { executor with log := executor.log ++ events } := by
  cases hStopper : executor.stopper with
  | idle => simpa [Staged, Fresh, hStopper, hAccepted] using h
  | joining next => simpa [Staged, hStopper] using h
  | draining => simpa [Staged, hStopper] using h
  | returned => simpa [Staged, hStopper, hEvents] using h

/-- A worker that moves has not been joined, and it is there only as long as
`shutdown` has not joined all of them. -/
theorem Staged.setWorker {starts : Nat} {executor : JobExecutor} (h : Staged starts executor) {worker : Nat}
    {before : Worker} (hWorker : executor.workers[worker]? = some before) (hBefore : before ≠ .done) (queue : List Job)
    (after : Worker) :
    Staged starts { executor with queue := queue, workers := executor.workers.set worker after } := by
  have hNe : executor.workers ≠ [] := by
    intro hNil
    rw [hNil] at hWorker
    cases hWorker
  cases hStopper : executor.stopper with
  | idle =>
      cases hRunning : executor.running with
      | true => simpa [Staged, hStopper, hRunning] using h
      | false => exact absurd (by simpa [Staged, Fresh, hStopper, hRunning] using h : _ ∧ _ ∧ _).2.1 hNe
  | joining next =>
      obtain ⟨hStarts, hRunning, hDone⟩ : starts = 1 ∧ executor.running = false ∧
          ∀ worker ∈ executor.workers.take next, worker = .done := by simpa [Staged, hStopper] using h
      have hLe : next ≤ worker := by
        by_contra hLt
        apply hBefore (hDone before _)
        apply List.mem_of_getElem? (i := worker)
        rw [List.getElem?_take_of_lt (Nat.lt_of_not_le hLt), hWorker]
      simpa [Staged, hStopper, List.take_set_of_le hLe] using And.intro hStarts ⟨hRunning, hDone⟩
  | draining => exact absurd (by simpa [Staged, hStopper] using h : _ ∧ _ ∧ _).2.2 hNe
  | returned =>
      have hReturned : .shutdownReturned true ∉ executor.log := by
        intro hMem
        exact absurd (by simpa [Staged, hStopper, hMem] using h : _ ∧ _ ∧ _).2.2 hNe
      simp [Staged, hReturned]

namespace Invariant

variable {starts starts' : Nat} {executor executor' : JobExecutor}

/-- A step that logs no return of `shutdown`, and no start of a job behind one that
found the executor running. -/
theorem extend (h : Invariant starts executor) (events : List JobEvent) (hLog : executor'.log = executor.log ++ events)
    (hEvents : ∀ found, .shutdownReturned found ∉ events)
    (hQuiet : .shutdownReturned true ∈ executor.log → ∀ job, .started job ∉ events)
    (hStopper : executor'.stopper ≠ .returned → executor.stopper ≠ .returned)
    (hConsistent : Consistent executor') (hStaged : Staged starts' executor') : Invariant starts' executor' := by
  refine ⟨hConsistent, hStaged, ?_, ?_, ?_⟩
  · intro hOpen found hMem
    rw [hLog] at hMem
    rcases List.mem_append.mp hMem with hMem | hMem
    · exact h.silent (hStopper hOpen) found hMem
    · exact hEvents found hMem
  · intro before found after hSplit
    rw [hLog] at hSplit
    obtain ⟨rest, hBefore, -⟩ := split_of_append hEvents hSplit
    exact h.settled before found rest hBefore
  · intro before found after hSplit hFound job hMem
    rw [hLog] at hSplit
    obtain ⟨rest, hBefore, rfl⟩ := split_of_append hEvents hSplit
    rcases List.mem_append.mp hMem with hMem | hMem
    · exact h.quiet before found rest hBefore hFound job hMem
    · apply hQuiet _ job hMem
      rw [hBefore, ← hFound]
      exact List.mem_append_right _ List.mem_cons_self

theorem start (h : Invariant 0 executor) : Invariant 1 executor.start := by
  have hStaged := h.staged
  have hBusy : ∀ job, (executor.workers ++ List.replicate executor.workerCount Worker.waiting).count (.busy job) =
      executor.workers.count (.busy job) := by
    intro job
    rw [List.count_append, List.count_replicate]
    simp
  rw [JobExecutor.start]
  split
  · refine h.extend [] (List.append_nil _).symm (by simp) (by simp) id h.consistent ?_
    cases hStopper : executor.stopper <;> simp_all [Staged]
  · refine h.extend [] (List.append_nil _).symm (by simp) (by simp) id ?_ ?_
    · exact ⟨h.consistent.ordered, h.consistent.numbered, h.consistent.bounded,
        fun job => (hBusy job).symm ▸ h.consistent.executing job⟩
    · cases hStopper : executor.stopper <;> simp_all [Staged]

/-- A submission that is refused. -/
theorem reject (h : Invariant starts executor) (events : List JobEvent) (hAccepted : acceptedIn events = [])
    (hLeft : leftIn events = []) (hCount : ∀ job, events.count (.started job) = 0 ∧ events.count (.executed job) = 0)
    (hEvents : ∀ found, .shutdownReturned found ∉ events) :
    Invariant starts { executor with log := executor.log ++ events } := by
  obtain ⟨hOrdered, hNumbered, hBounded, hExecuting⟩ := h.consistent
  refine h.extend events rfl hEvents ?_ id ?_ (h.staged.append hAccepted hEvents)
  · intro _ job hMem
    exact absurd (hCount job).1 (Nat.ne_of_gt (List.count_pos_iff.mpr hMem))
  · refine ⟨?_, ?_, hBounded, ?_⟩
    · simpa [hAccepted, hLeft] using hOrdered
    · simpa [hAccepted] using hNumbered
    · intro job
      simpa [List.count_append, hCount job] using hExecuting job

/-- A submission is accepted only by a running executor, so never behind the end of
`shutdown`. -/
theorem submit (h : Invariant starts executor) (jobId : UInt64) : Invariant starts (executor.submit jobId) := by
  rw [JobExecutor.submit]
  split
  · exact h.reject [.rejected jobId] rfl rfl (by simp) (by simp)
  · split
    · exact h.reject [.updated jobId "failed" "Task queue full", .rejected jobId] rfl rfl (by simp) (by simp)
    · rename_i hRunning hRoom
      have hStaged := h.staged
      obtain ⟨hOrdered, hNumbered, hBounded, hExecuting⟩ := h.consistent
      let job : Job := ⟨(acceptedIn executor.log).length, jobId⟩
      have hAccepted : acceptedIn (executor.log ++ [.accepted job]) = acceptedIn executor.log ++ [job] :=
        acceptedIn_append _ _
      refine h.extend [.accepted job] rfl (by simp) (by simp) id ?_ ?_
      · refine ⟨?_, ?_, ?_, ?_⟩
        · have hLeft : leftIn [.accepted job] = [] := rfl
          rw [leftIn_append, hLeft, List.append_nil, ← List.append_assoc, hOrdered, hAccepted]
        · rw [hAccepted, List.map_append, List.length_append, hNumbered]
          exact List.range_succ.symm
        · show (executor.queue ++ [job]).length ≤ _
          rw [List.length_append]
          exact Nat.lt_of_not_le hRoom
        · simpa [List.count_append] using hExecuting
      · cases hStopper : executor.stopper <;> simp_all [Staged]

/-- A worker ends its task. -/
theorem finishTask (h : Invariant starts executor) {worker : Nat} {job : Job}
    (hWorker : executor.workers[worker]? = some (.busy job)) (result : TaskResult) :
    Invariant starts
      { executor with
        workers := executor.workers.set worker .waiting
        log := executor.log ++ (result.updates job.jobId ++ [.executed job]) } := by
  obtain ⟨hOrdered, hNumbered, hBounded, hExecuting⟩ := h.consistent
  have hAccepted : acceptedIn (result.updates job.jobId ++ [.executed job]) = [] := by cases result <;> rfl
  have hLeft : leftIn (result.updates job.jobId ++ [.executed job]) = [] := by cases result <;> rfl
  have hReturned : ∀ found, .shutdownReturned found ∉ result.updates job.jobId ++ [.executed job] := by
    cases result <;> simp [TaskResult.updates]
  have hStarted : ∀ other, .started other ∉ result.updates job.jobId ++ [.executed job] := by
    cases result <;> simp [TaskResult.updates]
  have hUpdates : ∀ other, .executed other ∉ result.updates job.jobId := by
    cases result <;> simp [TaskResult.updates]
  refine h.extend _ rfl hReturned (fun _ => hStarted) id ⟨?_, ?_, hBounded, ?_⟩ ?_
  · simpa [hLeft, hAccepted] using hOrdered
  · simpa [hAccepted] using hNumbered
  · intro other
    have hBusy := count_set_of_getElem? hWorker .waiting (.busy other)
    have hLog := hExecuting other
    simp only [reduceCtorEq, if_false, Worker.busy.injEq] at hBusy
    rw [List.count_append, List.count_eq_zero.mpr (hStarted other), List.count_append, List.count_append,
      List.count_eq_zero.mpr (hUpdates other), List.count_singleton]
    simp only [beq_iff_eq, JobEvent.executed.injEq]
    omega
  · exact (h.staged.setWorker hWorker (by simp) executor.queue .waiting).append hAccepted hReturned

/-- A worker takes the next job from the queue. -/
theorem takeJob (h : Invariant starts executor) {worker : Nat} (hWorker : executor.workers[worker]? = some .waiting)
    {job : Job} {rest : List Job} (hQueue : executor.queue = job :: rest) :
    Invariant starts
      { executor with
        queue := rest
        workers := executor.workers.set worker (.busy job)
        log := executor.log ++ [.started job] } := by
  obtain ⟨hOrdered, hNumbered, hBounded, hExecuting⟩ := h.consistent
  have hStaged := h.staged.setWorker hWorker (by simp) rest (.busy job)
  refine h.extend [.started job] rfl (by simp) ?_ id ⟨?_, ?_, ?_, ?_⟩ (hStaged.append rfl (by simp))
  · intro hReturned
    have hWorkers : executor.workers = [] := by
      have hStaged := h.staged
      cases hStopper : executor.stopper with
      | returned => exact (by simpa [Staged, hStopper, hReturned] using hStaged : _ ∧ _ ∧ _).2.2
      | _ => exact absurd hReturned (h.silent (by simp [hStopper]) true)
    rw [hWorkers] at hWorker
    cases hWorker
  · have hLeft : leftIn [.started job] = [job] := rfl
    have hAccepted : acceptedIn [.started job] = [] := rfl
    rw [leftIn_append, acceptedIn_append, hLeft, hAccepted, List.append_nil, ← hOrdered, hQueue, List.append_assoc]
    rfl
  · have hAccepted : acceptedIn [.started job] = [] := rfl
    rw [acceptedIn_append, hAccepted, List.append_nil]
    exact hNumbered
  · rw [hQueue] at hBounded
    exact Nat.le_of_succ_le hBounded
  · intro other
    have hBusy := count_set_of_getElem? hWorker (.busy job) (.busy other)
    have hLog := hExecuting other
    simp only [reduceCtorEq, if_false, Worker.busy.injEq] at hBusy
    rw [List.count_append, List.count_append, List.count_singleton, List.count_singleton]
    simp only [beq_iff_eq, JobEvent.started.injEq, reduceCtorEq, if_false]
    omega

/-- A worker takes the next job from the queue, ends its task, or leaves. -/
theorem work (h : Invariant starts executor) (worker : Nat) (result : TaskResult) :
    Invariant starts (executor.work worker result) := by
  rw [JobExecutor.work]
  split
  · exact h
  · exact h
  · rename_i job hWorker
    exact h.finishTask hWorker result
  · rename_i hWorker
    split
    · split
      · exact h
      · obtain ⟨hOrdered, hNumbered, hBounded, hExecuting⟩ := h.consistent
        refine h.extend [] (List.append_nil _).symm (by simp) (by simp) id ⟨hOrdered, hNumbered, hBounded, ?_⟩ ?_
        · intro other
          have hBusy := count_set_of_getElem? hWorker .done (.busy other)
          have hLog := hExecuting other
          simp only [reduceCtorEq, if_false] at hBusy
          dsimp only
          omega
        · exact h.staged.setWorker hWorker (by simp) executor.queue .done
    · rename_i job rest hQueue
      exact h.takeJob hWorker hQueue

/-- `shutdown` cancels the job at the front of the queue. -/
theorem cancelJob (h : Invariant starts executor) {job : Job} {rest : List Job} (hQueue : executor.queue = job :: rest) :
    Invariant starts
      { executor with
        queue := rest
        log := executor.log ++ [.updated job.jobId "cancelled" "Daemon shutting down", .cancelled job] } := by
  obtain ⟨hOrdered, hNumbered, hBounded, hExecuting⟩ := h.consistent
  let events : List JobEvent := [.updated job.jobId "cancelled" "Daemon shutting down", .cancelled job]
  have hLeft : leftIn events = [job] := rfl
  have hAccepted : acceptedIn events = [] := rfl
  refine h.extend events rfl (by simp [events]) (by simp [events]) id ⟨?_, ?_, ?_, ?_⟩ (h.staged.append rfl (by simp))
  · rw [leftIn_append, acceptedIn_append, hLeft, hAccepted, List.append_nil, ← hOrdered, hQueue, List.append_assoc]
    rfl
  · rw [acceptedIn_append, hAccepted, List.append_nil]
    exact hNumbered
  · rw [hQueue] at hBounded
    exact Nat.le_of_succ_le hBounded
  · intro other
    have hLog := hExecuting other
    simp only [List.count_append, List.count_cons, List.count_nil, beq_iff_eq, reduceCtorEq, if_false]
    exact hLog

/-- With an empty queue and no worker in a task every accepted job has been executed
or cancelled. -/
theorem settles (h : Invariant starts executor) (hQueue : executor.queue = [])
    (hIdle : ∀ job, executor.workers.count (.busy job) = 0) : Settled executor.log := by
  intro job hJob
  obtain ⟨hOrdered, hNumbered, -, hExecuting⟩ := h.consistent
  have hNodup : (acceptedIn executor.log).Nodup := by
    apply List.Nodup.of_map Job.ticket
    rw [hNumbered]
    exact List.nodup_range
  have hOnce := List.count_eq_one_of_mem hNodup hJob
  rw [hQueue, List.append_nil] at hOrdered
  rw [← hOrdered, count_leftIn, hExecuting, hIdle] at hOnce
  omega

/-- `shutdown` returns. -/
theorem returnCall (h : Invariant starts executor) (hOpen : executor.stopper ≠ .returned) (found : Bool)
    (hSettled : Settled executor.log)
    (hFound : found = true → starts = 1 ∧ executor.running = false ∧ executor.workers = []) :
    Invariant starts
      { executor with
        stopper := .returned
        log := executor.log ++ [.shutdownReturned found] } := by
  obtain ⟨hOrdered, hNumbered, hBounded, hExecuting⟩ := h.consistent
  have hLeft : leftIn [.shutdownReturned found] = [] := rfl
  have hAccepted : acceptedIn [.shutdownReturned found] = [] := rfl
  have hSplit : ∀ before other after, executor.log ++ [.shutdownReturned found] =
      before ++ .shutdownReturned other :: after → before = executor.log ∧ after = [] := by
    intro before other after hEq
    rcases List.eq_nil_or_concat after with rfl | ⟨rest, last, rfl⟩
    · exact ⟨(List.append_inj_left' hEq rfl).symm, rfl⟩
    · rw [List.concat_eq_append, ← List.cons_append, ← List.append_assoc] at hEq
      have hLog := List.append_inj_left' hEq rfl
      exact absurd (hLog ▸ List.mem_append_right before List.mem_cons_self) (h.silent hOpen other)
  refine ⟨⟨?_, ?_, hBounded, ?_⟩, ?_, ?_, ?_, ?_⟩
  · simpa [hLeft, hAccepted] using hOrdered
  · simpa [hAccepted] using hNumbered
  · simpa [List.count_append] using hExecuting
  · intro hMem
    apply hFound
    rcases List.mem_append.mp hMem with hMem | hMem
    · exact absurd hMem (h.silent hOpen true)
    · simpa [eq_comm] using hMem
  · exact fun hNe => absurd rfl hNe
  · intro before other after hEq
    obtain ⟨rfl, -⟩ := hSplit before other after hEq
    exact hSettled
  · intro before other after hEq _ job
    obtain ⟨-, rfl⟩ := hSplit before other after hEq
    exact List.not_mem_nil

/-- One turn of the call of `shutdown`. -/
theorem shutdown (h : Invariant starts executor) : Invariant starts executor.shutdown := by
  have hStaged := h.staged
  rw [JobExecutor.shutdown]
  split
  · rename_i hStopper
    have hOpen : executor.stopper ≠ .returned := by simp [hStopper]
    simp only [Staged, hStopper] at hStaged
    split
    · rename_i hRunning
      rw [if_neg (by simpa using hRunning)] at hStaged
      apply h.returnCall hOpen false _ (by simp)
      intro job hJob
      rw [hStaged.2.2.2] at hJob
      cases hJob
    · rename_i hRunning
      rw [if_pos (by simpa using hRunning)] at hStaged
      obtain ⟨hOrdered, hNumbered, hBounded, hExecuting⟩ := h.consistent
      refine h.extend [] (List.append_nil _).symm (by simp) (by simp) (fun _ => hOpen)
        ⟨hOrdered, hNumbered, hBounded, hExecuting⟩ ?_
      exact ⟨hStaged, rfl, by simp⟩
  · rename_i next hStopper
    have hOpen : executor.stopper ≠ .returned := by simp [hStopper]
    simp only [Staged, hStopper] at hStaged
    obtain ⟨hStarts, hRunning, hDone⟩ := hStaged
    obtain ⟨hOrdered, hNumbered, hBounded, hExecuting⟩ := h.consistent
    split
    · rename_i worker hWorker
      split
      · rename_i hJoined
        refine h.extend [] (List.append_nil _).symm (by simp) (by simp) (fun _ => hOpen)
          ⟨hOrdered, hNumbered, hBounded, hExecuting⟩ ⟨hStarts, hRunning, ?_⟩
        intro other hMem
        rw [List.take_add_one, hWorker] at hMem
        rcases List.mem_append.mp hMem with hMem | hMem
        · exact hDone other hMem
        · rw [List.mem_singleton.mp hMem, hJoined]
      · exact h
    · rename_i hLast
      have hAll : executor.workers.take next = executor.workers :=
        List.take_of_length_le (List.getElem?_eq_none_iff.mp hLast)
      rw [hAll] at hDone
      refine h.extend [] (List.append_nil _).symm (by simp) (by simp) (fun _ => hOpen)
        ⟨hOrdered, hNumbered, hBounded, ?_⟩ ⟨hStarts, hRunning, rfl⟩
      intro job
      have hNone : executor.workers.count (.busy job) = 0 := by
        apply List.count_eq_zero.mpr
        intro hMem
        cases hDone _ hMem
      rw [hExecuting job, hNone]
      rfl
  · rename_i hStopper
    have hOpen : executor.stopper ≠ .returned := by simp [hStopper]
    simp only [Staged, hStopper] at hStaged
    split
    · rename_i hQueue
      apply h.returnCall hOpen true _ (fun _ => hStaged)
      apply h.settles hQueue
      intro job
      rw [hStaged.2.2]
      rfl
    · rename_i job rest hQueue
      exact h.cancelJob hQueue
  · exact h

theorem step (h : Invariant starts executor) (choice : Choice) (hStart : choice = .start → starts = 0) :
    Invariant (starts + if choice = .start then 1 else 0) (executor.step choice) := by
  cases choice with
  | start =>
      obtain rfl := hStart rfl
      exact h.start
  | submit jobId => exact h.submit jobId
  | work worker result => exact h.work worker result
  | shutdown => exact h.shutdown

theorem new (workerCount maxQueue : Nat) : Invariant 0 (JobExecutor.new workerCount maxQueue) := by
  refine ⟨⟨rfl, rfl, Nat.zero_le _, fun _ => rfl⟩, ⟨rfl, rfl, rfl, rfl⟩, ?_, ?_, ?_⟩
  · exact fun _ _ => List.not_mem_nil
  · intro before found after hSplit
    exact absurd hSplit.symm (by simp [JobExecutor.new])
  · intro before found after hSplit
    exact absurd hSplit.symm (by simp [JobExecutor.new])

/-- Every schedule that starts the executor at most once. -/
theorem run {schedule : List Choice} (h : Invariant starts executor) (hStart : starts + schedule.count .start ≤ 1) :
    Invariant (starts + schedule.count .start) (executor.run schedule) := by
  induction schedule generalizing starts executor with
  | nil => exact h
  | cons choice rest ih =>
      have hCount : (choice :: rest).count .start = (if choice = .start then 1 else 0) + rest.count .start := by
        rw [List.count_cons, Nat.add_comm]
        simp only [beq_iff_eq]
      rw [hCount, ← Nat.add_assoc] at hStart ⊢
      apply ih (h.step choice _) hStart
      intro hChoice
      rw [if_pos hChoice] at hStart
      omega

end Invariant

theorem maxQueue_step (executor : JobExecutor) (choice : Choice) :
    (executor.step choice).maxQueue = executor.maxQueue := by
  cases choice with
  | start =>
      rw [JobExecutor.step, JobExecutor.start]
      split <;> rfl
  | submit jobId =>
      rw [JobExecutor.step, JobExecutor.submit]
      split
      · rfl
      · split <;> rfl
  | work worker result =>
      rw [JobExecutor.step, JobExecutor.work]
      split
      · rfl
      · rfl
      · rfl
      · split
        · split <;> rfl
        · rfl
  | shutdown =>
      rw [JobExecutor.step, JobExecutor.shutdown]
      split
      · split <;> rfl
      · split
        · split <;> rfl
        · rfl
      · split <;> rfl
      · rfl

theorem maxQueue_run (executor : JobExecutor) (schedule : List Choice) :
    (executor.run schedule).maxQueue = executor.maxQueue := by
  induction schedule generalizing executor with
  | nil => rfl
  | cons choice rest ih => exact (ih (executor.step choice)).trans (maxQueue_step executor choice)

/-- Whatever the number of workers and the order of the turns, every job accepted by
the time `shutdown` returns has been executed once or cancelled once, the jobs leave
the queue in the order of their submission, and the queue stays within its bound. No
job starts behind the return of a call of `shutdown` that found the executor running. -/
theorem jobs_exactlyOnce (workerCount maxQueue : Nat) (schedule : List Choice) (hStart : schedule.count .start ≤ 1) :
    ExactlyOnce maxQueue (· = true) ((JobExecutor.new workerCount maxQueue).run schedule) := by
  have h := (Invariant.new workerCount maxQueue).run (by simpa using hStart)
  have hMax : ((JobExecutor.new workerCount maxQueue).run schedule).maxQueue = maxQueue := maxQueue_run _ schedule
  exact ⟨⟨_, h.consistent.ordered⟩, Nat.le_trans h.consistent.bounded (Nat.le_of_eq hMax), h.settled, h.quiet⟩

/-- One worker ends the only job, and `shutdown` waits for it. -/
theorem jobs_exactlyOnce_single :
    ExactlyOnce 1 (· = true) ((JobExecutor.new 1 1).run
      [.start, .submit 7, .submit 8, .work 0 .completed, .shutdown, .shutdown, .work 0 .completed, .work 0 .completed,
        .shutdown, .shutdown, .shutdown]) :=
  jobs_exactlyOnce 1 1 _ (by decide)

/-- A call of `shutdown` that comes before the start returns at once, and the workers
started afterwards execute jobs. -/
theorem starts_after_early_shutdown :
    ¬ ExactlyOnce 64 (fun _ => True) ((JobExecutor.new 1 64).run [.shutdown, .start, .submit 7, .work 0 .completed]) := by
  intro h
  have hLog : ((JobExecutor.new 1 64).run [.shutdown, .start, .submit 7, .work 0 .completed]).log =
      [] ++ .shutdownReturned false :: [.accepted ⟨0, 7⟩, .started ⟨0, 7⟩] := rfl
  exact h.quiet _ _ _ hLog trivial ⟨0, 7⟩ (by decide)

end ContainerCP.Jobs
