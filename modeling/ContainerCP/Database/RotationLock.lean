import ContainerCP.Concurrency.Interleaving
import ContainerCP.Database.CredentialRotation
import ContainerCP.Text.Streams

/-! The lock of a credential rotation under every schedule of the calls: `OperationLock`
with its set of keys and the mutex of the set, around the body of `rotate`. -/
namespace ContainerCP.CredentialRotation

open Concurrency Control

/-- `lock_key`. -/
def lockKey (siteId databaseId : UInt64) : Bytes := decimal siteId.toNat ++ ascii ':' :: decimal databaseId.toNat

/-- `mutex_` and `active_locks_`. -/
structure Locks where
  mutex : Bool := false
  active : List Bytes := []
  deriving DecidableEq

/-- A call of `rotate`: its request, what its calls will answer, on which state they work,
how many operations its body makes, and whether one of them throws. -/
structure RotateCall where
  request : Request
  env : Environment
  adapter : Adapter
  operations : Nat := 0
  throws : Bool := false

namespace RotateCall

variable (call : RotateCall)

def key : Bytes := lockKey call.request.siteId call.request.databaseId

/-- What `rotate` returns, depending on whether the key was free. -/
def returns (lockFree : Bool) : RotationResult :=
  (finish (rotate { call.env with lockFree := lockFree } call.request) ⟨call.adapter, []⟩).1

/-- How the body ends: at one of its returns, or by an exception. -/
def exit : Option RotationResult := if call.throws then none else some (call.returns true)

end RotateCall

/-- Where a call is. The constructor of the lock takes the mutex, looks for the key and puts
it; the destructor takes it away again. -/
inductive RotatePc where
  | entering (call : RotateCall)
  | lockInsert (call : RotateCall)
  | testKey (call : RotateCall)
  | putKey (call : RotateCall)
  | unlockInsert (call : RotateCall) (acquired : Bool)
  | body (call : RotateCall) (left : Nat)
  | destroying (call : RotateCall) (acquired : Bool) (exit : Option RotationResult)
  | lockErase (call : RotateCall) (exit : Option RotationResult)
  | eraseKey (call : RotateCall) (exit : Option RotationResult)
  | unlockErase (call : RotateCall) (exit : Option RotationResult)
  | done (call : RotateCall) (exit : Option RotationResult)

namespace RotatePc

/-- One operation of a call. A call that waits for the mutex does not move. -/
def next : RotatePc → Locks → Option (RotatePc × Locks)
  | entering call, locks =>
      if call.request.databaseId = 0 then some (done call (some (call.returns true)), locks)
      else some (lockInsert call, locks)
  | lockInsert call, locks => if locks.mutex then none else some (testKey call, { locks with mutex := true })
  | testKey call, locks =>
      if call.key ∈ locks.active then some (unlockInsert call false, locks) else some (putKey call, locks)
  | putKey call, locks => some (unlockInsert call true, { locks with active := call.key :: locks.active })
  | unlockInsert call acquired, locks =>
      some (if acquired then body call call.operations else destroying call false (some (call.returns false)),
        { locks with mutex := false })
  | body call 0, locks => some (destroying call true call.exit, locks)
  | body call (left + 1), locks => some (body call left, locks)
  | destroying call acquired exit, locks => some (if acquired then lockErase call exit else done call exit, locks)
  | lockErase call exit, locks => if locks.mutex then none else some (eraseKey call exit, { locks with mutex := true })
  | eraseKey call exit, locks => some (unlockErase call exit, { locks with active := locks.active.erase call.key })
  | unlockErase call exit, locks => some (done call exit, { locks with mutex := false })
  | done _ _, _ => none

/-- The call that is between acquiring and releasing its lock here. -/
def holder : RotatePc → Option RotateCall
  | unlockInsert call true => some call
  | body call _ => some call
  | destroying call true _ => some call
  | lockErase call _ => some call
  | eraseKey call _ => some call
  | _ => none

/-- The call has the mutex. -/
def inside : RotatePc → Bool
  | testKey _ => true
  | putKey _ => true
  | unlockInsert _ _ => true
  | eraseKey _ _ => true
  | unlockErase _ _ => true
  | _ => false

def heldKey (pc : RotatePc) : Option Bytes := pc.holder.map RotateCall.key

/-- Calls come in at the top of `rotate`. -/
def isEntry : RotatePc → Bool
  | entering _ => true
  | _ => false

end RotatePc

def rotations : Program Locks RotatePc := ⟨RotatePc.isEntry, RotatePc.next⟩

/-- The service before its first call. -/
def idle : System Locks RotatePc := ⟨{}, []⟩

/-! ## Keys -/

/-- The colon is in no number, so the first one ends the site. -/
theorem lockKey_injective {siteId siteId' databaseId databaseId' : UInt64}
    (h : lockKey siteId databaseId = lockKey siteId' databaseId') : siteId = siteId' ∧ databaseId = databaseId' := by
  have hCut : ∀ first second : Nat, cutAt (ascii ':') (decimal first ++ ascii ':' :: decimal second) =
      some (decimal first, decimal second) := fun first second => cutAt_eq_some.mpr ⟨rfl, not_mem_decimal (by decide)⟩
  have hParts := congrArg (cutAt (ascii ':')) h
  rw [lockKey, lockKey, hCut, hCut] at hParts
  obtain ⟨hSite, hDatabase⟩ := Prod.mk.inj (Option.some.inj hParts)
  exact ⟨UInt64.toNat_inj.mp (decimal_injective hSite), UInt64.toNat_inj.mp (decimal_injective hDatabase)⟩

/-! ## What one operation does -/

namespace RotatePc

/-- The call is about to put its key. -/
def putting : RotatePc → Option RotateCall
  | putKey call => some call
  | _ => none

/-- The kinds of operations, by what they do to the mutex and the keys. -/
inductive Step (pc : RotatePc) (locks : Locks) (pc' : RotatePc) : Locks → Prop
  | quiet (hKey : pc'.heldKey = pc.heldKey) (hInside : pc'.inside = pc.inside) (hPutting : pc'.putting = none) :
      Step pc locks pc' locks
  | take (hKey : pc'.heldKey = pc.heldKey) (hOutside : pc.inside = false) (hInside : pc'.inside = true)
      (hPutting : pc'.putting = none) (hMutex : locks.mutex = false) : Step pc locks pc' { locks with mutex := true }
  | give (hKey : pc'.heldKey = pc.heldKey) (hInside : pc.inside = true) (hOutside : pc'.inside = false)
      (hPutting : pc'.putting = none) : Step pc locks pc' { locks with mutex := false }
  | find (call : RotateCall) (hBefore : pc = testKey call) (hAfter : pc' = putKey call) (hFree : call.key ∉ locks.active) :
      Step pc locks pc' locks
  | put (call : RotateCall) (hBefore : pc = putKey call) (hAfter : pc' = unlockInsert call true) :
      Step pc locks pc' { locks with active := call.key :: locks.active }
  | erase (call : RotateCall) (exit : Option RotationResult) (hBefore : pc = eraseKey call exit)
      (hAfter : pc' = unlockErase call exit) : Step pc locks pc' { locks with active := locks.active.erase call.key }

theorem step_of_next {pc pc' : RotatePc} {locks locks' : Locks} (h : pc.next locks = some (pc', locks')) :
    Step pc locks pc' locks' := by
  cases pc with
  | entering call =>
      rw [next] at h
      split at h
      · cases h
        exact .quiet rfl rfl rfl
      · cases h
        exact .quiet rfl rfl rfl
  | lockInsert call =>
      rw [next] at h
      split at h
      · cases h
      · next hFree =>
        cases h
        exact .take rfl rfl rfl rfl (by simpa using hFree)
  | testKey call =>
      rw [next] at h
      split at h
      · cases h
        exact .quiet rfl rfl rfl
      · next hFree =>
        cases h
        exact .find call rfl rfl hFree
  | putKey call =>
      cases h
      exact .put call rfl rfl
  | unlockInsert call acquired =>
      cases h
      cases acquired <;> exact .give rfl rfl rfl rfl
  | body call left =>
      cases left <;> cases h <;> exact .quiet rfl rfl rfl
  | destroying call acquired exit =>
      cases h
      cases acquired <;> exact .quiet rfl rfl rfl
  | lockErase call exit =>
      rw [next] at h
      split at h
      · cases h
      · next hFree =>
        cases h
        exact .take rfl rfl rfl rfl (by simpa using hFree)
  | eraseKey call exit =>
      cases h
      exact .erase call exit rfl rfl
  | unlockErase call exit =>
      cases h
      exact .give rfl rfl rfl rfl
  | done call exit => cases h

end RotatePc

/-! ## The invariant -/

open RotatePc

/-- One call at most is inside the mutex; the keys are those of the calls that hold their
lock, each once; and a call that puts its key finds it free. -/
structure Consistent (system : System Locks RotatePc) : Prop where
  one_inside : system.threads.countP inside = system.shared.mutex.toNat
  held : (system.threads.filterMap heldKey).Perm system.shared.active
  distinct : system.shared.active.Nodup
  free : ∀ pc ∈ system.threads, ∀ call ∈ pc.putting, call.key ∉ system.shared.active

theorem consistent_idle : Consistent idle := ⟨rfl, List.Perm.refl _, List.nodup_nil, by simp [idle]⟩

theorem consistent_start {shared : Locks} {threads : List RotatePc} {entry : RotatePc} (hEntry : isEntry entry = true)
    (h : Consistent ⟨shared, threads⟩) : Consistent ⟨shared, threads ++ [entry]⟩ := by
  obtain ⟨call, rfl⟩ : ∃ call, entry = entering call := by
    cases entry with
    | entering call => exact ⟨call, rfl⟩
    | _ => cases hEntry
  have hNone : [entering call].filterMap heldKey = [] := rfl
  refine ⟨?_, ?_, h.distinct, ?_⟩
  · rw [List.countP_append, h.one_inside]
    rfl
  · rw [List.filterMap_append, hNone, List.append_nil]
    exact h.held
  · intro pc hMem
    rcases List.mem_append.mp hMem with hOld | hNew
    · exact h.free pc hOld
    · obtain rfl := List.mem_singleton.mp hNew
      simp [putting]

section Resume

variable {shared : Locks} {before after : List RotatePc} {pc pc' : RotatePc}

/-- Where a call is inside, no other is. -/
theorem not_inside_of_inside (h : Consistent ⟨shared, before ++ pc :: after⟩) (hInside : pc.inside = true)
    {other : RotatePc} (hOther : other ∈ before ++ after) : other.inside = false := by
  have hOne := h.one_inside
  have hBound : shared.mutex.toNat ≤ 1 := Bool.toNat_le _
  simp only [List.countP_append, List.countP_cons, hInside, if_true] at hOne
  have hNone : (before ++ after).countP inside = 0 := by
    rw [List.countP_append]
    omega
  simpa using List.countP_eq_zero.mp hNone other hOther

theorem inside_of_putting {call : RotateCall} (h : call ∈ pc.putting) : pc.inside = true := by
  cases pc with
  | putKey other => rfl
  | _ => cases h

theorem mem_others {other : RotatePc} (h : other ∈ before ++ pc' :: after) : other = pc' ∨ other ∈ before ++ after := by
  simp only [List.mem_append, List.mem_cons] at h ⊢
  tauto

/-- A call that moves without a key leaves the keys of the others. -/
theorem filterMap_heldKey_congr (h : pc'.heldKey = pc.heldKey) :
    (before ++ pc' :: after).filterMap heldKey = (before ++ pc :: after).filterMap heldKey := by
  rw [List.filterMap_append, List.filterMap_append, List.filterMap_cons, List.filterMap_cons, h]

theorem countP_inside (h : pc.inside = true) (h' : pc'.inside = false) :
    (before ++ pc :: after).countP inside = (before ++ pc' :: after).countP inside + 1 := by
  rw [List.countP_append, List.countP_append, List.countP_cons_of_pos h, List.countP_cons_of_neg (by simp [h'])]
  omega

theorem countP_congr (pc pc' : RotatePc) (h : pc'.inside = pc.inside) :
    (before ++ pc' :: after).countP inside = (before ++ pc :: after).countP inside := by
  rw [List.countP_append, List.countP_append, List.countP_cons, List.countP_cons, h]

theorem filterMap_heldKey_none (pc : RotatePc) (h : pc.heldKey = none) :
    (before ++ pc :: after).filterMap heldKey = (before ++ after).filterMap heldKey := by
  rw [List.filterMap_append, List.filterMap_append, List.filterMap_cons_none h]

theorem filterMap_heldKey_some {key : Bytes} (h : pc.heldKey = some key) :
    ((before ++ pc :: after).filterMap heldKey).Perm (key :: (before ++ after).filterMap heldKey) := by
  rw [List.filterMap_append, List.filterMap_append, List.filterMap_cons_some h]
  exact List.perm_middle

/-- The calls beside one that is inside put no key. -/
theorem putting_none_of_inside (h : Consistent ⟨shared, before ++ pc :: after⟩) (hInside : pc.inside = true)
    {other : RotatePc} (hOther : other ∈ before ++ after) : other.putting = none := by
  have hOutside := not_inside_of_inside h hInside hOther
  cases hPutting : other.putting with
  | none => rfl
  | some call =>
      have hIn := inside_of_putting (Option.mem_def.mpr hPutting)
      rw [hOutside] at hIn
      cases hIn

/-- The keys that are put are free behind an operation, too. -/
theorem free_of_others {active : List Bytes}
    (hOthers : ∀ other ∈ before ++ after, ∀ call ∈ other.putting, call.key ∉ active)
    (hNew : ∀ call ∈ pc'.putting, call.key ∉ active) :
    ∀ other ∈ before ++ pc' :: after, ∀ call ∈ other.putting, call.key ∉ active := by
  intro other hMem
  rcases mem_others hMem with rfl | hOther
  · exact hNew
  · exact hOthers other hOther

theorem consistent_resume {shared' : Locks} (hNext : pc.next shared = some (pc', shared'))
    (h : Consistent ⟨shared, before ++ pc :: after⟩) : Consistent ⟨shared', before ++ pc' :: after⟩ := by
  have hOthers : ∀ other ∈ before ++ after, ∀ call ∈ other.putting, call.key ∉ shared.active := by
    intro other hOther
    refine h.free other ?_
    simp only [List.mem_append, List.mem_cons] at hOther ⊢
    tauto
  cases step_of_next hNext with
  | quiet hKey hInside hPutting =>
      refine ⟨(countP_congr pc pc' hInside).trans h.one_inside, (filterMap_heldKey_congr hKey).symm ▸ h.held, h.distinct, ?_⟩
      exact free_of_others hOthers (by simp [hPutting])
  | take hKey hOutside hInside hPutting hMutex =>
      refine ⟨?_, (filterMap_heldKey_congr hKey).symm ▸ h.held, h.distinct, free_of_others hOthers (by simp [hPutting])⟩
      have hNone := h.one_inside
      rw [hMutex] at hNone
      rw [countP_inside hInside hOutside, hNone]
      rfl
  | give hKey hInside hOutside hPutting =>
      refine ⟨?_, (filterMap_heldKey_congr hKey).symm ▸ h.held, h.distinct, free_of_others hOthers (by simp [hPutting])⟩
      have hOne : List.countP inside (before ++ pc :: after) = shared.mutex.toNat := h.one_inside
      have hBound : shared.mutex.toNat ≤ 1 := Bool.toNat_le _
      rw [countP_inside hInside hOutside] at hOne
      show List.countP inside (before ++ pc' :: after) = 0
      omega
  | find call hBefore hAfter hFree =>
      subst hBefore hAfter
      refine ⟨(countP_congr (testKey call) (putKey call) rfl).trans h.one_inside, ?_, h.distinct, free_of_others hOthers ?_⟩
      · rw [filterMap_heldKey_none (putKey call) rfl, ← filterMap_heldKey_none (testKey call) rfl]
        exact h.held
      · intro other hPutting
        obtain rfl := Option.some.inj hPutting
        exact hFree
  | put call hBefore hAfter =>
      subst hBefore hAfter
      have hKeyFree : call.key ∉ shared.active := h.free (putKey call) (by simp) call rfl
      refine ⟨(countP_congr (putKey call) (unlockInsert call true) rfl).trans h.one_inside, ?_, List.nodup_cons.mpr ⟨hKeyFree, h.distinct⟩, ?_⟩
      · have hHeld := h.held
        rw [filterMap_heldKey_none (putKey call) rfl] at hHeld
        exact (filterMap_heldKey_some rfl).trans (hHeld.cons call.key)
      · refine free_of_others ?_ (by simp [putting])
        intro other hOther
        simp [putting_none_of_inside h rfl hOther]
  | erase call exit hBefore hAfter =>
      subst hBefore hAfter
      refine ⟨(countP_congr (eraseKey call exit) (unlockErase call exit) rfl).trans h.one_inside, ?_, h.distinct.erase _, free_of_others ?_ (by simp [putting])⟩
      · have hHeld := ((filterMap_heldKey_some rfl).symm.trans h.held).erase call.key
        rw [List.erase_cons_head] at hHeld
        rw [filterMap_heldKey_none (unlockErase call exit) rfl]
        exact hHeld
      · intro other hOther call' hPutting hMem
        exact hOthers other hOther call' hPutting (List.mem_of_mem_erase hMem)

end Resume

/-- The invariant holds under every schedule. -/
theorem consistent_run (schedule : List (Choice RotatePc)) : Consistent (rotations.run idle schedule) := by
  have hPreserves : rotations.Preserves Consistent :=
    ⟨fun _ _ _ hEntry h => consistent_start hEntry h, fun _ _ _ _ _ _ hNext h => consistent_resume hNext h⟩
  exact hPreserves.run consistent_idle schedule

/-! ## What the calls can rely on -/

/-- The call at this place of a system is between acquiring and releasing the lock of a
pair. -/
def HoldsLock (system : System Locks RotatePc) (thread : Nat) (siteId databaseId : UInt64) : Prop :=
  ∃ pc call, system.threads[thread]? = some pc ∧ pc.holder = some call ∧ call.request = ⟨siteId, databaseId⟩

/-- The operations of one call, one after the other. -/
def resumes (thread count : Nat) : List (Choice RotatePc) := List.replicate count (.resume thread)

/-- What holds in every state that calls can come to, in any order: one call at most has
the lock of a pair; a key is there just while a call has its lock; a call is turned away
only by another one for the same pair; and however the body of a call ends, its key is
gone afterwards. -/
structure Excludes (system : System Locks RotatePc) : Prop where
  exclusive : ∀ first second siteId databaseId, HoldsLock system first siteId databaseId →
    HoldsLock system second siteId databaseId → first = second
  locked_iff : ∀ siteId databaseId, lockKey siteId databaseId ∈ system.shared.active ↔
    ∃ thread, HoldsLock system thread siteId databaseId
  refused : ∀ (thread : Nat) (call : RotateCall), system.threads[thread]? = some (testKey call) →
    (testKey call).next system.shared = some (unlockInsert call false, system.shared) →
    ∃ other, other ≠ thread ∧ HoldsLock system other call.request.siteId call.request.databaseId
  released : ∀ (thread : Nat) (call : RotateCall) (left : Nat),
    system.threads[thread]? = some (body call left) → system.shared.mutex = false →
    (rotations.run system (resumes thread (left + 5))).threads[thread]? = some (done call call.exit) ∧
      call.key ∉ (rotations.run system (resumes thread (left + 5))).shared.active

theorem heldKey_eq_some {pc : RotatePc} {call : RotateCall} {siteId databaseId : UInt64} (hHolder : pc.holder = some call)
    (hRequest : call.request = ⟨siteId, databaseId⟩) : pc.heldKey = some (lockKey siteId databaseId) := by
  rw [heldKey, hHolder, Option.map_some, RotateCall.key, hRequest]

theorem Consistent.exclusive {system : System Locks RotatePc} (h : Consistent system) {first second : Nat}
    {siteId databaseId : UInt64} (hFirst : HoldsLock system first siteId databaseId)
    (hSecond : HoldsLock system second siteId databaseId) : first = second := by
  obtain ⟨pc, call, hPc, hHolder, hRequest⟩ := hFirst
  obtain ⟨pc', call', hPc', hHolder', hRequest'⟩ := hSecond
  have hNodup : (system.threads.filterMap heldKey).Nodup := h.held.nodup_iff.mpr h.distinct
  exact index_eq_of_nodup_filterMap hNodup hPc hPc' (heldKey_eq_some hHolder hRequest) (heldKey_eq_some hHolder' hRequest')

theorem Consistent.locked_iff {system : System Locks RotatePc} (h : Consistent system) (siteId databaseId : UInt64) :
    lockKey siteId databaseId ∈ system.shared.active ↔ ∃ thread, HoldsLock system thread siteId databaseId := by
  rw [← h.held.mem_iff, List.mem_filterMap]
  constructor
  · rintro ⟨pc, hMem, hKey⟩
    obtain ⟨call, hHolder, hLock⟩ := Option.map_eq_some_iff.mp hKey
    obtain ⟨thread, hThread⟩ := List.mem_iff_getElem?.mp hMem
    obtain ⟨hSite, hDatabase⟩ := lockKey_injective hLock
    refine ⟨thread, pc, call, hThread, hHolder, ?_⟩
    rw [← hSite, ← hDatabase]
  · rintro ⟨thread, pc, call, hThread, hHolder, hRequest⟩
    exact ⟨pc, List.mem_of_getElem? hThread, heldKey_eq_some hHolder hRequest⟩

/-- A call that finds its key does not hold it itself. -/
theorem Consistent.refused {system : System Locks RotatePc} (h : Consistent system) {thread : Nat} {call : RotateCall}
    (hThread : system.threads[thread]? = some (testKey call))
    (hNext : (testKey call).next system.shared = some (unlockInsert call false, system.shared)) :
    ∃ other, other ≠ thread ∧ HoldsLock system other call.request.siteId call.request.databaseId := by
  have hLocked : call.key ∈ system.shared.active := by
    by_contra hFree
    rw [next, if_neg hFree] at hNext
    cases hNext
  obtain ⟨other, hOther⟩ := (h.locked_iff _ _).mp hLocked
  refine ⟨other, ?_, hOther⟩
  rintro rfl
  obtain ⟨pc, holder, hPc, hHolder, -⟩ := hOther
  rw [hThread] at hPc
  obtain rfl := Option.some.inj hPc
  cases hHolder

/-! ## The way out -/

theorem run_resume {system : System Locks RotatePc} {thread : Nat} {pc pc' : RotatePc} {locks' : Locks}
    (hThread : system.threads[thread]? = some pc) (hNext : pc.next system.shared = some (pc', locks')) (count : Nat) :
    ∃ system', system'.shared = locks' ∧ system'.threads[thread]? = some pc' ∧
      rotations.run system (resumes thread (count + 1)) = rotations.run system' (resumes thread count) := by
  obtain ⟨hLt, -⟩ := List.getElem?_eq_some_iff.mp hThread
  refine ⟨⟨locks', system.threads.set thread pc'⟩, rfl, ?_, ?_⟩
  · rw [List.getElem?_set_self hLt]
  · rw [resumes, List.replicate_succ, Program.run, List.foldl_cons, Program.turn, hThread]
    simp only [rotations, hNext]
    rfl

theorem run_body {system : System Locks RotatePc} {thread left : Nat} {call : RotateCall}
    (hThread : system.threads[thread]? = some (body call left)) (count : Nat) :
    ∃ system', system'.shared = system.shared ∧ system'.threads[thread]? = some (destroying call true call.exit) ∧
      rotations.run system (resumes thread (left + 1 + count)) = rotations.run system' (resumes thread count) := by
  induction left generalizing system with
  | zero =>
      rw [Nat.zero_add, Nat.add_comm]
      exact run_resume hThread rfl count
  | succ left ih =>
      obtain ⟨middle, hShared, hMiddle, hRun⟩ := run_resume hThread rfl (left + 1 + count)
      obtain ⟨system', hShared', hEnd, hRest⟩ := ih hMiddle
      refine ⟨system', hShared'.trans hShared, hEnd, ?_⟩
      rw [← hRest, ← hRun]
      congr 2
      omega

theorem run_destroying {system : System Locks RotatePc} {thread : Nat} {call : RotateCall} {exit : Option RotationResult}
    (hThread : system.threads[thread]? = some (destroying call true exit)) (hMutex : system.shared.mutex = false) :
    (rotations.run system (resumes thread 4)).threads[thread]? = some (done call exit) ∧
      (rotations.run system (resumes thread 4)).shared.active = system.shared.active.erase call.key := by
  obtain ⟨first, hFirst, hLock, hRunFirst⟩ := run_resume hThread rfl 3
  have hTake : (lockErase call exit).next first.shared = some (eraseKey call exit, { first.shared with mutex := true }) := by
    rw [next, hFirst, hMutex]
    rfl
  obtain ⟨second, hSecond, hErase, hRunSecond⟩ := run_resume hLock hTake 2
  obtain ⟨third, hThird, hUnlock, hRunThird⟩ := run_resume hErase rfl 1
  obtain ⟨last, hLast, hDone, hRunLast⟩ := run_resume hUnlock rfl 0
  have hEnd : rotations.run system (resumes thread 4) = last := by
    rw [hRunFirst, hRunSecond, hRunThird, hRunLast]
    rfl
  rw [hEnd]
  refine ⟨hDone, ?_⟩
  rw [hLast, hThird, hSecond, hFirst]

/-- The lock of a rotation excludes what it is for, and is given back on every way out. -/
theorem rotation_excludes (schedule : List (Choice RotatePc)) : Excludes (rotations.run idle schedule) := by
  have hConsistent := consistent_run schedule
  refine ⟨fun _ _ _ _ => hConsistent.exclusive, hConsistent.locked_iff, fun _ _ => hConsistent.refused, ?_⟩
  intro thread call left hThread hMutex
  obtain ⟨system', hShared, hBody, hRun⟩ := run_body hThread 4
  have hCount : left + 5 = left + 1 + 4 := by omega
  obtain ⟨hDone, hActive⟩ := run_destroying hBody (by rw [hShared]; exact hMutex)
  rw [hCount, hRun]
  refine ⟨hDone, ?_⟩
  rw [hActive, hShared]
  exact hConsistent.distinct.not_mem_erase

end ContainerCP.CredentialRotation
