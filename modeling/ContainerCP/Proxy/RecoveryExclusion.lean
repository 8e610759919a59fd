import ContainerCP.Proxy.RecoveryManager
import Mathlib.Data.List.Count
import Mathlib.Algebra.GroupWithZero.Nat
import Mathlib.Data.Nat.SuccPred

/-! Recoveries one at a time, a flag that is set for each of them and released, and no more than
the retries between two healthy checks. -/
namespace ContainerCP.Recovery

open Concurrency

namespace RecoveryPc

/-- The check loop, and what it calls. -/
def isLoop : RecoveryPc → Bool
  | loopTest | loopProbe | loopProbed _ | loopReset | loopLock | loopDecide | loopClaim | loopCount | loopUnlock _ | loopCooldown
  | loopSleep | loopDone => true
  | recovering caller _ | clearLock caller | clear caller | clearUnlock caller => caller = .background
  | _ => false

/-- Between a lock and its unlock. -/
def inCritical : RecoveryPc → Bool
  | loopDecide | loopClaim | loopCount | loopUnlock _ | nowDecide | nowClaim | nowUnlock _ => true
  | recovering _ .judge | recovering _ .reset | recovering _ .unlock | clear _ | clearUnlock _ => true
  | _ => false

/-- Between the claim of the flag and its release: a recovery with what frames it. -/
def holdsFlag : RecoveryPc → Bool
  | loopCount | loopUnlock .attempt | nowUnlock true | recovering _ _ | clearLock _ | clear _ => true
  | _ => false

def inRecover : RecoveryPc → Bool
  | recovering _ _ => true
  | _ => false

def claims : RecoveryPc → Bool
  | loopClaim | nowClaim => true
  | _ => false

def counts : RecoveryPc → Bool
  | loopClaim | loopCount => true
  | _ => false

/-- Between a healthy check, or a cooldown, and the reset of the counter for it. -/
def resets : RecoveryPc → Bool
  | loopProbed true | loopReset | loopCooldown | recovering _ .reset => true
  | _ => false

/-- An attempt that is counted and did not start yet. -/
def pending : RecoveryPc → Bool
  | loopUnlock .attempt => true
  | _ => false

end RecoveryPc

open RecoveryPc

def isBoundary : RecoveryEvent → Bool
  | .checked true | .cooldown => true
  | _ => false

def isStart : RecoveryEvent → Bool
  | .started .background => true
  | _ => false

/-- The recoveries that the loop started since the last healthy check or cooldown. -/
def startsSince (log : List RecoveryEvent) : Nat := (log.takeWhile fun event => !isBoundary event).countP isStart

/-- What a thread knows of the state from where it is. -/
structure Knows (pc : RecoveryPc) (s : RecoveryState) : Prop where
  claims : claims pc = true → s.recoveryActive = false
  counts : counts pc = true → s.failCount < maxRetries
  resets : resets pc = true → startsSince s.log = 0
  pending : pending pc = true → startsSince s.log < s.failCount

variable {health : Nat → Bool} {pc pc' other : RecoveryPc} {s s' : RecoveryState}

theorem next_lock (h : next health pc s = some (pc', s')) (hLock : inCritical pc = true → s.locked = true) :
    s'.locked.toNat + (inCritical pc).toNat = s.locked.toNat + (inCritical pc').toNat := by
  revert h
  fun_cases next health pc s <;> intro h <;> cases h <;> simp_all [inCritical, RecoveryState.check]

theorem next_flag (h : next health pc s = some (pc', s')) (hFlag : holdsFlag pc = true → s.recoveryActive = true)
    (hKnows : Knows pc s) :
    s'.recoveryActive.toNat + (holdsFlag pc).toNat = s.recoveryActive.toNat + (holdsFlag pc').toNat := by
  have hClaims := hKnows.claims
  revert h
  fun_cases next health pc s <;> intro h <;> cases h <;> simp_all [holdsFlag, RecoveryState.check, claims]

theorem next_loop (h : next health pc s = some (pc', s')) : isLoop pc' = isLoop pc := by
  revert h
  fun_cases next health pc s <;> intro h <;> cases h <;> simp_all [isLoop]

/-! ## The log -/

theorem startsSince_cons (event : RecoveryEvent) (log : List RecoveryEvent) :
    startsSince (event :: log) = if isBoundary event then 0 else startsSince log + (isStart event).toNat := by
  rw [startsSince, List.takeWhile_cons]
  cases isBoundary event with
  | true => rfl
  | false =>
      rw [Bool.not_false, if_pos rfl, List.countP_cons, startsSince]
      cases isStart event <;> rfl

theorem startsSince_check (s : RecoveryState) (healthy : Bool) :
    startsSince (s.check healthy).log = if healthy then 0 else startsSince s.log := by
  rw [RecoveryState.check, startsSince_cons]
  cases healthy <;> rfl

@[simp]
theorem check_failCount (s : RecoveryState) (healthy : Bool) : (s.check healthy).failCount = s.failCount := rfl

theorem next_counted (h : next health pc s = some (pc', s')) (hKnows : Knows pc s) (hCounted : startsSince s.log ≤ s.failCount) :
    startsSince s'.log ≤ s'.failCount := by
  have hResets := hKnows.resets
  have hPending := hKnows.pending
  clear hKnows
  revert h
  fun_cases next health pc s <;> intro h <;> cases h <;> simp_all [startsSince_check, resets, pending, startsSince_cons, isBoundary, isStart]
  -- the result of a health check
  case case3.refl => split <;> omega
  all_goals omega

theorem next_bounded (h : next health pc s = some (pc', s')) (hKnows : Knows pc s) (hBounded : s.failCount ≤ maxRetries) :
    s'.failCount ≤ maxRetries := by
  have hCounts := hKnows.counts
  clear hKnows
  revert h
  fun_cases next health pc s <;> intro h <;> cases h <;> simp_all [RecoveryState.check, counts]

/-- The thread itself knows what it should where it comes to. -/
theorem next_knows (h : next health pc s = some (pc', s')) (hKnows : Knows pc s) (hCounted : startsSince s.log ≤ s.failCount) :
    Knows pc' s' := by
  have hCounts := hKnows.counts
  have hResets := hKnows.resets
  clear hKnows
  revert h
  refine fun h => ⟨?_, ?_, ?_, ?_⟩ <;> revert h
  · fun_cases next health pc s <;> intro h <;> cases h <;> simp_all [claims]
  · fun_cases next health pc s <;> intro h <;> cases h <;> simp_all [counts]
  · fun_cases next health pc s <;> intro h <;> cases h <;> simp_all [resets, startsSince_check, startsSince_cons, isBoundary]
    case case3.refl => cases health s.checks <;> simp
  · fun_cases next health pc s <;> intro h <;> cases h <;> simp_all [pending]

/-! ## What a step does to the others -/

theorem next_active (h : next health pc s = some (pc', s')) :
    s'.recoveryActive = s.recoveryActive ∨ s'.recoveryActive = false ∨ inCritical pc = true := by
  revert h
  fun_cases next health pc s <;> intro h <;> cases h <;> simp_all [inCritical, RecoveryState.check]

theorem next_failCount (h : next health pc s = some (pc', s')) :
    s'.failCount = s.failCount ∨ counts pc = true ∨ s'.failCount = 0 ∧ resets pc = true := by
  revert h
  fun_cases next health pc s <;> intro h <;> cases h <;> simp_all [counts, resets, RecoveryState.check]

theorem next_starts (h : next health pc s = some (pc', s')) : startsSince s'.log ≤ startsSince s.log ∨ pending pc = true := by
  revert h
  fun_cases next health pc s <;> intro h <;> cases h <;> simp_all [pending, startsSince_check, startsSince_cons, isBoundary, isStart]
  -- the result of a health check
  case case3.refl => split <;> omega

theorem next_log (h : next health pc s = some (pc', s')) : s'.log = s.log ∨ ∃ event, s'.log = event :: s.log := by
  revert h
  fun_cases next health pc s <;> intro h <;> cases h <;> simp_all [RecoveryState.check]

theorem inCritical_of_claims (h : claims pc = true) : inCritical pc = true := by
  cases pc with
  | loopClaim => rfl
  | nowClaim => rfl
  | _ => cases h

theorem isLoop_of_counts (h : counts pc = true) : isLoop pc = true := by
  cases pc with
  | loopClaim => rfl
  | loopCount => rfl
  | _ => cases h

theorem isLoop_of_pending (h : pending pc = true) : isLoop pc = true ∧ holdsFlag pc = true := by
  cases pc with
  | loopUnlock outcome =>
      cases outcome with
      | attempt => exact ⟨rfl, rfl⟩
      | _ => cases h
  | _ => cases h

/-- The counter is reset by the loop, or in a recovery. -/
theorem isLoop_or_holdsFlag_of_resets (h : resets pc = true) : isLoop pc = true ∨ holdsFlag pc = true := by
  cases pc with
  | loopProbed healthy => exact .inl rfl
  | loopReset => exact .inl rfl
  | loopCooldown => exact .inl rfl
  | recovering caller step => exact .inr rfl
  | _ => cases h

/-- Two threads that do not share the lock, the flag or the loop: what the one knows stays true
under a step of the other. -/
theorem next_knows_other (h : next health pc s = some (pc', s')) (hOther : Knows other s)
    (hLock : inCritical pc = true → inCritical other = true → False) (hFlag : holdsFlag pc = true → holdsFlag other = true → False)
    (hLoop : isLoop pc = true → isLoop other = true → False) : Knows other s' := by
  refine ⟨fun hClaims => ?_, fun hCounts => ?_, fun hResets => ?_, fun hPending => ?_⟩
  · rcases next_active h with hSame | hReleased | hCritical
    · rw [hSame]
      exact hOther.claims hClaims
    · exact hReleased
    · exact (hLock hCritical (inCritical_of_claims hClaims)).elim
  · rcases next_failCount h with hSame | hCount | ⟨hZero, -⟩
    · rw [hSame]
      exact hOther.counts hCounts
    · exact (hLoop (isLoop_of_counts hCount) (isLoop_of_counts hCounts)).elim
    · rw [hZero]
      decide
  · rcases next_starts h with hLe | hStart
    · have hNone := hOther.resets hResets
      omega
    · obtain ⟨hOfLoop, hOfFlag⟩ := isLoop_of_pending hStart
      rcases isLoop_or_holdsFlag_of_resets hResets with hIs | hHolds
      · exact (hLoop hOfLoop hIs).elim
      · exact (hFlag hOfFlag hHolds).elim
  · obtain ⟨hIs, hHolds⟩ := isLoop_of_pending hPending
    have hBefore := hOther.pending hPending
    rcases next_starts h with hLe | hStart
    · rcases next_failCount h with hSame | hCount | ⟨-, hReset⟩
      · omega
      · exact (hLoop (isLoop_of_counts hCount) hIs).elim
      · rcases isLoop_or_holdsFlag_of_resets hReset with hOfLoop | hOfFlag
        · exact (hLoop hOfLoop hIs).elim
        · exact (hFlag hOfFlag hHolds).elim
    · exact (hLoop (isLoop_of_pending hStart).1 hIs).elim

/-! ## Every schedule -/

/-- The mutex and the flag are each with one thread at most, which has them as the state says;
there is one loop, each thread knows what it should, and the counter counts. -/
structure Sound (system : System RecoveryState RecoveryPc) : Prop where
  lock : system.threads.countP inCritical = system.shared.locked.toNat
  flag : system.threads.countP holdsFlag = system.shared.recoveryActive.toNat
  loop : system.threads.countP isLoop ≤ 1
  knows : ∀ pc ∈ system.threads, Knows pc system.shared
  counted : startsSince system.shared.log ≤ system.shared.failCount
  bounded : system.shared.failCount ≤ maxRetries
  past : ∀ earlier, earlier <:+ system.shared.log → startsSince earlier ≤ maxRetries

/-- Where at most one thread is in a place, a second one is not there. -/
theorem not_both {p : RecoveryPc → Bool} {before after : List RecoveryPc} (h : (before ++ pc :: after).countP p ≤ 1)
    (hOther : other ∈ before ∨ other ∈ after) (hPc : p pc = true) (hBoth : p other = true) : False := by
  rw [List.countP_append, List.countP_cons, if_pos hPc] at h
  rcases hOther with hBefore | hAfter
  · have hPos := List.countP_pos_iff.mpr ⟨other, hBefore, hBoth⟩
    omega
  · have hPos := List.countP_pos_iff.mpr ⟨other, hAfter, hBoth⟩
    omega

theorem countP_step {p : RecoveryPc → Bool} (before after : List RecoveryPc) (pc : RecoveryPc) :
    (before ++ pc :: after).countP p = before.countP p + after.countP p + (p pc).toNat := by
  rw [List.countP_append, List.countP_cons, Nat.add_assoc]
  cases p pc <;> rfl

theorem knows_entry {entry : RecoveryPc} (h : isEntry entry = true) (s : RecoveryState) : Knows entry s := by
  cases entry with
  | nowLock => exact ⟨Bool.noConfusion, Bool.noConfusion, Bool.noConfusion, Bool.noConfusion⟩
  | stopping => exact ⟨Bool.noConfusion, Bool.noConfusion, Bool.noConfusion, Bool.noConfusion⟩
  | _ => cases h

theorem entry_nowhere {entry : RecoveryPc} (h : isEntry entry = true) :
    inCritical entry = false ∧ holdsFlag entry = false ∧ isLoop entry = false := by
  cases entry with
  | nowLock => exact ⟨rfl, rfl, rfl⟩
  | stopping => exact ⟨rfl, rfl, rfl⟩
  | _ => cases h

theorem sound_started : Sound started := by
  refine ⟨rfl, rfl, Nat.le_refl 1, ?_, Nat.le_refl 0, Nat.zero_le _, ?_⟩
  · intro pc hPc
    rw [List.mem_singleton.mp hPc]
    exact ⟨Bool.noConfusion, Bool.noConfusion, Bool.noConfusion, Bool.noConfusion⟩
  · intro earlier hEarlier
    rw [List.suffix_nil.mp hEarlier]
    exact Nat.zero_le _

theorem sound_preserves (health : Nat → Bool) : (recoveryManager health).Preserves Sound := by
  refine ⟨?_, ?_⟩
  · intro shared threads entry hEntry h
    obtain ⟨hLock, hFlag, hLoop⟩ := entry_nowhere hEntry
    refine ⟨?_, ?_, ?_, ?_, h.counted, h.bounded, h.past⟩
    · rw [countP_step, List.countP_nil, hLock, h.lock]
      rfl
    · rw [countP_step, List.countP_nil, hFlag, h.flag]
      rfl
    · rw [countP_step, List.countP_nil, hLoop]
      exact h.loop
    · intro pc hPc
      rcases List.mem_append.mp hPc with hOld | hNew
      · exact h.knows pc hOld
      · rw [List.mem_singleton.mp hNew]
        exact knows_entry hEntry shared
  · intro s before pc after pc' s' hNext h
    obtain ⟨hLock, hFlag, hLoop, hKnows, hCounted, hBounded, hPast⟩ := h
    have hSelf := hKnows pc (by simp)
    have hLockOne : (before ++ pc :: after).countP inCritical ≤ 1 := hLock.le.trans (Bool.toNat_le _)
    have hFlagOne : (before ++ pc :: after).countP holdsFlag ≤ 1 := hFlag.le.trans (Bool.toNat_le _)
    dsimp only at hLock hFlag hLoop hCounted hBounded hPast
    rw [countP_step] at hLock hFlag
    have hLocked : inCritical pc = true → s.locked = true := by
      intro hCritical
      rw [hCritical] at hLock
      cases hHere : s.locked with
      | true => rfl
      | false =>
          rw [hHere] at hLock
          simp at hLock
    have hActive : holdsFlag pc = true → s.recoveryActive = true := by
      intro hHolds
      rw [hHolds] at hFlag
      cases hHere : s.recoveryActive with
      | true => rfl
      | false =>
          rw [hHere] at hFlag
          simp at hFlag
    have hCounted' : startsSince s'.log ≤ s'.failCount := next_counted hNext hSelf hCounted
    have hBounded' : s'.failCount ≤ maxRetries := next_bounded hNext hSelf hBounded
    refine ⟨?_, ?_, ?_, ?_, hCounted', hBounded', ?_⟩
    · have hStep := next_lock hNext hLocked
      rw [countP_step]
      dsimp only
      omega
    · have hStep := next_flag hNext hActive hSelf
      rw [countP_step]
      dsimp only
      omega
    · rw [countP_step] at hLoop ⊢
      rwa [next_loop hNext]
    · intro other hOther
      have hCases : other = pc' ∨ other ∈ before ∨ other ∈ after := by
        rcases List.mem_append.mp hOther with hBefore | hRest
        · exact .inr (.inl hBefore)
        · exact (List.mem_cons.mp hRest).imp_right .inr
      rcases hCases with rfl | hAway
      · exact next_knows hNext hSelf hCounted
      · have hMem : other ∈ before ++ pc :: after := by
          rcases hAway with hBefore | hAfter
          · exact List.mem_append_left _ hBefore
          · exact List.mem_append_right _ (List.mem_cons_of_mem _ hAfter)
        exact next_knows_other hNext (hKnows other hMem) (not_both hLockOne hAway) (not_both hFlagOne hAway) (not_both hLoop hAway)
    · intro earlier hEarlier
      rcases next_log hNext with hSame | ⟨event, hEvent⟩
      · exact hPast earlier (hSame ▸ hEarlier)
      · have hCases : earlier = s'.log ∨ earlier <:+ s.log := by
          have hSuffix : earlier <:+ event :: s.log := hEvent ▸ hEarlier
          rw [hEvent]
          exact List.suffix_cons_iff.mp hSuffix
        rcases hCases with rfl | hOld
        · exact hCounted'.trans hBounded'
        · exact hPast earlier hOld

theorem sound_run (health : Nat → Bool) (schedule : List (Choice RecoveryPc)) :
    Sound ((recoveryManager health).run started schedule) :=
  (sound_preserves health).run sound_started schedule

/-! ## The release of the flag -/

/-- The turns that a recovery needs to its end, or a thread to its unlock. -/
def turnsLeft : RecoveryPc → Nat
  | loopCount => 13
  | loopUnlock .attempt | nowUnlock true => 12
  | recovering _ .container => 11
  | recovering _ .admin => 10
  | recovering _ .sites => 9
  | recovering _ .lock => 8
  | recovering _ .judge => 7
  | recovering _ .reset => 6
  | recovering _ .unlock => 5
  | clearLock _ => 4
  | clear _ => 3
  | loopDecide | nowDecide => 2
  | loopUnlock _ | nowUnlock _ | clearUnlock _ => 1
  | _ => 0

/-- Behind the lock a thread always has its turn; with the flag set by another one, the next to
the last is to see that. -/
theorem critical_moves (health : Nat → Bool) (hCritical : inCritical pc = true) (hKnows : Knows pc s) (hActive : s.recoveryActive = true) :
    ∃ pc' s', next health pc s = some (pc', s') ∧ turnsLeft pc' < turnsLeft pc := by
  have hClaims : claims pc = false := by
    rw [Bool.eq_false_iff]
    intro hClaims
    rw [hKnows.claims hClaims] at hActive
    cases hActive
  cases pc with
  | loopDecide => exact ⟨loopUnlock .wait, s, by rw [RecoveryPc.next, if_pos hActive], by decide⟩
  | nowDecide => exact ⟨nowUnlock false, s, by rw [RecoveryPc.next, if_pos hActive], by decide⟩
  | loopClaim => cases hClaims
  | nowClaim => cases hClaims
  | loopCount => exact ⟨_, _, rfl, by decide⟩
  | loopUnlock outcome => cases outcome <;> exact ⟨_, _, rfl, by decide⟩
  | nowUnlock acquired => cases acquired <;> exact ⟨_, _, rfl, by decide⟩
  | clear caller => exact ⟨_, _, rfl, by cases caller <;> decide⟩
  | clearUnlock caller => cases caller <;> exact ⟨_, _, rfl, by decide⟩
  | recovering caller step =>
      cases step with
      | judge =>
          cases hHealth : health s.checks with
          | true => exact ⟨_, _, by rw [RecoveryPc.next, if_pos hHealth], by cases caller <;> decide⟩
          | false => exact ⟨_, _, by rw [RecoveryPc.next, if_neg (by rw [hHealth]; exact Bool.false_ne_true)], by cases caller <;> decide⟩
      | reset => exact ⟨_, _, rfl, by cases caller <;> decide⟩
      | unlock => exact ⟨_, _, rfl, by cases caller <;> decide⟩
      | _ => cases hCritical
  | _ => cases hCritical

/-- With the mutex free, so has the thread with the flag. -/
theorem holder_moves (health : Nat → Bool) (hHolds : holdsFlag pc = true) (hKnows : Knows pc s) (hActive : s.recoveryActive = true)
    (hFree : s.locked = false) : ∃ pc' s', next health pc s = some (pc', s') ∧ turnsLeft pc' < turnsLeft pc := by
  have hNot : ¬s.locked = true := by
    rw [hFree]
    exact Bool.false_ne_true
  cases hCritical : inCritical pc with
  | true => exact critical_moves health hCritical hKnows hActive
  | false =>
      cases pc with
      | clearLock caller => exact ⟨_, _, by rw [RecoveryPc.next, if_neg hNot], by cases caller <;> decide⟩
      | recovering caller step =>
          cases step with
          | lock => exact ⟨_, _, by rw [RecoveryPc.next, if_neg hNot], by cases caller <;> decide⟩
          | container => exact ⟨_, _, rfl, by cases caller <;> decide⟩
          | admin => exact ⟨_, _, rfl, by cases caller <;> decide⟩
          | sites => exact ⟨_, _, rfl, by cases caller <;> decide⟩
          | _ => cases hCritical
      | loopUnlock outcome => cases hCritical
      | nowUnlock acquired => cases hCritical
      | loopCount => cases hCritical
      | clear caller => cases hCritical
      | _ => cases hHolds

/-- While the flag is set, some thread has a turn that brings its release nearer. -/
theorem exists_turn (health : Nat → Bool) {system : System RecoveryState RecoveryPc} (h : Sound system)
    (hActive : system.shared.recoveryActive = true) :
    ∃ before pc after pc' s', system.threads = before ++ pc :: after ∧ next health pc system.shared = some (pc', s') ∧
      turnsLeft pc' < turnsLeft pc := by
  have hHolder : 0 < system.threads.countP holdsFlag := by
    rw [h.flag, hActive]
    decide
  cases hLocked : system.shared.locked with
  | true =>
      have hInside : 0 < system.threads.countP inCritical := by
        rw [h.lock, hLocked]
        decide
      obtain ⟨pc, hPc, hCritical⟩ := List.countP_pos_iff.mp hInside
      obtain ⟨pc', s', hNext, hLess⟩ := critical_moves health hCritical (h.knows pc hPc) hActive
      obtain ⟨before, after, hThreads⟩ := List.append_of_mem hPc
      exact ⟨before, pc, after, pc', s', hThreads, hNext, hLess⟩
  | false =>
      obtain ⟨pc, hPc, hHolds⟩ := List.countP_pos_iff.mp hHolder
      obtain ⟨pc', s', hNext, hLess⟩ := holder_moves health hHolds (h.knows pc hPc) hActive hLocked
      obtain ⟨before, after, hThreads⟩ := List.append_of_mem hPc
      exact ⟨before, pc, after, pc', s', hThreads, hNext, hLess⟩

theorem turn_resume (health : Nat → Bool) {before after : List RecoveryPc} (hNext : next health pc s = some (pc', s')) :
    (recoveryManager health).turn ⟨s, before ++ pc :: after⟩ (.resume before.length) = ⟨s', before ++ pc' :: after⟩ := by
  have hProgram : (recoveryManager health).next pc s = some (pc', s') := hNext
  simp [Program.turn, hProgram]

/-- From any state with the flag set, the threads that are there can release it, in no more turns
than they have left. -/
theorem exists_release (health : Nat → Bool) (bound : Nat) {system : System RecoveryState RecoveryPc} (h : Sound system)
    (hBound : (system.threads.map turnsLeft).sum ≤ bound) :
    ∃ turns : List Nat, turns.length ≤ bound ∧
      ((recoveryManager health).run system (turns.map Choice.resume)).shared.recoveryActive = false := by
  induction bound generalizing system with
  | zero =>
      cases hActive : system.shared.recoveryActive with
      | false => exact ⟨[], Nat.le_refl _, hActive⟩
      | true =>
          obtain ⟨before, pc, after, pc', s', hThreads, -, hLess⟩ := exists_turn health h hActive
          rw [hThreads, List.map_append, List.map_cons, List.sum_append, List.sum_cons] at hBound
          omega
  | succ bound ih =>
      cases hActive : system.shared.recoveryActive with
      | false => exact ⟨[], Nat.zero_le _, hActive⟩
      | true =>
          obtain ⟨before, pc, after, pc', s', hThreads, hNext, hLess⟩ := exists_turn health h hActive
          have hSystem : system = ⟨system.shared, before ++ pc :: after⟩ := by rw [← hThreads]
          have hTurn : (recoveryManager health).turn system (.resume before.length) = ⟨s', before ++ pc' :: after⟩ := by
            rw [hSystem]
            exact turn_resume health hNext
          have hSound : Sound ⟨s', before ++ pc' :: after⟩ := hTurn ▸ (sound_preserves health).turn h (.resume before.length)
          rw [hThreads, List.map_append, List.map_cons, List.sum_append, List.sum_cons] at hBound
          obtain ⟨turns, hLength, hReleased⟩ := ih hSound (by
            rw [List.map_append, List.map_cons, List.sum_append, List.sum_cons]
            omega)
          refine ⟨before.length :: turns, Nat.succ_le_succ hLength, ?_⟩
          rw [List.map_cons, Program.run, List.foldl_cons, hTurn]
          exact hReleased

theorem turnsLeft_le (pc : RecoveryPc) : turnsLeft pc ≤ 13 * (holdsFlag pc).toNat + 2 * (inCritical pc).toNat := by
  cases pc with
  | loopUnlock outcome => cases outcome <;> decide
  | nowUnlock acquired => cases acquired <;> decide
  | recovering caller step => cases step <;> cases caller <;> decide
  | clearLock caller => cases caller <;> decide
  | clear caller => cases caller <;> decide
  | clearUnlock caller => cases caller <;> decide
  | loopDecide => decide
  | loopCount => decide
  | nowDecide => decide
  | _ => exact Nat.zero_le _

theorem sum_turnsLeft_le (threads : List RecoveryPc) :
    (threads.map turnsLeft).sum ≤ 13 * threads.countP holdsFlag + 2 * threads.countP inCritical := by
  induction threads with
  | nil => exact Nat.zero_le _
  | cons pc rest ih =>
      have hPc := turnsLeft_le pc
      have hCons : ∀ p : RecoveryPc → Bool, (pc :: rest).countP p = rest.countP p + (p pc).toNat := by
        intro p
        rw [List.countP_cons]
        cases p pc <;> rfl
      rw [List.map_cons, List.sum_cons, hCons, hCons]
      omega

/-- What the claim of the flag and its release frame is a recovery, and nothing else is one. -/
theorem holdsFlag_of_inRecover (h : inRecover pc = true) : holdsFlag pc = true := by
  cases pc with
  | recovering caller step => rfl
  | _ => cases h

theorem countP_isStart_le {segment earlier : List RecoveryEvent} (h : ∀ event ∈ segment, isBoundary event = false) :
    segment.countP isStart ≤ startsSince (segment ++ earlier) := by
  rw [startsSince, List.takeWhile_append_of_pos fun event hEvent => by rw [h event hEvent]; rfl, List.countP_append]
  exact Nat.le_add_right _ _

/-- In every schedule: one recovery at a time; the flag is set exactly while a thread is between
its claim and its release, which frame a recovery, and a few turns of the threads that are there
can always release it; and the loop starts no more recoveries than the retries in a part of the
log without a healthy check or a cooldown. -/
theorem recovery_exclusion (health : Nat → Bool) (schedule : List (Choice RecoveryPc)) :
    let system := (recoveryManager health).run started schedule
    system.threads.countP inRecover ≤ 1 ∧
    (system.shared.recoveryActive = true ↔ ∃ pc ∈ system.threads, holdsFlag pc = true) ∧
    (∀ pc ∈ system.threads, inRecover pc = true → system.shared.recoveryActive = true) ∧
    (∃ turns : List Nat, turns.length ≤ 15 ∧
      ((recoveryManager health).run system (turns.map Choice.resume)).shared.recoveryActive = false) ∧
    ∀ later segment earlier, system.shared.log = later ++ (segment ++ earlier) →
      (∀ event ∈ segment, isBoundary event = false) → segment.countP isStart ≤ maxRetries := by
  intro system
  have hSound : Sound system := sound_run health schedule
  have hHolders : system.threads.countP holdsFlag ≤ 1 := hSound.flag.le.trans (Bool.toNat_le _)
  have hFlag : system.shared.recoveryActive = true ↔ ∃ pc ∈ system.threads, holdsFlag pc = true := by
    rw [← List.countP_pos_iff, hSound.flag]
    cases system.shared.recoveryActive <;> decide
  refine ⟨?_, hFlag, fun pc hPc hRecover => hFlag.mpr ⟨pc, hPc, holdsFlag_of_inRecover hRecover⟩, ?_, ?_⟩
  · exact (List.countP_mono_left fun pc _ hRecover => holdsFlag_of_inRecover hRecover).trans hHolders
  · refine exists_release health 15 hSound ((sum_turnsLeft_le _).trans ?_)
    have hInside : system.threads.countP inCritical ≤ 1 := hSound.lock.le.trans (Bool.toNat_le _)
    omega
  · intro later segment earlier hLog hSegment
    have hPast : startsSince (segment ++ earlier) ≤ maxRetries := hSound.past _ (hLog ▸ List.suffix_append later (segment ++ earlier))
    exact (countP_isStart_le hSegment).trans hPast

end ContainerCP.Recovery
