import ContainerCP.Storage.ConnectionPool
import Mathlib.Algebra.Group.Nat.Defs

/-! The connection that `lease_read` tries next: the counter behind it over the whole life of
the pool. -/
namespace ContainerCP.Storage.ConnectionPool
open Concurrency

/-- The next operation of the thread fetches `read_next_` and computes an index. -/
def fetching : PoolPc → Bool
  | .lease (.fetchNext attempt) => attempt < readPoolSize * 2
  | _ => false

/-- Whether the turn fetches the counter. -/
def fetchesNext (system : System ConnectionPool PoolPc) : Choice PoolPc → Bool
  | .start _ => false
  | .resume thread => (system.threads[thread]?).any fetching

/-- The thread has an index outside the array, or a pointer that it read there. -/
def astray : PoolPc → Bool
  | .lease (.tryBeside _ _) => true
  | .lease (.takeBeside _) => true
  | .lease .heldBeside => true
  | _ => false

variable (beside : Beside)

/-- How often the counter is fetched under a schedule. -/
def fetches : System ConnectionPool PoolPc → List (Choice PoolPc) → Nat
  | _, [] => 0
  | system, choice :: rest =>
      (fetchesNext system choice).toNat + fetches ((program beside).turn system choice) rest

/-- The indices that are computed under a schedule. -/
def indices : System ConnectionPool PoolPc → List (Choice PoolPc) → List Int
  | _, [] => []
  | system, choice :: rest =>
      (if fetchesNext system choice then [readIndex system.shared.readNext] else []) ++
        indices ((program beside).turn system choice) rest

variable {beside}

/-! ## The counter -/

/-- A step of a thread that computes no index outside the array. -/
theorem next_readNext {pc pc' : PoolPc} {pool pool' : ConnectionPool} (h : next beside pc pool = some (pc', pool'))
    (hPc : astray pc = false) (hIndex : fetching pc = true → 0 ≤ readIndex pool.readNext) :
    pool'.readNext = (if fetching pc then pool.readNext + 1 else pool.readNext) ∧ astray pc' = false := by
  cases pc with
  | lease pc =>
      obtain ⟨⟨_, _⟩, hStep, hEq⟩ := Option.map_eq_some_iff.mp h
      cases hEq
      cases pc with
      | fetchNext attempt =>
          simp only [leaseStep] at hStep
          by_cases hAttempt : attempt < readPoolSize * 2
          · rw [if_pos hAttempt, if_pos (hIndex (by simpa [fetching] using hAttempt))] at hStep
            cases hStep
            simp [fetching, hAttempt, astray]
          · rw [if_neg hAttempt] at hStep
            cases hStep
            simp [fetching, hAttempt, astray]
      | tryBeside | takeBeside | heldBeside => cases hPc
      | _ =>
          simp only [leaseStep] at hStep
          (try split at hStep) <;> cases hStep <;> refine ⟨rfl, ?_⟩ <;> (try split) <;> rfl
  | guard pc =>
      obtain ⟨⟨_, _⟩, hStep, hEq⟩ := Option.map_eq_some_iff.mp h
      cases hEq
      cases pc <;> simp only [guardStep] at hStep <;> (try split at hStep) <;> cases hStep <;> exact ⟨rfl, rfl⟩
  | stop pc =>
      obtain ⟨⟨_, _⟩, hStep, hEq⟩ := Option.map_eq_some_iff.mp h
      cases hEq
      cases pc <;> simp only [stopStep] at hStep <;> (try split at hStep) <;> cases hStep <;> exact ⟨rfl, rfl⟩

theorem next_of_fetching {pc : PoolPc} (h : fetching pc = true) (pool : ConnectionPool) :
    ∃ pc' pool', next beside pc pool = some (pc', pool') := by
  revert h
  fun_cases fetching pc with
  | case1 attempt =>
      intro h
      simp only [decide_eq_true_eq] at h
      exact ⟨_, _, by rw [next, leaseStep, if_pos h]; rfl⟩
  | case2 => exact fun h => Bool.noConfusion h

theorem ofNat_succ (k : Nat) : Int32.ofNat k + 1 = Int32.ofNat (k + 1) := by
  rw [Int32.ofNat_add]
  rfl

theorem readIndex_ofNat {j : Nat} (h : j < 2 ^ 31) : readIndex (Int32.ofNat j) = (j % 3 : Nat) := by
  rw [readIndex, Int32.toInt_ofNat_of_lt h]
  rfl

theorem readIndex_wrapped : readIndex (Int32.ofNat (2 ^ 31)) = -2 := by decide

theorem astray_entry {pc : PoolPc} (h : entry pc = true) : astray pc = false := by
  revert h
  fun_cases astray pc <;> simp [entry]

/-- The counter has been fetched `k` times, and every index was in the array. -/
structure Rotated (k : Nat) (system : System ConnectionPool PoolPc) : Prop where
  readNext : system.shared.readNext = Int32.ofNat k
  straight : ∀ thread ∈ system.threads, astray thread = false

theorem rotated_initial (initialized : Bool) : Rotated 0 (initial initialized) :=
  ⟨rfl, by simp [initial]⟩

/-- Before the counter wraps, a thread that fetches it gets an index of the array. -/
theorem Rotated.index {k : Nat} {system : System ConnectionPool PoolPc} (h : Rotated k system) {thread : Nat}
    {pc : PoolPc} (hPc : system.threads[thread]? = some pc)
    (hFew : k + (fetchesNext system (.resume thread)).toNat ≤ 2 ^ 31) (hFetching : fetching pc = true) :
    0 ≤ readIndex system.shared.readNext := by
  rw [fetchesNext, hPc, Option.any_some, hFetching, Bool.toNat_true] at hFew
  rw [h.readNext, readIndex_ofNat (by omega)]
  exact Int.natCast_nonneg _

/-- One turn: the counter is increased where it is fetched. -/
theorem Rotated.turn {k : Nat} {system : System ConnectionPool PoolPc} (h : Rotated k system)
    {choice : Choice PoolPc} (hFew : k + (fetchesNext system choice).toNat ≤ 2 ^ 31) :
    Rotated (k + (fetchesNext system choice).toNat) ((program beside).turn system choice) := by
  rcases (program beside).turn_cases system choice with ⟨hSame, hNone⟩ | ⟨entry, rfl, hEntry, hTurn⟩ |
    ⟨thread, before, pc, after, pc', pool', rfl, hPc, hNext, hThreads, hTurn⟩
  · have hNot : fetchesNext system choice = false := by
      cases choice with
      | start entry => rfl
      | resume thread =>
          cases hPc : system.threads[thread]? with
          | none => simp [fetchesNext, hPc]
          | some pc =>
              by_contra hFetch
              have hFetching : fetching pc = true := by simpa [fetchesNext, hPc] using hFetch
              obtain ⟨pc', pool', hSome⟩ := next_of_fetching hFetching system.shared
              cases (hNone thread pc rfl hPc).symm.trans hSome
    rw [hSame, hNot]
    exact h
  · rw [hTurn]
    refine ⟨h.readNext, fun other hOther => ?_⟩
    rcases List.mem_append.mp hOther with hOld | hNew
    · exact h.straight other hOld
    · rw [List.mem_singleton.mp hNew]
      exact astray_entry hEntry
  · obtain ⟨hReadNext, hPc'⟩ := next_readNext hNext (h.straight pc (List.mem_of_getElem? hPc)) (h.index hPc hFew)
    have hFetch : fetchesNext system (.resume thread) = fetching pc := by simp [fetchesNext, hPc]
    rw [hTurn, hFetch]
    refine ⟨?_, fun other hOther => ?_⟩
    · rw [hReadNext, h.readNext]
      cases fetching pc with
      | false => rfl
      | true => exact ofNat_succ k
    · rcases List.mem_append.mp hOther with hBefore | hRest
      · exact h.straight other (by rw [hThreads]; exact List.mem_append_left _ hBefore)
      · rcases List.mem_cons.mp hRest with rfl | hAfter
        · exact hPc'
        · exact h.straight other (by rw [hThreads]; exact List.mem_append_right _ (List.mem_cons_of_mem _ hAfter))

/-- The indices stay in the array until the counter wraps, and the first one
behind that is `-2`. -/
theorem Rotated.indices_iff (schedule : List (Choice PoolPc)) {k : Nat} {system : System ConnectionPool PoolPc}
    (h : Rotated k system) (hk : k ≤ 2 ^ 31) :
    (∀ idx ∈ indices beside system schedule, 0 ≤ idx ∧ idx < (readPoolSize : Int)) ↔
      k + fetches beside system schedule ≤ 2 ^ 31 := by
  induction schedule generalizing k system with
  | nil => simpa [indices, fetches] using hk
  | cons choice rest ih =>
      rw [indices, fetches]
      cases hFetch : fetchesNext system choice with
      | false =>
          have hTurn := @Rotated.turn beside k system h choice (by rw [hFetch]; exact hk)
          rw [hFetch] at hTurn
          simpa using ih hTurn hk
      | true =>
          by_cases hLast : k = 2 ^ 31
          · have hIndex : readIndex system.shared.readNext = -2 := by rw [h.readNext, hLast, readIndex_wrapped]
            rw [if_pos rfl, hIndex]
            refine iff_of_false (fun hAll => ?_) (by rw [Bool.toNat_true]; omega)
            exact absurd (hAll (-2) (List.mem_append_left _ (List.mem_singleton.mpr rfl))).1 (by decide)
          · have hTurn := @Rotated.turn beside k system h choice (by rw [hFetch, Bool.toNat_true]; omega)
            rw [hFetch] at hTurn
            have hRest := ih hTurn (by rw [Bool.toNat_true]; omega)
            rw [if_pos rfl, h.readNext, readIndex_ofNat (by omega), ← Nat.add_assoc, ← hRest, List.singleton_append,
              List.forall_mem_cons]
            exact and_iff_right ⟨Int.natCast_nonneg _, Int.ofNat_lt.mpr (Nat.mod_lt k (by decide))⟩

/-- The index stays in range for the first `2^31` fetches of the counter, and no longer. -/
theorem indices_inRange_iff (beside : Beside) (initialized : Bool) (schedule : List (Choice PoolPc)) :
    (∀ idx ∈ indices beside (initial initialized) schedule, 0 ≤ idx ∧ idx < (readPoolSize : Int)) ↔
      fetches beside (initial initialized) schedule ≤ 2 ^ 31 := by
  rw [(rotated_initial initialized).indices_iff schedule (Nat.zero_le _), Nat.zero_add]

/-! ## Leases one after the other -/

/-- A thread comes in, takes a lease and gives it back. -/
def leaseCycle (thread : Nat) : List (Choice PoolPc) :=
  .start (.lease .start) :: List.replicate 13 (.resume thread)

def leaseCycles (count : Nat) : List (Choice PoolPc) := (List.range count).flatMap leaseCycle

theorem fetches_append (system : System ConnectionPool PoolPc) (first second : List (Choice PoolPc)) :
    fetches beside system (first ++ second) = fetches beside system first + fetches beside ((program beside).run system first) second := by
  induction first generalizing system with
  | nil => simp [fetches, Program.run]
  | cons choice rest ih =>
      rw [List.cons_append, fetches, fetches, ih, Nat.add_assoc]
      rfl

/-- The pool between two leases. -/
def idle (readNext : Int32) : ConnectionPool := { (initial true).shared with readNext := readNext }

/-- What some turns of a thread come to while the others wait, and how often it fetches the
counter on them. -/
def alone (beside : Beside) : Nat → PoolPc → ConnectionPool → PoolPc × ConnectionPool × Nat
  | 0, pc, pool => (pc, pool, 0)
  | turns + 1, pc, pool =>
      match next beside pc pool with
      | none => (pc, pool, 0)
      | some (pc', pool') =>
          let (last, left, count) := alone beside turns pc' pool'
          (last, left, (fetching pc).toNat + count)

section Alone

variable {before : List PoolPc} {pc : PoolPc} {pool : ConnectionPool}

theorem fetchesNext_last : fetchesNext ⟨pool, before ++ [pc]⟩ (.resume before.length) = fetching pc := by
  simp [fetchesNext]

theorem turn_last_some {pc' : PoolPc} {pool' : ConnectionPool} (h : next beside pc pool = some (pc', pool')) :
    (program beside).turn ⟨pool, before ++ [pc]⟩ (.resume before.length) = ⟨pool', before ++ [pc']⟩ := by
  simp [Program.turn, program, h]

theorem turn_last_none (h : next beside pc pool = none) :
    (program beside).turn ⟨pool, before ++ [pc]⟩ (.resume before.length) = ⟨pool, before ++ [pc]⟩ := by
  simp [Program.turn, program, h]

theorem run_alone beside (turns : Nat) :
    (program beside).run ⟨pool, before ++ [pc]⟩ (List.replicate turns (.resume before.length)) =
        ⟨(alone beside turns pc pool).2.1, before ++ [(alone beside turns pc pool).1]⟩ ∧
      fetches beside ⟨pool, before ++ [pc]⟩ (List.replicate turns (.resume before.length)) = (alone beside turns pc pool).2.2 := by
  induction turns generalizing pc pool with
  | zero => exact ⟨rfl, rfl⟩
  | succ turns ih =>
      rw [List.replicate_succ, Program.run, List.foldl_cons, ← Program.run, fetches, fetchesNext_last, alone]
      cases hNext : next beside pc pool with
      | none =>
          have hNot : fetching pc = false := by
            by_contra hFetching
            obtain ⟨pc', pool', hSome⟩ := next_of_fetching (by simpa using hFetching) pool
            rw [hNext] at hSome
            cases hSome
          have hRest : alone beside turns pc pool = (pc, pool, 0) := by
            cases turns with
            | zero => rfl
            | succ turns => simp only [alone, hNext]
          have hRun := @ih pc pool
          rw [hRest] at hRun
          rw [turn_last_none hNext, hNot]
          exact ⟨hRun.1, by rw [hRun.2]; rfl⟩
      | some result =>
          have hRun := @ih result.1 result.2
          rw [turn_last_some hNext]
          exact ⟨hRun.1, by rw [hRun.2]⟩

/-- A turn that does not fetch the counter. -/
theorem alone_quiet {turns : Nat} {pc' : PoolPc} {pool' : ConnectionPool} (h : next beside pc pool = some (pc', pool'))
    (hQuiet : fetching pc = false) : alone beside (turns + 1) pc pool = alone beside turns pc' pool' := by
  simp [alone, h, hQuiet]

end Alone

/-- Up to the look at the counter. -/
theorem alone_front (readNext : Int32) :
    alone beside 13 (.lease .start) (idle readNext) =
      alone beside 9 (.lease (.fetchNext 0)) { idle readNext with outstandingLeases := 1 } := by
  rw [alone_quiet rfl rfl, alone_quiet rfl rfl, alone_quiet rfl rfl, alone_quiet rfl rfl]
  rfl

theorem alone_cycle {readNext : Int32} (h : 0 ≤ readIndex readNext) :
    alone beside 13 (.lease .start) (idle readNext) = (.lease .done, idle (readNext + 1), 1) := by
  obtain ⟨idx, hIdx⟩ : ∃ idx, idx = Fin.ofNat readPoolSize (readIndex readNext).toNat := ⟨_, rfl⟩
  have hFetch : next beside (.lease (.fetchNext 0)) { idle readNext with outstandingLeases := 1 } =
      some (.lease (.tryNext 0 idx), { idle (readNext + 1) with outstandingLeases := 1 }) := by
    have hIndex : 0 ≤ readIndex (idle readNext).readNext := h
    simp only [next, leaseStep, hIndex, if_true, hIdx]
    rfl
  have hRest : alone beside 8 (.lease (.tryNext 0 idx)) { idle (readNext + 1) with outstandingLeases := 1 } =
      (.lease .done, idle (readNext + 1), 0) := by
    have hFlags : Function.update (Function.update (fun _ => false) idx true) idx false = fun _ => false := by
      rw [Function.update_idem, Function.update_eq_self]
    have hLast : alone beside 8 (.lease (.tryNext 0 idx)) { idle (readNext + 1) with outstandingLeases := 1 } =
        (.lease .done, { idle (readNext + 1) with
          readInUse := Function.update (Function.update (fun _ => false) idx true) idx false }, 0) :=
      match idx with
      | 0 => rfl
      | 1 => rfl
      | 2 => rfl
    rw [hLast, hFlags]
    rfl
  rw [alone_front, alone, hFetch]
  simp only [hRest]
  rfl

/-- Behind `2^31` others a lease finds a null pointer before the array, and is not uncounted. -/
theorem alone_wrapped :
    alone declared 13 (.lease .start) (idle (Int32.ofNat (2 ^ 31))) =
      (.lease .refused, { idle (Int32.ofNat (2 ^ 31) + 0x10001) with outstandingLeases := 1 }, 1) :=
  rfl

theorem run_leaseCycle (readNext : Int32) (before : List PoolPc) :
    (program beside).run ⟨idle readNext, before⟩ (leaseCycle before.length) =
        ⟨(alone beside 13 (.lease .start) (idle readNext)).2.1, before ++ [(alone beside 13 (.lease .start) (idle readNext)).1]⟩ ∧
      fetches beside ⟨idle readNext, before⟩ (leaseCycle before.length) = (alone beside 13 (.lease .start) (idle readNext)).2.2 := by
  have hStart : (program beside).turn ⟨idle readNext, before⟩ (.start (.lease .start)) = ⟨idle readNext, before ++ [.lease .start]⟩ := rfl
  have hRun := @run_alone before (.lease .start) (idle readNext) beside 13
  rw [leaseCycle, Program.run, List.foldl_cons, ← Program.run, fetches, hStart]
  exact ⟨hRun.1, (Nat.zero_add _).trans hRun.2⟩

theorem leaseCycles_succ (count : Nat) : leaseCycles (count + 1) = leaseCycles count ++ leaseCycle count := by
  rw [leaseCycles, List.range_succ, List.flatMap_append, List.flatMap_singleton]
  rfl

/-- As long as the counter has not wrapped, every lease is given back and one fetch is left
behind. -/
theorem run_leaseCycles {count : Nat} (h : count ≤ 2 ^ 31) :
    (program beside).run (initial true) (leaseCycles count) = ⟨idle (Int32.ofNat count), List.replicate count (.lease .done)⟩ ∧
      fetches beside (initial true) (leaseCycles count) = count := by
  induction count with
  | zero => exact ⟨rfl, rfl⟩
  | succ count ih =>
      obtain ⟨hRun, hFetches⟩ := ih (by omega)
      have hCycle := @run_leaseCycle beside (Int32.ofNat count) (List.replicate count (.lease .done))
      have hIndex : 0 ≤ readIndex (Int32.ofNat count) := by
        rw [readIndex_ofNat (by omega)]
        exact Int.natCast_nonneg _
      rw [alone_cycle hIndex, List.length_replicate] at hCycle
      rw [leaseCycles_succ, Program.run_append, fetches_append, hRun, hFetches, hCycle.1, hCycle.2, ofNat_succ,
        ← List.replicate_succ']
      exact ⟨rfl, rfl⟩

/-- One lease behind `2^31` others is refused and stays counted. -/
theorem run_wrapped :
    (program declared).run (initial true) (leaseCycles (2 ^ 31 + 1)) =
        ⟨{ idle (Int32.ofNat (2 ^ 31) + 0x10001) with outstandingLeases := 1 },
          List.replicate (2 ^ 31) (.lease .done) ++ [.lease .refused]⟩ ∧
      fetches declared (initial true) (leaseCycles (2 ^ 31 + 1)) = 2 ^ 31 + 1 := by
  obtain ⟨hRun, hFetches⟩ := @run_leaseCycles declared (2 ^ 31) (Nat.le_refl _)
  have hCycle := @run_leaseCycle declared (Int32.ofNat (2 ^ 31)) (List.replicate (2 ^ 31) (.lease .done))
  rw [alone_wrapped, List.length_replicate] at hCycle
  rw [leaseCycles_succ, Program.run_append, fetches_append, hRun, hFetches, hCycle.1, hCycle.2]
  exact ⟨rfl, rfl⟩

/-- The lease behind `2^31` others computes the index `-2`. -/
theorem indices_wrapped :
    ¬∀ idx ∈ indices declared (initial true) (leaseCycles (2 ^ 31 + 1)), 0 ≤ idx ∧ idx < (readPoolSize : Int) := by
  intro h
  rw [(rotated_initial true).indices_iff _ (Nat.zero_le _), run_wrapped.2] at h
  exact absurd h (by decide)

end ContainerCP.Storage.ConnectionPool
