import Mathlib.Data.List.Basic

/-! Threads that take turns on one shared state. Each thread is where its
program counter is; a schedule says which thread moves next and when new
threads come in. Every property here holds for every schedule. -/
namespace ContainerCP.Concurrency

variable {Shared Pc : Type}

/-- The shared state and the threads, in the order in which they came in. A
thread that is done stays in the list. -/
structure System (Shared Pc : Type) where
  shared : Shared
  threads : List Pc

/-- One entry of a schedule. -/
inductive Choice (Pc : Type) where
  | start (entry : Pc)
  | resume (thread : Nat)

/-- What a program is: where threads may start, and what one atomic step does.
`none` is a thread that is blocked, or done. -/
structure Program (Shared Pc : Type) where
  entry : Pc → Bool
  next : Pc → Shared → Option (Pc × Shared)

namespace Program

variable (program : Program Shared Pc)

/-- One turn. A turn of a thread that cannot move changes nothing. -/
def turn (system : System Shared Pc) : Choice Pc → System Shared Pc
  | .start entry =>
      if program.entry entry then { system with threads := system.threads ++ [entry] } else system
  | .resume thread =>
      match system.threads[thread]? with
      | none => system
      | some pc =>
          match program.next pc system.shared with
          | none => system
          | some (pc', shared') => { shared := shared', threads := system.threads.set thread pc' }

def run (system : System Shared Pc) (schedule : List (Choice Pc)) : System Shared Pc :=
  schedule.foldl program.turn system

theorem run_append (system : System Shared Pc) (first second : List (Choice Pc)) :
    program.run system (first ++ second) = program.run (program.run system first) second :=
  List.foldl_append

/-- What a turn can do: nothing, let a thread in, or let one thread take a step. -/
theorem turn_cases (system : System Shared Pc) (choice : Choice Pc) :
    (program.turn system choice = system ∧ ∀ thread pc, choice = .resume thread →
      system.threads[thread]? = some pc → program.next pc system.shared = none) ∨
    (∃ entry, choice = .start entry ∧ program.entry entry = true ∧
      program.turn system choice = ⟨system.shared, system.threads ++ [entry]⟩) ∨
    ∃ thread before pc after pc' shared', choice = .resume thread ∧ system.threads[thread]? = some pc ∧
      program.next pc system.shared = some (pc', shared') ∧ system.threads = before ++ pc :: after ∧
      program.turn system choice = ⟨shared', before ++ pc' :: after⟩ := by
  cases choice with
  | start entry =>
      by_cases hEntry : program.entry entry = true
      · exact .inr (.inl ⟨entry, rfl, hEntry, by simp [turn, hEntry]⟩)
      · exact .inl ⟨by simp [turn, hEntry], by simp⟩
  | resume thread =>
      cases hPc : system.threads[thread]? with
      | none => exact .inl ⟨by simp [turn, hPc], by rintro _ _ ⟨⟩ hSome; cases hPc.symm.trans hSome⟩
      | some pc =>
          cases hNext : program.next pc system.shared with
          | none =>
              exact .inl ⟨by simp [turn, hPc, hNext], by rintro _ _ ⟨⟩ hSome; cases hPc.symm.trans hSome; exact hNext⟩
          | some result =>
              obtain ⟨hLt, rfl⟩ := List.getElem?_eq_some_iff.mp hPc
              refine .inr (.inr ⟨thread, system.threads.take thread, _, system.threads.drop (thread + 1),
                result.1, result.2, rfl, hPc, hNext, ?_, ?_⟩)
              · rw [List.getElem_cons_drop, List.take_append_drop]
              · simp [turn, hNext, List.set_eq_take_append_cons_drop, hLt]

/-- An invariant of a program: it does not mind a thread that comes in, nor a
step of any thread among the others. -/
structure Preserves (Inv : System Shared Pc → Prop) : Prop where
  start : ∀ shared threads entry, program.entry entry = true → Inv ⟨shared, threads⟩ →
    Inv ⟨shared, threads ++ [entry]⟩
  resume : ∀ shared before pc after pc' shared', program.next pc shared = some (pc', shared') →
    Inv ⟨shared, before ++ pc :: after⟩ → Inv ⟨shared', before ++ pc' :: after⟩

variable {program} {Inv : System Shared Pc → Prop}

theorem Preserves.turn (h : program.Preserves Inv) {system : System Shared Pc} (hInv : Inv system)
    (choice : Choice Pc) : Inv (program.turn system choice) := by
  rcases program.turn_cases system choice with ⟨hSame, -⟩ | ⟨entry, -, hEntry, hTurn⟩ |
    ⟨thread, before, pc, after, pc', shared', -, -, hNext, hThreads, hTurn⟩
  · rwa [hSame]
  · rw [hTurn]
    exact h.start _ _ entry hEntry hInv
  · rw [hTurn]
    refine h.resume system.shared before pc after pc' shared' hNext ?_
    rwa [← hThreads]

/-- What holds at the start and is preserved holds after every schedule. -/
theorem Preserves.run (h : program.Preserves Inv) {system : System Shared Pc} (hInv : Inv system)
    (schedule : List (Choice Pc)) : Inv (program.run system schedule) := by
  induction schedule generalizing system with
  | nil => exact hInv
  | cons choice rest ih => exact ih (h.turn hInv choice)

end Program

/-! ## What only one thread has -/

/-- Where every value is had once, two places that have it are one. -/
theorem index_eq_of_nodup_filterMap {α β : Type} {f : α → Option β} {list : List α} (h : (list.filterMap f).Nodup)
    {i j : Nat} {a b : α} {value : β} (hi : list[i]? = some a) (hj : list[j]? = some b) (ha : f a = some value)
    (hb : f b = some value) : i = j := by
  induction list generalizing i j with
  | nil => simp at hi
  | cons head rest ih =>
      have hRest : (rest.filterMap f).Nodup := by
        cases hHead : f head with
        | none => rwa [List.filterMap_cons_none hHead] at h
        | some other =>
            rw [List.filterMap_cons_some hHead] at h
            exact (List.nodup_cons.mp h).2
      have hAway : ∀ {k : Nat} {c : α}, f head = some value → rest[k]? = some c → f c = some value → False := by
        intro k c hHead hk hc
        rw [List.filterMap_cons_some hHead] at h
        exact (List.nodup_cons.mp h).1 (List.mem_filterMap.mpr ⟨c, List.mem_of_getElem? hk, hc⟩)
      cases i with
      | zero =>
          obtain rfl : head = a := by simpa using hi
          cases j with
          | zero => rfl
          | succ j => exact (hAway ha (by simpa using hj) hb).elim
      | succ i =>
          cases j with
          | zero =>
              obtain rfl : head = b := by simpa using hj
              exact (hAway hb (by simpa using hi) ha).elim
          | succ j => exact congrArg (· + 1) (ih hRest (by simpa using hi) (by simpa using hj))

end ContainerCP.Concurrency
