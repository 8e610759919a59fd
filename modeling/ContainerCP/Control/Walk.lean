import Mathlib.Logic.Relation

/-! Walks that go on in one way, until there is no way on. -/
namespace ContainerCP

variable {State : Type}

/-- A walk from here comes to its end. -/
inductive Halts (next : State → Option State) : State → Prop
  | stop {p : State} (h : next p = none) : Halts next p
  | step {p q : State} (h : next p = some q) (hMore : Halts next q) : Halts next p

/-- A walk from here comes there. -/
def Reaches (next : State → Option State) : State → State → Prop := Relation.ReflTransGen fun p q => next p = some q

section Walk

variable {next : State → Option State} {p q : State}

theorem Halts.after (h : Halts next p) (hNext : next p = some q) : Halts next q := by
  cases h with
  | stop hStop => cases hStop.symm.trans hNext
  | step hStep hMore => exact Option.some.inj (hStep.symm.trans hNext) ▸ hMore

theorem Halts.reaches (h : Halts next p) (hReaches : Reaches next p q) : Halts next q := by
  induction hReaches with
  | refl => exact h
  | tail _ hStep ih => exact ih.after hStep

/-- A walk that halts never stands still. -/
theorem Halts.ne_some_self (h : Halts next p) : next p ≠ some p := by
  induction h with
  | stop hStop => simp [hStop]
  | step hStep _ ih =>
      intro hStill
      obtain rfl := Option.some.inj (hStep.symm.trans hStill)
      exact ih hStill

/-- Where each step takes a walk nearer to its end, or leaves it where it is, the walk halts if
it never stands still. -/
theorem halts_iff {size : State → Nat} (hSize : ∀ p q, next p = some q → q = p ∨ size q < size p) (start : State) :
    Halts next start ↔ ∀ p, Reaches next start p → next p ≠ some p := by
  constructor
  · exact fun hHalts p hReaches => (hHalts.reaches hReaches).ne_some_self
  · intro hMoves
    induction hMeasure : size start using Nat.strongRecOn generalizing start with
    | ind n ih =>
        subst hMeasure
        cases hNext : next start with
        | none => exact .stop hNext
        | some p =>
            rcases hSize start p hNext with rfl | hLess
            · exact absurd hNext (hMoves p .refl)
            · exact .step hNext (ih _ hLess p (fun q hReaches => hMoves q (hReaches.head hNext)) rfl)

end Walk

end ContainerCP
