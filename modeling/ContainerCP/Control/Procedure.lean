import Mathlib.Logic.Basic

/-! Procedures over a state that may return early. A procedure ends with a value,
or leaves with an exit value; the state that it made up to there stays either way. -/
namespace ContainerCP.Control

variable {Exit State α β : Type}

/-- One action on the state, which always goes on. -/
def act (action : State → α × State) : EStateM Exit State α := fun s => .ok (action s).1 (action s).2

/-- Leave the procedure. -/
def leave (exit : State → Exit) : EStateM Exit State α := fun s => .error (exit s) s

/-- A procedure for one case only. -/
def when (condition : Bool) (procedure : EStateM Exit State Unit) : EStateM Exit State Unit :=
  if condition then procedure else pure ()

theorem get_bind {next : State → EStateM Exit State α} (s : State) :
    ((get : EStateM Exit State State) >>= next) s = next s s :=
  rfl

/-- How a procedure ends that returns its exit value too: the two ways out are one. -/
def finish (procedure : EStateM α State α) (s : State) : α × State :=
  match procedure s with
  | .ok value s' => (value, s')
  | .error value s' => (value, s')

/-- The state that a run leaves, whichever way it ended. -/
def stateAfter : EStateM.Result Exit State α → State
  | .ok _ s => s
  | .error _ s => s

/-- The value that a run goes on with. -/
def returned : EStateM.Result Exit State α → Option α
  | .ok value _ => some value
  | .error _ _ => none

/-- From a state with `pre` the procedure ends with `post`, or leaves with `exit`. -/
def Spec (pre : State → Prop) (procedure : EStateM Exit State α) (post : α → State → Prop)
    (exit : Exit → State → Prop) : Prop :=
  ∀ s, pre s →
    match procedure s with
    | .ok value s' => post value s'
    | .error value s' => exit value s'

namespace Spec

variable {pre : State → Prop} {exit : Exit → State → Prop}

theorem pure {value : α} {post : α → State → Prop} (h : ∀ s, pre s → post value s) :
    Spec pre (Pure.pure value : EStateM Exit State α) post exit :=
  h

theorem bind {procedure : EStateM Exit State α} {next : α → EStateM Exit State β} {post : β → State → Prop}
    (mid : α → State → Prop) (hFirst : Spec pre procedure mid exit)
    (hNext : ∀ value, Spec (mid value) (next value) post exit) : Spec pre (procedure >>= next) post exit := by
  intro s hPre
  have hRun := hFirst s hPre
  show match EStateM.bind procedure next s with
    | .ok value s' => post value s'
    | .error value s' => exit value s'
  unfold EStateM.bind
  cases hResult : procedure s with
  | ok value s' =>
      rw [hResult] at hRun
      exact hNext value s' hRun
  | error value s' =>
      rw [hResult] at hRun
      exact hRun

theorem consequence {pre' : State → Prop} {exit' : Exit → State → Prop} {procedure : EStateM Exit State α}
    {post post' : α → State → Prop} (h : Spec pre procedure post exit) (hPre : ∀ s, pre' s → pre s)
    (hPost : ∀ value s, post value s → post' value s) (hExit : ∀ value s, exit value s → exit' value s) :
    Spec pre' procedure post' exit' := by
  intro s hState
  have hRun := h s (hPre s hState)
  cases hResult : procedure s with
  | ok value s' =>
      rw [hResult] at hRun
      exact hPost value s' hRun
  | error value s' =>
      rw [hResult] at hRun
      exact hExit value s' hRun

theorem act {action : State → α × State} {post : α → State → Prop}
    (h : ∀ s, pre s → post (action s).1 (action s).2) : Spec pre (Control.act action : EStateM Exit State α) post exit :=
  h

theorem leave {value : State → Exit} {post : α → State → Prop} (h : ∀ s, pre s → exit (value s) s) :
    Spec pre (Control.leave value : EStateM Exit State α) post exit :=
  h

/-- Where a procedure branches on a condition. -/
theorem branch {condition : Prop} [Decidable condition] {first second : EStateM Exit State α}
    {post : α → State → Prop} (hFirst : condition → Spec pre first post exit)
    (hSecond : ¬condition → Spec pre second post exit) :
    Spec pre (if condition then first else second) post exit := by
  split
  · next h => exact hFirst h
  · next h => exact hSecond h

theorem when {condition : Bool} {procedure : EStateM Exit State Unit} {post : Unit → State → Prop}
    (hRuns : condition = true → Spec pre procedure post exit)
    (hSkips : condition = false → ∀ s, pre s → post () s) : Spec pre (Control.when condition procedure) post exit := by
  cases condition with
  | true => exact hRuns rfl
  | false => exact hSkips rfl

/-- A fact about the state may be taken out of the precondition. -/
theorem given {fact : Prop} {procedure : EStateM Exit State α} {post : α → State → Prop}
    (hFact : ∀ s, pre s → fact) (h : fact → Spec pre procedure post exit) : Spec pre procedure post exit :=
  fun s hPre => h (hFact s hPre) s hPre

theorem stateAfter {procedure : EStateM Exit State α} {P : State → Prop}
    (h : Spec pre procedure (fun _ => P) (fun _ => P)) {s : State} (hPre : pre s) :
    P (Control.stateAfter (procedure s)) := by
  have hRun := h s hPre
  cases hResult : procedure s with
  | ok value s' =>
      rw [hResult] at hRun
      exact hRun
  | error value s' =>
      rw [hResult] at hRun
      exact hRun

theorem finish {procedure : EStateM α State α} {post : α → State → Prop} (h : Spec pre procedure post post)
    {s : State} (hPre : pre s) : post (Control.finish procedure s).1 (Control.finish procedure s).2 := by
  have hRun := h s hPre
  unfold Control.finish
  cases hResult : procedure s with
  | ok value s' =>
      rw [hResult] at hRun
      exact hRun
  | error value s' =>
      rw [hResult] at hRun
      exact hRun

end Spec

/-- From a state the procedure goes on with a value, in another state. -/
def Returns (procedure : EStateM Exit State α) (s : State) (value : α) (s' : State) : Prop := procedure s = .ok value s'

namespace Returns

variable {procedure : EStateM Exit State α} {s s' : State} {value value' : α}

theorem pure_iff : Returns (Pure.pure value : EStateM Exit State α) s value' s' ↔ value' = value ∧ s' = s := by
  constructor
  · intro h
    injection h with hValue hState
    exact ⟨hValue.symm, hState.symm⟩
  · rintro ⟨rfl, rfl⟩
    rfl

theorem bind_iff {next : α → EStateM Exit State β} {result : β} :
    Returns (procedure >>= next) s result s' ↔
      ∃ value middle, Returns procedure s value middle ∧ Returns (next value) middle result s' := by
  have hBind : (procedure >>= next) s =
      match procedure s with
      | .ok value middle => next value middle
      | .error exit middle => .error exit middle := by
    show EStateM.bind procedure next s = _
    unfold EStateM.bind
    cases procedure s with
    | ok value middle => rfl
    | error exit middle => rfl
  constructor
  · intro h
    unfold Returns at h
    rw [hBind] at h
    cases hFirst : procedure s with
    | ok value middle =>
        rw [hFirst] at h
        exact ⟨value, middle, hFirst, h⟩
    | error exit middle =>
        rw [hFirst] at h
        cases h
  · rintro ⟨value, middle, hFirst, hNext⟩
    unfold Returns at hFirst
    unfold Returns
    rw [hBind, hFirst]
    exact hNext

theorem of_returned (h : returned (procedure s) = some value) : ∃ s', Returns procedure s value s' := by
  cases hRun : procedure s with
  | ok value' s' =>
      rw [hRun] at h
      cases h
      exact ⟨s', hRun⟩
  | error exit s' =>
      rw [hRun] at h
      cases h

theorem get_bind_iff {next : State → EStateM Exit State α} :
    Returns ((get : EStateM Exit State State) >>= next) s value s' ↔ Returns (next s) s value s' :=
  Iff.rfl

/-- A procedure returns at most once. -/
theorem unique (h : Returns procedure s value s') {s'' : State} (h' : Returns procedure s value' s'') :
    value' = value ∧ s'' = s' := by
  unfold Returns at h h'
  rw [h] at h'
  injection h' with hValue hState
  exact ⟨hValue.symm, hState.symm⟩

end Returns

/-- From a state with `pre` the procedure goes on with the value, and leaves `post`. -/
def Gives (pre : State → Prop) (procedure : EStateM Exit State α) (value : α) (post : State → Prop) : Prop :=
  ∀ s, pre s → ∃ s', Returns procedure s value s' ∧ post s'

namespace Gives

variable {pre post : State → Prop} {value : α}

theorem of_returns {procedure : EStateM Exit State α} {s : State} (h : Returns procedure s value s) :
    Gives (· = s) procedure value (· = s) := by
  rintro _ rfl
  exact ⟨_, h, rfl⟩

theorem pure (h : ∀ s, pre s → post s) : Gives pre (Pure.pure value : EStateM Exit State α) value post :=
  fun s hPre => ⟨s, rfl, h s hPre⟩

theorem bind {procedure : EStateM Exit State α} {next : α → EStateM Exit State β} {result : β} (mid : State → Prop)
    (hFirst : Gives pre procedure value mid) (hNext : Gives mid (next value) result post) :
    Gives pre (procedure >>= next) result post := by
  intro s hPre
  obtain ⟨middle, hRun, hMid⟩ := hFirst s hPre
  obtain ⟨s', hRest, hPost⟩ := hNext middle hMid
  exact ⟨s', Returns.bind_iff.mpr ⟨value, middle, hRun, hRest⟩, hPost⟩

end Gives

/-- What every action of a procedure keeps, it keeps to its end, whichever way it ends. -/
def Preserves (invariant : State → Prop) (procedure : EStateM Exit State α) : Prop :=
  Spec invariant procedure (fun _ => invariant) (fun _ => invariant)

end ContainerCP.Control
