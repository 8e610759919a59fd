import ContainerCP.Control.Procedure
import ContainerCP.Posix.Filesystem

/-! A process that makes one call after the other. Each call works, or fails, or is
the one in front of which the process stops. -/
namespace ContainerCP.Posix

open Control

inductive Verdict where
  | works
  | fails
  | stops
  deriving DecidableEq

/-- Why a process did not come to its end. -/
inductive Interrupt where
  | stop
  | exception
  deriving DecidableEq

abbrev Process := EStateM Interrupt Tree

/-- A call that may change the tree. One that is to work can still fail, when the
tree does not have what it needs. -/
def call (verdict : Verdict) (effect : Tree → Except Errno Tree) : Process (Except Errno Unit) := fun tree =>
  match verdict with
  | .stops => .error .stop tree
  | .fails => .ok (.error .other) tree
  | .works =>
      match effect tree with
      | .ok tree' => .ok (.ok ()) tree'
      | .error errno => .ok (.error errno) tree

def attempt (verdict : Verdict) (effect : Tree → Except Errno Tree) : Process Bool := do
  let result ← call verdict effect
  return result.toBool

/-- A call that only looks. -/
def observe {α : Type} (verdict : Verdict) (look : Tree → α) (failure : α) : Process α := fun tree =>
  match verdict with
  | .stops => .error .stop tree
  | .fails => .ok failure tree
  | .works => .ok (look tree) tree

theorem attempt_works (effect : Tree → Except Errno Tree) (tree : Tree) :
    attempt .works effect tree =
      match effect tree with
      | .ok tree' => .ok true tree'
      | .error _ => .ok false tree := by
  show EStateM.bind (call .works effect) _ tree = _
  unfold EStateM.bind call
  cases effect tree with
  | ok tree' => rfl
  | error errno => rfl

variable {P : Tree → Prop} {exit : Interrupt → Tree → Prop} {verdict : Verdict} {effect : Tree → Except Errno Tree}

theorem spec_call {post : Except Errno Unit → Tree → Prop} (hStops : ∀ tree, P tree → exit .stop tree)
    (hFails : ∀ tree errno, P tree → post (.error errno) tree)
    (hWorks : ∀ tree tree', P tree → effect tree = .ok tree' → post (.ok ()) tree') :
    Spec P (call verdict effect) post exit := by
  intro tree hPre
  unfold call
  cases verdict with
  | stops => exact hStops tree hPre
  | fails => exact hFails tree .other hPre
  | works =>
      cases hEffect : effect tree with
      | ok tree' => exact hWorks tree tree' hPre hEffect
      | error errno => exact hFails tree errno hPre

theorem spec_attempt {post : Bool → Tree → Prop} (hStops : ∀ tree, P tree → exit .stop tree)
    (hFails : ∀ tree, P tree → post false tree)
    (hWorks : ∀ tree tree', P tree → effect tree = .ok tree' → post true tree') :
    Spec P (attempt verdict effect) post exit := by
  refine Spec.bind (fun result => post result.toBool) ?_ fun result tree h => h
  exact spec_call hStops (fun tree _ => hFails tree) hWorks

/-- A call that keeps what was known, however it ends. -/
theorem spec_attempt_keeps (hExit : ∀ tree, P tree → exit .stop tree)
    (hKeeps : ∀ tree tree', P tree → effect tree = .ok tree' → P tree') :
    Spec P (attempt verdict effect) (fun _ => P) exit :=
  spec_attempt hExit (fun _ h => h) hKeeps

theorem spec_observe {α : Type} {look : Tree → α} {failure : α} {post : α → Tree → Prop}
    (hStops : ∀ tree, P tree → exit .stop tree) (hFails : ∀ tree, P tree → post failure tree)
    (hWorks : ∀ tree, P tree → post (look tree) tree) : Spec P (observe verdict look failure) post exit := by
  intro tree hPre
  unfold observe
  cases verdict with
  | stops => exact hStops tree hPre
  | fails => exact hFails tree hPre
  | works => exact hWorks tree hPre

/-! ## Calls that work -/

variable {Q : Tree → Prop} {tree tree' : Tree} {α : Type}

theorem gives_attempt (hVerdict : verdict = .works) (hEffect : ∀ tree, P tree → ∃ tree', effect tree = .ok tree' ∧ Q tree') :
    Gives P (attempt verdict effect) true Q := by
  intro tree hPre
  obtain ⟨tree', hOk, hPost⟩ := hEffect tree hPre
  refine ⟨tree', ?_, hPost⟩
  rw [Returns, hVerdict, attempt_works, hOk]

theorem gives_observe {look : Tree → α} {failure value : α} (hVerdict : verdict = .works)
    (hLook : ∀ tree, P tree → look tree = value) : Gives P (observe verdict look failure) value P := by
  rintro tree hPre
  refine ⟨tree, ?_, hPre⟩
  rw [Returns, hVerdict, ← hLook tree hPre, observe]

/-- A call that was made worked. -/
theorem works_of_attempt (h : Returns (attempt verdict effect) tree true tree') :
    verdict = .works ∧ effect tree = .ok tree' := by
  obtain ⟨result, middle, hCall, hResult⟩ := Returns.bind_iff.mp h
  obtain ⟨hTrue, rfl⟩ := Returns.pure_iff.mp hResult
  unfold Returns call at hCall
  cases verdict with
  | stops => cases hCall
  | fails =>
      cases hCall
      cases hTrue
  | works =>
      cases hEffect : effect tree with
      | ok made =>
          rw [hEffect] at hCall
          cases hCall
          exact ⟨rfl, rfl⟩
      | error errno =>
          rw [hEffect] at hCall
          cases hCall
          cases hTrue

/-- A procedure that goes on only where a call worked. -/
theorem works_of_guard {next failed : Process α} {value : α} (hFailed : ∀ tree tree', ¬Returns failed tree value tree')
    (h : Returns (attempt verdict effect >>= fun done => if done then next else failed) tree value tree') :
    verdict = .works ∧ ∃ middle, effect tree = .ok middle ∧ Returns next middle value tree' := by
  obtain ⟨done, middle, hDone, hRest⟩ := Returns.bind_iff.mp h
  cases done with
  | false => exact absurd hRest (hFailed _ _)
  | true =>
      obtain ⟨hWorks, hEffect⟩ := works_of_attempt hDone
      exact ⟨hWorks, middle, hEffect, hRest⟩

/-- A call that looks and goes on leaves the tree. -/
theorem returns_observe {look : Tree → α} {failure value : α} (h : Returns (observe verdict look failure) tree value tree') :
    tree' = tree ∧ (verdict = .works ∧ value = look tree ∨ verdict = .fails ∧ value = failure) := by
  unfold Returns observe at h
  cases verdict with
  | stops => cases h
  | fails =>
      cases h
      exact ⟨rfl, .inr ⟨rfl, rfl⟩⟩
  | works =>
      cases h
      exact ⟨rfl, .inl ⟨rfl, rfl⟩⟩

end ContainerCP.Posix
