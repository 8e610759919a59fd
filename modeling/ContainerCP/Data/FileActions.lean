import Mathlib.Data.List.TakeWhile
import Mathlib.Logic.Function.Basic

/-! A list of actions on files, one file each, that ends with the first that fails: what a run
leaves of every file. -/
namespace ContainerCP

variable {File Node : Type}

/-- An action on one file: whether it fails, by what is there, and what it leaves. -/
structure FileAction (File Node : Type) where
  file : File
  fails : Option Node → Bool
  effect : Option Node → Option Node

namespace FileAction

/-- The actions in front of the first that fails. -/
def done (actions : List (FileAction File Node)) (files : File → Option Node) : List (FileAction File Node) :=
  actions.takeWhile fun action => !action.fails (files action.file)

variable {actions : List (FileAction File Node)} {files : File → Option Node}

/-- Without a failure all the actions are done. -/
theorem done_eq_self (h : (actions.find? fun action => action.fails (files action.file)) = none) : done actions files = actions := by
  rw [List.find?_eq_none] at h
  exact List.takeWhile_eq_self_iff.mpr fun action hMem => by simpa using h action hMem

theorem done_congr {other : File → Option Node} (h : ∀ action ∈ actions, other action.file = files action.file) :
    done actions other = done actions files := by
  induction actions with
  | nil => rfl
  | cons action rest ih =>
      rw [done, done, List.takeWhile_cons, List.takeWhile_cons, h action List.mem_cons_self]
      rw [show rest.takeWhile (fun action => !action.fails (other action.file)) =
        rest.takeWhile fun action => !action.fails (files action.file) from ih fun a ha => h a (List.mem_cons_of_mem _ ha)]

theorem find?_congr {other : File → Option Node} (h : ∀ action ∈ actions, other action.file = files action.file) :
    (actions.find? fun action => action.fails (other action.file)) = actions.find? fun action => action.fails (files action.file) := by
  induction actions with
  | nil => rfl
  | cons action rest ih =>
      rw [List.find?_cons, List.find?_cons, h action List.mem_cons_self, ih fun a ha => h a (List.mem_cons_of_mem _ ha)]

variable [DecidableEq File]

/-- The run of some actions: the file of the one that failed, and all the files. -/
def run : List (FileAction File Node) → (File → Option Node) → Option File × (File → Option Node)
  | [], files => (none, files)
  | action :: rest, files =>
      if action.fails (files action.file) then (some action.file, files)
      else run rest (Function.update files action.file (action.effect (files action.file)))

/-- Where no two actions are on one file, each finds its file as it was. -/
theorem run_spec (hNodup : (actions.map file).Nodup) (files : File → Option Node) :
    ((run actions files).1 = (actions.find? fun action => action.fails (files action.file)).map file) ∧
      (∀ action ∈ done actions files, (run actions files).2 action.file = action.effect (files action.file)) ∧
      ∀ f, f ∉ (done actions files).map file → (run actions files).2 f = files f := by
  induction actions generalizing files with
  | nil => exact ⟨rfl, fun _ h => absurd h List.not_mem_nil, fun _ _ => rfl⟩
  | cons action rest ih =>
      rw [List.map_cons, List.nodup_cons] at hNodup
      obtain ⟨hNew, hRest⟩ := hNodup
      cases hFails : action.fails (files action.file) with
      | true =>
          have hDone : done (action :: rest) files = [] := by
            rw [done, List.takeWhile_cons_of_neg (by simp [hFails])]
          rw [hDone, run, if_pos hFails, List.find?_cons, hFails]
          exact ⟨rfl, fun _ h => absurd h List.not_mem_nil, fun _ _ => rfl⟩
      | false =>
          have hDone : done (action :: rest) files = action :: done rest files := by
            rw [done, List.takeWhile_cons_of_pos (by simp [hFails])]
            rfl
          have hSelf : Function.update files action.file (action.effect (files action.file)) action.file =
              action.effect (files action.file) := Function.update_self ..
          have hElse : ∀ f, f ≠ action.file →
              Function.update files action.file (action.effect (files action.file)) f = files f :=
            fun f hNe => Function.update_of_ne hNe _ _
          have hOther : ∀ other ∈ rest,
              Function.update files action.file (action.effect (files action.file)) other.file = files other.file := by
            intro other hMem
            exact hElse _ fun hFile => hNew (hFile ▸ List.mem_map_of_mem hMem)
          rw [hDone, run, if_neg (by simp [hFails]), List.find?_cons, hFails]
          generalize Function.update files action.file (action.effect (files action.file)) = updated at hOther hSelf hElse ⊢
          obtain ⟨hFirst, hEffect, hFrame⟩ := ih hRest updated
          have hSame : done rest updated = done rest files := done_congr hOther
          have hOutside : action.file ∉ (done rest files).map file := by
            intro hMem
            obtain ⟨other, hOtherMem, hFile⟩ := List.mem_map.mp hMem
            exact hNew (hFile ▸ List.mem_map_of_mem ((List.takeWhile_prefix _).subset hOtherMem))
          rw [hSame] at hEffect hFrame
          refine ⟨hFirst.trans ?_, fun other hMem => ?_, fun f hOut => ?_⟩
          · rw [find?_congr hOther]
          · rcases List.mem_cons.mp hMem with rfl | hMem
            · rw [hFrame _ hOutside, hSelf]
            · rw [hEffect other hMem, hOther other ((List.takeWhile_prefix _).subset hMem)]
          · rw [List.map_cons, List.mem_cons, not_or] at hOut
            rw [hFrame f hOut.2, hElse f hOut.1]

/-- A run without a failure has put every action into effect. -/
theorem effect_of_run (hNodup : (actions.map file).Nodup) (h : (run actions files).1 = none) {action : FileAction File Node}
    (hMem : action ∈ actions) : (run actions files).2 action.file = action.effect (files action.file) := by
  obtain ⟨hFirst, hEffect, -⟩ := run_spec hNodup files
  rw [h] at hFirst
  rw [done_eq_self (Option.map_eq_none_iff.mp hFirst.symm)] at hEffect
  exact hEffect action hMem

end FileAction

end ContainerCP
