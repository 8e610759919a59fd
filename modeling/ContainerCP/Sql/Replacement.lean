import ContainerCP.Sql.Script
import Mathlib.Data.List.Nodup
import Mathlib.Data.List.Sort

/-! The replacement of a whole table in a transaction of its own, and a table that is read
in the order of a key. -/
namespace ContainerCP.Sql

section Replacing

variable {Data R : Type}

/-- The statements of a replacement: what becomes of each, and what it does. -/
structure Replacement (Data R : Type) where
  guard : Script.Guard
  onClear : Verdict
  clear : Data → Option Data
  onWrite : Nat → Verdict
  write : Nat → R → Data → Option Data

namespace Replacement

variable (replacement : Replacement Data R)

/-- The loop over the records, which ends with the first one that is not written. -/
def writeAll : Nat → List R → Script Unit Data Empty Bool
  | _, [] => pure true
  | index, record :: rest => do
      if ← Script.exec (replacement.onWrite index) (replacement.write index record) then
        writeAll (index + 1) rest
      else
        return false

def run (records : List R) : Script Unit Data Empty Bool :=
  Script.transaction replacement.guard () do
    if ← Script.exec replacement.onClear replacement.clear then
      replacement.writeAll 0 records
    else
      return false

variable {replacement} {savepoints : List (Unit × Data)} {Holds : List R → Data → Prop}

/-- The loop keeps what each written record keeps. -/
theorem writeAll_inside
    (hWrite : ∀ written record index data data', Holds written data →
      replacement.write index record data = some data' → Holds (written ++ [record]) data')
    (records written : List R) (index : Nat) :
    Triple.Inside savepoints (Holds written) (replacement.writeAll index records)
      (fun answer data => answer = true → Holds (written ++ records) data) := by
  induction records generalizing index written with
  | nil => exact .pure fun data hData _ => by rwa [List.append_nil]
  | cons record rest ih =>
      refine .bind (fun answer data => answer = true → Holds (written ++ [record]) data)
        (.exec (fun data data' hData hEffect _ => hWrite written record index data data' hData hEffect)
          fun _ _ h => absurd h (by simp)) ?_
      rintro (- | -)
      · exact .pure fun _ _ h => absurd h (by simp)
      · refine (ih (written ++ [record]) (index + 1)).consequence (fun data hData => hData rfl) fun answer data hData hAnswer => ?_
        simpa using hData hAnswer

/-- All or nothing: what is committed after `true` has the property, and after any other end
it is what it was. -/
def AllOrNothing (result : Data → Prop) (before : Connection Unit Data Empty) (outcome : Outcome Unit Data Empty Bool) :
    Prop :=
  match outcome with
  | .done true after => result after.committed
  | .done false after => after.committed = before.committed
  | .stopped after => after.committed = before.committed

/-- A replacement writes all records or nothing, whatever becomes of its statements. -/
theorem run_allOrNothing (hClear : ∀ data data', replacement.clear data = some data' → Holds [] data')
    (hWrite : ∀ written record index data data', Holds written data →
      replacement.write index record data = some data' → Holds (written ++ [record]) data')
    (records : List R) (before : Connection Unit Data Empty) :
    AllOrNothing (Holds records) before (replacement.run records before) := by
  have hBody : Triple.Inside [((), before.committed)] (fun data => data = before.committed)
      (do
        if ← Script.exec replacement.onClear replacement.clear then
          replacement.writeAll 0 records
        else
          return false)
      (fun answer data => answer = true → Holds records data) := by
    refine .bind (fun answer data => answer = true → Holds [] data)
      (.exec (fun data data' _ hEffect _ => hClear data data' hEffect) fun _ _ h => absurd h (by simp)) ?_
    rintro (- | -)
    · exact .pure fun _ _ h => absurd h (by simp)
    · exact (writeAll_inside hWrite records [] 0).consequence (fun data hData => hData rfl) fun _ _ h => h
  have hRun := @Triple.transaction _ _ _ replacement.guard _ _ _ _ hBody before rfl
  rw [run]
  generalize Script.transaction replacement.guard () _ before = outcome at hRun ⊢
  cases outcome with
  | stopped after => exact hRun
  | done answer after =>
      cases answer with
      | true => exact hRun.1 rfl
      | false => exact hRun.2 rfl

end Replacement

theorem Replacement.AllOrNothing.imp {result result' : Data → Prop} (hImp : ∀ data, result data → result' data)
    {before : Connection Unit Data Empty} {outcome : Outcome Unit Data Empty Bool}
    (h : AllOrNothing result before outcome) : AllOrNothing result' before outcome := by
  cases outcome with
  | stopped after => exact h
  | done answer after =>
      cases answer with
      | true => exact hImp _ h
      | false => exact h

end Replacing

section Ordering

variable {R S K : Type} [LinearOrder K]

/-- `ORDER BY` a key. -/
def orderBy (key : R → K) (records : List R) : List R := records.insertionSort fun r s => key r ≤ key s

variable {key : R → K} {records : List R}

theorem orderBy_perm (key : R → K) (records : List R) : (orderBy key records).Perm records :=
  List.perm_insertionSort _ _

theorem orderBy_pairwise (key : R → K) (records : List R) : (orderBy key records).Pairwise fun r s => key r ≤ key s := by
  have : Std.Total (fun r s => key r ≤ key s) := ⟨fun r s => le_total (key r) (key s)⟩
  have : IsTrans R (fun r s => key r ≤ key s) := ⟨fun _ _ _ => le_trans⟩
  exact List.pairwise_insertionSort _ _

theorem orderBy_eq_self (h : records.Pairwise fun r s => key r ≤ key s) : orderBy key records = records :=
  h.insertionSort_eq

/-- With different keys there is one order. -/
theorem orderBy_eq_of_perm {ordered : List R} (hOrdered : ordered.Pairwise fun r s => key r < key s)
    (hPerm : ordered.Perm records) : orderBy key records = ordered := by
  have hPerms : (orderBy key records).Perm ordered := (orderBy_perm key records).trans hPerm.symm
  have hSame : ∀ r s, r ∈ orderBy key records → s ∈ ordered → key r ≤ key s → key s ≤ key r → r = s := by
    intro r s hR hS hLe hGe
    have hKeys : (ordered.map key).Nodup := List.pairwise_map.mpr (hOrdered.imp ne_of_lt)
    exact List.inj_on_of_nodup_map hKeys (hPerms.mem_iff.mp hR) hS (le_antisymm hLe hGe)
  exact hPerms.eq_of_pairwise hSame (orderBy_pairwise key records) (hOrdered.imp le_of_lt)

theorem orderBy_map (f : S → R) (key : R → K) (records : List S) :
    orderBy key (records.map f) = (orderBy (fun s => key (f s)) records).map f :=
  (List.map_insertionSort _ _ f records fun _ _ _ _ => Iff.rfl).symm

/-- The records come back as they were exactly if they are in order and none is changed. -/
theorem map_orderBy_eq_iff {f : R → R} (hKey : ∀ r, key (f r) = key r) :
    (orderBy key records).map f = records ↔
      (records.Pairwise fun r s => key r ≤ key s) ∧ ∀ r ∈ records, f r = r := by
  constructor
  · intro hSame
    have hPairwise : records.Pairwise fun r s => key r ≤ key s := by
      rw [← hSame, List.pairwise_map]
      simpa only [hKey] using orderBy_pairwise key records
    refine ⟨hPairwise, ?_⟩
    rw [orderBy_eq_self hPairwise] at hSame
    exact List.map_eq_map_iff.mp (hSame.trans (List.map_id records).symm)
  · rintro ⟨hPairwise, hFixed⟩
    rw [orderBy_eq_self hPairwise]
    exact (List.map_eq_map_iff.mpr hFixed).trans (List.map_id records)

end Ordering

end ContainerCP.Sql
