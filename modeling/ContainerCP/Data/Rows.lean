import Mathlib.Data.List.Nodup

/-! Tables whose rows keep their place, as the rows of a file or of a database do. Each
row has a key, and no two rows have the same. -/
namespace ContainerCP

/-- Rows with distinct keys. -/
structure Rows {Row Key : Type} (key : Row → Key) where
  rows : List Row
  nodup : (rows.map key).Nodup

namespace Rows

variable {Row Key : Type} {key : Row → Key}

@[ext]
theorem ext {table table' : Rows key} (h : table.rows = table'.rows) : table = table' := by
  obtain ⟨rows, hRows⟩ := table
  obtain ⟨rows', hRows'⟩ := table'
  subst h
  rfl

instance [DecidableEq Row] : DecidableEq (Rows key) := fun table table' =>
  decidable_of_iff (table.rows = table'.rows) ⟨ext, congrArg rows⟩

instance : EmptyCollection (Rows key) := ⟨⟨[], List.nodup_nil⟩⟩

theorem eq_of_key_eq (table : Rows key) {row row' : Row} (h : row ∈ table.rows) (h' : row' ∈ table.rows)
    (hKey : key row = key row') : row = row' :=
  List.inj_on_of_nodup_map table.nodup h h' hKey

variable [DecidableEq Key]

/-- The row with a key. -/
def find (table : Rows key) (k : Key) : Option Row := table.rows.find? fun row => key row = k

/-- Replace the row with the same key, or add one at the end. -/
def putRow (key : Row → Key) (row : Row) : List Row → List Row
  | [] => [row]
  | row' :: rest => if key row' = key row then row :: rest else row' :: putRow key row rest

theorem mem_keys_putRow {row : Row} {rows : List Row} {k : Key} (h : k ∈ (putRow key row rows).map key) :
    k = key row ∨ k ∈ rows.map key := by
  induction rows with
  | nil => exact .inl (by simpa [putRow] using h)
  | cons row' rest ih =>
      rw [putRow] at h
      split at h
      · rcases List.mem_cons.mp h with hHead | hRest
        · exact .inl hHead
        · exact .inr (List.mem_cons_of_mem _ hRest)
      · rcases List.mem_cons.mp h with hHead | hRest
        · exact .inr (hHead ▸ List.mem_cons_self)
        · exact (ih hRest).imp_right (List.mem_cons_of_mem _)

theorem nodup_putRow {row : Row} {rows : List Row} (h : (rows.map key).Nodup) :
    ((putRow key row rows).map key).Nodup := by
  induction rows with
  | nil => simp [putRow]
  | cons row' rest ih =>
      obtain ⟨hNew, hRest⟩ := List.nodup_cons.mp h
      rw [putRow]
      split
      · next hKey => exact List.nodup_cons.mpr ⟨hKey ▸ hNew, hRest⟩
      · next hKey =>
          refine List.nodup_cons.mpr ⟨?_, ih hRest⟩
          intro hMem
          rcases mem_keys_putRow hMem with hSame | hOld
          · exact hKey hSame
          · exact hNew hOld

def put (table : Rows key) (row : Row) : Rows key := ⟨putRow key row table.rows, nodup_putRow table.nodup⟩

/-- Take the row with a key out. -/
def erase (table : Rows key) (k : Key) : Rows key :=
  ⟨table.rows.filter fun row => key row ≠ k, table.nodup.sublist (List.filter_sublist.map key)⟩

theorem mem_of_find {table : Rows key} {k : Key} {row : Row} (h : table.find k = some row) : row ∈ table.rows :=
  List.mem_of_find?_eq_some h

theorem key_of_find {table : Rows key} {k : Key} {row : Row} (h : table.find k = some row) : key row = k := by
  simpa using List.find?_some h

theorem find_of_mem {table : Rows key} {row : Row} (h : row ∈ table.rows) : table.find (key row) = some row := by
  cases hFind : table.find (key row) with
  | none => simpa using List.find?_eq_none.mp hFind row h
  | some row' => rw [table.eq_of_key_eq (mem_of_find hFind) h (key_of_find hFind)]

theorem find_eq_none {table : Rows key} {k : Key} : table.find k = none ↔ ∀ row ∈ table.rows, key row ≠ k := by
  simp [find]

/-! ## Rows that are put -/

theorem find?_putRow_self (row : Row) (rows : List Row) :
    (putRow key row rows).find? (fun row' => key row' = key row) = some row := by
  induction rows with
  | nil => simp [putRow]
  | cons row' rest ih =>
      rw [putRow]
      split
      · simp
      · next hKey => simpa [hKey] using ih

@[simp]
theorem find_put_self (table : Rows key) (row : Row) : (table.put row).find (key row) = some row :=
  find?_putRow_self row table.rows

/-! ## Rows that are taken out -/

@[simp]
theorem find_erase_self (table : Rows key) (k : Key) : (table.erase k).find k = none := by
  rw [find_eq_none]
  intro row hRow
  simpa using (List.mem_filter.mp hRow).2

end Rows

end ContainerCP
