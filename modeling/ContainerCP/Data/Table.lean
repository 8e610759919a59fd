import Mathlib.Data.List.AList

/-! Tables from keys to values, as an unordered map of the standard library keeps
them: at most one value for each key, and an order that nothing may rely on. -/
namespace ContainerCP

abbrev Table (Key Value : Type) := AList fun _ : Key => Value

namespace Table

variable {Key Value : Type}

/-- Change every value. -/
def mapValues (f : Value → Value) (table : Table Key Value) : Table Key Value where
  entries := table.entries.map fun entry => ⟨entry.1, f entry.2⟩
  nodupKeys := by
    rw [List.NodupKeys, List.keys, List.map_map]
    exact table.nodupKeys

/-- The values, in the order of the iteration. -/
def values (table : Table Key Value) : List Value := table.entries.map fun entry => entry.2

variable [DecidableEq Key]

theorem dlookup_map (f : Value → Value) (key : Key) (entries : List (Sigma fun _ : Key => Value)) :
    (entries.map fun entry => (⟨entry.1, f entry.2⟩ : Sigma fun _ : Key => Value)).dlookup key =
      (entries.dlookup key).map f := by
  induction entries with
  | nil => rfl
  | cons entry rest ih =>
      obtain ⟨key', value⟩ := entry
      by_cases hKey : key = key'
      · subst hKey
        simp
      · rw [List.map_cons, List.dlookup_cons_ne _ _ hKey, List.dlookup_cons_ne _ _ hKey, ih]

@[simp]
theorem lookup_mapValues (f : Value → Value) (key : Key) (table : Table Key Value) :
    (table.mapValues f).lookup key = (table.lookup key).map f :=
  dlookup_map f key table.entries

theorem mem_values {table : Table Key Value} {value : Value} :
    value ∈ table.values ↔ ∃ key, table.lookup key = some value := by
  constructor
  · intro h
    obtain ⟨⟨key, _⟩, hEntry, rfl⟩ := List.mem_map.mp h
    exact ⟨key, AList.mem_lookup_iff.mpr hEntry⟩
  · rintro ⟨key, hLookup⟩
    exact List.mem_map.mpr ⟨⟨key, value⟩, AList.mem_lookup_iff.mp hLookup, rfl⟩

end Table

end ContainerCP
