import Mathlib.Data.List.Nodup

/-! Records with ids that a counter gives out: no two records share an id, and the next id
is above all of them. -/
namespace ContainerCP

structure Registry (Record : Type) (id : Record → Nat) where
  records : List Record
  nextId : Nat
  nodup : (records.map id).Nodup
  below : ∀ record ∈ records, id record < nextId
  positive : 0 < nextId

namespace Registry

variable {Record : Type} {id : Record → Nat}

/-- No record; the counter starts at one. -/
def empty : Registry Record id where
  records := []
  nextId := 1
  nodup := List.nodup_nil
  below := fun _ hMem => absurd hMem List.not_mem_nil
  positive := Nat.one_pos

/-- The first record that a test holds of. -/
def find (registry : Registry Record id) (test : Record → Bool) : Option Record := registry.records.find? test

/-- A new record takes the next id. -/
def create (registry : Registry Record id) (make : Nat → Record) (hMake : ∀ n, id (make n) = n) : Registry Record id where
  records := registry.records ++ [make registry.nextId]
  nextId := registry.nextId + 1
  nodup := by
    rw [List.map_append, List.map_singleton, hMake]
    apply List.Nodup.append registry.nodup (List.nodup_singleton _)
    intro n hMem hLast
    obtain ⟨record, hRecord, rfl⟩ := List.mem_map.mp hMem
    have hBelow := registry.below record hRecord
    rw [List.mem_singleton.mp hLast] at hBelow
    exact absurd hBelow (Nat.lt_irrefl _)
  below := by
    rw [List.forall_mem_append, List.forall_mem_singleton, hMake]
    exact ⟨fun record hMem => Nat.lt_succ_of_lt (registry.below record hMem), Nat.lt_succ_self _⟩
  positive := Nat.succ_pos _

/-- The first record with the id goes. -/
def remove (registry : Registry Record id) (n : Nat) : Registry Record id where
  records := registry.records.eraseP fun record => id record = n
  nextId := registry.nextId
  nodup := registry.nodup.sublist (List.eraseP_sublist.map _)
  below := fun record hMem => registry.below record (List.eraseP_subset hMem)
  positive := registry.positive

/-- A change of the record with an id, which keeps its id. -/
def modify (registry : Registry Record id) (n : Nat) (f : Record → Record) (hf : ∀ record, id (f record) = id record) :
    Registry Record id where
  records := registry.records.map fun record => if id record = n then f record else record
  nextId := registry.nextId
  nodup := by
    have hIds : (registry.records.map fun record => if id record = n then f record else record).map id =
        registry.records.map id := by
      rw [List.map_map]
      apply List.map_congr_left
      intro record _
      rw [Function.comp_apply]
      split
      · exact hf record
      · rfl
    rw [hIds]
    exact registry.nodup
  below := by
    intro record hMem
    obtain ⟨old, hOld, rfl⟩ := List.mem_map.mp hMem
    have hBelow := registry.below old hOld
    split
    · rw [hf]
      exact hBelow
    · exact hBelow
  positive := registry.positive

/-- An id is given out for a record to come. -/
def reserve (registry : Registry Record id) : Registry Record id where
  records := registry.records
  nextId := registry.nextId + 1
  nodup := registry.nodup
  below := fun record hMem => Nat.lt_succ_of_lt (registry.below record hMem)
  positive := Nat.succ_pos _

/-- A record that brings its id, if no other has it. -/
def insert (registry : Registry Record id) (record : Record) : Option (Registry Record id) :=
  if h : id record ∈ registry.records.map id then none
  else
    some {
      records := registry.records ++ [record]
      nextId := max registry.nextId (id record + 1)
      nodup := by
        rw [List.map_append, List.map_singleton]
        exact List.Nodup.append registry.nodup (List.nodup_singleton _) (List.disjoint_singleton.mpr h)
      below := by
        rw [List.forall_mem_append, List.forall_mem_singleton]
        exact ⟨fun other hMem => Nat.lt_of_lt_of_le (registry.below other hMem) (Nat.le_max_left _ _), Nat.le_max_right _ _⟩
      positive := Nat.lt_of_lt_of_le registry.positive (Nat.le_max_left _ _) }

theorem records_insert {registry registry' : Registry Record id} {record : Record} (h : registry.insert record = some registry') :
    registry'.records = registry.records ++ [record] := by
  rw [insert] at h
  split at h
  · cases h
  · rw [← Option.some.inj h]

/-- A reserved id is free. -/
theorem insert_isSome {registry : Registry Record id} {record : Record} (h : ∀ other ∈ registry.records, id other ≠ id record) :
    (registry.insert record).isSome = true := by
  rw [insert, dif_neg, Option.isSome_some]
  intro hMem
  obtain ⟨other, hOther, hId⟩ := List.mem_map.mp hMem
  exact h other hOther hId

@[simp]
theorem nextId_create (registry : Registry Record id) (make : Nat → Record) (hMake : ∀ n, id (make n) = n) :
    (registry.create make hMake).nextId = registry.nextId + 1 := rfl

@[simp]
theorem records_create (registry : Registry Record id) (make : Nat → Record) (hMake : ∀ n, id (make n) = n) :
    (registry.create make hMake).records = registry.records ++ [make registry.nextId] := rfl

@[simp]
theorem nextId_remove (registry : Registry Record id) (n : Nat) : (registry.remove n).nextId = registry.nextId := rfl

/-- Where ids are unique, the records with another id are left. -/
theorem eraseP_eq_filter {records : List Record} (h : (records.map id).Nodup) (n : Nat) :
    (records.eraseP fun record => id record = n) = records.filter fun record => id record ≠ n := by
  induction records with
  | nil => rfl
  | cons record rest ih =>
      rw [List.map_cons, List.nodup_cons] at h
      by_cases hId : id record = n
      · subst hId
        rw [List.eraseP_cons_of_pos (by simp), List.filter_cons_of_neg (by simp)]
        refine (List.filter_eq_self.mpr fun other hMem => ?_).symm
        rw [decide_eq_true_eq]
        exact fun hEq => h.1 (hEq ▸ List.mem_map_of_mem hMem)
      · rw [List.eraseP_cons_of_neg (by simpa using hId), List.filter_cons_of_pos (by simpa using hId), ih h.2]

theorem records_remove (registry : Registry Record id) (n : Nat) :
    (registry.remove n).records = registry.records.filter fun record => id record ≠ n :=
  eraseP_eq_filter registry.nodup n

theorem mem_remove {registry : Registry Record id} {n : Nat} {record : Record} :
    record ∈ (registry.remove n).records ↔ record ∈ registry.records ∧ id record ≠ n := by
  rw [records_remove, List.mem_filter, decide_eq_true_eq]

theorem eq_of_id_eq {registry : Registry Record id} {first second : Record} (hFirst : first ∈ registry.records)
    (hSecond : second ∈ registry.records) (h : id first = id second) : first = second :=
  List.inj_on_of_nodup_map registry.nodup hFirst hSecond h

theorem find_id {registry : Registry Record id} {record : Record} (h : record ∈ registry.records) :
    (registry.find fun other => id other = id record) = some record := by
  cases hFind : registry.find fun other => id other = id record with
  | none => exact absurd (List.find?_eq_none.mp hFind record h) (by simp)
  | some other =>
      have hId : id other = id record := by simpa using List.find?_some hFind
      rw [eq_of_id_eq (List.mem_of_find?_eq_some hFind) h hId]

theorem nextId_ne {registry : Registry Record id} {record : Record} (h : record ∈ registry.records) :
    id record ≠ registry.nextId :=
  Nat.ne_of_lt (registry.below record h)

/-- A change of a record that is removed does not show. -/
theorem records_remove_modify (registry : Registry Record id) (n : Nat) (f : Record → Record)
    (hf : ∀ record, id (f record) = id record) :
    ((registry.modify n f hf).remove n).records = (registry.remove n).records := by
  rw [records_remove, records_remove, modify]
  dsimp only
  rw [List.filter_map]
  have hSame : ∀ record, id (if id record = n then f record else record) = id record := by
    intro record
    split
    · exact hf record
    · rfl
  have hFilter : registry.records.filter ((fun record => decide (id record ≠ n)) ∘
      fun record => if id record = n then f record else record) =
        registry.records.filter fun record => id record ≠ n := by
    apply List.filter_congr
    intro record _
    rw [Function.comp_apply, hSame]
  rw [hFilter]
  apply (List.map_congr_left _).trans (List.map_id _)
  intro record hMem
  rw [List.mem_filter, decide_eq_true_eq] at hMem
  rw [if_neg hMem.2]
  rfl

/-- A new record that is removed again leaves the records as they were. -/
theorem records_remove_create (registry : Registry Record id) (make : Nat → Record) (hMake : ∀ n, id (make n) = n) :
    ((registry.create make hMake).remove registry.nextId).records = registry.records := by
  rw [records_remove, records_create, List.filter_append, List.filter_cons_of_neg (by simp [hMake]), List.filter_nil,
    List.append_nil]
  exact List.filter_eq_self.mpr fun record hMem => decide_eq_true (nextId_ne hMem)

/-- The record found by a test, removed by its id, is the first that the test holds of. -/
theorem records_remove_find {registry : Registry Record id} {test : Record → Bool} {record : Record}
    (h : registry.find test = some record) : (registry.remove (id record)).records = registry.records.eraseP test := by
  obtain ⟨hTest, before, behind, hRecords, hBefore⟩ := List.find?_eq_some_iff_append.mp h
  have hNodup := registry.nodup
  have hMem : ∀ other ∈ before, id other ≠ id record := by
    intro other hOther hEq
    rw [hRecords, List.map_append, List.map_cons, List.nodup_middle, List.nodup_cons] at hNodup
    exact hNodup.1 (hEq ▸ List.mem_append_left _ (List.mem_map_of_mem hOther))
  change registry.records.eraseP (fun other => id other = id record) = registry.records.eraseP test
  rw [hRecords, List.eraseP_append_right _ (by simpa using hMem), List.eraseP_cons_of_pos (by simp),
    List.eraseP_append_right _ (by simpa using hBefore), List.eraseP_cons_of_pos hTest]

end Registry

end ContainerCP
