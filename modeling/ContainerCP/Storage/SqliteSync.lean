import ContainerCP.Storage.SqliteStorage

/-! What a save leaves in the database. A save that answers `true` has made the
table equal to the supplied records and kept the rows that point to them; any
other end of it leaves the committed database as it was. -/
namespace ContainerCP.Storage

open Sql (Outcome Script Triple)
open Sql.Triple (Inside)

/-- The bound columns of a table. -/
def Table.columns (table : Table) : Std.ExtTreeMap Int64 (List Sql.Cell) := table.map fun _ row => row.cells

/-- The rows of the supplied records; of two records with one id the later one
counts. -/
def Resource.entries (resource : Resource) (records : List resource.Record) : List (Int64 × List Sql.Cell) :=
  records.map fun record => (resource.key record, resource.cells record)

/-- What a save that answered `true` did to the database. -/
structure Saved (resource : Resource) (records : List resource.Record) (before after : SqliteData) : Prop where
  /-- The table equals the supplied rows. -/
  rows : Table.columns (after.tables resource) = .ofList (resource.entries records)
  /-- A row that points to a supplied record is still there, unchanged. -/
  childrenKept : ∀ foreignKey ∈ foreignKeys, foreignKey.parent = resource →
    ∀ (id : Int64) (row : Row) (parent : Int64), (before.tables foreignKey.child)[id]? = some row →
      foreignKey.reference row = some parent → parent ∈ records.map resource.key →
        (after.tables foreignKey.child)[id]? = some row
  /-- No other table has a new or a changed row. -/
  nothingAdded : ∀ other, other ≠ resource → ∀ (id : Int64) (row : Row),
    (after.tables other)[id]? = some row → (before.tables other)[id]? = some row
  /-- What is gone from another table pointed, by a cascading foreign key, to a
  record that was not supplied. -/
  removed : ∀ other, other ≠ resource → ∀ (id : Int64) (row : Row),
    (before.tables other)[id]? = some row →
      (after.tables other)[id]? = some row ∨
        ∃ foreignKey ∈ foreignKeys, foreignKey.child = other ∧ foreignKey.parent = resource ∧
          foreignKey.cascades = true ∧
            ∃ parent, foreignKey.reference row = some parent ∧ parent ∉ records.map resource.key
  mailConfig : after.mailConfig = before.mailConfig

section Statements

variable {resource : Resource} {record : resource.Record} {now : Bytes} {db db' : SqliteData}

theorem Table.columns_insert (table : Table) (id : Int64) (row : Row) :
    Table.columns (table.insert id row) = (Table.columns table).insert id row.cells := by
  apply Std.ExtTreeMap.ext_getElem?
  intro other
  simp only [Table.columns, Std.ExtTreeMap.getElem?_map, Std.ExtTreeMap.getElem?_insert]
  split <;> rfl

/-- What one written record changes. -/
structure Writes (resource : Resource) (record : resource.Record) (db db' : SqliteData) : Prop where
  rows : Table.columns (db'.tables resource) =
    (Table.columns (db.tables resource)).insert (resource.key record) (resource.cells record)
  others : ∀ other, other ≠ resource → db'.tables other = db.tables other
  mailConfig : db'.mailConfig = db.mailConfig

theorem writes_withTable {stamps : List Bytes} :
    Writes resource record db (db.withTable resource
      ((db.tables resource).insert (resource.key record) ⟨resource.cells record, stamps⟩)) where
  rows := by simp [SqliteData.withTable, Table.columns_insert]
  others := fun other hOther => by simp [SqliteData.withTable, hOther]
  mailConfig := rfl

theorem insert_writes (h : SqliteData.insert resource now record db = some db') :
    Writes resource record db db' := by
  simp only [SqliteData.insert] at h
  split at h
  · cases h
    exact writes_withTable
  · cases h

theorem upsert_writes (h : SqliteData.upsert resource now record db = some db') :
    Writes resource record db db' := by
  simp only [SqliteData.upsert] at h
  split at h
  · exact insert_writes h
  · split at h
    · cases h
      exact writes_withTable
    · cases h

theorem foreignKey_child_ne_parent : ∀ foreignKey ∈ foreignKeys, foreignKey.child ≠ foreignKey.parent := by
  decide

/-- What a `DELETE` removes from another table. -/
def Cascades (resource : Resource) (doomed : Int64 → Bool) (db : SqliteData) (other : Resource) (row : Row) :
    Prop :=
  ∃ foreignKey ∈ foreignKeys, foreignKey.child = other ∧ foreignKey.parent = resource ∧
    foreignKey.cascades = true ∧
      ∃ parent, foreignKey.reference row = some parent ∧ doomed parent = true ∧ parent ∈ db.tables resource

theorem pointsTo_iff {foreignKey : ForeignKey} {doomed : Int64 → Bool} {row : Row} :
    db.pointsTo foreignKey doomed row = true ↔
      ∃ parent, foreignKey.reference row = some parent ∧ doomed parent = true ∧
        parent ∈ db.tables foreignKey.parent := by
  simp [SqliteData.pointsTo, Option.any_eq_true]

theorem delete_tables {doomed : Int64 → Bool} (h : SqliteData.delete resource doomed db = some db')
    (other : Resource) (id : Int64) (row : Row) :
    (db'.tables other)[id]? = some row ↔
      (db.tables other)[id]? = some row ∧ ¬(other = resource ∧ doomed id = true) ∧
        ¬Cascades resource doomed db other row := by
  simp only [SqliteData.delete] at h
  split at h
  · cases h
  cases h
  have hCascades : (foreignKeys.all fun foreignKey =>
      !(foreignKey.child = other && foreignKey.parent = resource && foreignKey.cascades &&
        db.pointsTo foreignKey doomed row)) = true ↔ ¬Cascades resource doomed db other row := by
    rw [← Bool.not_eq_false, List.all_eq_false]
    refine not_congr ⟨?_, ?_⟩
    · rintro ⟨foreignKey, hMem, hPoints⟩
      simp only [Bool.not_eq_true', Bool.not_eq_false, Bool.and_eq_true, decide_eq_true_eq, pointsTo_iff]
        at hPoints
      obtain ⟨⟨⟨hChild, rfl⟩, hCascade⟩, hParent⟩ := hPoints
      exact ⟨foreignKey, hMem, hChild, rfl, hCascade, hParent⟩
    · rintro ⟨foreignKey, hMem, hChild, rfl, hCascade, hParent⟩
      refine ⟨foreignKey, hMem, ?_⟩
      simp [hChild, hCascade, pointsTo_iff.mpr hParent]
  rw [Std.ExtTreeMap.getElem?_filter', Option.filter_eq_some_iff, Bool.and_eq_true, hCascades]
  simp [imp_iff_not_or]

theorem delete_mailConfig {doomed : Int64 → Bool} (h : SqliteData.delete resource doomed db = some db') :
    db'.mailConfig = db.mailConfig := by
  simp only [SqliteData.delete] at h
  split at h
  · cases h
  · cases h
    rfl

/-- In the table itself a `DELETE` removes what its condition says. -/
theorem delete_rows {doomed : Int64 → Bool} (h : SqliteData.delete resource doomed db = some db') (id : Int64) :
    (db'.tables resource)[id]? = if doomed id then none else (db.tables resource)[id]? := by
  have hNoCascade : ∀ row, ¬Cascades resource doomed db resource row := by
    rintro row ⟨foreignKey, hMem, hChild, hParent, -⟩
    exact foreignKey_child_ne_parent foreignKey hMem (hChild.trans hParent.symm)
  apply Option.ext
  intro row
  rw [delete_tables h]
  cases hDoomed : doomed id <;> simp [hNoCascade]

end Statements

section Loops

variable {resource : Resource} {savepoints : List (Unit × SqliteData)} (run : SaveRun)

/-- The table after some writes, with everything else as in the base. -/
structure Wrote (resource : Resource) (base : SqliteData) (columns : Std.ExtTreeMap Int64 (List Sql.Cell))
    (db : SqliteData) : Prop where
  rows : Table.columns (db.tables resource) = columns
  others : ∀ other, other ≠ resource → db.tables other = base.tables other
  mailConfig : db.mailConfig = base.mailConfig

theorem Wrote.write {base db db' : SqliteData} {columns : Std.ExtTreeMap Int64 (List Sql.Cell)}
    {record : resource.Record} (h : Wrote resource base columns db) (hWrite : Writes resource record db db') :
    Wrote resource base (columns.insert (resource.key record) (resource.cells record)) db' where
  rows := by rw [hWrite.rows, h.rows]
  others := fun other hOther => (hWrite.others other hOther).trans (h.others other hOther)
  mailConfig := hWrite.mailConfig.trans h.mailConfig

/-- The loop over the records has written all of them when it answers `true`. -/
theorem writeAll_inside {base : SqliteData}
    {statement : Bytes → resource.Record → SqliteData → Option SqliteData}
    (hStatement : ∀ now record db db', statement now record db = some db' → Writes resource record db db')
    (records : List resource.Record) (index : Nat) (columns : Std.ExtTreeMap Int64 (List Sql.Cell)) :
    Inside savepoints (Wrote resource base columns) (run.writeAll statement index records)
      (fun answer db =>
        answer = true → Wrote resource base (columns.insertMany (resource.entries records)) db) := by
  induction records generalizing index columns with
  | nil => exact .pure fun db hDb _ => by simpa [Resource.entries] using hDb
  | cons record rest ih =>
      refine .bind (fun answer db => answer = true →
        Wrote resource base (columns.insert (resource.key record) (resource.cells record)) db)
        (.exec ?_ fun _ _ h => nomatch h) ?_
      · intro db db' hDb hEffect _
        exact hDb.write (hStatement _ _ _ _ hEffect)
      · rintro (- | -)
        · exact .pure fun _ _ h => nomatch h
        · refine (ih (index + 1) _).consequence (fun db hDb => hDb rfl) fun answer db hDb hAnswer => ?_
          simpa [Resource.entries, Std.ExtTreeMap.insertMany_cons] using hDb hAnswer

/-- The database while the rows that were not supplied are pruned: the supplied
rows stay, no row appears, and another table only loses what points to a row
that was not supplied. -/
structure Pruned (resource : Resource) (supplied : List Int64) (base db : SqliteData) : Prop where
  kept : ∀ id ∈ supplied, (db.tables resource)[id]? = (base.tables resource)[id]?
  shrinks : ∀ id, id ∈ db.tables resource → id ∈ base.tables resource
  nothingAdded : ∀ other, other ≠ resource → ∀ (id : Int64) (row : Row),
    (db.tables other)[id]? = some row → (base.tables other)[id]? = some row
  removed : ∀ other, other ≠ resource → ∀ (id : Int64) (row : Row),
    (base.tables other)[id]? = some row →
      (db.tables other)[id]? = some row ∨
        ∃ foreignKey ∈ foreignKeys, foreignKey.child = other ∧ foreignKey.parent = resource ∧
          foreignKey.cascades = true ∧ ∃ parent, foreignKey.reference row = some parent ∧ parent ∉ supplied
  mailConfig : db.mailConfig = base.mailConfig

theorem Pruned.refl (supplied : List Int64) (db : SqliteData) : Pruned resource supplied db db where
  kept := fun _ _ => rfl
  shrinks := fun _ h => h
  nothingAdded := fun _ _ _ _ h => h
  removed := fun _ _ _ _ h => .inl h
  mailConfig := rfl

theorem Pruned.delete {supplied : List Int64} {base db db' : SqliteData} {doomed : Int64 → Bool}
    (h : Pruned resource supplied base db) (hDelete : SqliteData.delete resource doomed db = some db')
    (hDoomed : ∀ id, doomed id = true → id ∉ supplied) : Pruned resource supplied base db' where
  kept := by
    intro id hId
    have hSafe : doomed id = false := Bool.eq_false_iff.mpr fun hTrue => hDoomed id hTrue hId
    rw [delete_rows hDelete, hSafe]
    exact h.kept id hId
  shrinks := by
    intro id hId
    apply h.shrinks
    rw [Std.ExtTreeMap.mem_iff_isSome_getElem?, delete_rows hDelete] at hId
    rw [Std.ExtTreeMap.mem_iff_isSome_getElem?]
    split at hId
    · cases hId
    · exact hId
  nothingAdded := fun other hOther id row hRow =>
    h.nothingAdded other hOther id row ((delete_tables hDelete other id row).mp hRow).1
  removed := by
    intro other hOther id row hRow
    rcases h.removed other hOther id row hRow with hDb | hGone
    · by_cases hCascades : Cascades resource doomed db other row
      · obtain ⟨foreignKey, hMem, hChild, hParent, hCascade, parent, hReference, hDoomedParent, -⟩ := hCascades
        exact .inr ⟨foreignKey, hMem, hChild, hParent, hCascade, parent, hReference,
          hDoomed parent hDoomedParent⟩
      · exact .inl ((delete_tables hDelete other id row).mpr ⟨hDb, fun hSelf => hOther hSelf.1, hCascades⟩)
    · exact .inr hGone
  mailConfig := (delete_mailConfig hDelete).trans h.mailConfig

/-- The loop over the existing ids has deleted those that were not supplied when
it answers `true`. -/
theorem pruneAll_inside (base : SqliteData) (supplied ids gone : List UInt64) :
    Inside savepoints
      (fun db => Pruned resource (supplied.map UInt64.toInt64) base db ∧
        ∀ id ∈ gone, id ∉ supplied → id.toInt64 ∉ db.tables resource)
      (run.pruneAll resource supplied ids)
      (fun answer db => answer = true →
        Pruned resource (supplied.map UInt64.toInt64) base db ∧
          ∀ id ∈ ids ++ gone, id ∉ supplied → id.toInt64 ∉ db.tables resource) := by
  induction ids generalizing gone with
  | nil => exact .pure fun db hDb _ => hDb
  | cons id rest ih =>
      rw [SaveRun.pruneAll]
      split
      next hSupplied =>
        refine (ih gone).consequence (fun _ hDb => hDb) fun answer db hDb hAnswer => ?_
        refine ⟨(hDb hAnswer).1, fun other hOther hNot => ?_⟩
        rcases List.mem_cons.mp hOther with rfl | hOther
        · exact absurd hSupplied hNot
        · exact (hDb hAnswer).2 other hOther hNot
      next hSupplied =>
        refine .bind (fun answer db => answer = true →
          Pruned resource (supplied.map UInt64.toInt64) base db ∧
            ∀ other ∈ id :: gone, other ∉ supplied → other.toInt64 ∉ db.tables resource)
          (.exec ?_ fun _ _ h => nomatch h) ?_
        · rintro db db' ⟨hPruned, hGone⟩ hDelete -
          refine ⟨hPruned.delete hDelete ?_, fun other hOther hNot => ?_⟩
          · intro key hKey hMem
            obtain ⟨other, hOther, rfl⟩ := List.mem_map.mp hMem
            have hSame : other = id := by simpa using congrArg Int64.toUInt64 (of_decide_eq_true hKey)
            exact hSupplied (hSame ▸ hOther)
          · rw [Std.ExtTreeMap.mem_iff_isSome_getElem?, delete_rows hDelete]
            rcases List.mem_cons.mp hOther with rfl | hOther
            · simp
            · have hAbsent := hGone other hOther hNot
              rw [Std.ExtTreeMap.mem_iff_isSome_getElem?] at hAbsent
              split <;> simp_all
        · rintro (- | -)
          · exact .pure fun _ _ h => nomatch h
          · refine (ih (id :: gone)).consequence (fun db hDb => hDb rfl) fun answer db hDb hAnswer => ?_
            refine ⟨(hDb hAnswer).1, fun other hOther hNot => (hDb hAnswer).2 other ?_ hNot⟩
            simpa [or_left_comm] using hOther

/-- Of the rows after the writes, those of the supplied ids are the supplied
ones. -/
theorem getElem?_insertMany_entries (columns : Std.ExtTreeMap Int64 (List Sql.Cell))
    {records : List resource.Record} {id : Int64} (h : id ∈ records.map resource.key) :
    (columns.insertMany (resource.entries records))[id]? =
      (Std.ExtTreeMap.ofList (resource.entries records))[id]? := by
  have hKeys : (resource.entries records).map Prod.fst = records.map resource.key := by
    simp [Resource.entries]
  rw [Std.ExtTreeMap.ofList_eq_insertMany_empty, Std.ExtTreeMap.getElem?_insertMany_list,
    Std.ExtTreeMap.getElem?_insertMany_list]
  cases hFind : (resource.entries records).findSomeRev?
      fun entry => if compare entry.1 id = .eq then some entry.2 else none with
  | some cells => rfl
  | none =>
      rw [List.findSomeRev?_eq_findSome?_reverse, List.findSome?_eq_none_iff] at hFind
      rw [← hKeys] at h
      obtain ⟨entry, hEntry, rfl⟩ := List.mem_map.mp h
      simpa using hFind entry (List.mem_reverse.mpr hEntry)

theorem mem_existingIds {db : SqliteData} {id : Int64} (h : id ∈ db.tables resource) :
    id.toUInt64 ∈ SaveRun.existingIds resource db := by
  rw [SaveRun.existingIds, List.mem_insertionSort]
  exact List.mem_map.mpr ⟨id, Std.ExtTreeMap.mem_keys.mpr h, rfl⟩

/-- Only one foreign key leads from a table to a parent table. -/
theorem foreignKey_unique : ∀ first ∈ foreignKeys, ∀ second ∈ foreignKeys, first.child = second.child →
    first.parent = second.parent → first = second := by
  decide

/-- The writes and the pruning together. -/
theorem saved_of_pruned {records : List resource.Record} {before base after : SqliteData}
    (hWrote : Wrote resource before
      ((Table.columns (before.tables resource)).insertMany (resource.entries records)) base)
    (hPruned : Pruned resource (records.map resource.key) base after)
    (hGone : ∀ id ∈ base.tables resource, id ∉ records.map resource.key → id ∉ after.tables resource) :
    Saved resource records before after where
  rows := by
    apply Std.ExtTreeMap.ext_getElem?
    intro id
    by_cases hId : id ∈ records.map resource.key
    · rw [← getElem?_insertMany_entries _ hId, ← hWrote.rows]
      simp [Table.columns, hPruned.kept id hId]
    · have hAfter : (after.tables resource)[id]? = none := by
        rw [← Option.not_isSome_iff_eq_none, ← Std.ExtTreeMap.mem_iff_isSome_getElem?]
        exact fun hMem => hGone id (hPruned.shrinks id hMem) hId hMem
      have hEntries : ((resource.entries records).map Prod.fst).contains id = false := by
        simpa [Resource.entries] using hId
      rw [Std.ExtTreeMap.getElem?_ofList_of_contains_eq_false hEntries]
      simp [Table.columns, hAfter]
  childrenKept := by
    intro foreignKey hMem hParent id row parent hRow hReference hSupplied
    have hOther : foreignKey.child ≠ resource := fun h =>
      foreignKey_child_ne_parent foreignKey hMem (h.trans hParent.symm)
    rw [← hWrote.others _ hOther] at hRow
    rcases hPruned.removed _ hOther id row hRow with hKept | ⟨other, hOtherMem, hChild, hOtherParent, -, hPoints⟩
    · exact hKept
    · obtain rfl := foreignKey_unique other hOtherMem foreignKey hMem hChild (hOtherParent.trans hParent.symm)
      obtain ⟨pointed, hPointed, hNot⟩ := hPoints
      obtain rfl : parent = pointed := Option.some.inj (hReference.symm.trans hPointed)
      exact absurd hSupplied hNot
  nothingAdded := by
    intro other hOther id row hRow
    rw [← hWrote.others other hOther]
    exact hPruned.nothingAdded other hOther id row hRow
  removed := by
    intro other hOther id row hRow
    rw [← hWrote.others other hOther] at hRow
    exact hPruned.removed other hOther id row hRow
  mailConfig := hPruned.mailConfig.trans hWrote.mailConfig

/-- `sync_parent_rows` between `BEGIN` and `COMMIT`. -/
theorem syncParentRows_triple (resource : Resource) (records : List resource.Record) (before : SqliteData) :
    Triple (fun conn => conn.committed = before) (run.syncParentRows resource records)
      (fun answer conn =>
        (answer = true → Saved resource records before conn.committed) ∧
          (answer = false → conn.committed = before))
      (fun conn => conn.committed = before) := by
  have hKeys : (records.map resource.recordId).map UInt64.toInt64 = records.map resource.key := by
    simp [Resource.key, Function.comp_def]
  refine Triple.transaction (.bind (fun answer db => answer = true → Wrote resource before
    ((Table.columns (before.tables resource)).insertMany (resource.entries records)) db) ?_ ?_)
  · refine (writeAll_inside run (fun _ _ _ _ => upsert_writes) records 0 _).consequence ?_ fun _ _ h => h
    rintro db rfl
    exact ⟨rfl, fun _ _ => rfl, rfl⟩
  rintro (- | -)
  · exact .pure fun _ _ h => nomatch h
  refine .bind (fun ids db => Wrote resource before
      ((Table.columns (before.tables resource)).insertMany (resource.entries records)) db ∧
      ∀ found, ids = some found → found = SaveRun.existingIds resource db)
    (.query (fun db hDb => ⟨hDb rfl, fun _ h => (Option.some.inj h).symm⟩) fun db hDb =>
      ⟨hDb rfl, fun _ h => nomatch h⟩) ?_
  rintro (- | ids)
  · exact .pure fun _ _ h => nomatch h
  refine .fixed fun base hBase => ?_
  obtain ⟨hWrote, hIds⟩ := hBase
  refine (pruneAll_inside run base (records.map resource.recordId) ids []).consequence ?_ ?_
  · rintro db rfl
    exact ⟨.refl _ _, by simp⟩
  · intro answer db hDone hAnswer
    obtain ⟨hPruned, hGone⟩ := hDone hAnswer
    rw [hKeys] at hPruned
    refine saved_of_pruned hWrote hPruned fun id hMem hNot => ?_
    have hExisting : id.toUInt64 ∈ ids := hIds ids rfl ▸ mem_existingIds hMem
    have hUnsupplied : id.toUInt64 ∉ records.map resource.recordId := by
      intro hSupplied
      apply hNot
      rw [← hKeys]
      exact List.mem_map.mpr ⟨id.toUInt64, hSupplied, by simp⟩
    simpa using hGone id.toUInt64 (by simpa using hExisting) hUnsupplied

/-- `replace_all` between `BEGIN` and `COMMIT`, on a table that no other one
points to. -/
theorem replaceAll_triple (hParent : ∀ foreignKey ∈ foreignKeys, foreignKey.parent ≠ resource)
    (records : List resource.Record) (before : SqliteData) :
    Triple (fun conn => conn.committed = before) (run.replaceAll resource records)
      (fun answer conn =>
        (answer = true → Saved resource records before conn.committed) ∧
          (answer = false → conn.committed = before))
      (fun conn => conn.committed = before) := by
  refine Triple.transaction (.bind (fun answer db => answer = true → Wrote resource before ∅ db)
    (.exec ?_ fun _ _ h => nomatch h) ?_)
  · rintro db db' rfl hDelete -
    refine ⟨?_, fun other hOther => ?_, delete_mailConfig hDelete⟩
    · apply Std.ExtTreeMap.ext_getElem?
      intro id
      simp [Table.columns, delete_rows hDelete]
    · apply Std.ExtTreeMap.ext_getElem?
      intro id
      apply Option.ext
      intro row
      have hNoCascade : ¬Cascades resource (fun _ => true) db other row := by
        rintro ⟨foreignKey, hMem, -, hSelf, -⟩
        exact hParent foreignKey hMem hSelf
      simp [delete_tables hDelete, hOther, hNoCascade]
  rintro (- | -)
  · exact .pure fun _ _ h => nomatch h
  refine (writeAll_inside run (fun _ _ _ _ => insert_writes) records 0 _).consequence
    (fun db hDb => hDb rfl) fun answer db hDb hAnswer => ?_
  have hWrote := hDb hAnswer
  exact {
    rows := by rw [hWrote.rows, ← Std.ExtTreeMap.ofList_eq_insertMany_empty]
    childrenKept := fun foreignKey hMem hSelf => absurd hSelf (hParent foreignKey hMem)
    nothingAdded := fun other hOther id row hRow => hWrote.others other hOther ▸ hRow
    removed := fun other hOther id row hRow => .inl (hWrote.others other hOther ▸ hRow)
    mailConfig := hWrote.mailConfig }

end Loops

/-- What a save that did not answer `true` leaves: the database as it was, but
for the column that a save of sites adds to an old table. -/
def Untouched (resource : Resource) (before after : SqliteData) : Prop :=
  after = before ∨ resource = .sites ∧ before.addSitesTemplateColumn = some after

section Sites

variable (run : SaveRun)

theorem addSitesTemplateColumn_frame {before after : SqliteData}
    (h : before.addSitesTemplateColumn = some after) :
    (∀ other, other ≠ .sites → after.tables other = before.tables other) ∧
      after.mailConfig = before.mailConfig := by
  simp only [SqliteData.addSitesTemplateColumn] at h
  split at h
  · cases h
  · cases h
    exact ⟨fun other hOther => by simp [SqliteData.withTable, hOther], rfl⟩

/-- A save after the column was added is a save of the table as it was. -/
theorem Saved.of_untouched {records : List Site} {before middle after : SqliteData}
    (h : Saved .sites records middle after) (hUntouched : Untouched .sites before middle) :
    Saved .sites records before after := by
  rcases hUntouched with rfl | ⟨-, hAdded⟩
  · exact h
  obtain ⟨hTables, hMailConfig⟩ := addSitesTemplateColumn_frame hAdded
  exact {
    rows := h.rows
    childrenKept := fun foreignKey hMem hParent => by
      rw [← hTables _ fun hChild => foreignKey_child_ne_parent foreignKey hMem (hChild.trans hParent.symm)]
      exact h.childrenKept foreignKey hMem hParent
    nothingAdded := fun other hOther => hTables other hOther ▸ h.nothingAdded other hOther
    removed := fun other hOther => hTables other hOther ▸ h.removed other hOther
    mailConfig := h.mailConfig.trans hMailConfig }

theorem ensureSitesTemplateColumn_triple (before : SqliteData) :
    Triple (fun conn => conn.committed = before) run.ensureSitesTemplateColumn
      (fun _ conn => Untouched .sites before conn.committed) (fun conn => conn.committed = before) := by
  refine Triple.bind (fun _ conn => conn.committed = before)
    (.peek (fun _ h _ => h) (fun _ h _ => h) fun _ h _ => h) fun found => ?_
  split
  · exact .pure fun conn h => .inl h
  · refine (Triple.transaction (.exec (fun db db' hDb hEffect _ => hDb ▸ hEffect) fun _ _ h => nomatch h)).consequence
      (fun _ h => h) (fun answer conn h => ?_) fun _ h => h
    cases answer with
    | false => exact .inl (h.2 rfl)
    | true => exact .inr ⟨rfl, h.1 rfl⟩

theorem trySaveSites_triple (records : List Site) (before : SqliteData) :
    Triple (fun conn => conn.committed = before) (run.trySaveSites records)
      (fun answer conn =>
        (answer = true → Saved .sites records before conn.committed) ∧
          (answer = false → Untouched .sites before conn.committed))
      (fun conn => Untouched .sites before conn.committed) := by
  refine Triple.bind _ ((ensureSitesTemplateColumn_triple run before).consequence (fun _ h => h)
    (fun _ _ h => h) fun _ h => .inl h) fun answer => ?_
  cases answer with
  | false => exact .pure fun conn h => ⟨by simp, fun _ => h⟩
  | true =>
      intro conn hMiddle
      refine ((syncParentRows_triple run .sites records conn.committed).consequence (fun _ h => h)
        (fun answer after h => ?_) fun after h => ?_) conn rfl
      · exact ⟨fun hAnswer => (h.1 hAnswer).of_untouched hMiddle, fun hAnswer => h.2 hAnswer ▸ hMiddle⟩
      · exact h ▸ hMiddle

end Sites

/-- Every save, whatever becomes of its statements: `true` means that the table
equals the supplied records and that the rows of other tables that point to them
are kept; `false`, or a process that stops, leaves the database untouched. -/
theorem trySave_saved (run : SaveRun) (resource : Resource) (records : List resource.Record)
    (conn : Sql.Connection Unit SqliteData Empty) :
    match run.trySave resource records conn with
    | .done true after => Saved resource records conn.committed after.committed
    | .done false after => Untouched resource conn.committed after.committed
    | .stopped after => Untouched resource conn.committed after.committed := by
  have hTriple : Triple (fun start => start.committed = conn.committed) (run.trySave resource records)
      (fun answer after =>
        (answer = true → Saved resource records conn.committed after.committed) ∧
          (answer = false → Untouched resource conn.committed after.committed))
      (fun after => Untouched resource conn.committed after.committed) := by
    have hSync : ∀ parent, ∀ rows : List parent.Record, Triple (fun start => start.committed = conn.committed)
        (run.syncParentRows parent rows)
        (fun answer after =>
          (answer = true → Saved parent rows conn.committed after.committed) ∧
            (answer = false → Untouched parent conn.committed after.committed))
        (fun after => Untouched parent conn.committed after.committed) := fun parent rows =>
      (syncParentRows_triple run parent rows conn.committed).consequence (fun _ h => h)
        (fun _ _ h => ⟨h.1, fun hAnswer => .inl (h.2 hAnswer)⟩) fun _ h => .inl h
    have hReplace : ∀ table, (∀ foreignKey ∈ foreignKeys, foreignKey.parent ≠ table) →
        ∀ rows : List table.Record, Triple (fun start => start.committed = conn.committed)
          (run.replaceAll table rows)
          (fun answer after =>
            (answer = true → Saved table rows conn.committed after.committed) ∧
              (answer = false → Untouched table conn.committed after.committed))
          (fun after => Untouched table conn.committed after.committed) := fun table hParent rows =>
      (replaceAll_triple run hParent rows conn.committed).consequence (fun _ h => h)
        (fun _ _ h => ⟨h.1, fun hAnswer => .inl (h.2 hAnswer)⟩) fun _ h => .inl h
    cases resource with
    | sites => exact trySaveSites_triple run records conn.committed
    | accessUsers => exact hSync .accessUsers records
    | mailDomains => exact hSync .mailDomains records
    | nodes => exact hReplace .nodes (by decide) records
    | phpVersions => exact hReplace .phpVersions (by decide) records
    | profiles => exact hReplace .profiles (by decide) records
    | users => exact hReplace .users (by decide) records
    | domains => exact hReplace .domains (by decide) records
    | databases => exact hReplace .databases (by decide) records
    | backups => exact hReplace .backups (by decide) records
    | reverseProxies => exact hReplace .reverseProxies (by decide) records
    | accessGrants => exact hReplace .accessGrants (by decide) records
    | authUsers => exact hReplace .authUsers (by decide) records
    | sslCertificates => exact hReplace .sslCertificates (by decide) records
    | mailMailboxes => exact hReplace .mailMailboxes (by decide) records
    | mailAliases => exact hReplace .mailAliases (by decide) records
    | accessKeys => exact hReplace .accessKeys (by decide) records
  have hRun := hTriple conn rfl
  cases hOutcome : run.trySave resource records conn with
  | stopped after =>
      rw [hOutcome] at hRun
      exact hRun
  | done answer after =>
      rw [hOutcome] at hRun
      cases answer with
      | true => exact hRun.1 rfl
      | false => exact hRun.2 rfl

/-- A site with one grant on it, in a table from before the column
`web_template_profile`. -/
def grantedSite : SqliteData where
  tables
    | .sites => .ofList [((1 : Int64), Row.mk
        [.text (bytes "a.example"), .text [], .integer 0, .text [], .integer 0] [])]
    | .accessUsers => .ofList [((2 : Int64), Row.mk [.text (bytes "web"), .text [], .text [], .integer 1] [])]
    | .accessGrants => .ofList [((3 : Int64), Row.mk [.integer 2, .integer 1, .text (bytes "deploy")] [])]
    | _ => ∅
  sitesTemplateColumn := false

/-- The save that would prune the site is refused, but the database has a new
column. -/
theorem trySave_false_adds_column :
    grantedSite.foreignKeysHold = true ∧
      match ({} : SaveRun).trySave .sites [] { data := grantedSite } with
      | .done false after => after.committed ≠ grantedSite
      | _ => False := by
  have hColumn : (match ({} : SaveRun).trySave .sites [] { data := grantedSite } with
      | .done false after => after.committed.sitesTemplateColumn
      | _ => false) = true := by decide
  refine ⟨by decide, ?_⟩
  revert hColumn
  split
  next after _ =>
    intro hColumn hSame
    rw [hSame] at hColumn
    exact absurd hColumn (by decide)
  next => simp

end ContainerCP.Storage
