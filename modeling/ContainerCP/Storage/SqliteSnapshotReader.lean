import ContainerCP.Storage.SqliteTables
import ContainerCP.Storage.StorageCanonicalizer

/-! The two ways in which whole tables are read: `SQLiteSnapshotReader`, which
checks every value, and the `rd_` functions of `Verification`, which cast. -/
namespace ContainerCP.Storage

open Sql (Cell)

section Cells

variable {R : Type}

/-- The columns of a row, cast one by one. -/
def loadCells : List (Field R) → List Cell → R → R
  | field :: fields, cell :: cells, r => loadCells fields cells (field.load cell r)
  | _, _, r => r

/-- The columns of a row, checked one by one. -/
def loadCellsChecked : List (Field R) → List Cell → R → Option R
  | field :: fields, cell :: cells, r => (field.loadChecked cell r).bind (loadCellsChecked fields cells)
  | _, _, r => some r

end Cells

namespace Resource

/-- What a row reader sets besides the columns. -/
def loaded : (resource : Resource) → resource.Record → resource.Record
  | sites, r => named .sites { r with phpMailEnabledPresent := true }
  | resource, r => resource.named r

variable (resource : Resource)

/-- The selected columns of a row. -/
def selected (id : Int64) (row : Row) : List Cell := .integer id :: row.cells

/-- The `rd_` functions. -/
def rd (id : Int64) (row : Row) : resource.Record :=
  resource.loaded (loadCells resource.columns (selected id row) resource.blank)

/-- The `read_..._row` functions. -/
def readRow (id : Int64) (row : Row) : Option resource.Record :=
  (loadCellsChecked resource.columns (selected id row) resource.blank).map resource.loaded

end Resource

/-- `SELECT ... FROM ... ORDER BY id`, which cannot be prepared where a column is
missing. -/
def SqliteData.select (db : SqliteData) (resource : Resource) : Option (List (Int64 × Row)) :=
  if db.hasColumns resource then some (db.tables resource).toList else none

/-- `checked_query` with the `rd_` functions. -/
def checkedQuery (resource : Resource) (db : SqliteData) : Option (List resource.Record) :=
  (db.select resource).map fun rows => rows.map fun entry => resource.rd entry.1 entry.2

namespace SqliteSnapshotReader

/-- The `read_` functions. -/
def read (resource : Resource) (db : SqliteData) : Option (List resource.Record) :=
  (db.select resource).bind fun rows => rows.mapM fun entry => resource.readRow entry.1 entry.2

/-- `read_mail_config_key`. -/
def readMailConfigKey (stored : Option Bytes) : ConfigValue :=
  match stored with
  | some value => ⟨true, value⟩
  | none => {}

end SqliteSnapshotReader

section BoundRows

variable {R : Type}

/-- A number that the signed column holds unchanged. -/
def Field.Fits : Field R → R → Prop
  | .uint64 get _, r => (get r).toNat < 2 ^ 63
  | .uint64OrZero get _, r => (get r).toNat < 2 ^ 63
  | _, _ => True

instance (field : Field R) (r : R) : Decidable (field.Fits r) :=
  match field with
  | .uint64 get _ => inferInstanceAs (Decidable ((get r).toNat < 2 ^ 63))
  | .uint64OrZero get _ => inferInstanceAs (Decidable ((get r).toNat < 2 ^ 63))
  | .int _ _ | .bool _ _ | .text _ _ | .nullableText _ _ | .choice _ _ _ => inferInstanceAs (Decidable True)

/-- An enumeration whose texts are all valid. -/
def Field.ChoiceValid : Field R → Prop
  | .choice valid get _ => ∀ r, valid (get r) = true
  | _ => True

theorem loadCells_bind (fields : List (Field R)) (source r : R) :
    loadCells fields (fields.map (·.bind source)) r = copyFields fields source r := by
  induction fields generalizing r with
  | nil => rfl
  | cons field rest ih => simp [loadCells, Field.load_bind, ih, copyFields]

theorem toInt64_neg_iff (v : UInt64) : v.toInt64 < 0 ↔ ¬v.toNat < 2 ^ 63 := by
  have hValue : v.toInt64.toInt = Int.bmod v.toNat (2 ^ 64) := BitVec.toInt_eq_toNat_bmod v.toBitVec
  have hBound := v.toNat_lt
  rw [Int64.lt_iff_toInt_lt, Int64.toInt_zero, hValue, Int.bmod]
  omega

theorem readUint64Col_toInt64 (v : UInt64) :
    Field.readUint64Col (.integer v.toInt64) = if v.toNat < 2 ^ 63 then some v else none := by
  rw [Field.readUint64Col]
  simp only [Cell.isNull, Cell.columnInt, reduceCtorEq, decide_false, Bool.false_eq_true, false_or,
    toInt64_neg_iff]
  split <;> simp_all

theorem readIntCol_toInt64 (v : Int32) : Field.readIntCol (.integer v.toInt64) = some v := by
  have hLower := v.minValue_le_toInt
  have hUpper := v.toInt_le
  rw [Field.readIntCol, if_neg]
  · simp [Cell.columnInt]
  · simp only [Cell.isNull, Cell.columnInt, Int64.lt_iff_toInt_lt, Int32.toInt_toInt64]
    simp at hLower hUpper ⊢
    omega

/-- A checked column is read as it was bound, or refused where the number does
not fit. -/
theorem Field.loadChecked_bind {field : Field R} (hChoice : field.ChoiceValid) (source r : R) :
    field.loadChecked (field.bind source) r = if field.Fits source then some (field.copy source r) else none := by
  cases field with
  | uint64 get set =>
      simp only [loadChecked, bind, readUint64Col_toInt64, Fits, copy]
      by_cases hFits : (get source).toNat < 2 ^ 63
      · simp only [if_pos hFits, Option.map_some]
        exact (if_pos hFits).symm
      · simp only [if_neg hFits, Option.map_none]
        exact (if_neg hFits).symm
  | uint64OrZero get set =>
      simp only [loadChecked, bind, readUint64Col_toInt64, Fits, copy]
      by_cases hFits : (get source).toNat < 2 ^ 63
      · simp only [if_pos hFits, Option.map_some]
        exact (if_pos hFits).symm
      · simp only [if_neg hFits, Option.map_none]
        exact (if_neg hFits).symm
  | int get set => simp [loadChecked, bind, readIntCol_toInt64, Fits, copy]
  | bool get set => cases hValue : get source <;> simp [loadChecked, bind, copy, Fits, hValue, readBoolCol, Cell.isNull, Cell.columnInt]
  | text get set => rfl
  | nullableText get set => rfl
  | choice valid get set => simp [loadChecked, bind, Cell.columnText, hChoice source, copy, Fits]

theorem loadCellsChecked_bind {fields : List (Field R)} (hChoice : ∀ field ∈ fields, field.ChoiceValid)
    (source r : R) :
    loadCellsChecked fields (fields.map (·.bind source)) r =
      if ∀ field ∈ fields, field.Fits source then some (copyFields fields source r) else none := by
  induction fields generalizing r with
  | nil => simp [loadCellsChecked, copyFields]
  | cons field rest ih =>
      rw [List.forall_mem_cons] at hChoice
      simp only [List.map_cons, loadCellsChecked, Field.loadChecked_bind hChoice.1, List.forall_mem_cons]
      by_cases hFits : field.Fits source
      · simp [hFits, ih hChoice.2, copyFields]
      · simp [hFits]

end BoundRows

namespace Resource

theorem valid_profileType (type : ProfileType) : Field.validProfileType type.toText = true := by
  cases type <;> decide

theorem valid_permission (permission : Permission) : Field.validPermission permission.toText = true := by
  cases permission <;> decide

theorem valid_mailMode (mode : MailDomainMode) : Field.validMailMode mode.toText = true := by
  cases mode <;> decide

theorem columns_choiceValid (resource : Resource) : ∀ field ∈ resource.columns, field.ChoiceValid := by
  cases resource <;>
    simp only [columns, List.forall_mem_cons, Field.ChoiceValid, valid_profileType, valid_permission, valid_mailMode,
      List.not_mem_nil, false_imp_iff, implies_true, and_self]

/-- The columns of a record's row are its bound fields. -/
theorem selected_cells (resource : Resource) (record : resource.Record) (stamps : List Bytes) :
    selected (resource.key record) ⟨resource.cells record, stamps⟩ = resource.columns.map (·.bind record) := by
  cases resource <;> rfl

/-- What comes back of a record from its row: the fields that are columns, and
the defaults of the others. -/
def reloaded (resource : Resource) (record : resource.Record) : resource.Record :=
  resource.loaded (copyFields resource.columns record resource.blank)

/-- The numbers of the record fit their columns. -/
def Fits (resource : Resource) (record : resource.Record) : Prop :=
  ∀ field ∈ resource.columns, field.Fits record

instance (resource : Resource) (record : resource.Record) : Decidable (resource.Fits record) :=
  inferInstanceAs (Decidable (∀ field ∈ resource.columns, field.Fits record))

theorem rd_row {resource : Resource} {record : resource.Record} {row : Row} (h : row.cells = resource.cells record) :
    resource.rd (resource.key record) row = resource.reloaded record := by
  obtain ⟨cells, stamps⟩ := row
  subst h
  rw [rd, selected_cells, loadCells_bind]
  rfl

theorem readRow_row {resource : Resource} {record : resource.Record} {row : Row}
    (h : row.cells = resource.cells record) :
    resource.readRow (resource.key record) row =
      if resource.Fits record then some (resource.reloaded record) else none := by
  obtain ⟨cells, stamps⟩ := row
  subst h
  rw [readRow, selected_cells, loadCellsChecked_bind (columns_choiceValid resource)]
  change Option.map resource.loaded (if resource.Fits record then _ else _) = _
  split <;> rfl

/-- The encoding sees no difference between a record and what comes back of it. -/
theorem canonicalRecord_reloaded {resource : Resource} (record : resource.Record) :
    resource.canonicalRecord (resource.reloaded record) = resource.canonicalRecord record := by
  cases resource <;> cases record <;>
    simp only [canonicalRecord, reloaded, loaded, named, blank, columns, copyFields, List.foldl_cons, List.foldl_nil,
      List.map_cons, List.map_nil, Field.copy, Field.canonical, ProfileType.ofText_toText,
      Permission.ofText_toText, MailDomainMode.ofText_toText]

theorem recordId_reloaded {resource : Resource} (record : resource.Record) :
    resource.recordId (resource.reloaded record) = resource.recordId record := by
  cases resource <;> cases record <;> rfl

end Resource

end ContainerCP.Storage
