import ContainerCP.Sql.Replacement
import ContainerCP.Storage.SqliteSnapshotReader
import ContainerCP.Storage.SqliteSync
import Mathlib.Data.List.Lex
import Mathlib.Data.Prod.Lex
import Mathlib.Data.UInt

/-! The saves that replace a whole table, and the loads after them. -/
namespace ContainerCP.Storage

open Sql (Cell Replacement Script orderBy)
open Sql.Replacement (AllOrNothing)

/-- The `load_` functions. A table that cannot be read is empty. -/
def load (resource : Resource) (db : SqliteData) : List resource.Record := (checkedQuery resource db).getD []

/-- The tables that `replace_all` saves; `sync_parent_rows` saves the others. -/
def Resource.replaced : Resource → Bool
  | .sites | .accessUsers | .mailDomains => false
  | _ => true

theorem SaveRun.trySave_of_replaced (run : SaveRun) {resource : Resource} (h : resource.replaced = true) :
    run.trySave resource = run.replaceAll resource := by
  cases resource <;> first | rfl | exact absurd h (by decide)

/-- The statements of `replace_all` with the deletion and the insertion of a table. -/
def SaveRun.replacement (run : SaveRun) (resource : Resource) : Replacement SqliteData resource.Record where
  guard := ⟨run.verdict .begin, run.verdict .commit, run.verdict .rollback⟩
  onClear := run.verdict .clear
  clear := SqliteData.delete resource fun _ => true
  onWrite := fun index => run.verdict (.write index)
  write := fun index => SqliteData.insert resource (run.now index)

theorem SaveRun.writeAll_eq (run : SaveRun) (resource : Resource) (index : Nat) (records : List resource.Record) :
    run.writeAll (SqliteData.insert resource) index records = (run.replacement resource).writeAll index records := by
  induction records generalizing index with
  | nil => rfl
  | cons record rest ih =>
      simp only [SaveRun.writeAll, Replacement.writeAll, ih]
      rfl

theorem SaveRun.replaceAll_eq (run : SaveRun) (resource : Resource) (records : List resource.Record) :
    run.replaceAll resource records = (run.replacement resource).run records := by
  simp only [SaveRun.replaceAll, Replacement.run, SaveRun.transactionGuard, SaveRun.writeAll_eq]
  rfl

/-! ## The rows of a replaced table -/

section Tables

variable {resource : Resource} {records : List resource.Record} {db db' : SqliteData}

/-- The table has a row for each of the records, under different ids, and no others. -/
structure HasRows (resource : Resource) (records : List resource.Record) (db : SqliteData) : Prop where
  distinct : (records.map resource.key).Nodup
  rows : ∀ (id : Int64) (cells : List Cell), (Table.columns (db.tables resource))[id]? = some cells ↔
    ∃ record ∈ records, resource.key record = id ∧ resource.cells record = cells

theorem hasRows_of_delete (h : SqliteData.delete resource (fun _ => true) db = some db') : HasRows resource [] db' where
  distinct := List.nodup_nil
  rows := by
    intro id cells
    simp [Table.columns, delete_rows h]

/-- A row is only inserted under an id that the table does not have. -/
theorem HasRows.insert {now : Bytes} {record : resource.Record} (hRows : HasRows resource records db)
    (h : SqliteData.insert resource now record db = some db') : HasRows resource (records ++ [record]) db' := by
  have hWrites := (insert_writes h).rows
  have hNew : (Table.columns (db.tables resource))[resource.key record]? = none := by
    simp only [SqliteData.insert] at h
    split at h
    · next hAllowed =>
      simp only [Bool.and_eq_true, Bool.not_eq_true'] at hAllowed
      have hAbsent : resource.key record ∉ db.tables resource := by
        rw [← Std.ExtTreeMap.contains_iff_mem, hAllowed.1.1.2]
        exact Bool.false_ne_true
      simp [Table.columns, hAbsent]
    · exact absurd h (by simp)
  have hFresh : resource.key record ∉ records.map resource.key := by
    intro hMem
    obtain ⟨other, hOther, hSame⟩ := List.mem_map.mp hMem
    have hFound := (hRows.rows _ _).mpr ⟨other, hOther, hSame, rfl⟩
    rw [hNew] at hFound
    exact absurd hFound (by simp)
  constructor
  · rw [List.map_append, List.nodup_append]
    refine ⟨hRows.distinct, by simp, ?_⟩
    rintro old hOld _ hMem rfl
    obtain rfl : old = resource.key record := by simpa using hMem
    exact hFresh hOld
  · intro id cells
    rw [hWrites, Std.ExtTreeMap.getElem?_insert]
    split
    · next hSame =>
      obtain rfl : resource.key record = id := by simpa using hSame
      constructor
      · intro hCells
        exact ⟨record, by simp, rfl, Option.some.inj hCells⟩
      · rintro ⟨other, hOther, hKey, rfl⟩
        rcases List.mem_append.mp hOther with hOld | hLast
        · exact absurd (List.mem_map.mpr ⟨other, hOld, hKey⟩) hFresh
        · rw [List.mem_singleton.mp hLast]
    · next hOther =>
      rw [hRows.rows]
      constructor
      · rintro ⟨found, hFound, hKey, hCells⟩
        exact ⟨found, List.mem_append_left _ hFound, hKey, hCells⟩
      · rintro ⟨found, hFound, rfl, hCells⟩
        rcases List.mem_append.mp hFound with hOld | hLast
        · exact ⟨found, hOld, rfl, hCells⟩
        · rw [List.mem_singleton.mp hLast] at hOther
          exact absurd (by simp) hOther

/-- The order in which a load has the records: by the number in the signed column. -/
def Resource.order (resource : Resource) (record : resource.Record) : Int := (resource.key record).toInt

theorem key_reloaded (record : resource.Record) : resource.key (resource.reloaded record) = resource.key record := by
  rw [Resource.key, Resource.recordId_reloaded]
  rfl

theorem order_reloaded (record : resource.Record) : resource.order (resource.reloaded record) = resource.order record := by
  rw [Resource.order, key_reloaded]
  rfl

theorem hasColumns_of_replaced (h : resource.replaced = true) (db : SqliteData) : db.hasColumns resource = true := by
  have hOther : resource ≠ .sites := by
    rintro rfl
    exact absurd h (by decide)
  simp [SqliteData.hasColumns, hOther]

/-- A load has each record once, as its row gives it back, in the order of the ids. -/
theorem HasRows.load_eq (hRows : HasRows resource records db) (hReplaced : resource.replaced = true) :
    load resource db = (orderBy resource.order records).map resource.reloaded := by
  have hSelect : load resource db = (db.tables resource).toList.map fun entry => resource.rd entry.1 entry.2 := by
    rw [load, checkedQuery, SqliteData.select, if_pos (hasColumns_of_replaced hReplaced db)]
    rfl
  have hEntry (entry : Int64 × Row) (hEntry : entry ∈ (db.tables resource).toList) :
      ∃ record ∈ records, resource.key record = entry.1 ∧ resource.rd entry.1 entry.2 = resource.reloaded record := by
    have hFound : (Table.columns (db.tables resource))[entry.1]? = some entry.2.cells := by
      simp [Table.columns, Std.ExtTreeMap.mem_toList_iff_getElem?_eq_some.mp hEntry]
    obtain ⟨record, hRecord, hKey, hCells⟩ := (hRows.rows _ _).mp hFound
    refine ⟨record, hRecord, hKey, ?_⟩
    rw [← hKey]
    exact Resource.rd_row hCells.symm
  have hOrdered : (load resource db).Pairwise fun r s => resource.order r < resource.order s := by
    rw [hSelect, List.pairwise_map]
    refine (Std.ExtTreeMap.ordered_keys_toList (t := db.tables resource)).imp_of_mem ?_
    intro first second hFirst hSecond hLess
    obtain ⟨record, -, hKey, hRecord⟩ := hEntry first hFirst
    obtain ⟨other, -, hOtherKey, hOther⟩ := hEntry second hSecond
    rw [hRecord, hOther, order_reloaded, order_reloaded, Resource.order, Resource.order, hKey, hOtherKey]
    exact Int64.lt_iff_toInt_lt.mp (Std.compare_eq_lt.mp hLess)
  have hPerm : (load resource db).Perm (records.map resource.reloaded) := by
    have hLeft : (load resource db).Nodup := hOrdered.imp fun hLess hSame => absurd (hSame ▸ hLess) (lt_irrefl _)
    have hRight : (records.map resource.reloaded).Nodup := by
      refine List.Nodup.of_map resource.key ?_
      rw [List.map_map, show resource.key ∘ resource.reloaded = resource.key from funext key_reloaded]
      exact hRows.distinct
    rw [List.perm_ext_iff_of_nodup hLeft hRight]
    intro found
    rw [hSelect]
    constructor
    · intro hFound
      obtain ⟨entry, hMem, rfl⟩ := List.mem_map.mp hFound
      obtain ⟨record, hRecord, -, hSame⟩ := hEntry entry hMem
      exact List.mem_map.mpr ⟨record, hRecord, hSame.symm⟩
    · intro hFound
      obtain ⟨record, hRecord, rfl⟩ := List.mem_map.mp hFound
      have hCells := (hRows.rows _ _).mpr ⟨record, hRecord, rfl, rfl⟩
      obtain ⟨row, hRow, hSame⟩ : ∃ row, (db.tables resource)[resource.key record]? = some row ∧
          row.cells = resource.cells record := by
        simpa [Table.columns] using hCells
      exact List.mem_map.mpr ⟨(_, row), Std.ExtTreeMap.mem_toList_iff_getElem?_eq_some.mpr hRow, Resource.rd_row hSame⟩
  rw [← Sql.orderBy_eq_of_perm hOrdered hPerm, Sql.orderBy_map]
  simp only [order_reloaded]

end Tables

/-- What a load gives after a save: the records in their order, each as its row gives it
back. These are the saved records as they were exactly if they were in order and none has
anything that its row does not keep. -/
structure Loads {R K : Type} [LinearOrder K] (order : R → K) (reloaded : R → R) (records loaded : List R) : Prop where
  ordered : loaded = (orderBy order records).map reloaded
  same_iff : loaded = records ↔ (records.Pairwise fun r s => order r ≤ order s) ∧ ∀ r ∈ records, reloaded r = r

theorem loads_of_eq {R K : Type} [LinearOrder K] {order : R → K} {reloaded : R → R} {records loaded : List R}
    (hOrder : ∀ r, order (reloaded r) = order r) (h : loaded = (orderBy order records).map reloaded) :
    Loads order reloaded records loaded :=
  ⟨h, by rw [h]; exact Sql.map_orderBy_eq_iff hOrder⟩

/-! ## The system accounts -/

structure SystemAccountMapping where
  entityType : Bytes := []
  entityId : UInt64 := 0
  uid : Int32 := 0
  gid : Int32 := 0
  username : Bytes := []
  groupname : Bytes := []
  state : Bytes := []
  home : Bytes := []
  lastError : Bytes := []
  createdAt : Bytes := []
  updatedAt : Bytes := []
  deriving DecidableEq

namespace SystemAccountMapping

/-- The columns that the statements bind and select, in their order. -/
def columns : List (Field SystemAccountMapping) :=
  [.text (·.entityType) fun v m => { m with entityType := v },
    .uint64 (·.entityId) fun v m => { m with entityId := v },
    .int (·.uid) fun v m => { m with uid := v },
    .int (·.gid) fun v m => { m with gid := v },
    .text (·.username) fun v m => { m with username := v },
    .text (·.groupname) fun v m => { m with groupname := v },
    .text (·.state) fun v m => { m with state := v },
    .text (·.home) fun v m => { m with home := v },
    .text (·.lastError) fun v m => { m with lastError := v }]

def cells (mapping : SystemAccountMapping) : List Cell := columns.map (·.bind mapping)

/-- The primary key `(entity_type, entity_id)` and the unique columns `uid`, `username` and
`groupname`. -/
def conflicts (cells other : List Cell) : Bool :=
  (cells[0]?, cells[1]?) = (other[0]?, other[1]?) || cells[2]? = other[2]? || cells[4]? = other[4]? ||
    cells[5]? = other[5]?

/-- `INSERT INTO system_accounts`. -/
def insert (now : Bytes) (mapping : SystemAccountMapping) (table : List Row) : Option (List Row) :=
  if table.any fun row => conflicts mapping.cells row.cells then none else some (table ++ [⟨mapping.cells, [now, now]⟩])

def replacement (run : SaveRun) : Replacement (List Row) SystemAccountMapping where
  guard := ⟨run.verdict .begin, run.verdict .commit, run.verdict .rollback⟩
  onClear := run.verdict .clear
  clear := fun _ => some []
  onWrite := fun index => run.verdict (.write index)
  write := fun index => insert (run.now index)

/-- `try_save_system_accounts`. -/
def trySaveAll (run : SaveRun) (mappings : List SystemAccountMapping) : Script Unit (List Row) Empty Bool :=
  (replacement run).run mappings

/-- `ORDER BY entity_type, entity_id`: a text is compared byte by byte. -/
def cellsOrder (cells : List Cell) : Lex (List Nat × Int) :=
  toLex ((cells.getD 0 .null).columnText.map UInt8.toNat, (cells.getD 1 .null).columnInt.toInt)

/-- `load_system_accounts`. -/
def loadAll (table : List Row) : List SystemAccountMapping :=
  (orderBy (fun row => cellsOrder row.cells) table).map fun row => loadCells columns row.cells {}

def order (mapping : SystemAccountMapping) : Lex (List Nat × Int) := cellsOrder mapping.cells

/-- What comes back of a mapping: the time stamps are not selected. -/
def reloaded (mapping : SystemAccountMapping) : SystemAccountMapping := copyFields columns mapping {}

theorem order_eq (mapping : SystemAccountMapping) :
    mapping.order = toLex (mapping.entityType.map UInt8.toNat, mapping.entityId.toInt64.toInt) := rfl

theorem reloaded_eq (mapping : SystemAccountMapping) :
    mapping.reloaded = { mapping with createdAt := [], updatedAt := [] } := by
  cases mapping
  simp only [reloaded, copyFields, columns, List.foldl_cons, List.foldl_nil, Field.copy]

theorem order_reloaded (mapping : SystemAccountMapping) : mapping.reloaded.order = mapping.order := by
  rw [order_eq, order_eq, reloaded_eq]

theorem loadAll_eq {mappings : List SystemAccountMapping} {table : List Row}
    (h : table.map Row.cells = mappings.map cells) : loadAll table = (orderBy order mappings).map reloaded := by
  have hLoad : loadAll table = (orderBy cellsOrder (table.map Row.cells)).map fun cells => loadCells columns cells {} := by
    rw [Sql.orderBy_map, List.map_map]
    rfl
  rw [hLoad, h, Sql.orderBy_map, List.map_map]
  refine List.map_congr_left fun mapping _ => ?_
  exact loadCells_bind columns mapping {}

theorem trySaveAll_allOrNothing (run : SaveRun) (mappings : List SystemAccountMapping)
    (before : Sql.Connection Unit (List Row) Empty) :
    AllOrNothing (fun table => table.map Row.cells = mappings.map cells) before (trySaveAll run mappings before) := by
  refine @Replacement.run_allOrNothing _ _ _ (fun mappings table => table.map Row.cells = mappings.map cells) ?_ ?_
    mappings before
  · intro table table' hClear
    rw [← Option.some.inj hClear]
    rfl
  · intro written mapping index table table' hHolds hInsert
    simp only [replacement, insert] at hInsert
    split at hInsert
    · exact absurd hInsert (by simp)
    · rw [← Option.some.inj hInsert, List.map_append, List.map_append, hHolds]
      rfl

end SystemAccountMapping

/-! ## The saves -/

theorem SaveRun.trySave_allOrNothing (run : SaveRun) {resource : Resource} (hReplaced : resource.replaced = true)
    (records : List resource.Record) (before : Sql.Connection Unit SqliteData Empty) :
    AllOrNothing (HasRows resource records) before (run.trySave resource records before) := by
  rw [run.trySave_of_replaced hReplaced, run.replaceAll_eq]
  exact Replacement.run_allOrNothing (fun _ _ hClear => hasRows_of_delete hClear)
    (fun _ _ _ _ _ hHolds hWrite => hHolds.insert hWrite) records before

/-- Every save by `replace_all`, whatever becomes of its statements: `true` means that a load
gives the saved records in the order of their key, and `false`, or a process that stops, leaves
the database as it was. -/
theorem trySave_load (run : SaveRun) :
    (∀ resource : Resource, resource.replaced = true → ∀ (records : List resource.Record)
      (before : Sql.Connection Unit SqliteData Empty),
      AllOrNothing (fun db => Loads resource.order resource.reloaded records (load resource db)) before
        (run.trySave resource records before)) ∧
      ∀ (mappings : List SystemAccountMapping) (before : Sql.Connection Unit (List Row) Empty),
        AllOrNothing (fun table => Loads SystemAccountMapping.order SystemAccountMapping.reloaded mappings
          (SystemAccountMapping.loadAll table)) before (SystemAccountMapping.trySaveAll run mappings before) := by
  constructor
  · intro resource hReplaced records before
    exact (run.trySave_allOrNothing hReplaced records before).imp fun db hRows =>
      loads_of_eq order_reloaded (hRows.load_eq hReplaced)
  · intro mappings before
    exact (SystemAccountMapping.trySaveAll_allOrNothing run mappings before).imp fun table hCells =>
      loads_of_eq SystemAccountMapping.order_reloaded (SystemAccountMapping.loadAll_eq hCells)

/-- Two versions, the second with an id that is negative in its column and with a name of its
own. -/
def twoVersions : List PhpVersion :=
  [{ id := 1, name := bytes "8.3", version := bytes "8.3" },
    { id := 2 ^ 63, name := bytes "current", version := bytes "8.4" }]

set_option maxRecDepth 20000 in
/-- They are saved, but the load gives the second one first and under another name. -/
theorem trySave_load_differs :
    match ({} : SaveRun).trySave .phpVersions twoVersions { data := {} } with
    | .done true after => load .phpVersions after.committed ≠ twoVersions ∧
        ∃ version ∈ twoVersions, version ∉ load .phpVersions after.committed
    | _ => False := by
  have hLoad : (match ({} : SaveRun).trySave .phpVersions twoVersions { data := {} } with
      | .done true after => decide (load .phpVersions after.committed =
          [{ id := 2 ^ 63, name := bytes "8.4", version := bytes "8.4" },
            { id := 1, name := bytes "8.3", version := bytes "8.3" }])
      | _ => false) = true := by decide
  revert hLoad
  split
  next after _ =>
    intro hLoad
    rw [of_decide_eq_true hLoad]
    decide
  next => simp

/-! ## Checked reads -/

section Checked

variable {R : Type}

theorem eq_of_map_ite {α β : Type} {p : Prop} [Decidable p] {v : α} {f : α → β} {b : β}
    (h : (if p then none else some v).map f = some b) : f v = b := by
  split at h
  · cases h
  · exact Option.some.inj h

/-- What a checked column accepts it reads as the cast does. -/
theorem Field.load_of_loadChecked {field : Field R} {cell : Cell} {r r' : R} (h : field.loadChecked cell r = some r') :
    field.load cell r = r' := by
  cases field with
  | uint64 get set =>
      rw [loadChecked, readUint64Col] at h
      have hRead := eq_of_map_ite h
      exact hRead
  | uint64OrZero get set =>
      rw [loadChecked, readUint64Col] at h
      have hRead := eq_of_map_ite h
      exact hRead
  | int get set =>
      rw [loadChecked, readIntCol] at h
      have hRead := eq_of_map_ite h
      exact hRead
  | bool get set =>
      obtain ⟨v, hRead, rfl⟩ := Option.map_eq_some_iff.mp h
      rw [readBoolCol] at hRead
      split at hRead
      · cases hRead
      · split at hRead
        · next hZero =>
            rw [← Option.some.inj hRead, load, hZero]
            rfl
        · next hOther =>
            split at hRead
            · rw [← Option.some.inj hRead, load, decide_eq_true hOther]
            · cases hRead
  | text get set =>
      rw [loadChecked, readStringCol] at h
      have hRead := eq_of_map_ite h
      exact hRead
  | nullableText get set =>
      rw [loadChecked, readStringCol] at h
      have hRead := eq_of_map_ite h
      exact hRead
  | choice valid get set =>
      rw [loadChecked] at h
      split at h
      · exact Option.some.inj h
      · cases h

theorem loadCells_of_loadCellsChecked {fields : List (Field R)} {cells : List Cell} {r r' : R}
    (h : loadCellsChecked fields cells r = some r') : loadCells fields cells r = r' := by
  induction fields generalizing cells r with
  | nil => exact Option.some.inj h
  | cons field fields ih =>
      cases cells with
      | nil => exact Option.some.inj h
      | cons cell cells =>
          rw [loadCellsChecked] at h
          obtain ⟨middle, hField, hRest⟩ := Option.bind_eq_some_iff.mp h
          rw [loadCells, Field.load_of_loadChecked hField]
          exact ih hRest

end Checked

section Snapshot

variable {resource : Resource}

theorem rd_of_readRow {id : Int64} {row : Row} {record : resource.Record} (h : resource.readRow id row = some record) :
    resource.rd id row = record := by
  obtain ⟨columns, hColumns, rfl⟩ := Option.map_eq_some_iff.mp h
  rw [Resource.rd, loadCells_of_loadCellsChecked hColumns]

/-- The fallible reads of all values, where those that succeed agree with a plain one. -/
theorem mapM_eq_ite {α β : Type} {f : α → Option β} {g : α → β} (h : ∀ a b, f a = some b → g a = b) (values : List α) :
    values.mapM f = if ∀ a ∈ values, (f a).isSome then some (values.map g) else none := by
  induction values with
  | nil => simp
  | cons a values ih =>
      rw [List.mapM_cons, ih]
      simp only [List.forall_mem_cons]
      cases hRead : f a with
      | none => simp
      | some b =>
          obtain rfl := h a b hRead
          by_cases hAll : ∀ a ∈ values, (f a).isSome
          · rw [if_pos hAll, if_pos ⟨rfl, hAll⟩]
            rfl
          · rw [if_neg hAll, if_neg fun hBoth => hAll hBoth.2]
            rfl

theorem snapshotRead_eq (resource : Resource) (db : SqliteData) (hColumns : db.hasColumns resource = true) :
    SqliteSnapshotReader.read resource db =
      if ∀ entry ∈ (db.tables resource).toList, (resource.readRow entry.1 entry.2).isSome then some (load resource db)
      else none := by
  rw [SqliteSnapshotReader.read, load, checkedQuery, SqliteData.select, if_pos hColumns, Option.bind_some,
    mapM_eq_ite fun entry record => rd_of_readRow]
  rfl

/-- A checked read that succeeds gives what a load gives, whatever the database is. -/
theorem load_of_read {db : SqliteData} {found : List resource.Record} (h : SqliteSnapshotReader.read resource db = some found) :
    load resource db = found := by
  have hColumns : db.hasColumns resource = true := by
    obtain ⟨rows, hSelect, -⟩ := Option.bind_eq_some_iff.mp h
    by_contra hMissing
    rw [SqliteData.select, if_neg hMissing] at hSelect
    cases hSelect
  rw [snapshotRead_eq resource db hColumns] at h
  split at h
  · exact Option.some.inj h
  · cases h

/-- What a checked read sees of a saved table: what a load sees, if all numbers fit their columns,
and an error otherwise; and what a load sees has the encodings of what was saved. -/
structure SnapshotAgrees (resource : Resource) (records : List resource.Record) (db : SqliteData) : Prop where
  read_eq : SqliteSnapshotReader.read resource db =
    if ∀ record ∈ records, resource.Fits record then some (load resource db) else none
  encodings : (load resource db).map resource.canonicalRecord =
    (orderBy resource.order records).map resource.canonicalRecord

theorem HasRows.snapshotAgrees {records : List resource.Record} {db : SqliteData} (hRows : HasRows resource records db)
    (hReplaced : resource.replaced = true) : SnapshotAgrees resource records db where
  read_eq := by
    have hFits : (∀ entry ∈ (db.tables resource).toList, (resource.readRow entry.1 entry.2).isSome) ↔
        ∀ record ∈ records, resource.Fits record := by
      constructor
      · intro hAll record hRecord
        obtain ⟨row, hRow, hCells⟩ : ∃ row, (db.tables resource)[resource.key record]? = some row ∧
            row.cells = resource.cells record := by
          simpa [Table.columns] using (hRows.rows _ _).mpr ⟨record, hRecord, rfl, rfl⟩
        have hRead := hAll _ (Std.ExtTreeMap.mem_toList_iff_getElem?_eq_some.mpr hRow)
        rw [Resource.readRow_row hCells] at hRead
        by_contra hMisfit
        rw [if_neg hMisfit] at hRead
        cases hRead
      · intro hAll entry hEntry
        have hFound : (Table.columns (db.tables resource))[entry.1]? = some entry.2.cells := by
          simp [Table.columns, Std.ExtTreeMap.mem_toList_iff_getElem?_eq_some.mp hEntry]
        obtain ⟨record, hRecord, hKey, hCells⟩ := (hRows.rows _ _).mp hFound
        rw [← hKey, Resource.readRow_row hCells.symm, if_pos (hAll record hRecord)]
        rfl
    rw [snapshotRead_eq resource db (hasColumns_of_replaced hReplaced db)]
    simp only [hFits]
  encodings := by
    rw [hRows.load_eq hReplaced, List.map_map]
    exact List.map_congr_left fun record _ => Resource.canonicalRecord_reloaded record

end Snapshot

/-- After every save by `replace_all`, whatever becomes of its statements, and in every database:
where the checked read of a table succeeds it gives what the load gives. After a save it fails just if
a number that was saved does not fit its column, and the load has the encodings of all records. -/
theorem trySave_snapshotAgrees {resource : Resource} (h : resource.replaced = true) (run : SaveRun)
    (records : List resource.Record) (before : Sql.Connection Unit SqliteData Empty) :
    (∀ (db : SqliteData) (found : List resource.Record), SqliteSnapshotReader.read resource db = some found →
      load resource db = found) ∧
      AllOrNothing (SnapshotAgrees resource records) before (run.trySave resource records before) :=
  ⟨fun _ _ => load_of_read, (run.trySave_allOrNothing h records before).imp fun _ hRows => hRows.snapshotAgrees h⟩

theorem trySave_snapshotAgrees_twoVersions :
    (∀ (db : SqliteData) (found : List PhpVersion), SqliteSnapshotReader.read .phpVersions db = some found →
      load .phpVersions db = found) ∧
      AllOrNothing (SnapshotAgrees .phpVersions twoVersions) { data := {} }
        (({} : SaveRun).trySave .phpVersions twoVersions { data := {} }) :=
  @trySave_snapshotAgrees .phpVersions rfl {} twoVersions { data := {} }

/-- The second of the two versions is saved and loaded, but makes every checked read fail. -/
example : ¬∀ version ∈ twoVersions, Resource.phpVersions.Fits version := by decide +kernel

end ContainerCP.Storage
