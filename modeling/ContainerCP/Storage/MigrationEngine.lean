import ContainerCP.Sql.Script
import ContainerCP.Text.Decimal
import Mathlib.Data.List.Sort
import Mathlib.Tactic.SplitIfs

/-! `MigrationEngine`: versioned migrations, recorded in `schema_migrations` and
applied in order. The table of records is a list of rows, empty while the
table does not exist; everything that callbacks change is one value of an
arbitrary type. -/
namespace ContainerCP.Storage
open Sql

inductive MigrationStatus where
  | pending
  | running
  | failed
  | completed
  deriving DecidableEq

/-- A row of `schema_migrations`. -/
structure MigrationRow where
  version : Int
  name : Bytes
  checksum : Bytes
  startedAt : Bytes
  completedAt : Option Bytes := none
  status : MigrationStatus
  diagnostics : Option Bytes := none
  deriving DecidableEq

/-- The database of a migration run. The version is the primary key of the
records. -/
structure MigrationDb (σ : Type) where
  rows : List MigrationRow
  unique : (rows.map (·.version)).Nodup
  schema : σ

variable {σ : Type}

/-- A callback: the schema it leaves, whether it reports success, and its
diagnostics. An exception is a report of failure. -/
abbrev UpCallback (σ : Type) := σ → σ × Bool × Bytes

structure Migration (σ : Type) where
  version : Int
  name : Bytes
  descriptor : Bytes
  up : Option (UpCallback σ)

structure MigrationEngine (σ : Type) where
  migrations : List (Migration σ) := []
  lastError : Bytes := []
  registrationError : Bool := false

/-- The statements of a call, each of which is carried out at most once for a
version. -/
inductive MigrationStmt where
  | createMigrations
  | createMeta
  | readCurrent
  | readChecksum (version : Int)
  | readStatus (version : Int)
  | writePending (version : Int)
  | readRecord (version : Int)
  | writeRunning (version : Int)
  | savepoint (version : Int)
  | rollbackTo (version : Int)
  | release (version : Int)
  | writeFailed (version : Int)
  | writeCompleted (version : Int)
  deriving DecidableEq

/-- What a call meets: what becomes of each statement, whether the process stops
inside a callback and how far the callback has come then, and the clock and
the texts of the errors. -/
structure MigrationEnv (σ : Type) where
  verdict : MigrationStmt → Verdict
  stopsInside : Int → Option (σ → σ) := fun _ => none
  timestampUtc : MigrationStmt → Bytes := fun _ => []
  errorMessage : MigrationStmt → Bytes := fun _ => []

/-- What a run leaves behind besides the database: the callback of a version was
called, or it failed and was undone, with the database before and after. -/
inductive MigrationEvent (σ : Type) where
  | executed (version : Int)
  | undone (version : Int) (before after : MigrationDb σ)

abbrev MigrationConn (σ : Type) := Sql.Connection Int (MigrationDb σ) (MigrationEvent σ)

abbrev MigrationScript (σ : Type) := Script Int (MigrationDb σ) (MigrationEvent σ)

namespace MigrationDb

/-- The record of a version. -/
def row (db : MigrationDb σ) (version : Int) : Option MigrationRow :=
  db.rows.find? (·.version == version)

/-- Change the record of a version, but not its key. -/
def changeRow (version : Int) (change : MigrationRow → MigrationRow) (row : MigrationRow) :
    MigrationRow :=
  if row.version = version then { change row with version } else row

@[simp]
theorem changeRow_version (version : Int) (change : MigrationRow → MigrationRow)
    (row : MigrationRow) : (changeRow version change row).version = row.version := by
  simp only [changeRow]
  split_ifs with h
  · exact h.symm
  · rfl

/-- `UPDATE schema_migrations ... WHERE version = ...`. -/
def update (version : Int) (change : MigrationRow → MigrationRow) (db : MigrationDb σ) :
    MigrationDb σ where
  rows := db.rows.map (changeRow version change)
  unique := by
    have hVersions : (fun row => (changeRow version change row).version) =
        fun row : MigrationRow => row.version := funext (changeRow_version version change)
    simpa [List.map_map, Function.comp_def, hVersions] using db.unique
  schema := db.schema

/-- `INSERT INTO schema_migrations`. -/
def insert (new : MigrationRow) (db : MigrationDb σ) : Option (MigrationDb σ) :=
  if h : new.version ∈ db.rows.map (·.version) then none
  else some
    { db with
      rows := db.rows ++ [new]
      unique := by
        rw [List.map_append, List.map_singleton, List.nodup_append]
        refine ⟨db.unique, List.pairwise_singleton .., ?_⟩
        rintro a ha b hb rfl
        exact h (List.mem_singleton.mp hb ▸ ha) }

/-- `SELECT COALESCE(MAX(version), 0) ... WHERE status = 'completed'`. -/
def maxCompleted (db : MigrationDb σ) : Int :=
  match ((db.rows.filter (·.status == .completed)).map (·.version)) with
  | [] => 0
  | first :: rest => rest.foldl max first

end MigrationDb

/-- The dash of the error texts, in UTF-8. -/
def emDash : Bytes := [0xe2, 0x80, 0x94]

def versionLabel (m : Migration σ) : Bytes := decimalInt m.version ++ bytes " (" ++ m.name ++ bytes ")"

namespace MigrationEngine

def registrationFailure (engine : MigrationEngine σ) (message : Bytes) : MigrationEngine σ :=
  { engine with lastError := message, registrationError := true }

def registerMigration (engine : MigrationEngine σ) (m : Migration σ) : MigrationEngine σ :=
  if engine.registrationError then engine
  else if m.version < 1 then
    engine.registrationFailure
      (bytes "Migration version " ++ versionLabel m ++ bytes " is invalid. Version must be >= 1.")
  else if m.name.isEmpty then
    engine.registrationFailure
      (bytes "Migration version " ++ decimalInt m.version ++
        bytes " has an empty name. Name is required.")
  else if m.descriptor.isEmpty then
    engine.registrationFailure
      (bytes "Migration " ++ versionLabel m ++ bytes " has an empty descriptor. " ++
        bytes "Descriptor is mandatory and must uniquely identify " ++
        bytes "the migration implementation.")
  else if m.up.isNone then
    engine.registrationFailure
      (bytes "Migration " ++ versionLabel m ++ bytes " has no callback (up is empty). " ++
        bytes "A migration function is required.")
  else { engine with migrations := engine.migrations ++ [m] }

/-- The first two neighbours with the same version in the sorted list. -/
def firstDuplicate : List (Migration σ) → Option (Migration σ × Migration σ)
  | first :: second :: rest =>
      if first.version = second.version then some (first, second)
      else firstDuplicate (second :: rest)
  | _ => none

variable (sha256Hex : Bytes → Bytes)

def computeChecksum (m : Migration σ) : Bytes :=
  sha256Hex (decimalInt m.version ++ bytes ":" ++ m.descriptor)

def currentVersion (env : MigrationEnv σ) : MigrationScript σ Int := do
  let answer ← Script.query (env.verdict .readCurrent) fun db => some db.maxCompleted
  return answer.getD 0

def checksumMatches (env : MigrationEnv σ) (m : Migration σ) : MigrationScript σ Bool := do
  let stored ← Script.query (env.verdict (.readChecksum m.version)) fun db =>
    (db.rows.find? fun row => row.version == m.version && row.status == .completed).map (·.checksum)
  return stored == some (computeChecksum sha256Hex m)

/-- The record of a version that is about to run, over an earlier one. -/
def restartedRow (env : MigrationEnv σ) (m : Migration σ) (row : MigrationRow) : MigrationRow :=
  { row with
    status := .running, startedAt := env.timestampUtc (.writeRunning m.version),
    checksum := computeChecksum sha256Hex m, completedAt := none, diagnostics := none }

/-- The record of a version that runs for the first time. -/
def startedRow (env : MigrationEnv σ) (m : Migration σ) : MigrationRow :=
  { version := m.version, name := m.name, checksum := computeChecksum sha256Hex m,
    startedAt := env.timestampUtc (.writeRunning m.version), status := .running }

/-- The beginning of `apply_one`: the record of the version says that it is
running. -/
def recordRunning (env : MigrationEnv σ) (m : Migration σ) :
    MigrationScript σ (Except Bytes Unit) := do
  let recordExists ← Script.query (env.verdict (.readRecord m.version)) fun db => db.row m.version
  if recordExists.isSome then
    let updated ← Script.exec (env.verdict (.writeRunning m.version)) fun db =>
      some (db.update m.version (restartedRow sha256Hex env m))
    return if updated then .ok () else .error
      (bytes "Failed to update migration record: " ++ env.errorMessage (.writeRunning m.version))
  else
    let inserted ← Script.exec (env.verdict (.writeRunning m.version)) fun db =>
      db.insert (startedRow sha256Hex env m)
    return if inserted then .ok () else .error
      (bytes "Failed to insert migration record: " ++ env.errorMessage (.writeRunning m.version))

/-- The call of `up`. The process may stop inside it. -/
def callUp (env : MigrationEnv σ) (m : Migration σ) : MigrationScript σ (Bool × Bytes) :=
  match env.stopsInside m.version with
  | some change => Script.stopAfter fun db => { db with schema := change db.schema }
  | none => Script.modify fun db =>
      match m.up with
      | some up => ({ db with schema := (up db.schema).1 }, (up db.schema).2)
      | none => (db, false, [])

/-- What `apply_one` does when the callback has failed. -/
def undoFailed (env : MigrationEnv σ) (m : Migration σ) (before : MigrationDb σ)
    (diagnostics : Bytes) : MigrationScript σ (Except Bytes Unit) := do
  let _ ← Script.rollbackTo (env.verdict (.rollbackTo m.version)) m.version
  let _ ← Script.release (env.verdict (.release m.version)) m.version
  let _ ← Script.exec (env.verdict (.writeFailed m.version)) fun db =>
    some (db.update m.version fun row =>
      { row with
        status := .failed, completedAt := some (env.timestampUtc (.writeFailed m.version)),
        diagnostics := some diagnostics })
  Script.emit fun after => .undone m.version before after
  return .error (bytes "Migration " ++ versionLabel m ++ bytes " failed: " ++ diagnostics)

/-- What `apply_one` does when the callback has succeeded. -/
def markCompleted (env : MigrationEnv σ) (m : Migration σ) :
    MigrationScript σ (Except Bytes Unit) := do
  let _ ← Script.release (env.verdict (.release m.version)) m.version
  let completed ← Script.exec (env.verdict (.writeCompleted m.version)) fun db =>
    some (db.update m.version fun row =>
      { row with
        status := .completed, completedAt := some (env.timestampUtc (.writeCompleted m.version)) })
  return if completed then .ok () else .error
    (bytes "Failed to mark migration completed: " ++ env.errorMessage (.writeCompleted m.version))

/-- The rest of `apply_one`, inside the savepoint. -/
def runRecorded (env : MigrationEnv σ) (m : Migration σ) :
    MigrationScript σ (Except Bytes Unit) := do
  let before ← Script.current
  Script.emit fun _ => .executed m.version
  let result ← callUp env m
  if result.1 then markCompleted env m else undoFailed env m before result.2

def applyOne (env : MigrationEnv σ) (m : Migration σ) : MigrationScript σ (Except Bytes Unit) := do
  let recorded ← recordRunning sha256Hex env m
  match recorded with
  | .error message => return .error message
  | .ok () =>
      let opened ← Script.savepoint (env.verdict (.savepoint m.version)) m.version
      if opened then runRecorded env m
      else return .error (bytes "Failed to create savepoint: " ++
        env.errorMessage (.savepoint m.version))

/-- The look at the record of a version that is not completed: an interrupted
one may be tried again, a failed one may not. -/
def checkStatus (env : MigrationEnv σ) (m : Migration σ) : MigrationScript σ Bool := do
  let status : Option MigrationStatus ← Script.query (env.verdict (.readStatus m.version)) fun db =>
    (db.row m.version).map (·.status)
  match status with
  | some .failed => return false
  | some .running =>
      let _ ← Script.exec (env.verdict (.writePending m.version)) fun db =>
        some (db.update m.version fun row => { row with status := .pending })
      return true
  | _ => return true

/-- One round of the loop over the migrations. -/
def migrateOne (env : MigrationEnv σ) (currentVer : Int) (m : Migration σ) :
    MigrationScript σ (Except Bytes Unit) :=
  if m.version ≤ currentVer then do
    let same ← checksumMatches sha256Hex env m
    return if same then .ok () else .error
      (bytes "Migration " ++ versionLabel m ++ bytes " checksum mismatch. " ++
        bytes "The migration definition has changed since it was applied.")
  else do
    let mayRun ← checkStatus env m
    if mayRun then applyOne sha256Hex env m
    else return .error (bytes "Migration " ++ versionLabel m ++ bytes " previously failed. " ++
      bytes "Manual recovery required.")

/-- The loop over the sorted migrations, up to the first failure. -/
def migrateAll (env : MigrationEnv σ) (currentVer : Int) :
    List (Migration σ) → MigrationScript σ (Except Bytes Unit)
  | [] => return .ok ()
  | m :: rest => do
      let result ← migrateOne sha256Hex env currentVer m
      match result with
      | .error message => return .error message
      | .ok () => migrateAll env currentVer rest

def ensureMetaTables (env : MigrationEnv σ) : MigrationScript σ (Except Bytes Unit) := do
  let migrations ← Script.exec (env.verdict .createMigrations) some
  if migrations then
    let storageMeta ← Script.exec (env.verdict .createMeta) some
    return if storageMeta then .ok () else .error
      (bytes "Failed to create storage_meta table: " ++ env.errorMessage .createMeta)
  else return .error (bytes "Failed to create schema_migrations table: " ++
    env.errorMessage .createMigrations)

/-- The part of `migrate` that talks to the database. -/
def migrateSorted (env : MigrationEnv σ) (sorted : List (Migration σ)) :
    MigrationScript σ (Except Bytes Unit) := do
  let ready ← ensureMetaTables env
  match ready with
  | .error message => return .error message
  | .ok () =>
      let currentVer ← currentVersion env
      migrateAll sha256Hex env currentVer sorted

/-- The registered migrations in the order of their versions. -/
def sorted (engine : MigrationEngine σ) : List (Migration σ) :=
  engine.migrations.insertionSort fun a b => a.version ≤ b.version

def migrate (env : MigrationEnv σ) (engine : MigrationEngine σ) :
    MigrationScript σ (Bool × MigrationEngine σ) :=
  if engine.registrationError then return (false, engine)
  else
    match firstDuplicate engine.sorted with
    | some (first, second) => return (false,
        { migrations := engine.sorted
          lastError := bytes "Duplicate migration version " ++ versionLabel second ++
            bytes " " ++ emDash ++ bytes " version " ++ decimalInt first.version ++
            bytes " is already registered by '" ++ first.name ++ bytes "'. " ++
            bytes "Each version must appear exactly once."
          registrationError := true })
    | none => do
        let result ← migrateSorted sha256Hex env engine.sorted
        match result with
        | .ok () => return (true, { engine with migrations := engine.sorted, lastError := [] })
        | .error message =>
            return (false, { engine with migrations := engine.sorted, lastError := message })

end MigrationEngine

end ContainerCP.Storage
