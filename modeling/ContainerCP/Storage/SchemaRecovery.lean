import ContainerCP.Storage.MigrationRecovery
import ContainerCP.Storage.SchemaMigrations
import Mathlib.Tactic.IntervalCases

/-! The schema migrations after a stop of the process. Those that create tables
and indexes can be applied again to their own result; those that add a column
cannot, and a stop in front of the record of their completion leaves a database
on which every later call of `migrate` fails. -/
namespace ContainerCP.Storage
open Sql

/-- All statements of a script, one after the other. -/
def runScript (script : List SchemaStmt) (db : SchemaDb) : Option SchemaDb :=
  script.foldlM (fun db stmt => stmt.exec db) db

/-- The statements of each migration. -/
def schemaScripts : List (List SchemaStmt) :=
  [ kSchemaV1DDL ++
      [ .setMeta "storage_backend" kMetaStorageBackend, .setMeta "schema_version" kMetaSchemaVersion,
        .setMeta "migration_state" kMetaMigrationState ],
    kSchemaV2DDL ++ [.setMeta "schema_version" "2"],
    kSchemaV3DDL ++ [.setMeta "schema_version" "3"],
    kSchemaV4Home ++ [.setMeta "schema_version" "4"],
    kSchemaV5ManagedMounts ++ [.setMeta "schema_version" "5"],
    kSchemaV6GrantLifecycle ++ [.setMeta "schema_version" "6"],
    kSchemaV7LastError ++ [.setMeta "schema_version" "7"] ]

/-- The schema after the first migrations, each applied once to an empty
database. -/
def schemaAt (count : Nat) : SchemaDb :=
  (runScript (schemaScripts.take count).flatten {}).getD {}

theorem runScript_append (front back : List SchemaStmt) (db : SchemaDb) :
    runScript (front ++ back) db = (runScript front db).bind (runScript back) := by
  simp only [runScript, List.foldlM_append]
  rfl

theorem execScript_eq (script : List SchemaStmt) (db : SchemaDb) :
    runScript script db =
      match execScript script db with
      | (db', none) => some db'
      | (_, some _) => none := by
  induction script generalizing db with
  | nil => rfl
  | cons stmt rest ih =>
      simp only [runScript, List.foldlM_cons, execScript]
      cases stmt.exec db with
      | none => rfl
      | some db' => exact ih db'

section Callbacks

variable (errorMessage : SchemaStmt → Bytes)

theorem thenScript_applied (script : List SchemaStmt) (failure : Bytes) (next : UpCallback SchemaDb)
    (db : SchemaDb) :
    UpCallback.applied (thenScript errorMessage script failure next) db =
      (runScript script db).bind (UpCallback.applied next) := by
  rw [execScript_eq, UpCallback.applied, thenScript]
  cases hExec : execScript script db with
  | mk db' failed =>
      cases failed with
      | none => rfl
      | some stmt => rfl

theorem thenScript_applied_script {script rest : List SchemaStmt} (failure : Bytes)
    {next : UpCallback SchemaDb} (h : UpCallback.applied next = runScript rest) :
    UpCallback.applied (thenScript errorMessage script failure next) = runScript (script ++ rest) := by
  funext db
  rw [thenScript_applied, runScript_append, h]

theorem succeed_applied : UpCallback.applied succeed = runScript [] := rfl

/-- Each callback does what its statements do. -/
theorem schemaMigrations_applied (ddl : DdlText) :
    (schemaMigrations errorMessage ddl).map (·.applied) = schemaScripts.map runScript := by
  have hVersioned : ∀ script failure version,
      UpCallback.applied (versionedUp errorMessage script failure version) =
        runScript (script ++ [.setMeta "schema_version" version]) := fun script failure version =>
    thenScript_applied_script errorMessage failure
      (thenScript_applied_script errorMessage _ succeed_applied)
  have hInitial : UpCallback.applied (initialUp errorMessage) = runScript (kSchemaV1DDL ++
      [ .setMeta "storage_backend" kMetaStorageBackend, .setMeta "schema_version" kMetaSchemaVersion,
        .setMeta "migration_state" kMetaMigrationState ]) :=
    thenScript_applied_script errorMessage _ (thenScript_applied_script errorMessage _
      (thenScript_applied_script errorMessage _ (thenScript_applied_script errorMessage _
        succeed_applied)))
  have hApplied : ∀ m : Migration SchemaDb, ∀ up, m.up = some up →
      m.applied = UpCallback.applied up := fun m up hUp => by
    funext db
    rw [Migration.applied, hUp, Option.bind_some]
  simp only [schemaMigrations, schemaScripts, List.map_cons, List.map_nil]
  rw [hApplied _ _ rfl, hApplied _ _ rfl, hApplied _ _ rfl, hApplied _ _ rfl, hApplied _ _ rfl,
    hApplied _ _ rfl, hApplied _ _ rfl, hInitial]
  simp only [hVersioned]

end Callbacks

/-- Migrations that do what these scripts do. -/
theorem applyAll_eq_runScript {ms : List (Migration SchemaDb)} {scripts : List (List SchemaStmt)}
    (h : ms.map (·.applied) = scripts.map runScript) (db : SchemaDb) :
    applyAll ms db = runScript scripts.flatten db := by
  induction ms generalizing scripts db with
  | nil =>
      obtain rfl : scripts = [] := List.map_eq_nil_iff.mp h.symm
      rfl
  | cons m ms ih =>
      cases scripts with
      | nil => simp at h
      | cons script scripts =>
          obtain ⟨hHead, hTail⟩ := List.cons.inj h
          have hHead : m.applied = runScript script := hHead
          rw [applyAll, List.flatten_cons, runScript_append, hHead]
          exact congrArg _ (funext fun db' => ih hTail db')

/-- All schema migrations apply to an empty database. -/
theorem runScript_schemaScripts : runScript schemaScripts.flatten {} = some (schemaAt 7) := by
  decide +kernel

/-- Which migrations apply to a schema that has their effect. -/
theorem runScript_again : ∀ index : Fin 7,
    runScript (schemaScripts.get ⟨index, by simp [schemaScripts]⟩) (schemaAt (index + 1)) =
      if index = 3 ∨ index = 6 then none else some (schemaAt (index + 1)) := by
  decide +kernel

section Recovery

variable (sha256Hex : Bytes → Bytes) (errorMessage : SchemaStmt → Bytes) (ddl : DdlText)

theorem applyAll_take (count : Nat) :
    applyAll ((schemaMigrations errorMessage ddl).take count) {} = some (schemaAt count) := by
  have hScripts : ((schemaMigrations errorMessage ddl).take count).map (·.applied) =
      (schemaScripts.take count).map runScript := by
    rw [List.map_take, List.map_take, schemaMigrations_applied]
  have hAll := runScript_schemaScripts
  rw [← List.take_append_drop count schemaScripts, List.flatten_append, runScript_append] at hAll
  obtain ⟨db, hDb, -⟩ := Option.bind_eq_some_iff.mp hAll
  rw [applyAll_eq_runScript hScripts, schemaAt, hDb, Option.getD_some]

theorem applyAll_drop (count : Nat) :
    applyAll ((schemaMigrations errorMessage ddl).drop count) (schemaAt count) = some (schemaAt 7) := by
  have hAll := applyAll_take errorMessage ddl 7
  rw [show (schemaMigrations errorMessage ddl).take 7 = schemaMigrations errorMessage ddl from rfl,
    ← List.take_append_drop count (schemaMigrations errorMessage ddl), applyAll_append,
    applyAll_take] at hAll
  exact hAll

theorem schemaMigrations_holds :
    (registerAllSchemaMigrations errorMessage ddl {}).Holds (schemaMigrations errorMessage ddl) := by
  have hVersions : (schemaMigrations errorMessage ddl).Pairwise (·.version < ·.version) := by
    simp [schemaMigrations]
  have hNames : ∀ m ∈ schemaMigrations errorMessage ddl, m.Registrable := by
    simp only [schemaMigrations, List.forall_mem_cons, Migration.Registrable]
    simp [ddl.nonempty, bytes]
  have hRegistered : registerAllSchemaMigrations errorMessage ddl {} =
      { migrations := schemaMigrations errorMessage ddl } :=
    MigrationEngine.foldl_registerMigration hNames rfl
  rw [hRegistered]
  refine ⟨rfl, ?_, hVersions, by simp [schemaMigrations]⟩
  exact (hVersions.imp fun h => h.le).insertionSort_eq

/-- Where the process stops: in front of a statement, or inside a callback that
has come so far. -/
inductive CrashPoint (σ : Type) where
  | before (stmt : MigrationStmt)
  | inside (version : Int) (change : σ → σ)

/-- A call that meets no fault but the stop. -/
def CrashPoint.env {σ : Type} (crash : CrashPoint σ) (timestampUtc : MigrationStmt → Bytes) :
    MigrationEnv σ where
  verdict := fun stmt =>
    match crash with
    | .before stmt' => if stmt = stmt' then .stops else .succeeds
    | .inside _ _ => .succeeds
  stopsInside := fun version =>
    match crash with
    | .before _ => none
    | .inside version' change => if version = version' then some change else none
  timestampUtc := timestampUtc

/-- A call that meets no fault. -/
def faultless {σ : Type} (timestampUtc : MigrationStmt → Bytes) : MigrationEnv σ where
  verdict := fun _ => .succeeds
  timestampUtc := timestampUtc

theorem CrashPoint.env_noFault {σ : Type} (crash : CrashPoint σ) (timestampUtc : MigrationStmt → Bytes) :
    ¬ MigrationEngine.SomeFails (crash.env timestampUtc) := by
  rintro ⟨stmt, hFails⟩
  cases crash with
  | before stmt' => by_cases h : stmt = stmt' <;> simp [CrashPoint.env, h] at hFails
  | inside version change => simp [CrashPoint.env] at hFails

theorem CrashPoint.env_stops {σ : Type} {crash : CrashPoint σ} {timestampUtc : MigrationStmt → Bytes}
    {stmt : MigrationStmt} (h : (crash.env timestampUtc).verdict stmt = .stops) :
    crash = .before stmt := by
  cases crash with
  | before stmt' =>
      by_cases hSame : stmt = stmt'
      · rw [hSame]
      · simp [CrashPoint.env, hSame] at h
  | inside version change => simp [CrashPoint.env] at h

theorem CrashPoint.not_stopsOutside {σ : Type} {version : Int} {timestampUtc : MigrationStmt → Bytes} :
    ¬ MigrationEngine.StopsOutside
      ((CrashPoint.before (.writeCompleted version) : CrashPoint σ).env timestampUtc) := by
  rintro (⟨stmt, hOther, hStops⟩ | ⟨version', hInside⟩)
  · have hStmt := env_stops hStops
    simp only [CrashPoint.before.injEq] at hStmt
    exact hOther version hStmt.symm
  · simp [CrashPoint.env] at hInside

theorem faultless_noFault {σ : Type} (timestampUtc : MigrationStmt → Bytes) :
    ¬ MigrationEngine.SomeFails (faultless timestampUtc : MigrationEnv σ) := by
  rintro ⟨stmt, hFails⟩
  simp [faultless] at hFails

open MigrationEngine in
/-- A call without a fault does not stop. -/
theorem faultless_not_found {σ : Type} {timestampUtc : MigrationStmt → Bytes}
    {done rest : List (Migration σ)} {schema : σ} {db : MigrationDb σ} :
    ¬ Found sha256Hex (faultless timestampUtc : MigrationEnv σ) done rest schema db := by
  rintro ⟨front, back, schema', -, -, ⟨hStops, -⟩ | ⟨m, behind, ahead, -, -, hStops, -⟩⟩
  · rcases hStops with ⟨stmt, -, hStops⟩ | ⟨version, hInside⟩
    · simp [faultless] at hStops
    · simp [faultless] at hInside
  · simp [faultless] at hStops

/-- The call returns true, and every migration has its effect and its record. -/
def Migrated (outcome : Outcome Int (MigrationDb SchemaDb) (MigrationEvent SchemaDb)
    (Bool × MigrationEngine SchemaDb)) : Prop :=
  ∃ engine conn, outcome = .done (true, engine) conn ∧ conn.data.schema = schemaAt 7 ∧
    ∀ m ∈ schemaMigrations errorMessage ddl,
      conn.data.CompletedWith m.version (MigrationEngine.computeChecksum sha256Hex m)

section

open MigrationEngine

variable {sha256Hex errorMessage ddl}
variable {done rest : List (Migration SchemaDb)} {schema : SchemaDb} {conn : MigrationConn SchemaDb}
variable {timestampUtc : MigrationStmt → Bytes}

theorem migrated_of_between (hSplit : schemaMigrations errorMessage ddl = done ++ rest)
    (h : Between sha256Hex done rest schema conn) (hFinal : applyAll rest schema = some (schemaAt 7)) :
    Migrated sha256Hex errorMessage ddl
      (migrate sha256Hex (faultless timestampUtc) (registerAllSchemaMigrations errorMessage ddl {})
        conn) := by
  have hHolds := schemaMigrations_holds errorMessage ddl
  rw [hSplit] at hHolds
  have hRun := migrate_recovers hHolds (faultless_noFault timestampUtc) hFinal conn h
  cases hOutcome : migrate sha256Hex (faultless timestampUtc)
      (registerAllSchemaMigrations errorMessage ddl {}) conn with
  | stopped conn' =>
      rw [hOutcome] at hRun
      exact absurd hRun (faultless_not_found sha256Hex)
  | done result conn' =>
      rw [hOutcome] at hRun
      obtain ⟨ok, engine⟩ := result
      obtain ⟨rfl, ⟨-, hReady⟩, -⟩ := hRun
      exact ⟨engine, conn', rfl, hReady.schema, fun m hMem => hReady.completed m (hSplit ▸ hMem)⟩

theorem not_migrated_of_between {m : Migration SchemaDb}
    (hSplit : schemaMigrations errorMessage ddl = done ++ m :: rest)
    (h : Between sha256Hex done (m :: rest) schema conn) (hNone : m.applied schema = none) :
    ¬ Migrated sha256Hex errorMessage ddl
      (migrate sha256Hex (faultless timestampUtc) (registerAllSchemaMigrations errorMessage ddl {})
        conn) := by
  rintro ⟨engine, conn', hOutcome, -⟩
  have hHolds := schemaMigrations_holds errorMessage ddl
  rw [hSplit] at hHolds
  have hRun := migrate_refuses hHolds (faultless_noFault timestampUtc) hNone conn h
  rw [hOutcome] at hRun
  simp at hRun

/-- The migration at a place of the list, and the schemas around it. -/
theorem applied_at {m : Migration SchemaDb} {schema' : SchemaDb}
    (hSplit : schemaMigrations errorMessage ddl = done ++ m :: rest)
    (hBefore : applyAll done {} = some schema) (hApplied : m.applied schema = some schema') :
    m.version = done.length + 1 ∧ schema' = schemaAt (done.length + 1) ∧
      m.applied schema' = if done.length = 3 ∨ done.length = 6 then none else some schema' := by
  have hLength : done.length < 7 := by
    have hAll : (schemaMigrations errorMessage ddl).length = 7 := rfl
    rw [hSplit, List.length_append, List.length_cons] at hAll
    omega
  have hScript : m.applied = runScript (schemaScripts.get ⟨done.length, hLength⟩) := by
    have hMaps := congrArg (·[done.length]?) (schemaMigrations_applied errorMessage ddl)
    have hScripts : schemaScripts[done.length]? = some (schemaScripts.get ⟨done.length, hLength⟩) :=
      List.getElem?_eq_getElem hLength
    rw [hSplit] at hMaps
    simpa [hScripts] using hMaps
  have hVersion : m.version = done.length + 1 := by
    have hVersions : (schemaMigrations errorMessage ddl).map (·.version) = [1, 2, 3, 4, 5, 6, 7] := rfl
    have hHere := congrArg (·[done.length]?) hVersions
    rw [hSplit] at hHere
    simp only [List.map_append, List.map_cons, List.length_map, List.getElem?_append_right, le_refl,
      Nat.sub_self, List.getElem?_cons_zero] at hHere
    interval_cases done.length <;> simp_all
  have hSchema : schema' = schemaAt (done.length + 1) := by
    have hTake : (schemaMigrations errorMessage ddl).take (done.length + 1) = done ++ [m] := by
      simp [hSplit, List.take_append, List.take_of_length_le]
    have hAt := applyAll_take errorMessage ddl (done.length + 1)
    rw [hTake, applyAll_append, hBefore, Option.bind_some, applyAll, hApplied, Option.bind_some] at hAt
    exact Option.some.inj hAt
  refine ⟨hVersion, hSchema, ?_⟩
  rw [hScript, hSchema]
  have hAgain := runScript_again ⟨done.length, hLength⟩
  simpa [Fin.ext_iff] using hAgain

end

open MigrationEngine in
/-- A database on which the first schema migrations were applied, and nothing
else. -/
def MigratedTo (count : Nat) (db : MigrationDb SchemaDb) : Prop :=
  Ready sha256Hex ((schemaMigrations errorMessage ddl).take count)
    ((schemaMigrations errorMessage ddl).drop count) (schemaAt count) db

/-- The stops after which the next call fails: the savepoint of a migration that
adds a column is released, and its completion is not recorded. -/
def LosesColumn (count : Nat) (crash : CrashPoint SchemaDb) : Prop :=
  crash = .before (.writeCompleted 4) ∧ count < 4 ∨ crash = .before (.writeCompleted 7) ∧ count < 7

section

open MigrationEngine

variable {sha256Hex errorMessage ddl}
variable {count : Nat} {crash : CrashPoint SchemaDb} {conn : MigrationConn SchemaDb}
variable {timestampUtc timestampUtc' : MigrationStmt → Bytes}

/-- A call that did not stop did not come to such a place. -/
theorem not_losesColumn
    (h : ∀ m ∈ (schemaMigrations errorMessage ddl).drop count,
      (crash.env timestampUtc).verdict (.writeCompleted m.version) ≠ .stops) :
    ¬ LosesColumn count crash := by
  have hVersions : ((schemaMigrations errorMessage ddl).drop count).map (·.version) =
      [1, 2, 3, 4, 5, 6, 7].drop count := by
    rw [List.map_drop]
    rfl
  have hNot : ∀ version : Int, version ∈ [1, 2, 3, 4, 5, 6, 7].drop count →
      crash ≠ .before (.writeCompleted version) := by
    rintro version hMem rfl
    rw [← hVersions, List.mem_map] at hMem
    obtain ⟨m, hM, rfl⟩ := hMem
    exact h m hM (by simp [CrashPoint.env])
  rintro (⟨rfl, hCount⟩ | ⟨rfl, hCount⟩)
  · exact hNot 4 (by interval_cases count <;> decide) rfl
  · exact hNot 7 (by interval_cases count <;> decide) rfl

theorem found_migrated_iff (hClosed : conn.savepoints = [])
    (h : Found sha256Hex (crash.env timestampUtc) ((schemaMigrations errorMessage ddl).take count)
      ((schemaMigrations errorMessage ddl).drop count) (schemaAt count) conn.data) :
    Migrated sha256Hex errorMessage ddl
        (migrate sha256Hex (faultless timestampUtc') (registerAllSchemaMigrations errorMessage ddl {})
          conn) ↔ ¬ LosesColumn count crash := by
  obtain ⟨front, back, schema, hBack, hFront, hFound⟩ := h
  have hSplit : schemaMigrations errorMessage ddl =
      ((schemaMigrations errorMessage ddl).take count ++ front) ++ back := by
    rw [List.append_assoc, ← hBack, List.take_append_drop]
  have hBehind : applyAll back schema = some (schemaAt 7) := by
    have hDrop := applyAll_drop errorMessage ddl count
    rwa [hBack, applyAll_append, hFront, Option.bind_some] at hDrop
  rcases hFound with ⟨hStops, hReady⟩ | ⟨m, behind, ahead, rfl, hApplied, hStops, hReady⟩
  · refine iff_of_true (migrated_of_between hSplit ⟨hClosed, hReady⟩ hBehind) ?_
    rintro (⟨rfl, -⟩ | ⟨rfl, -⟩)
    · exact CrashPoint.not_stopsOutside hStops
    · exact CrashPoint.not_stopsOutside hStops
  · -- the effect of `m` is there and its record says that it is running
    have hBefore : applyAll ((schemaMigrations errorMessage ddl).take count ++ front) {} =
        some schema := by
      rw [applyAll_append, applyAll_take, Option.bind_some, hFront]
    obtain ⟨hVersion, hSchema, hAgain⟩ := applied_at hSplit hBefore hApplied
    have hCount : count ≤ ((schemaMigrations errorMessage ddl).take count ++ front).length := by
      have hDrop := congrArg List.length hBack
      simp only [List.length_drop, List.length_append, List.length_cons] at hDrop
      simp only [List.length_append, List.length_take]
      omega
    have hCrash := CrashPoint.env_stops hStops
    rw [hVersion] at hCrash
    have hLoses : LosesColumn count crash ↔
        ((schemaMigrations errorMessage ddl).take count ++ front).length = 3 ∨
          ((schemaMigrations errorMessage ddl).take count ++ front).length = 6 := by
      simp only [LosesColumn, hCrash, CrashPoint.before.injEq, MigrationStmt.writeCompleted.injEq]
      omega
    by_cases hColumn : LosesColumn count crash
    · rw [if_pos (hLoses.mp hColumn)] at hAgain
      exact iff_of_false (not_migrated_of_between hSplit ⟨hClosed, hReady⟩ hAgain) (not_not.mpr hColumn)
    · rw [if_neg fun hIndex => hColumn (hLoses.mpr hIndex)] at hAgain
      refine iff_of_true (migrated_of_between hSplit ⟨hClosed, hReady⟩ ?_) hColumn
      rw [applyAll, hApplied, Option.bind_some] at hBehind
      rw [applyAll, hAgain, Option.bind_some, hBehind]

end

open MigrationEngine in
/-- After a stop, a call on what is left gets to the end, unless the process
stopped between the savepoint of a migration that adds a column and the record
of its completion. -/
theorem migrated_after_crash_iff (count : Nat) (db : MigrationDb SchemaDb)
    (hDb : MigratedTo sha256Hex errorMessage ddl count db) (crash : CrashPoint SchemaDb)
    (timestampUtc timestampUtc' : MigrationStmt → Bytes) :
    Migrated sha256Hex errorMessage ddl
        (migrate sha256Hex (faultless timestampUtc') (registerAllSchemaMigrations errorMessage ddl {})
          (migrate sha256Hex (crash.env timestampUtc)
            (registerAllSchemaMigrations errorMessage ddl {}) { data := db }).conn.reopen) ↔
      ¬ LosesColumn count crash := by
  have hSplit := (List.take_append_drop count (schemaMigrations errorMessage ddl)).symm
  have hHolds := schemaMigrations_holds errorMessage ddl
  rw [hSplit] at hHolds
  have hRun := migrate_recovers hHolds (crash.env_noFault timestampUtc)
    (applyAll_drop errorMessage ddl count) { data := db } ⟨rfl, hDb⟩
  cases hFirst : migrate sha256Hex (crash.env timestampUtc)
      (registerAllSchemaMigrations errorMessage ddl {}) { data := db } with
  | done result conn =>
      rw [hFirst] at hRun
      obtain ⟨-, ⟨hClosed, hReady⟩, hNotStopped⟩ := hRun
      rw [← hSplit] at hReady
      refine iff_of_true ?_ (not_losesColumn hNotStopped)
      refine migrated_of_between (List.append_nil _).symm ⟨rfl, ?_⟩ rfl
      rw [Outcome.conn, reopen_data_of_closed hClosed]
      exact hReady
  | stopped conn =>
      rw [hFirst] at hRun
      exact found_migrated_iff rfl hRun

/-- Some texts of the DDL. -/
def someText : DdlText where
  text := fun version => bytes "DDL " ++ decimalInt version
  nonempty := by simp [bytes]

theorem migratedTo_zero_fresh :
    MigratedTo id (fun _ => []) someText 0 (MigrationCall.fresh {}).data := by
  refine ⟨rfl, by simp, ?_, ?_⟩
  · simp [MigrationDb.Completed, MigrationCall.fresh, MigrationDb.row]
  · simp [MigrationDb.Failed, MigrationCall.fresh, MigrationDb.row]

/-- On a new database, the process stops inside the savepoint of version 4. -/
theorem migrated_after_crash_in_savepoint :
    Migrated id (fun _ => []) someText
      (MigrationEngine.migrate id (faultless fun _ => [])
        (registerAllSchemaMigrations (fun _ => []) someText {})
        (MigrationEngine.migrate id ((CrashPoint.before (.release 4)).env fun _ => [])
          (registerAllSchemaMigrations (fun _ => []) someText {})
          { data := (MigrationCall.fresh {}).data }).conn.reopen) :=
  (migrated_after_crash_iff id (fun _ => []) someText 0 _ migratedTo_zero_fresh
    (.before (.release 4)) (fun _ => []) fun _ => []).mpr (by simp [LosesColumn])

/-- The call returned true. -/
def returnedTrue {σ : Type} :
    Outcome Int (MigrationDb σ) (MigrationEvent σ) (Bool × MigrationEngine σ) → Bool
  | .done (ok, _) _ => ok
  | .stopped _ => false

/-- On a new database, the process stops in front of the record that version 4 is
completed. The next call adds the column again, which fails. -/
theorem not_migrated_after_crash_in_front_of_record :
    ¬ Migrated id (fun _ => []) someText
      (MigrationEngine.migrate id (faultless fun _ => [])
        (registerAllSchemaMigrations (fun _ => []) someText {})
        (MigrationEngine.migrate id ((CrashPoint.before (.writeCompleted 4)).env fun _ => [])
          (registerAllSchemaMigrations (fun _ => []) someText {})
          (MigrationCall.fresh {})).conn.reopen) := by
  rintro ⟨engine, conn, hOutcome, -⟩
  have hFalse : returnedTrue (MigrationEngine.migrate id (faultless fun _ => [])
      (registerAllSchemaMigrations (fun _ => []) someText {})
      (MigrationEngine.migrate id ((CrashPoint.before (.writeCompleted 4)).env fun _ => [])
        (registerAllSchemaMigrations (fun _ => []) someText {})
        (MigrationCall.fresh {})).conn.reopen) = false := by
    decide +kernel
  rw [hOutcome] at hFalse
  simp [returnedTrue] at hFalse

end Recovery

end ContainerCP.Storage
