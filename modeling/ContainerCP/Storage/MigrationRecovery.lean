import ContainerCP.Storage.MigrationRuns

/-! What a second call of `migrate` finds after the process stopped in the middle
of the first one, and when it gets to the end. The record of a completion is
written after the savepoint is released, so there is one statement in front of
which the schema is a step ahead of the records. -/
namespace ContainerCP.Storage
open Sql

variable {σ : Type}

/-- The schema that a callback makes of another. -/
def UpCallback.applied (up : UpCallback σ) (schema : σ) : Option σ :=
  if (up schema).2.1 then some (up schema).1 else none

def Migration.applied (m : Migration σ) (schema : σ) : Option σ :=
  m.up.bind fun up => UpCallback.applied up schema

/-- The schema after all these migrations, each applied once. -/
def applyAll : List (Migration σ) → σ → Option σ
  | [], schema => some schema
  | m :: rest, schema => (m.applied schema).bind (applyAll rest)

theorem applyAll_append (front back : List (Migration σ)) (schema : σ) :
    applyAll (front ++ back) schema = (applyAll front schema).bind (applyAll back) := by
  induction front generalizing schema with
  | nil => rfl
  | cons m front ih =>
      simp only [List.cons_append, applyAll, Option.bind_assoc]
      exact congrArg _ (funext ih)

/-- What `register_migration` asks of a migration. -/
def Migration.Registrable (m : Migration σ) : Prop :=
  1 ≤ m.version ∧ m.name ≠ [] ∧ m.descriptor ≠ [] ∧ m.up.isSome

namespace MigrationEngine
open MigrationDb

theorem foldl_registerMigration {ms : List (Migration σ)} {engine : MigrationEngine σ}
    (h : ∀ m ∈ ms, m.Registrable) (hValid : engine.registrationError = false) :
    ms.foldl registerMigration engine = { engine with migrations := engine.migrations ++ ms } := by
  induction ms generalizing engine with
  | nil => simp
  | cons m ms ih =>
      obtain ⟨hVersion, hName, hDescriptor, hUp⟩ := h m (List.mem_cons_self ..)
      have hRegister : engine.registerMigration m =
          { engine with migrations := engine.migrations ++ [m] } := by
        rw [registerMigration, if_neg (by simp [hValid]), if_neg (by omega),
          if_neg (by simpa using hName), if_neg (by simpa using hDescriptor),
          if_neg (by simpa [Option.isSome_iff_ne_none] using hUp)]
      rw [List.foldl_cons, hRegister, ih (fun m' hMem => h m' (List.mem_cons_of_mem m hMem))]
      · simp
      · exact hValid

variable (sha256Hex : Bytes → Bytes) (env : MigrationEnv σ) (currentVer : Int) (m : Migration σ)

/-- The records of `done` are complete, the migrations of `rest` can be tried. -/
structure Ready (done rest : List (Migration σ)) (schema : σ) (db : MigrationDb σ) : Prop where
  schema : db.schema = schema
  completed : ∀ m ∈ done, db.CompletedWith m.version (computeChecksum sha256Hex m)
  only : ∀ version, db.Completed version → ∃ m ∈ done, m.version = version
  notFailed : ∀ m ∈ rest, ¬ db.Failed m.version

variable {sha256Hex env currentVer m}
variable {done rest : List (Migration σ)} {schema schema' : σ}

/-- The record of the next migration changed, but is neither completed nor
failed. -/
theorem Ready.touch {db db' : MigrationDb σ} (h : Ready sha256Hex done (m :: rest) schema db)
    (hVersions : (done ++ m :: rest).Pairwise (·.version < ·.version))
    (hElsewhere : SameElsewhere m.version db db') (hSchema : db'.schema = schema')
    (hNotCompleted : ¬ db'.Completed m.version) (hNotFailed : ¬ db'.Failed m.version) :
    Ready sha256Hex done (m :: rest) schema' db' where
  schema := hSchema
  completed := by
    intro d hMem
    have hLt := (List.pairwise_append.mp hVersions).2.2 d hMem m (List.mem_cons_self ..)
    exact hElsewhere.completedWith (by omega) (h.completed d hMem)
  only := by
    intro version hVersion
    have hOther : version ≠ m.version := by
      rintro rfl
      exact hNotCompleted hVersion
    exact h.only version ((hElsewhere.completed_iff hOther).mp hVersion)
  notFailed := by
    intro d hMem
    by_cases hOther : d.version = m.version
    · rwa [hOther]
    · exact fun hFailed => h.notFailed d hMem ((hElsewhere.failed_iff hOther).mp hFailed)

/-- The next migration was recorded as completed. -/
theorem Ready.complete {db db' : MigrationDb σ} (h : Ready sha256Hex done (m :: rest) schema db)
    (hVersions : (done ++ m :: rest).Pairwise (·.version < ·.version))
    (hElsewhere : SameElsewhere m.version db db') (hSchema : db'.schema = schema')
    (hCompleted : db'.CompletedWith m.version (computeChecksum sha256Hex m)) :
    Ready sha256Hex (done ++ [m]) rest schema' db' where
  schema := hSchema
  completed := by
    intro d hMem
    rcases List.mem_append.mp hMem with hMem | hMem
    · have hLt := (List.pairwise_append.mp hVersions).2.2 d hMem m (List.mem_cons_self ..)
      exact hElsewhere.completedWith (by omega) (h.completed d hMem)
    · rwa [List.mem_singleton.mp hMem]
  only := by
    intro version hVersion
    by_cases hOther : version = m.version
    · exact ⟨m, by simp, hOther.symm⟩
    · obtain ⟨d, hMem, hD⟩ := h.only version ((hElsewhere.completed_iff hOther).mp hVersion)
      exact ⟨d, List.mem_append_left _ hMem, hD⟩
  notFailed := by
    intro d hMem hFailed
    have hLt := (List.pairwise_cons.mp (List.pairwise_append.mp hVersions).2.1).1 d hMem
    exact h.notFailed d (List.mem_cons_of_mem m hMem)
      ((hElsewhere.failed_iff (by omega)).mp hFailed)

theorem reopen_data_of_closed {conn : MigrationConn σ} (h : conn.savepoints = []) :
    conn.reopen.data = conn.data := by
  simp [Sql.Connection.reopen, Sql.Connection.committed, h]

theorem reopen_data_of_open {conn : MigrationConn σ} {version : Int} {before : MigrationDb σ}
    (h : conn.savepoints = [(version, before)]) : conn.reopen.data = before := by
  simp [Sql.Connection.reopen, Sql.Connection.committed, h]

variable (sha256Hex env m) in
/-- Where the process stopped in the round of `m`: the schema is that before the
migration, or it is that after it and the record of the completion is missing. -/
def Interrupted (done rest : List (Migration σ)) (schema schema' : σ) (conn : MigrationConn σ) :
    Prop :=
  StopsOutside env ∧ Ready sha256Hex done (m :: rest) schema conn.reopen.data ∨
    env.verdict (.writeCompleted m.version) = .stops ∧
      Ready sha256Hex done (m :: rest) schema' conn.reopen.data

variable (sha256Hex env m) in
/-- The round of `m` went through. -/
def WentThrough (done rest : List (Migration σ)) (schema' : σ) (result : Except Bytes Unit)
    (conn : MigrationConn σ) : Prop :=
  result = .ok () ∧ env.verdict (.writeCompleted m.version) ≠ .stops ∧ conn.savepoints = [] ∧
    Ready sha256Hex (done ++ [m]) rest schema' conn.data

variable (sha256Hex m) in
/-- Inside the savepoint, which holds the database before the callback. -/
structure InSavepoint (done rest : List (Migration σ)) (schema schema' : σ) (conn : MigrationConn σ) :
    Prop where
  before : ∃ before, conn.savepoints = [(m.version, before)] ∧
    Ready sha256Hex done (m :: rest) schema before
  ahead : Ready sha256Hex done (m :: rest) schema' conn.data
  running : conn.data.Running m.version (computeChecksum sha256Hex m)

theorem InSavepoint.interrupted {conn : MigrationConn σ} {ahead : σ}
    (h : InSavepoint sha256Hex m done rest schema ahead conn) (hStops : StopsOutside env) :
    Interrupted sha256Hex env m done rest schema schema' conn := by
  obtain ⟨before, hSavepoints, hReady⟩ := h.before
  exact .inl ⟨hStops, by rwa [reopen_data_of_open hSavepoints]⟩

theorem markCompleted_recovers (hNoFault : ¬ SomeFails env)
    (hVersions : (done ++ m :: rest).Pairwise (·.version < ·.version)) :
    Triple (InSavepoint sha256Hex m done rest schema schema') (markCompleted env m)
      (WentThrough sha256Hex env m done rest schema')
      (Interrupted sha256Hex env m done rest schema schema') := by
  refine Triple.bind
    (fun _ conn => conn.savepoints = [] ∧ Ready sha256Hex done (m :: rest) schema' conn.data ∧
      conn.data.Running m.version (computeChecksum sha256Hex m))
    (Triple.release ?_ ?_) fun _ => ?_
  · intro conn _ savepoints h hClosed
    obtain ⟨before, hSavepoints, -⟩ := h.before
    exact ⟨hClosed.resolve_left (fun hFails => hNoFault ⟨_, hFails⟩) before hSavepoints, h.ahead,
      h.running⟩
  · exact fun conn h hStops => h.interrupted (.inl ⟨_, by simp, hStops⟩)
  refine Triple.bind
    (fun completed conn => completed = true ∧ WentThrough sha256Hex env m done rest schema' (.ok ()) conn)
    (Triple.exec ?_ ?_ ?_) fun completed => Triple.pure ?_
  · rintro conn data ⟨hClosed, hReady, hRunning⟩ hVerdict hData
    obtain rfl := Option.some.inj hData
    obtain ⟨row, hRow, -, hChecksum⟩ := hRunning
    exact ⟨rfl, rfl, by simp [hVerdict], hClosed, hReady.complete hVersions (sameElsewhere_update _ _ _)
      hReady.schema ⟨_, row_update_self _ hRow, rfl, hChecksum⟩⟩
  · rintro conn - (hFails | hNone)
    · exact absurd ⟨_, hFails⟩ hNoFault
    · simp at hNone
  · rintro conn ⟨hClosed, hReady, -⟩ hStops
    exact .inr ⟨hStops, by rwa [reopen_data_of_closed hClosed]⟩
  · rintro conn ⟨rfl, h⟩
    exact h

theorem runRecorded_recovers (hNoFault : ¬ SomeFails env) (hApplied : m.applied schema = some schema')
    (hVersions : (done ++ m :: rest).Pairwise (·.version < ·.version)) :
    Triple (InSavepoint sha256Hex m done rest schema schema) (runRecorded env m)
      (WentThrough sha256Hex env m done rest schema')
      (Interrupted sha256Hex env m done rest schema schema') := by
  refine Triple.bind (fun _ => InSavepoint sha256Hex m done rest schema schema)
    (Triple.current fun conn h => h) fun before => ?_
  refine Triple.bind (fun _ => InSavepoint sha256Hex m done rest schema schema)
    (Triple.emit fun conn h => ⟨h.before, h.ahead, h.running⟩) fun _ => ?_
  refine Triple.bind
    (fun result conn => result.1 = true ∧ InSavepoint sha256Hex m done rest schema schema' conn)
    ?_ fun result => ?_
  · simp only [callUp]
    split
    · rename_i hInside
      refine Triple.stopAfter fun conn h => ?_
      obtain ⟨before, hSavepoints, hReady⟩ := h.before
      refine .inl ⟨.inr ⟨m.version, by simp [hInside]⟩, ?_⟩
      rwa [reopen_data_of_open (by exact hSavepoints)]
    · refine Triple.modify fun conn h => ?_
      obtain ⟨up, hUp, hOk⟩ := Option.bind_eq_some_iff.mp hApplied
      simp only [UpCallback.applied] at hOk
      split_ifs at hOk with hSucceeds
      have hSchema := Option.some.inj hOk
      simp only [hUp, h.ahead.schema]
      refine ⟨hSucceeds, h.before, ?_, h.running⟩
      exact ⟨hSchema, h.ahead.completed, h.ahead.only, h.ahead.notFailed⟩
  · rintro conn ⟨hOk, h⟩
    simp only [hOk, if_true]
    exact markCompleted_recovers hNoFault hVersions conn h

/-- Between two rounds. -/
def Between (sha256Hex : Bytes → Bytes) (done rest : List (Migration σ)) (schema : σ)
    (conn : MigrationConn σ) : Prop :=
  conn.savepoints = [] ∧ Ready sha256Hex done rest schema conn.data

theorem Between.interrupted {conn : MigrationConn σ}
    (h : Between sha256Hex done (m :: rest) schema conn) (hStops : StopsOutside env) :
    Interrupted sha256Hex env m done rest schema schema' conn :=
  .inl ⟨hStops, by rw [reopen_data_of_closed h.1]; exact h.2⟩

theorem Recorded.between {start conn : MigrationConn σ}
    (hVersions : (done ++ m :: rest).Pairwise (·.version < ·.version))
    (hStart : Between sha256Hex done (m :: rest) schema start)
    (h : Recorded sha256Hex m start conn) : Between sha256Hex done (m :: rest) schema conn := by
  refine ⟨h.savepoints.trans hStart.1, hStart.2.touch hVersions h.elsewhere
    (h.schema.trans hStart.2.schema) h.running.not_completed ?_⟩
  rintro ⟨row, hRow, hStatus⟩
  obtain ⟨row', hRow', hStatus', -⟩ := h.running
  obtain rfl : row' = row := Option.some.inj (hRow'.symm.trans hRow)
  simp [hStatus] at hStatus'

theorem applyOne_recovers (hNoFault : ¬ SomeFails env) (hApplied : m.applied schema = some schema')
    (hVersions : (done ++ m :: rest).Pairwise (·.version < ·.version)) :
    Triple (Between sha256Hex done (m :: rest) schema) (applyOne sha256Hex env m)
      (WentThrough sha256Hex env m done rest schema')
      (Interrupted sha256Hex env m done rest schema schema') := by
  intro start hStart
  refine Triple.bind
    (fun recorded conn => recorded = .ok () ∧ Recorded sha256Hex m start conn)
    ((recordRunning_triple sha256Hex env m start).consequence (fun _ h => h) ?_ ?_)
    (fun recorded => ?_) start rfl
  · intro recorded conn h
    cases recorded with
    | ok _ => exact ⟨rfl, h⟩
    | error message => exact absurd h.2 hNoFault
  · rintro conn ⟨rfl, hStops⟩
    exact hStart.interrupted hStops
  rintro recorded ⟨rfl, hRecorded⟩
  have hBetween := hRecorded.between hVersions hStart
  have hOpen : Triple (· = recorded)
      (Script.savepoint (env.verdict (.savepoint m.version)) m.version)
      (fun opened conn => opened = true ∧ InSavepoint sha256Hex m done rest schema schema conn)
      (Interrupted sha256Hex env m done rest schema schema') := by
    refine Triple.savepoint ?_ ?_ ?_
    · rintro conn rfl
      exact ⟨rfl, ⟨conn.data, by rw [hBetween.1], hBetween.2⟩, hBetween.2, hRecorded.running⟩
    · rintro conn - hFails
      exact absurd ⟨_, hFails⟩ hNoFault
    · rintro conn rfl hStops
      exact hBetween.interrupted (.inl ⟨_, by simp, hStops⟩)
  refine Triple.bind _ hOpen (fun opened => ?_) recorded rfl
  rintro conn ⟨rfl, h⟩
  exact runRecorded_recovers hNoFault hApplied hVersions conn h

theorem Prepared.between {start conn : MigrationConn σ}
    (hVersions : (done ++ m :: rest).Pairwise (·.version < ·.version))
    (hStart : Between sha256Hex done (m :: rest) schema start)
    (h : Prepared m.version start conn) : Between sha256Hex done (m :: rest) schema conn := by
  refine ⟨h.savepoints.trans hStart.1, hStart.2.touch hVersions h.elsewhere
    (h.schema.trans hStart.2.schema) ?_ ?_⟩
  · rcases h.own with hOwn | hOwn
    · rintro ⟨row, hRow, hStatus⟩
      obtain ⟨d, hMem, hVersion⟩ := hStart.2.only m.version ⟨row, hOwn ▸ hRow, hStatus⟩
      have hLt := (List.pairwise_append.mp hVersions).2.2 d hMem m (List.mem_cons_self ..)
      omega
    · exact hOwn.1
  · rcases h.own with hOwn | hOwn
    · rintro ⟨row, hRow, hStatus⟩
      exact hStart.2.notFailed m (List.mem_cons_self ..) ⟨row, hOwn ▸ hRow, hStatus⟩
    · exact hOwn.2

/-- A round over a migration that is not recorded as completed. -/
theorem migrateOne_recovers (hNoFault : ¬ SomeFails env) (hApplied : m.applied schema = some schema')
    (hVersions : (done ++ m :: rest).Pairwise (·.version < ·.version))
    (hNew : currentVer < m.version) :
    Triple (Between sha256Hex done (m :: rest) schema) (migrateOne sha256Hex env currentVer m)
      (WentThrough sha256Hex env m done rest schema')
      (Interrupted sha256Hex env m done rest schema schema') := by
  intro start hStart
  simp only [migrateOne, if_neg (not_le.mpr hNew)]
  refine Triple.bind
    (fun mayRun conn => mayRun = true ∧ Between sha256Hex done (m :: rest) schema conn)
    ((checkStatus_triple env m start).consequence (fun _ h => h) ?_ ?_) (fun mayRun => ?_) start rfl
  · intro mayRun conn h
    cases mayRun with
    | true => exact ⟨rfl, h.1.between hVersions hStart⟩
    | false => exact absurd h.2 (hStart.2.notFailed m (List.mem_cons_self ..))
  · rintro conn ⟨rfl, hStops⟩
    exact hStart.interrupted hStops
  · rintro conn ⟨rfl, h⟩
    exact applyOne_recovers hNoFault hApplied hVersions conn h

variable (sha256Hex env) in
/-- What the next process finds: the migrations up to some point, each applied
once, and maybe the one after it applied but not recorded. -/
def Found (done rest : List (Migration σ)) (schema : σ) (db : MigrationDb σ) : Prop :=
  ∃ front back schema', rest = front ++ back ∧ applyAll front schema = some schema' ∧
    (StopsOutside env ∧ Ready sha256Hex (done ++ front) back schema' db ∨
      ∃ m behind ahead, back = m :: behind ∧ m.applied schema' = some ahead ∧
        env.verdict (.writeCompleted m.version) = .stops ∧
        Ready sha256Hex (done ++ front) back ahead db)

theorem Interrupted.found {conn : MigrationConn σ} (hApplied : m.applied schema = some schema')
    (h : Interrupted sha256Hex env m done rest schema schema' conn) :
    Found sha256Hex env done (m :: rest) schema conn.reopen.data := by
  refine ⟨[], m :: rest, schema, rfl, rfl, ?_⟩
  rcases h with ⟨hStops, hReady⟩ | ⟨hStops, hReady⟩
  · exact .inl ⟨hStops, by simpa using hReady⟩
  · exact .inr ⟨m, rest, schema', rfl, hApplied, hStops, by simpa using hReady⟩

theorem Found.cons {db : MigrationDb σ} (hApplied : m.applied schema = some schema')
    (h : Found sha256Hex env (done ++ [m]) rest schema' db) :
    Found sha256Hex env done (m :: rest) schema db := by
  obtain ⟨front, back, between, rfl, hFront, hFound⟩ := h
  refine ⟨m :: front, back, between, rfl, by simp [applyAll, hApplied, hFront], ?_⟩
  simpa only [List.append_assoc, List.singleton_append] using hFound

theorem migrateAll_recovers {final : σ} (hNoFault : ¬ SomeFails env)
    (hVersions : (done ++ rest).Pairwise (·.version < ·.version))
    (hNew : ∀ m ∈ rest, currentVer < m.version) (hFinal : applyAll rest schema = some final) :
    Triple (Between sha256Hex done rest schema) (migrateAll sha256Hex env currentVer rest)
      (fun result conn => result = .ok () ∧ Between sha256Hex (done ++ rest) [] final conn ∧
        ∀ m ∈ rest, env.verdict (.writeCompleted m.version) ≠ .stops)
      (fun conn => Found sha256Hex env done rest schema conn.reopen.data) := by
  induction rest generalizing done schema with
  | nil =>
      obtain rfl := Option.some.inj hFinal
      exact Triple.pure fun conn h => ⟨rfl, by simpa using h, by simp⟩
  | cons m rest ih =>
      obtain ⟨schema', hApplied, hRest⟩ := Option.bind_eq_some_iff.mp hFinal
      refine Triple.bind (WentThrough sha256Hex env m done rest schema')
        ((migrateOne_recovers hNoFault hApplied hVersions (hNew m (List.mem_cons_self ..))).consequence
          (fun _ h => h) (fun _ _ h => h) fun conn h => h.found hApplied) fun result => ?_
      rintro conn ⟨rfl, hNotHere, hClosed, hReady⟩
      refine (ih (by simpa using hVersions) (fun d hMem => hNew d (List.mem_cons_of_mem m hMem))
        hRest).consequence (fun _ h => h) ?_ (fun conn h => h.cons hApplied) conn ⟨hClosed, hReady⟩
      rintro result conn ⟨rfl, hBetween, hNot⟩
      exact ⟨rfl, by simpa using hBetween, by simpa using ⟨hNotHere, hNot⟩⟩

/-- The rounds over the migrations that are completed. -/
theorem migrateAll_verifies {pre : MigrationConn σ → Prop}
    {post : Except Bytes Unit → MigrationConn σ → Prop} {stop : MigrationConn σ → Prop}
    (hNoFault : ¬ SomeFails env) (old : List (Migration σ)) (hOld : ∀ m ∈ old, m.version ≤ currentVer)
    (hCompleted : ∀ conn, pre conn → ∀ m ∈ old,
      conn.data.CompletedWith m.version (computeChecksum sha256Hex m))
    (hStop : ∀ conn, pre conn → StopsOutside env → stop conn)
    (hRest : Triple pre (migrateAll sha256Hex env currentVer rest) post stop) :
    Triple pre (migrateAll sha256Hex env currentVer (old ++ rest)) post stop := by
  induction old with
  | nil => exact hRest
  | cons m old ih =>
      have ih := ih (fun d hMem => hOld d (List.mem_cons_of_mem m hMem))
        fun conn hConn d hMem => hCompleted conn hConn d (List.mem_cons_of_mem m hMem)
      intro start hStart
      have hHere := hCompleted start hStart m (List.mem_cons_self ..)
      have hRound : Triple (· = start) (migrateOne sha256Hex env currentVer m)
          (fun result conn => result = .ok () ∧ conn = start) stop := by
        simp only [migrateOne, if_pos (hOld m (List.mem_cons_self ..))]
        refine Triple.bind _ ((checksumMatches_triple sha256Hex env m start).consequence
          (fun _ h => h) (fun _ _ h => h) ?_) fun same => Triple.pure ?_
        · rintro conn ⟨rfl, hStops⟩
          exact hStop conn hStart hStops
        · rintro conn ⟨rfl, -, hSame⟩
          have hSame := (hSame hHere).resolve_right hNoFault
          exact ⟨by simp [hSame], rfl⟩
      refine Triple.bind _ hRound (fun result => ?_) start rfl
      rintro conn ⟨rfl, rfl⟩
      exact ih conn hStart

theorem firstDuplicate_of_strict {ms : List (Migration σ)}
    (h : ms.Pairwise (·.version < ·.version)) : firstDuplicate ms = none := by
  induction ms with
  | nil => rfl
  | cons first rest ih =>
      obtain ⟨hFirst, hRest⟩ := List.pairwise_cons.mp h
      cases rest with
      | nil => rfl
      | cons second rest =>
          have hLt := hFirst second (List.mem_cons_self ..)
          rw [firstDuplicate, if_neg (by omega)]
          exact ih hRest

/-- The current version separates what is done from the rest. -/
theorem Ready.maxCompleted_lt {db : MigrationDb σ} (h : Ready sha256Hex done rest schema db)
    (hVersions : (done ++ rest).Pairwise (·.version < ·.version)) (hMem : m ∈ rest)
    (hPositive : 0 < m.version) : db.maxCompleted < m.version := by
  refine MigrationDb.maxCompleted_lt hPositive fun version hVersion => ?_
  obtain ⟨d, hD, rfl⟩ := h.only version hVersion
  exact (List.pairwise_append.mp hVersions).2.2 d hD m hMem

theorem Ready.le_maxCompleted {db : MigrationDb σ} (h : Ready sha256Hex done rest schema db)
    (hMem : m ∈ done) : m.version ≤ db.maxCompleted :=
  (h.completed m hMem).completed.le_maxCompleted

section Calls

variable {engine : MigrationEngine σ}

/-- The engine has these migrations, in this order. -/
structure Holds (engine : MigrationEngine σ) (ms : List (Migration σ)) : Prop where
  valid : engine.registrationError = false
  sorted : engine.sorted = ms
  versions : ms.Pairwise (·.version < ·.version)
  positive : ∀ m ∈ ms, 0 < m.version

/-- A call over an engine that registered its migrations without an error. -/
theorem migrate_triple {ms : List (Migration σ)} (hEngine : engine.Holds ms)
    {pre : MigrationConn σ → Prop} {stop : MigrationConn σ → Prop}
    (post : Bool → MigrationConn σ → Prop)
    (hSorted : Triple pre (migrateSorted sha256Hex env ms)
      (fun result => post (result matches .ok ())) stop) :
    Triple pre (migrate sha256Hex env engine) (fun result => post result.1) stop := by
  simp only [migrate, hEngine.valid, hEngine.sorted, firstDuplicate_of_strict hEngine.versions]
  refine Triple.bind _ hSorted fun result => ?_
  cases result with
  | ok _ => exact Triple.pure fun _ h => h
  | error message => exact Triple.pure fun _ h => h

theorem migrate_recovers {final : σ} (hEngine : engine.Holds (done ++ rest))
    (hNoFault : ¬ SomeFails env) (hFinal : applyAll rest schema = some final) :
    Triple (Between sha256Hex done rest schema) (migrate sha256Hex env engine)
      (fun result conn => result.1 = true ∧ Between sha256Hex (done ++ rest) [] final conn ∧
        ∀ m ∈ rest, env.verdict (.writeCompleted m.version) ≠ .stops)
      (fun conn => Found sha256Hex env done rest schema conn.reopen.data) := by
  have hFound : ∀ conn, Between sha256Hex done rest schema conn → StopsOutside env →
      Found sha256Hex env done rest schema conn.reopen.data := fun conn h hStops =>
    ⟨[], rest, schema, rfl, rfl, .inl ⟨hStops, by
      rw [reopen_data_of_closed h.1]
      simpa using h.2⟩⟩
  refine migrate_triple hEngine
    (fun ok conn => ok = true ∧ Between sha256Hex (done ++ rest) [] final conn ∧
      ∀ m ∈ rest, env.verdict (.writeCompleted m.version) ≠ .stops) fun start hStart => ?_
  refine Triple.bind (fun ready conn => ready = .ok () ∧ conn = start)
    ((ensureMetaTables_triple env start).consequence (fun _ h => h)
      (fun _ _ h => ⟨h.2.resolve_right hNoFault, h.1⟩) ?_) (fun ready => ?_) start rfl
  · rintro conn ⟨rfl, hStops⟩
    exact hFound conn hStart hStops
  rintro conn ⟨rfl, rfl⟩
  refine Triple.bind (fun currentVer conn' => conn' = conn ∧ currentVer = conn.data.maxCompleted)
    ((currentVersion_triple env conn).consequence (fun _ h => h)
      (fun _ _ h => ⟨h.1, h.2 fun hFails => hNoFault ⟨_, hFails⟩⟩) ?_) (fun currentVer => ?_) conn rfl
  · rintro conn ⟨rfl, hStops⟩
    exact hFound conn hStart hStops
  rintro conn ⟨rfl, rfl⟩
  have hNew : ∀ m ∈ rest, conn.data.maxCompleted < m.version := fun m hMem =>
    hStart.2.maxCompleted_lt hEngine.versions hMem
      (hEngine.positive m (List.mem_append_right done hMem))
  refine (migrateAll_verifies hNoFault done (fun m hMem => hStart.2.le_maxCompleted hMem)
    (fun conn h => h.2.completed) hFound
    (migrateAll_recovers hNoFault hEngine.versions hNew hFinal)).consequence
    (fun _ h => h) ?_ (fun _ h => h) conn hStart
  rintro result conn ⟨rfl, h⟩
  exact ⟨rfl, h⟩

theorem undoFailed_refuses (before : MigrationDb σ) (diagnostics : Bytes) :
    Triple (fun _ => True) (undoFailed env m before diagnostics) (fun result _ => result ≠ .ok ())
      (fun _ => True) :=
  Triple.bind _ (Triple.always _) fun _ => Triple.bind _ (Triple.always _) fun _ =>
    Triple.bind _ (Triple.always _) fun _ => Triple.bind _ (Triple.always _) fun _ =>
      Triple.pure fun _ _ => by simp

/-- The next migration does not apply to the schema. -/
theorem applyOne_refuses (hNone : m.applied schema = none) :
    Triple (fun conn => conn.data.schema = schema) (applyOne sha256Hex env m)
      (fun result _ => result ≠ .ok ()) (fun _ => True) := by
  intro start hStart
  refine Triple.bind
    (fun recorded conn => recorded = .ok () → conn.data.schema = schema)
    ((recordRunning_triple sha256Hex env m start).consequence (fun _ h => h) ?_ fun _ _ => trivial)
    (fun recorded => ?_) start rfl
  · rintro recorded conn h rfl
    exact h.schema.trans hStart
  cases recorded with
  | error message => exact Triple.pure fun _ _ => by simp
  | ok _ =>
      refine Triple.bind (fun _ conn => conn.data.schema = schema)
        (Triple.savepoint (fun _ h => h rfl) (fun _ h _ => h rfl) fun _ _ _ => trivial) fun opened => ?_
      split_ifs
      · refine Triple.bind (fun _ conn => conn.data.schema = schema) (Triple.current fun _ h => h)
          fun before => ?_
        refine Triple.bind (fun _ conn => conn.data.schema = schema) (Triple.emit fun _ h => h)
          fun _ => ?_
        refine Triple.bind (fun result _ => result.1 = false) ?_ fun result => ?_
        · simp only [callUp]
          split
          · exact Triple.stopAfter fun _ _ => trivial
          · refine Triple.modify fun conn h => ?_
            simp only [Migration.applied, ← h] at hNone
            cases hUp : m.up with
            | none => rfl
            | some up => simpa [hUp, UpCallback.applied] using hNone
        · rintro conn hFalse
          simp only [hFalse]
          exact undoFailed_refuses before result.2 conn trivial
      · exact Triple.pure fun _ _ => by simp

theorem migrateAll_refuses (old : List (Migration σ)) (hOld : ∀ d ∈ old, d.version ≤ currentVer)
    (hNew : currentVer < m.version) (hNone : m.applied schema = none) :
    Triple (fun conn => conn.data.schema = schema)
      (migrateAll sha256Hex env currentVer (old ++ m :: rest)) (fun result _ => result ≠ .ok ())
      (fun _ => True) := by
  induction old with
  | nil =>
      refine Triple.bind (fun result _ => result ≠ .ok ()) ?_ fun result => ?_
      · intro start hStart
        simp only [migrateOne, if_neg (not_le.mpr hNew)]
        refine Triple.bind (fun _ conn => conn.data.schema = schema)
          ((checkStatus_triple env m start).consequence (fun _ h => h) ?_ fun _ _ => trivial)
          (fun mayRun => ?_) start rfl
        · intro mayRun conn h
          cases mayRun with
          | true => exact h.1.schema.trans hStart
          | false => exact h.1 ▸ hStart
        · split_ifs
          · exact applyOne_refuses hNone
          · exact Triple.pure fun _ _ => by simp
      · cases result with
        | ok _ => exact fun conn h => absurd rfl h
        | error message => exact Triple.pure fun _ _ => by simp
  | cons d old ih =>
      refine Triple.bind (fun _ conn => conn.data.schema = schema) ?_ fun result => ?_
      · intro start hStart
        refine (migrateOne_triple sha256Hex env currentVer d start).consequence (fun _ h => h) ?_
          (fun _ _ => trivial) start rfl
        intro result conn h
        exact (h.old (hOld d (List.mem_cons_self ..))).1 ▸ hStart
      · cases result with
        | error message => exact Triple.pure fun _ _ => by simp
        | ok _ => exact ih fun d' hMem => hOld d' (List.mem_cons_of_mem d hMem)

theorem migrate_refuses (hEngine : engine.Holds (done ++ m :: rest)) (hNoFault : ¬ SomeFails env)
    (hNone : m.applied schema = none) :
    Triple (Between sha256Hex done (m :: rest) schema) (migrate sha256Hex env engine)
      (fun result _ => result.1 = false) (fun _ => True) := by
  refine migrate_triple hEngine (fun ok _ => ok = false) fun start hStart => ?_
  refine Triple.bind (fun _ conn => conn = start)
    ((ensureMetaTables_triple env start).consequence (fun _ h => h) (fun _ _ h => h.1)
      fun _ _ => trivial) (fun ready => ?_) start rfl
  cases ready with
  | error message => exact Triple.pure fun _ _ => rfl
  | ok _ =>
      rintro conn rfl
      refine Triple.bind (fun currentVer conn' => conn' = conn ∧ currentVer = conn.data.maxCompleted)
        ((currentVersion_triple env conn).consequence (fun _ h => h)
          (fun _ _ h => ⟨h.1, h.2 fun hFails => hNoFault ⟨_, hFails⟩⟩) fun _ _ => trivial)
        (fun currentVer => ?_) conn rfl
      rintro conn ⟨rfl, rfl⟩
      refine (migrateAll_refuses done (fun d hMem => hStart.2.le_maxCompleted hMem)
        (hStart.2.maxCompleted_lt hEngine.versions (List.mem_cons_self ..)
          (hEngine.positive m (by simp))) hNone).consequence (fun _ h => h) ?_ (fun _ h => h) conn
        hStart.2.schema
      intro result conn hResult
      cases result with
      | ok _ => exact absurd rfl hResult
      | error message => rfl

end Calls

end MigrationEngine

end ContainerCP.Storage
