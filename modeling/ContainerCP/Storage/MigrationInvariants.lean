import ContainerCP.Storage.MigrationEngine
import Mathlib.Data.List.Nodup
import Mathlib.Tactic.Tauto

/-! What holds over whole runs of `MigrationEngine::migrate`, whatever becomes of
the statements and the callbacks. A round of the loop touches the record of
one version; everything else follows from what it leaves there. -/
namespace ContainerCP.Storage
open Sql

variable {σ : Type}

namespace MigrationDb

theorem row_eq_some {db : MigrationDb σ} {version : Int} {row : MigrationRow} :
    db.row version = some row ↔ row ∈ db.rows ∧ row.version = version := by
  constructor
  · intro h
    exact ⟨List.mem_of_find?_eq_some h, by simpa using List.find?_some h⟩
  · rintro ⟨hMem, rfl⟩
    have hSome : (db.row row.version).isSome = true :=
      List.find?_isSome.mpr ⟨row, hMem, by simp⟩
    obtain ⟨found, hFound⟩ := Option.isSome_iff_exists.mp hSome
    have hVersion : found.version = row.version := by simpa using List.find?_some hFound
    rw [hFound, List.inj_on_of_nodup_map db.unique (List.mem_of_find?_eq_some hFound) hMem hVersion]

theorem row_update (db : MigrationDb σ) (version : Int) (change : MigrationRow → MigrationRow)
    (other : Int) :
    (db.update version change).row other =
      if other = version then (db.row version).map fun row => { change row with version }
      else db.row other := by
  have hSame : ((fun row : MigrationRow => row.version == other) ∘ changeRow version change) =
      fun row : MigrationRow => row.version == other := by
    funext row
    simp
  simp only [row, update, List.find?_map, hSame]
  cases hRow : db.rows.find? (·.version == other) with
  | none =>
      split_ifs with hOther
      · subst hOther
        simp [hRow]
      · rfl
  | some found =>
      have hVersion : found.version = other := by simpa using List.find?_some hRow
      split_ifs with hOther
      · subst hOther
        simp [hRow, changeRow, hVersion]
      · simp [changeRow, hVersion, hOther]

theorem row_update_self {db : MigrationDb σ} {version : Int} {row : MigrationRow}
    (change : MigrationRow → MigrationRow) (h : db.row version = some row) :
    (db.update version change).row version = some { change row with version } := by
  rw [row_update, if_pos rfl, h, Option.map_some]

theorem insert_eq_some {db db' : MigrationDb σ} {new : MigrationRow}
    (h : db.insert new = some db') :
    db'.schema = db.schema ∧ db'.row new.version = some new ∧
      ∀ other, other ≠ new.version → db'.row other = db.row other := by
  simp only [insert] at h
  split_ifs at h with hKey
  obtain rfl := Option.some.inj h
  refine ⟨rfl, row_eq_some.mpr ⟨by simp, rfl⟩, fun other hOther => ?_⟩
  simp [row, List.find?_append, Ne.symm hOther]

theorem insert_eq_none {db : MigrationDb σ} {new : MigrationRow} :
    db.insert new = none ↔ (db.row new.version).isSome := by
  simp [insert, row, List.find?_isSome]

/-- The version is recorded as completed. -/
def Completed (db : MigrationDb σ) (version : Int) : Prop :=
  ∃ row, db.row version = some row ∧ row.status = .completed

instance (db : MigrationDb σ) (version : Int) : Decidable (db.Completed version) :=
  decidable_of_iff ((db.row version).any (·.status = .completed)) (by simp [Completed, Option.any_eq_true])

/-- The version is recorded as failed. -/
def Failed (db : MigrationDb σ) (version : Int) : Prop :=
  ∃ row, db.row version = some row ∧ row.status = .failed

theorem le_foldl_max (first : Int) (rest : List Int) :
    first ≤ rest.foldl max first ∧ ∀ n ∈ rest, n ≤ rest.foldl max first := by
  induction rest generalizing first with
  | nil => simp
  | cons next rest ih =>
      obtain ⟨hFirst, hRest⟩ := ih (max first next)
      simp only [List.foldl_cons, List.mem_cons, forall_eq_or_imp]
      refine ⟨by omega, by omega, hRest⟩

theorem Completed.le_maxCompleted {db : MigrationDb σ} {version : Int}
    (h : db.Completed version) : version ≤ db.maxCompleted := by
  obtain ⟨row, hRow, hStatus⟩ := h
  obtain ⟨hMem, rfl⟩ := row_eq_some.mp hRow
  have hVersion : row.version ∈ (db.rows.filter (·.status == .completed)).map (·.version) :=
    List.mem_map.mpr ⟨row, List.mem_filter.mpr ⟨hMem, by simp [hStatus]⟩, rfl⟩
  simp only [maxCompleted]
  cases hVersions : (db.rows.filter (·.status == .completed)).map (·.version) with
  | nil => simp [hVersions] at hVersion
  | cons first rest =>
      rw [hVersions, List.mem_cons] at hVersion
      obtain ⟨hFirst, hRest⟩ := le_foldl_max first rest
      rcases hVersion with hVersion | hVersion
      · rw [hVersion]; exact hFirst
      · exact hRest _ hVersion

theorem foldl_max_mem (first : Int) (rest : List Int) : rest.foldl max first ∈ first :: rest := by
  induction rest generalizing first with
  | nil => simp
  | cons next rest ih =>
      rcases List.mem_cons.mp (ih (max first next)) with hMem | hMem
      · rcases (by omega : max first next = first ∨ max first next = next) with hMax | hMax
        · exact List.mem_cons.mpr (.inl (hMem.trans hMax))
        · exact List.mem_cons_of_mem _ (List.mem_cons.mpr (.inl (hMem.trans hMax)))
      · exact List.mem_cons_of_mem _ (List.mem_cons_of_mem _ hMem)

theorem maxCompleted_lt {db : MigrationDb σ} {bound : Int} (hBound : 0 < bound)
    (h : ∀ version, db.Completed version → version < bound) : db.maxCompleted < bound := by
  simp only [maxCompleted]
  cases hVersions : (db.rows.filter (·.status == .completed)).map (·.version) with
  | nil => exact hBound
  | cons first rest =>
      have hMem := foldl_max_mem first rest
      rw [← hVersions, List.mem_map] at hMem
      obtain ⟨row, hRow, hVersion⟩ := hMem
      obtain ⟨hRow, hStatus⟩ := List.mem_filter.mp hRow
      exact h _ ⟨row, row_eq_some.mpr ⟨hRow, hVersion⟩, by simpa using hStatus⟩

/-- The version is recorded as completed, with this checksum. -/
def CompletedWith (db : MigrationDb σ) (version : Int) (checksum : Bytes) : Prop :=
  ∃ row, db.row version = some row ∧ row.status = .completed ∧ row.checksum = checksum

/-- The version is recorded as running, with this checksum. -/
def Running (db : MigrationDb σ) (version : Int) (checksum : Bytes) : Prop :=
  ∃ row, db.row version = some row ∧ row.status = .running ∧ row.checksum = checksum

/-- The records of all other versions agree. -/
def SameElsewhere (version : Int) (before after : MigrationDb σ) : Prop :=
  ∀ other, other ≠ version → after.row other = before.row other

theorem SameElsewhere.trans {version : Int} {first second third : MigrationDb σ}
    (h : SameElsewhere version first second) (h' : SameElsewhere version second third) :
    SameElsewhere version first third :=
  fun other hOther => (h' other hOther).trans (h other hOther)

theorem sameElsewhere_update (db : MigrationDb σ) (version : Int)
    (change : MigrationRow → MigrationRow) :
    SameElsewhere version db (db.update version change) := by
  intro other hOther
  rw [row_update, if_neg hOther]

theorem CompletedWith.completed {db : MigrationDb σ} {version : Int} {checksum : Bytes}
    (h : db.CompletedWith version checksum) : db.Completed version := by
  obtain ⟨row, hRow, hStatus, -⟩ := h
  exact ⟨row, hRow, hStatus⟩

theorem SameElsewhere.completed_iff {version other : Int} {before after : MigrationDb σ}
    (h : SameElsewhere version before after) (hOther : other ≠ version) :
    after.Completed other ↔ before.Completed other := by
  simp only [Completed, h other hOther]

theorem SameElsewhere.failed_iff {version other : Int} {before after : MigrationDb σ}
    (h : SameElsewhere version before after) (hOther : other ≠ version) :
    after.Failed other ↔ before.Failed other := by
  simp only [Failed, h other hOther]

theorem SameElsewhere.completedWith {version other : Int} {before after : MigrationDb σ}
    {checksum : Bytes} (h : SameElsewhere version before after) (hOther : other ≠ version)
    (hCompleted : before.CompletedWith other checksum) : after.CompletedWith other checksum := by
  simpa only [CompletedWith, h other hOther] using hCompleted

theorem Running.not_completed {db : MigrationDb σ} {version : Int} {checksum : Bytes}
    (h : db.Running version checksum) : ¬ db.Completed version := by
  rintro ⟨row, hRow, hStatus⟩
  obtain ⟨row', hRow', hStatus', -⟩ := h
  obtain rfl : row' = row := Option.some.inj (hRow'.symm.trans hRow)
  simp [hStatus] at hStatus'

theorem not_completed_update (db : MigrationDb σ) (version : Int)
    {change : MigrationRow → MigrationRow} (h : ∀ row, (change row).status ≠ .completed) :
    ¬ (db.update version change).Completed version := by
  rintro ⟨row, hRow, hStatus⟩
  rw [row_update, if_pos rfl, Option.map_eq_some_iff] at hRow
  obtain ⟨old, -, rfl⟩ := hRow
  exact h old hStatus

theorem not_failed_update (db : MigrationDb σ) (version : Int)
    {change : MigrationRow → MigrationRow} (h : ∀ row, (change row).status ≠ .failed) :
    ¬ (db.update version change).Failed version := by
  rintro ⟨row, hRow, hStatus⟩
  rw [row_update, if_pos rfl, Option.map_eq_some_iff] at hRow
  obtain ⟨old, -, rfl⟩ := hRow
  exact h old hStatus

/-- The checksum of a completed record, as `checksum_matches` looks it up. -/
theorem storedChecksum_eq_some {db : MigrationDb σ} {version : Int} {checksum : Bytes} :
    (db.rows.find? fun row => row.version == version && row.status == .completed).map (·.checksum) =
      some checksum ↔ db.CompletedWith version checksum := by
  rw [Option.map_eq_some_iff]
  constructor
  · rintro ⟨row, hRow, rfl⟩
    have hFound := List.find?_some hRow
    rw [Bool.and_eq_true, beq_iff_eq, beq_iff_eq] at hFound
    exact ⟨row, row_eq_some.mpr ⟨List.mem_of_find?_eq_some hRow, hFound.1⟩, hFound.2, rfl⟩
  · rintro ⟨row, hRow, hStatus, rfl⟩
    obtain ⟨hMem, rfl⟩ := row_eq_some.mp hRow
    have hSome : (db.rows.find? fun other =>
        other.version == row.version && other.status == .completed).isSome = true :=
      List.find?_isSome.mpr ⟨row, hMem, by simp [hStatus]⟩
    obtain ⟨found, hFound⟩ := Option.isSome_iff_exists.mp hSome
    have hVersion := List.find?_some hFound
    rw [Bool.and_eq_true, beq_iff_eq, beq_iff_eq] at hVersion
    have hSame := List.inj_on_of_nodup_map db.unique (List.mem_of_find?_eq_some hFound) hMem hVersion.1
    exact ⟨found, hFound, by rw [hSame]⟩

end MigrationDb

namespace MigrationEngine
open MigrationDb

variable (sha256Hex : Bytes → Bytes) (env : MigrationEnv σ) (m : Migration σ)

/-- What holds in front of every statement of `apply_one`: only the record of the
version can have changed, and then it is not completed; the callback may have
been called. -/
structure Applying (version : Int) (start conn : MigrationConn σ) : Prop where
  elsewhere : SameElsewhere version start.data conn.data
  own : conn.data.row version = start.data.row version ∨ ¬ conn.data.Completed version
  events : conn.events = start.events ∨ conn.events = .executed version :: start.events

/-- The callback has failed: its effect is gone, unless the rollback failed. -/
structure Undone (version : Int) (start conn : MigrationConn σ) : Prop where
  elsewhere : SameElsewhere version start.data conn.data
  not_completed : ¬ conn.data.Completed version
  events : ∃ before : MigrationDb σ,
    conn.events = .undone version before conn.data :: .executed version :: start.events ∧
      SameElsewhere version before conn.data ∧
      (env.verdict (.rollbackTo version) ≠ .fails → conn.data.schema = before.schema)

/-- What `apply_one` leaves. -/
def Applied (start : MigrationConn σ) (result : Except Bytes Unit) (conn : MigrationConn σ) : Prop :=
  match result with
  | .ok () => SameElsewhere m.version start.data conn.data ∧
      conn.data.CompletedWith m.version (computeChecksum sha256Hex m) ∧
      conn.events = .executed m.version :: start.events
  | .error _ => Applying m.version start conn ∨ Undone env m.version start conn

theorem Applying.refl (version : Int) (start : MigrationConn σ) : Applying version start start where
  elsewhere := fun _ _ => rfl
  own := .inl rfl
  events := .inl rfl

/-- Some statement of the call fails. -/
def SomeFails : Prop := ∃ stmt, env.verdict stmt = .fails

/-- The call stops somewhere else than in front of the record of a completion. -/
def StopsOutside : Prop :=
  (∃ stmt, (∀ version, stmt ≠ .writeCompleted version) ∧ env.verdict stmt = .stops) ∨
    ∃ version, env.stopsInside version ≠ none

/-- The record says that the version is running; nothing else has happened. -/
structure Recorded (start conn : MigrationConn σ) : Prop where
  elsewhere : SameElsewhere m.version start.data conn.data
  running : conn.data.Running m.version (computeChecksum sha256Hex m)
  schema : conn.data.schema = start.data.schema
  savepoints : conn.savepoints = start.savepoints
  events : conn.events = start.events

theorem restarted_recorded {start : MigrationConn σ}
    (h : (start.data.row m.version).isSome) :
    Recorded sha256Hex m start
      { start with data := start.data.update m.version (restartedRow sha256Hex env m) } := by
  obtain ⟨row, hRow⟩ := Option.isSome_iff_exists.mp h
  exact ⟨sameElsewhere_update _ _ _, ⟨_, row_update_self _ hRow, rfl, rfl⟩, rfl, rfl, rfl⟩

theorem started_recorded {start : MigrationConn σ} {data : MigrationDb σ}
    (h : start.data.insert (startedRow sha256Hex env m) = some data) :
    Recorded sha256Hex m start { start with data } := by
  obtain ⟨hSchema, hRow, hOther⟩ := insert_eq_some h
  exact ⟨hOther, ⟨startedRow sha256Hex env m, hRow, rfl, rfl⟩, hSchema, rfl, rfl⟩

/-- A statement that writes the record, and the error when it fails. -/
theorem recorded_triple {start : MigrationConn σ} {effect : MigrationDb σ → Option (MigrationDb σ)}
    {message : Bytes}
    (hEffect : ∀ data, effect start.data = some data → Recorded sha256Hex m start { start with data })
    (hNone : effect start.data = none → SomeFails env) :
    Triple (· = start)
      (do
        let written ← Script.exec (env.verdict (.writeRunning m.version)) effect
        return if written then .ok () else .error message)
      (fun (result : Except Bytes Unit) conn =>
        match result with
        | .ok () => Recorded sha256Hex m start conn
        | .error _ => conn = start ∧ SomeFails env)
      (fun conn => conn = start ∧ StopsOutside env) := by
  refine Triple.bind
    (fun written conn => if written then Recorded sha256Hex m start conn
      else conn = start ∧ SomeFails env)
    (Triple.exec ?_ ?_ ?_) fun written => Triple.pure fun conn hConn => ?_
  · rintro conn data rfl - hData
    exact hEffect data hData
  · rintro conn rfl hFails
    exact ⟨rfl, hFails.elim (fun h => ⟨_, h⟩) hNone⟩
  · rintro conn rfl hStops
    exact ⟨rfl, .inl ⟨_, by simp, hStops⟩⟩
  · cases written with
    | false => exact hConn
    | true => exact hConn

theorem recordRunning_triple (start : MigrationConn σ) :
    Triple (· = start) (recordRunning sha256Hex env m)
      (fun result conn =>
        match result with
        | .ok () => Recorded sha256Hex m start conn
        | .error _ => conn = start ∧ SomeFails env)
      (fun conn => conn = start ∧ StopsOutside env) := by
  refine Triple.bind
    (fun answer conn => conn = start ∧ (answer = start.data.row m.version ∨
      answer = none ∧ SomeFails env))
    (Triple.query ?_ ?_ ?_) fun answer => ?_
  · rintro conn rfl -
    exact ⟨rfl, .inl rfl⟩
  · rintro conn rfl hFails
    exact ⟨rfl, .inr ⟨rfl, _, hFails⟩⟩
  · rintro conn rfl hStops
    exact ⟨rfl, .inl ⟨_, by simp, hStops⟩⟩
  · split_ifs with hAnswer
    · rintro conn ⟨rfl, hRow⟩
      have hRow : answer = conn.data.row m.version :=
        hRow.resolve_right fun hNone => by simp [hNone.1] at hAnswer
      refine recorded_triple sha256Hex env m (fun data hData => ?_) (by simp) conn rfl
      obtain rfl := Option.some.inj hData
      exact restarted_recorded sha256Hex env m (hRow ▸ hAnswer)
    · rintro conn ⟨rfl, hRow⟩
      refine recorded_triple sha256Hex env m (fun data hData => started_recorded sha256Hex env m hData)
        (fun hTaken => ?_) conn rfl
      rcases hRow with hRow | ⟨-, hFails⟩
      · exact absurd (hRow ▸ insert_eq_none.mp hTaken) hAnswer
      · exact hFails

/-- In front of a statement after the callback was called. -/
structure Called (start conn : MigrationConn σ) : Prop where
  elsewhere : SameElsewhere m.version start.data conn.data
  running : conn.data.Running m.version (computeChecksum sha256Hex m)
  events : conn.events = .executed m.version :: start.events

theorem Called.applying {start conn : MigrationConn σ} (h : Called sha256Hex m start conn) :
    Applying m.version start conn where
  elsewhere := h.elsewhere
  own := .inr h.running.not_completed
  events := .inr h.events

theorem markCompleted_triple (start : MigrationConn σ) :
    Triple (Called sha256Hex m start) (markCompleted env m) (Applied sha256Hex env m start)
      (Applying m.version start) := by
  refine Triple.bind (fun _ => Called sha256Hex m start)
    (Triple.release (fun conn _ _ h _ => ⟨h.elsewhere, h.running, h.events⟩) fun conn h _ => h.applying)
    fun _ => ?_
  refine Triple.bind
    (fun completed conn => Applied sha256Hex env m start
      (if completed then .ok () else .error []) conn)
    (Triple.exec ?_ (fun conn h _ => .inl h.applying) fun conn h _ => h.applying)
    fun completed => Triple.pure fun conn h => ?_
  · intro conn data h _ hData
    obtain rfl := Option.some.inj hData
    obtain ⟨row, hRow, -, hChecksum⟩ := h.running
    exact ⟨h.elsewhere.trans (sameElsewhere_update _ _ _),
      ⟨_, row_update_self _ hRow, rfl, hChecksum⟩, h.events⟩
  · cases completed with
    | false => exact h
    | true => exact h

/-- After the rollback of a callback that failed. -/
structure RolledBack (start : MigrationConn σ) (before : MigrationDb σ) (conn : MigrationConn σ) :
    Prop where
  elsewhere : SameElsewhere m.version start.data conn.data
  not_completed : ¬ conn.data.Completed m.version
  events : conn.events = .executed m.version :: start.events
  since : SameElsewhere m.version before conn.data
  schema : env.verdict (.rollbackTo m.version) ≠ .fails → conn.data.schema = before.schema

theorem RolledBack.applying {start : MigrationConn σ} {before : MigrationDb σ}
    {conn : MigrationConn σ} (h : RolledBack env m start before conn) :
    Applying m.version start conn where
  elsewhere := h.elsewhere
  own := .inr h.not_completed
  events := .inr h.events

/-- The callback was called, inside the savepoint that holds the database before
the call. -/
structure Inside (start : MigrationConn σ) (before : MigrationDb σ) (conn : MigrationConn σ) :
    Prop where
  called : Called sha256Hex m start conn
  elsewhere : SameElsewhere m.version start.data before
  running : before.Running m.version (computeChecksum sha256Hex m)
  since : SameElsewhere m.version before conn.data
  top : ∃ outer, conn.savepoints = (m.version, before) :: outer

theorem undoFailed_triple (start : MigrationConn σ) (before : MigrationDb σ) (diagnostics : Bytes) :
    Triple (Inside sha256Hex m start before) (undoFailed env m before diagnostics)
      (Applied sha256Hex env m start) (Applying m.version start) := by
  refine Triple.bind (fun _ => RolledBack env m start before)
    (Triple.rollbackTo (fun conn h => h.top) ?_ ?_ fun conn h _ => h.called.applying) fun _ => ?_
  · intro conn h
    exact ⟨h.elsewhere, h.running.not_completed, h.called.events, fun _ _ => rfl, fun _ => rfl⟩
  · intro conn h hFails
    exact ⟨h.called.elsewhere, h.called.running.not_completed, h.called.events, h.since,
      fun hNot => absurd hFails hNot⟩
  refine Triple.bind (fun _ => RolledBack env m start before)
    (Triple.release (fun conn _ _ h _ => ⟨h.elsewhere, h.not_completed, h.events, h.since, h.schema⟩)
      fun conn h _ => h.applying) fun _ => ?_
  refine Triple.bind (fun _ => RolledBack env m start before)
    (Triple.exec ?_ (fun conn h _ => h) fun conn h _ => h.applying) fun _ => ?_
  · intro conn data h _ hData
    obtain rfl := Option.some.inj hData
    have hSame := sameElsewhere_update conn.data m.version
    exact ⟨h.elsewhere.trans (hSame _), not_completed_update _ _ (by simp), h.events,
      h.since.trans (hSame _), h.schema⟩
  refine Triple.bind (fun _ => Undone env m.version start) (Triple.emit fun conn h => ?_) fun _ =>
    Triple.pure fun conn h => .inr h
  exact ⟨h.elsewhere, h.not_completed, before, by rw [h.events], h.since, h.schema⟩

/-- The callback changes the schema only. -/
theorem callUp_triple (start : MigrationConn σ) (before : MigrationDb σ) :
    Triple (Inside sha256Hex m start before) (callUp env m)
      (fun _ => Inside sha256Hex m start before) (Applying m.version start) := by
  simp only [callUp]
  split
  · refine Triple.stopAfter fun conn h => ?_
    exact ⟨h.called.elsewhere, .inr h.called.running.not_completed, .inr h.called.events⟩
  · refine Triple.modify fun conn h => ?_
    cases m.up with
    | none => exact h
    | some up =>
        have hCalled := h.called
        exact ⟨⟨hCalled.elsewhere, hCalled.running, hCalled.events⟩, h.elsewhere, h.running, h.since,
          h.top⟩

/-- The savepoint was set after the version was recorded as running. -/
structure Opened (start conn : MigrationConn σ) : Prop where
  elsewhere : SameElsewhere m.version start.data conn.data
  running : conn.data.Running m.version (computeChecksum sha256Hex m)
  top : ∃ outer, conn.savepoints = (m.version, conn.data) :: outer
  events : conn.events = start.events

theorem runRecorded_triple (start : MigrationConn σ) :
    Triple (Opened sha256Hex m start) (runRecorded env m) (Applied sha256Hex env m start)
      (Applying m.version start) := by
  refine Triple.bind (fun before conn => Opened sha256Hex m start conn ∧ before = conn.data)
    (Triple.current fun conn h => ⟨h, rfl⟩) fun before => ?_
  refine Triple.bind (fun _ => Inside sha256Hex m start before) (Triple.emit ?_) fun _ => ?_
  · rintro conn ⟨h, rfl⟩
    exact ⟨⟨h.elsewhere, h.running, by rw [h.events]⟩, h.elsewhere, h.running, fun _ _ => rfl, h.top⟩
  refine Triple.bind _ (callUp_triple sha256Hex env m start before) fun result => ?_
  split_ifs with hOk
  · exact (markCompleted_triple sha256Hex env m start).consequence (fun conn h => h.called)
      (fun _ _ h => h) fun _ h => h
  · exact undoFailed_triple sha256Hex env m start before result.2

theorem applyOne_triple (start : MigrationConn σ) :
    Triple (· = start) (applyOne sha256Hex env m) (Applied sha256Hex env m start)
      (Applying m.version start) := by
  refine Triple.bind _
    ((recordRunning_triple sha256Hex env m start).consequence (fun _ h => h) (fun _ _ h => h) ?_)
    fun recorded => ?_
  · rintro conn ⟨rfl, -⟩
    exact .refl ..
  cases recorded with
  | error message =>
      refine Triple.pure ?_
      rintro conn ⟨rfl, -⟩
      exact .inl (.refl ..)
  | ok _ =>
      have hApplying : ∀ conn, Recorded sha256Hex m start conn → Applying m.version start conn :=
        fun conn h => ⟨h.elsewhere, .inr h.running.not_completed, .inl h.events⟩
      refine Triple.bind
        (fun opened conn => if opened then Opened sha256Hex m start conn
          else Applying m.version start conn)
        (Triple.savepoint ?_ (fun conn h _ => hApplying conn h) fun conn h _ => hApplying conn h)
        fun opened => ?_
      · exact fun conn h => ⟨h.elsewhere, h.running, ⟨conn.savepoints, rfl⟩, h.events⟩
      · cases opened with
        | true => exact runRecorded_triple sha256Hex env m start
        | false => exact Triple.pure fun conn h => .inl h

end MigrationEngine

end ContainerCP.Storage
