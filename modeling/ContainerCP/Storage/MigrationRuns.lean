import ContainerCP.Storage.MigrationInvariants
import Mathlib.Data.List.Pairwise

/-! Sequences of calls of `MigrationEngine::migrate` on one database. Any statement
and any callback of a call may fail, and a call may be looked at between any
two of its statements. -/
namespace ContainerCP.Storage
open Sql

variable {σ : Type}

namespace MigrationEngine
open MigrationDb

variable (sha256Hex : Bytes → Bytes) (env : MigrationEnv σ) (currentVer : Int) (m : Migration σ)

/-- The status check changes at most the record of the version, from running to
pending. -/
structure Prepared (version : Int) (start conn : MigrationConn σ) : Prop where
  elsewhere : SameElsewhere version start.data conn.data
  own : conn.data.row version = start.data.row version ∨
    ¬ conn.data.Completed version ∧ ¬ conn.data.Failed version
  schema : conn.data.schema = start.data.schema
  savepoints : conn.savepoints = start.savepoints
  events : conn.events = start.events

theorem Prepared.refl (version : Int) (start : MigrationConn σ) : Prepared version start start where
  elsewhere := fun _ _ => rfl
  own := .inl rfl
  schema := rfl
  savepoints := rfl
  events := rfl

theorem Prepared.applying {version : Int} {start mid conn : MigrationConn σ}
    (h : Prepared version start mid) (hConn : Applying version mid conn) :
    Applying version start conn where
  elsewhere := h.elsewhere.trans hConn.elsewhere
  own := by
    rcases hConn.own with hOwn | hOwn
    · rcases h.own with hMid | hMid
      · exact .inl (hOwn.trans hMid)
      · exact .inr (by simpa only [Completed, hOwn] using hMid.1)
    · exact .inr hOwn
  events := by rw [← h.events]; exact hConn.events

theorem Prepared.applied {start mid conn : MigrationConn σ} {result : Except Bytes Unit}
    (h : Prepared m.version start mid) (hConn : Applied sha256Hex env m mid result conn) :
    Applied sha256Hex env m start result conn := by
  cases result with
  | ok _ =>
      obtain ⟨hElsewhere, hCompleted, hEvents⟩ := hConn
      exact ⟨h.elsewhere.trans hElsewhere, hCompleted, by rw [← h.events]; exact hEvents⟩
  | error message =>
      rcases hConn with hApplying | ⟨hElsewhere, hNot, before, hEvents, hSince⟩
      · exact .inl (h.applying hApplying)
      · exact .inr ⟨h.elsewhere.trans hElsewhere, hNot, before, by rw [← h.events]; exact hEvents,
          hSince⟩

theorem checkStatus_triple (start : MigrationConn σ) :
    Triple (· = start) (checkStatus env m)
      (fun mayRun conn => if mayRun then
          Prepared m.version start conn ∧
            (env.verdict (.readStatus m.version) ≠ .fails → ¬ start.data.Failed m.version)
        else conn = start ∧ start.data.Failed m.version)
      (fun conn => conn = start ∧ StopsOutside env) := by
  refine Triple.bind
    (fun status conn => conn = start ∧ (status = (start.data.row m.version).map (·.status) ∨
      status = none ∧ env.verdict (.readStatus m.version) = .fails))
    (Triple.query ?_ ?_ ?_) fun status => ?_
  · rintro conn rfl -
    exact ⟨rfl, .inl rfl⟩
  · rintro conn rfl hFails
    exact ⟨rfl, .inr ⟨rfl, hFails⟩⟩
  · rintro conn rfl hStops
    exact ⟨rfl, .inl ⟨_, by simp, hStops⟩⟩
  have hNotFailed : status ≠ some .failed →
      (status = (start.data.row m.version).map (·.status) ∨
        status = none ∧ env.verdict (.readStatus m.version) = .fails) →
      env.verdict (.readStatus m.version) ≠ .fails → ¬ start.data.Failed m.version := by
    rintro hStatus hRead hVerdict ⟨row, hRow, hFailed⟩
    have hRead := hRead.resolve_right fun h => hVerdict h.2
    exact hStatus (by rw [hRead, hRow, Option.map_some, hFailed])
  split
  · refine Triple.pure ?_
    rintro conn ⟨rfl, hRead⟩
    have hRead := hRead.resolve_right (by simp)
    obtain ⟨row, hRow, hStatus⟩ := Option.map_eq_some_iff.mp hRead.symm
    exact ⟨rfl, row, hRow, hStatus⟩
  · refine Triple.bind
      (fun _ conn => Prepared m.version start conn ∧
        (env.verdict (.readStatus m.version) ≠ .fails → ¬ start.data.Failed m.version))
      (Triple.exec ?_ ?_ ?_) fun _ => Triple.pure fun conn h => h
    · rintro conn data ⟨rfl, hRead⟩ - hData
      obtain rfl := Option.some.inj hData
      exact ⟨⟨sameElsewhere_update _ _ _,
        .inr ⟨not_completed_update _ _ (by simp), not_failed_update _ _ (by simp)⟩, rfl, rfl, rfl⟩,
        hNotFailed (by simp) hRead⟩
    · rintro conn ⟨rfl, hRead⟩ -
      exact ⟨.refl .., hNotFailed (by simp) hRead⟩
    · rintro conn ⟨rfl, -⟩ hStops
      exact ⟨rfl, .inl ⟨_, by simp, hStops⟩⟩
  · refine Triple.pure ?_
    rintro conn ⟨rfl, hRead⟩
    exact ⟨.refl .., hNotFailed (by assumption) hRead⟩

/-- What a round of the loop leaves. -/
structure RoundDone (start : MigrationConn σ) (result : Except Bytes Unit) (conn : MigrationConn σ) :
    Prop where
  old : m.version ≤ currentVer → conn = start ∧
    (result = .ok () → start.data.CompletedWith m.version (computeChecksum sha256Hex m))
  new : currentVer < m.version → Applied sha256Hex env m start result conn
  failed : env.verdict (.readStatus m.version) ≠ .fails → start.data.Failed m.version → conn = start

/-- What holds in front of every statement of a round. -/
structure RoundStopped (start conn : MigrationConn σ) : Prop where
  old : m.version ≤ currentVer → conn = start
  new : currentVer < m.version → Applying m.version start conn
  failed : env.verdict (.readStatus m.version) ≠ .fails → start.data.Failed m.version → conn = start

theorem RoundStopped.refl (start : MigrationConn σ) : RoundStopped env currentVer m start start where
  old := fun _ => rfl
  new := fun _ => .refl ..
  failed := fun _ _ => rfl

theorem checksumMatches_triple (start : MigrationConn σ) :
    Triple (· = start) (checksumMatches sha256Hex env m)
      (fun same conn => conn = start ∧
        (same → start.data.CompletedWith m.version (computeChecksum sha256Hex m)) ∧
        (start.data.CompletedWith m.version (computeChecksum sha256Hex m) → same ∨ SomeFails env))
      (fun conn => conn = start ∧ StopsOutside env) := by
  refine Triple.bind
    (fun stored conn => conn = start ∧
      (∀ checksum, stored = some checksum → start.data.CompletedWith m.version checksum) ∧
      ∀ checksum, start.data.CompletedWith m.version checksum → stored = some checksum ∨ SomeFails env)
    (Triple.query ?_ ?_ ?_) fun stored => Triple.pure ?_
  · rintro conn rfl -
    exact ⟨rfl, fun checksum => storedChecksum_eq_some.mp,
      fun checksum h => .inl (storedChecksum_eq_some.mpr h)⟩
  · rintro conn rfl hFails
    exact ⟨rfl, by simp, fun _ _ => .inr ⟨_, hFails⟩⟩
  · rintro conn rfl hStops
    exact ⟨rfl, .inl ⟨_, by simp, hStops⟩⟩
  · rintro conn ⟨rfl, hStored, hSame⟩
    exact ⟨rfl, fun h => hStored _ (by simpa using h), fun h => (hSame _ h).imp_left fun h => by simp [h]⟩

theorem migrateOne_triple (start : MigrationConn σ) :
    Triple (· = start) (migrateOne sha256Hex env currentVer m)
      (RoundDone sha256Hex env currentVer m start) (RoundStopped env currentVer m start) := by
  simp only [migrateOne]
  split_ifs with hOld
  · refine Triple.bind _
      ((checksumMatches_triple sha256Hex env m start).consequence (fun _ h => h) (fun _ _ h => h) ?_)
      fun same => Triple.pure ?_
    · rintro conn ⟨rfl, -⟩
      exact .refl ..
    · rintro conn ⟨rfl, hSame, -⟩
      refine ⟨fun _ => ⟨rfl, fun hOk => hSame ?_⟩, fun hNew => absurd hOld (not_le.mpr hNew),
        fun _ _ => rfl⟩
      by_contra hNot
      simp [hNot] at hOk
  · refine Triple.bind _
      ((checkStatus_triple env m start).consequence (fun _ h => h) (fun _ _ h => h) ?_) fun mayRun => ?_
    · rintro conn ⟨rfl, -⟩
      exact .refl ..
    cases mayRun with
    | false =>
        refine Triple.pure ?_
        rintro conn ⟨rfl, -⟩
        exact ⟨fun h => absurd h hOld, fun _ => .inl (.refl ..), fun _ _ => rfl⟩
    | true =>
        rintro mid ⟨hPrepared, hNotFailed⟩
        refine (applyOne_triple sha256Hex env m mid).consequence (fun _ h => h)
          (fun result conn h => ?_) (fun conn h => ?_) mid rfl
        · exact ⟨fun h => absurd h hOld, fun _ => hPrepared.applied sha256Hex env m h,
            fun hRead hFailed => absurd hFailed (hNotFailed hRead)⟩
        · exact ⟨fun h => absurd h hOld, fun _ => hPrepared.applying h,
            fun hRead hFailed => absurd hFailed (hNotFailed hRead)⟩

/-- A property that no round breaks, at its end or in front of a statement. -/
def RoundKeeps (inv : MigrationConn σ → Prop) : Prop :=
  ∀ currentVer start, inv start →
    (∀ result conn, RoundDone sha256Hex env currentVer m start result conn → inv conn) ∧
      ∀ conn, RoundStopped env currentVer m start conn → inv conn

theorem migrateAll_keeps {inv : MigrationConn σ → Prop} (ms : List (Migration σ))
    (h : ∀ m ∈ ms, RoundKeeps sha256Hex env m inv) :
    Triple inv (migrateAll sha256Hex env currentVer ms) (fun _ => inv) inv := by
  induction ms with
  | nil => exact Triple.pure fun conn h => h
  | cons m rest ih =>
      refine Triple.bind (fun _ => inv) ?_ fun result => ?_
      · intro start hStart
        obtain ⟨hDone, hStopped⟩ := h m (List.mem_cons_self ..) currentVer start hStart
        exact (migrateOne_triple sha256Hex env currentVer m start).consequence (fun _ h => h) hDone
          hStopped start rfl
      · cases result with
        | error message => exact Triple.pure fun conn h => h
        | ok _ => exact ih fun m' hMem => h m' (List.mem_cons_of_mem m hMem)

theorem ensureMetaTables_triple (start : MigrationConn σ) :
    Triple (· = start) (ensureMetaTables env)
      (fun result conn => conn = start ∧ (result = .ok () ∨ SomeFails env))
      (fun conn => conn = start ∧ StopsOutside env) := by
  have hCreate : ∀ stmt, (∀ version, stmt ≠ .writeCompleted version) →
      Triple (· = start) (Script.exec (env.verdict stmt) some)
        (fun created conn => conn = start ∧ (created = true ∨ SomeFails env))
        (fun conn => conn = start ∧ StopsOutside env) := by
    refine fun stmt hStmt => Triple.exec ?_ ?_ ?_
    · rintro conn data rfl - hData
      obtain rfl := Option.some.inj hData
      exact ⟨rfl, .inl rfl⟩
    · rintro conn rfl hFails
      exact ⟨rfl, .inr ⟨stmt, hFails.resolve_right (by simp)⟩⟩
    · rintro conn rfl hStops
      exact ⟨rfl, .inl ⟨stmt, hStmt, hStops⟩⟩
  refine Triple.bind _ (hCreate _ (by simp)) fun created => ?_
  cases created with
  | false => exact Triple.pure fun conn h => ⟨h.1, .inr (h.2.resolve_left (by simp))⟩
  | true =>
      rintro conn ⟨rfl, -⟩
      refine Triple.bind _ (hCreate _ (by simp)) (fun storageMeta => Triple.pure ?_) conn rfl
      rintro conn ⟨rfl, hMeta⟩
      exact ⟨rfl, hMeta.imp_left fun h => by simp [h]⟩

theorem currentVersion_triple (start : MigrationConn σ) :
    Triple (· = start) (currentVersion env)
      (fun currentVer conn => conn = start ∧
        (env.verdict .readCurrent ≠ .fails → currentVer = start.data.maxCompleted))
      (fun conn => conn = start ∧ StopsOutside env) := by
  refine Triple.bind
    (fun answer conn => conn = start ∧
      (env.verdict .readCurrent ≠ .fails → answer = some start.data.maxCompleted))
    (Triple.query ?_ ?_ ?_) fun answer => Triple.pure fun conn h => ⟨h.1, fun hRead => ?_⟩
  · rintro conn rfl -
    exact ⟨rfl, fun _ => rfl⟩
  · rintro conn rfl hFails
    exact ⟨rfl, fun hNot => absurd hFails hNot⟩
  · rintro conn rfl hStops
    exact ⟨rfl, .inl ⟨_, by simp, hStops⟩⟩
  · rw [h.2 hRead, Option.getD_some]

theorem mem_sorted {engine : MigrationEngine σ} {m : Migration σ} :
    m ∈ engine.sorted ↔ m ∈ engine.migrations :=
  List.mem_insertionSort _

/-- A call keeps what none of its rounds breaks. -/
theorem migrate_keeps {inv : MigrationConn σ → Prop} (engine : MigrationEngine σ)
    (h : ∀ m ∈ engine.migrations, RoundKeeps sha256Hex env m inv) :
    Triple inv (migrate sha256Hex env engine) (fun _ => inv) inv := by
  have hSorted : ∀ m ∈ engine.sorted, RoundKeeps sha256Hex env m inv :=
    fun m hMem => h m (mem_sorted.mp hMem)
  simp only [migrate]
  split_ifs
  · exact Triple.pure fun _ h => h
  · split
    · exact Triple.pure fun _ h => h
    · refine Triple.bind (fun _ => inv) ?_ fun result => ?_
      · refine Triple.bind (fun _ => inv) (fun start hStart => ?_) fun ready => ?_
        · exact (ensureMetaTables_triple env start).consequence (fun _ h => h)
            (fun _ conn h => h.1 ▸ hStart) (fun conn h => h.1 ▸ hStart) start rfl
        · cases ready with
          | error message => exact Triple.pure fun _ h => h
          | ok _ =>
              refine Triple.bind (fun _ => inv) (fun start hStart => ?_) fun currentVer =>
                migrateAll_keeps sha256Hex env currentVer engine.sorted hSorted
              exact (currentVersion_triple env start).consequence (fun _ h => h)
                (fun _ conn h => h.1 ▸ hStart) (fun conn h => h.1 ▸ hStart) start rfl
      · cases result with
        | error message => exact Triple.pure fun _ h => h
        | ok _ => exact Triple.pure fun _ h => h

/-- What a round can have done to the records of other versions and to the
events. -/
structure Round (start conn : MigrationConn σ) : Prop where
  elsewhere : SameElsewhere m.version start.data conn.data
  events : conn.events = start.events ∨ conn.events = .executed m.version :: start.events ∨
    Undone env m.version start conn
  failed : env.verdict (.readStatus m.version) ≠ .fails → start.data.Failed m.version → conn = start

theorem RoundStopped.round {start conn : MigrationConn σ}
    (h : RoundStopped env currentVer m start conn) : Round env m start conn := by
  rcases le_or_gt m.version currentVer with hOld | hNew
  · obtain rfl := h.old hOld
    exact ⟨fun _ _ => rfl, .inl rfl, fun _ _ => rfl⟩
  · have hApplying := h.new hNew
    exact ⟨hApplying.elsewhere, hApplying.events.imp_right .inl, h.failed⟩

theorem RoundDone.round {start conn : MigrationConn σ} {result : Except Bytes Unit}
    (h : RoundDone sha256Hex env currentVer m start result conn) : Round env m start conn := by
  rcases le_or_gt m.version currentVer with hOld | hNew
  · obtain rfl := (h.old hOld).1
    exact ⟨fun _ _ => rfl, .inl rfl, fun _ _ => rfl⟩
  · have hApplied := h.new hNew
    cases result with
    | ok _ => exact ⟨hApplied.1, .inr (.inl hApplied.2.2), h.failed⟩
    | error message =>
        rcases hApplied with hApplying | hUndone
        · exact ⟨hApplying.elsewhere, hApplying.events.imp_right .inl, h.failed⟩
        · exact ⟨hUndone.elsewhere, .inr (.inr hUndone), h.failed⟩

theorem roundKeeps_of_round {inv : MigrationConn σ → Prop}
    (h : ∀ start conn, inv start → Round env m start conn → inv conn) :
    RoundKeeps sha256Hex env m inv :=
  fun _ start hStart =>
    ⟨fun _ conn hDone => h start conn hStart hDone.round,
      fun conn hStopped => h start conn hStart hStopped.round⟩

/-- Each callback that failed left the schema as it was, and all records but its
own. -/
def UndoneExactly (conn : MigrationConn σ) : Prop :=
  ∀ version before after, .undone version before after ∈ conn.events →
    after.schema = before.schema ∧ SameElsewhere version before after

theorem round_undoneExactly (hRollback : env.verdict (.rollbackTo m.version) ≠ .fails) :
    RoundKeeps sha256Hex env m UndoneExactly := by
  refine roundKeeps_of_round sha256Hex env m ?_
  intro start conn hStart hRound version before after hEvent
  rcases hRound.events with hEvents | hEvents | ⟨-, -, before', hEvents, hSince, hSchema⟩
  · exact hStart version before after (by rwa [← hEvents])
  · rw [hEvents, List.mem_cons] at hEvent
    rcases hEvent with hEvent | hEvent
    · simp at hEvent
    · exact hStart version before after hEvent
  · rw [hEvents, List.mem_cons, List.mem_cons] at hEvent
    rcases hEvent with hEvent | hEvent | hEvent
    · obtain ⟨rfl, rfl, rfl⟩ := MigrationEvent.undone.inj hEvent
      exact ⟨hSchema hRollback, hSince⟩
    · simp at hEvent
    · exact hStart version before after hEvent

/-- The earlier event is no record of the failure of what the later one runs. -/
def NotAgain (later earlier : MigrationEvent σ) : Prop :=
  ∀ version before after, later = .executed version → earlier = .undone version before after →
    ¬ after.Failed version

/-- No version runs again after it was recorded as failed. -/
structure NeverAgain (conn : MigrationConn σ) : Prop where
  recorded : ∀ version before after, .undone version before after ∈ conn.events →
    after.Failed version → conn.data.Failed version
  ordered : conn.events.Pairwise NotAgain

theorem Round.recorded {start conn : MigrationConn σ} (h : Round env m start conn)
    (hRead : env.verdict (.readStatus m.version) ≠ .fails) {version : Int}
    (hFailed : start.data.Failed version) : conn.data.Failed version := by
  by_cases hVersion : version = m.version
  · subst hVersion
    rwa [h.failed hRead hFailed]
  · exact (h.elsewhere.failed_iff hVersion).mpr hFailed

theorem NeverAgain.executed {start : MigrationConn σ} (h : NeverAgain start) {version : Int}
    (hNot : ¬ start.data.Failed version) :
    (MigrationEvent.executed version :: start.events).Pairwise NotAgain := by
  refine List.pairwise_cons.mpr ⟨?_, h.ordered⟩
  rintro _ hMem version' before after hExecuted rfl hFailed
  obtain rfl := MigrationEvent.executed.inj hExecuted
  exact hNot (h.recorded _ before after hMem hFailed)

theorem round_neverAgain (hRead : env.verdict (.readStatus m.version) ≠ .fails) :
    RoundKeeps sha256Hex env m NeverAgain := by
  refine roundKeeps_of_round sha256Hex env m ?_
  intro start conn hStart hRound
  by_cases hFailed : start.data.Failed m.version
  · rwa [hRound.failed hRead hFailed]
  · have hExecuted := hStart.executed hFailed
    have hRecorded : ∀ version before after, .undone version before after ∈ start.events →
        after.Failed version → conn.data.Failed version :=
      fun version before after hMem hAfter =>
        hRound.recorded env m hRead (hStart.recorded version before after hMem hAfter)
    rcases hRound.events with hEvents | hEvents | ⟨-, -, before', hEvents, -, -⟩
    · exact ⟨by rwa [hEvents], by rw [hEvents]; exact hStart.ordered⟩
    · refine ⟨?_, by rwa [hEvents]⟩
      simpa [hEvents] using hRecorded
    · refine ⟨?_, ?_⟩
      · intro version before after hMem hAfter
        rw [hEvents, List.mem_cons, List.mem_cons] at hMem
        rcases hMem with hMem | hMem | hMem
        · obtain ⟨rfl, rfl, rfl⟩ := MigrationEvent.undone.inj hMem
          exact hAfter
        · simp at hMem
        · exact hRecorded version before after hMem hAfter
      · rw [hEvents]
        refine List.pairwise_cons.mpr ⟨?_, hExecuted⟩
        rintro _ - version before after hUndone
        simp at hUndone

/-- Since `start`, the version is recorded as failed and was not run. -/
def NotRunSince (version : Int) (start conn : MigrationConn σ) : Prop :=
  conn.data.Failed version ∧ ∃ new, conn.events = new ++ start.events ∧ .executed version ∉ new

theorem round_notRunSince (hRead : env.verdict (.readStatus m.version) ≠ .fails) (version : Int)
    (first : MigrationConn σ) : RoundKeeps sha256Hex env m (NotRunSince version first) := by
  refine roundKeeps_of_round sha256Hex env m ?_
  rintro start conn ⟨hFailed, new, hNew, hNotRun⟩ hRound
  refine ⟨hRound.recorded env m hRead hFailed, ?_⟩
  by_cases hVersion : version = m.version
  · subst hVersion
    exact ⟨new, by rw [hRound.failed hRead hFailed, hNew], hNotRun⟩
  · rcases hRound.events with hEvents | hEvents | ⟨-, -, before', hEvents, -, -⟩
    · exact ⟨new, by rw [hEvents, hNew], hNotRun⟩
    · exact ⟨.executed m.version :: new, by rw [hEvents, hNew]; rfl, by simp [hVersion, hNotRun]⟩
    · exact ⟨.undone m.version before' conn.data :: .executed m.version :: new,
        by rw [hEvents, hNew]; rfl, by simp [hVersion, hNotRun]⟩

/-- The version that the loop compares with is not below a completed one. -/
def ReadsCurrent (start : MigrationConn σ) : Prop :=
  ∀ version, start.data.Completed version → version ≤ currentVer

/-- The loop after it went over `done`. -/
structure Passed (start : MigrationConn σ) (done : List (Migration σ)) (conn : MigrationConn σ) :
    Prop where
  completed : ∀ m ∈ done, conn.data.CompletedWith m.version (computeChecksum sha256Hex m)
  kept : ReadsCurrent currentVer start →
    ∀ version, start.data.Completed version → conn.data.Completed version
  only : ReadsCurrent currentVer start →
    ∀ version, conn.data.Completed version →
      start.data.Completed version ∨ ∃ m ∈ done, m.version = version

theorem Passed.refl (start : MigrationConn σ) : Passed sha256Hex currentVer start [] start where
  completed := by simp
  kept := fun _ _ h => h
  only := fun _ _ h => .inl h

section Rounds

variable {sha256Hex env currentVer m}
variable {start mid conn : MigrationConn σ} {done : List (Migration σ)}

theorem ReadsCurrent.not_completed (h : ReadsCurrent currentVer start) (hNew : currentVer < m.version) :
    ¬ start.data.Completed m.version :=
  fun hCompleted => absurd (h m.version hCompleted) (not_le.mpr hNew)

theorem Passed.kept_elsewhere (h : Passed sha256Hex currentVer start done mid)
    (hNew : currentVer < m.version) (hElsewhere : SameElsewhere m.version mid.data conn.data)
    (hReads : ReadsCurrent currentVer start) {version : Int} (hVersion : start.data.Completed version) :
    conn.data.Completed version := by
  have hOther : version ≠ m.version := by
    rintro rfl
    exact hReads.not_completed hNew hVersion
  exact (hElsewhere.completed_iff hOther).mpr (h.kept hReads version hVersion)

/-- A round that did not complete its version. -/
theorem Passed.unfinished (h : Passed sha256Hex currentVer start done mid)
    (hNew : currentVer < m.version) (hDone : ∀ d ∈ done, d.version ≠ m.version)
    (hElsewhere : SameElsewhere m.version mid.data conn.data)
    (hOwn : conn.data.Completed m.version → mid.data.Completed m.version) :
    Passed sha256Hex currentVer start done conn where
  completed := fun d hMem => hElsewhere.completedWith (hDone d hMem) (h.completed d hMem)
  kept := fun hReads _ hVersion => h.kept_elsewhere hNew hElsewhere hReads hVersion
  only := by
    intro hReads version hVersion
    refine h.only hReads version ?_
    by_cases hOther : version = m.version
    · subst hOther
      exact hOwn hVersion
    · exact (hElsewhere.completed_iff hOther).mp hVersion

/-- A round that completed its version. -/
theorem Passed.finished (h : Passed sha256Hex currentVer start done mid)
    (hNew : currentVer < m.version) (hDone : ∀ d ∈ done, d.version ≠ m.version)
    (hElsewhere : SameElsewhere m.version mid.data conn.data)
    (hOwn : conn.data.CompletedWith m.version (computeChecksum sha256Hex m)) :
    Passed sha256Hex currentVer start (done ++ [m]) conn where
  completed := by
    intro d hMem
    rcases List.mem_append.mp hMem with hMem | hMem
    · exact hElsewhere.completedWith (hDone d hMem) (h.completed d hMem)
    · rwa [List.mem_singleton.mp hMem]
  kept := fun hReads _ hVersion => h.kept_elsewhere hNew hElsewhere hReads hVersion
  only := by
    intro hReads version hVersion
    by_cases hOther : version = m.version
    · exact .inr ⟨m, by simp, hOther.symm⟩
    · rcases h.only hReads version ((hElsewhere.completed_iff hOther).mp hVersion) with
        hStart | ⟨d, hMem, hVersion⟩
      · exact .inl hStart
      · exact .inr ⟨d, List.mem_append_left _ hMem, hVersion⟩

/-- A round over a version that is not new. -/
theorem Passed.verified (h : Passed sha256Hex currentVer start done mid)
    (hOwn : mid.data.CompletedWith m.version (computeChecksum sha256Hex m)) :
    Passed sha256Hex currentVer start (done ++ [m]) mid where
  completed := by
    intro d hMem
    rcases List.mem_append.mp hMem with hMem | hMem
    · exact h.completed d hMem
    · rwa [List.mem_singleton.mp hMem]
  kept := h.kept
  only := fun hReads version hVersion =>
    (h.only hReads version hVersion).imp_right fun ⟨d, hMem, hVersion⟩ =>
      ⟨d, List.mem_append_left _ hMem, hVersion⟩

theorem Applying.own_completed (h : Applying m.version mid conn)
    (hCompleted : conn.data.Completed m.version) : mid.data.Completed m.version := by
  rcases h.own with hOwn | hOwn
  · simpa only [Completed, hOwn] using hCompleted
  · exact absurd hCompleted hOwn

theorem Passed.roundStopped (h : Passed sha256Hex currentVer start done mid)
    (hDone : ∀ d ∈ done, d.version ≠ m.version) (hRound : RoundStopped env currentVer m mid conn) :
    Passed sha256Hex currentVer start done conn := by
  rcases le_or_gt m.version currentVer with hOld | hNew
  · rwa [hRound.old hOld]
  · have hApplying := hRound.new hNew
    exact h.unfinished hNew hDone hApplying.elsewhere hApplying.own_completed

theorem Passed.roundFailed {message : Bytes} (h : Passed sha256Hex currentVer start done mid)
    (hDone : ∀ d ∈ done, d.version ≠ m.version)
    (hRound : RoundDone sha256Hex env currentVer m mid (.error message) conn) :
    Passed sha256Hex currentVer start done conn := by
  rcases le_or_gt m.version currentVer with hOld | hNew
  · rwa [(hRound.old hOld).1]
  · rcases hRound.new hNew with hApplying | hUndone
    · exact h.unfinished hNew hDone hApplying.elsewhere hApplying.own_completed
    · exact h.unfinished hNew hDone hUndone.elsewhere fun hCompleted =>
        absurd hCompleted hUndone.not_completed

theorem Passed.roundOk (h : Passed sha256Hex currentVer start done mid)
    (hDone : ∀ d ∈ done, d.version ≠ m.version)
    (hRound : RoundDone sha256Hex env currentVer m mid (.ok ()) conn) :
    Passed sha256Hex currentVer start (done ++ [m]) conn := by
  rcases le_or_gt m.version currentVer with hOld | hNew
  · obtain ⟨rfl, hCompleted⟩ := hRound.old hOld
    exact h.verified (hCompleted rfl)
  · obtain ⟨hElsewhere, hCompleted, -⟩ := hRound.new hNew
    exact h.finished hNew hDone hElsewhere hCompleted

end Rounds

/-- The loop has gone over some of the migrations. -/
def PassedSome (ms : List (Migration σ)) (start conn : MigrationConn σ) : Prop :=
  ∃ done rest, ms = done ++ rest ∧ Passed sha256Hex currentVer start done conn

/-- The loop has gone over one more migration, or has failed there. -/
def PassedOne (start : MigrationConn σ) (done : List (Migration σ)) (m : Migration σ) :
    Except Bytes Unit → MigrationConn σ → Prop
  | .ok () => Passed sha256Hex currentVer start (done ++ [m])
  | .error _ => Passed sha256Hex currentVer start done

theorem migrateAll_passed (start : MigrationConn σ) (done rest : List (Migration σ))
    (hVersions : (done ++ rest).Pairwise (·.version < ·.version)) :
    Triple (Passed sha256Hex currentVer start done) (migrateAll sha256Hex env currentVer rest)
      (fun result conn => PassedSome sha256Hex currentVer (done ++ rest) start conn ∧
        (result = .ok () → Passed sha256Hex currentVer start (done ++ rest) conn))
      (PassedSome sha256Hex currentVer (done ++ rest) start) := by
  induction rest generalizing done with
  | nil =>
      refine Triple.pure fun conn h => ⟨⟨done, [], rfl, h⟩, fun _ => ?_⟩
      simpa using h
  | cons m rest ih =>
      have hDone : ∀ d ∈ done, d.version ≠ m.version := fun d hMem =>
        ((List.pairwise_append.mp hVersions).2.2 d hMem m (List.mem_cons_self ..)).ne
      refine Triple.bind (PassedOne sha256Hex currentVer start done m) ?_ fun result => ?_
      · intro mid hMid
        refine (migrateOne_triple sha256Hex env currentVer m mid).consequence (fun _ h => h)
          (fun result conn hRound => ?_) (fun conn hRound => ?_) mid rfl
        · cases result with
          | ok _ => exact hMid.roundOk hDone hRound
          | error message => exact hMid.roundFailed hDone hRound
        · exact ⟨done, m :: rest, rfl, hMid.roundStopped hDone hRound⟩
      · cases result with
        | error message =>
            exact Triple.pure fun conn h => ⟨⟨done, m :: rest, rfl, h⟩, by simp⟩
        | ok _ =>
            have hNext := ih (done ++ [m]) (by simpa using hVersions)
            simp only [List.append_assoc, List.singleton_append] at hNext
            exact hNext

theorem firstDuplicate_none {ms : List (Migration σ)} (hSorted : ms.Pairwise (·.version ≤ ·.version))
    (h : firstDuplicate ms = none) : ms.Pairwise (·.version < ·.version) := by
  induction ms with
  | nil => exact .nil
  | cons first rest ih =>
      obtain ⟨hFirst, hRest⟩ := List.pairwise_cons.mp hSorted
      cases rest with
      | nil => exact List.pairwise_singleton ..
      | cons second rest =>
          simp only [firstDuplicate] at h
          split_ifs at h with hSame
          have hStrict := ih hRest h
          refine List.pairwise_cons.mpr ⟨fun d hMem => ?_, hStrict⟩
          have hSecond := hFirst second (List.mem_cons_self ..)
          rcases List.mem_cons.mp hMem with rfl | hMem
          · omega
          · have := (List.pairwise_cons.mp hStrict).1 d hMem
            omega

theorem sorted_strict {engine : MigrationEngine σ} (h : firstDuplicate engine.sorted = none) :
    engine.sorted.Pairwise (·.version < ·.version) := by
  have : Std.Total fun a b : Migration σ => a.version ≤ b.version := ⟨fun a b => by omega⟩
  have : IsTrans (Migration σ) fun a b => a.version ≤ b.version := ⟨fun a b c => by omega⟩
  exact firstDuplicate_none (List.pairwise_insertionSort _ engine.migrations) h

theorem migrateSorted_passed (start : MigrationConn σ) (ms : List (Migration σ))
    (hVersions : ms.Pairwise (·.version < ·.version)) :
    Triple (· = start) (migrateSorted sha256Hex env ms)
      (fun result conn => ∃ currentVer, PassedSome sha256Hex currentVer ms start conn ∧
        (env.verdict .readCurrent ≠ .fails → ReadsCurrent currentVer start) ∧
        (result = .ok () → Passed sha256Hex currentVer start ms conn))
      (fun conn => ∃ currentVer, PassedSome sha256Hex currentVer ms start conn ∧
        (env.verdict .readCurrent ≠ .fails → ReadsCurrent currentVer start)) := by
  have hStart : PassedSome sha256Hex start.data.maxCompleted ms start start :=
    ⟨[], ms, rfl, .refl ..⟩
  have hReads : ReadsCurrent start.data.maxCompleted start := fun _ h => h.le_maxCompleted
  refine Triple.bind _ ((ensureMetaTables_triple env start).consequence (fun _ h => h)
    (fun _ _ h => h.1) ?_) fun ready => ?_
  · rintro conn ⟨rfl, -⟩
    exact ⟨_, hStart, fun _ => hReads⟩
  cases ready with
  | error message =>
      refine Triple.pure ?_
      rintro conn rfl
      exact ⟨_, hStart, fun _ => hReads, by simp⟩
  | ok _ =>
      refine Triple.bind _ ((currentVersion_triple env start).consequence (fun _ h => h)
        (fun _ _ h => h) ?_) fun currentVer => ?_
      · rintro conn ⟨rfl, -⟩
        exact ⟨_, hStart, fun _ => hReads⟩
      rintro conn ⟨rfl, hCurrent⟩
      have hReads' : env.verdict .readCurrent ≠ .fails → ReadsCurrent currentVer conn := by
        intro hVerdict
        rwa [hCurrent hVerdict]
      exact (migrateAll_passed sha256Hex env currentVer conn [] ms hVersions).consequence
        (fun _ h => h) (fun _ _ h => ⟨currentVer, h.1, hReads', h.2⟩) (fun _ h => ⟨currentVer, h, hReads'⟩)
        conn (.refl ..)

/-- Every completed version was registered by a call after whose part below it
everything is completed. -/
def Explained (registered : List (List (Migration σ))) (conn : MigrationConn σ) : Prop :=
  ∀ version, conn.data.Completed version → ∃ ms ∈ registered, (∃ m ∈ ms, m.version = version) ∧
    ∀ m ∈ ms, m.version < version → conn.data.Completed m.version

theorem Explained.cons {registered : List (List (Migration σ))} {conn : MigrationConn σ}
    (h : Explained registered conn) (ms : List (Migration σ)) : Explained (ms :: registered) conn := by
  intro version hVersion
  obtain ⟨ms', hMem, hBelow⟩ := h version hVersion
  exact ⟨ms', List.mem_cons_of_mem ms hMem, hBelow⟩

theorem PassedSome.explained {registered : List (List (Migration σ))} {engine : MigrationEngine σ}
    {start conn : MigrationConn σ} (hVersions : engine.sorted.Pairwise (·.version < ·.version))
    (hReads : ReadsCurrent currentVer start) (hStart : Explained registered start)
    (h : PassedSome sha256Hex currentVer engine.sorted start conn) :
    Explained (engine.migrations :: registered) conn := by
  obtain ⟨done, rest, hSplit, hPassed⟩ := h
  intro version hVersion
  rcases hPassed.only hReads version hVersion with hOld | ⟨m, hMem, rfl⟩
  · obtain ⟨ms, hMs, hRegistered, hBelow⟩ := hStart version hOld
    exact ⟨ms, List.mem_cons_of_mem _ hMs, hRegistered,
      fun m hMem hLt => hPassed.kept hReads m.version (hBelow m hMem hLt)⟩
  · refine ⟨engine.migrations, List.mem_cons_self .., ⟨m, mem_sorted.mp ?_, rfl⟩, ?_⟩
    · exact hSplit ▸ List.mem_append_left rest hMem
    · intro d hD hLt
      have hSorted : d ∈ done ++ rest := hSplit ▸ mem_sorted.mpr hD
      rcases List.mem_append.mp hSorted with hDone | hRest
      · exact (hPassed.completed d hDone).completed
      · -- the list is sorted, so nothing behind `m` has a smaller version
        have := (List.pairwise_append.mp (hSplit ▸ hVersions)).2.2 m hMem d hRest
        omega

theorem migrate_explained (engine : MigrationEngine σ) (registered : List (List (Migration σ)))
    (hRead : env.verdict .readCurrent ≠ .fails) :
    Triple (Explained registered) (migrate sha256Hex env engine)
      (fun _ => Explained (engine.migrations :: registered))
      (Explained (engine.migrations :: registered)) := by
  simp only [migrate]
  split_ifs
  · exact Triple.pure fun conn h => h.cons _
  · split
    · exact Triple.pure fun conn h => h.cons _
    · rename_i hUnique
      have hVersions := sorted_strict hUnique
      refine Triple.bind (fun _ => Explained (engine.migrations :: registered)) ?_ fun result => ?_
      · intro start hStart
        refine (migrateSorted_passed sha256Hex env start engine.sorted hVersions).consequence
          (fun _ h => h) ?_ ?_ start rfl
        · rintro _ conn ⟨currentVer, hPassed, hReads, -⟩
          exact hPassed.explained sha256Hex currentVer hVersions (hReads hRead) hStart
        · rintro conn ⟨currentVer, hPassed, hReads⟩
          exact hPassed.explained sha256Hex currentVer hVersions (hReads hRead) hStart
      · cases result with
        | error message => exact Triple.pure fun _ h => h
        | ok _ => exact Triple.pure fun _ h => h

theorem migrate_completed (engine : MigrationEngine σ) :
    Triple (fun _ => True) (migrate sha256Hex env engine)
      (fun result conn => result.1 = true →
        ∀ m ∈ engine.migrations, conn.data.CompletedWith m.version (computeChecksum sha256Hex m))
      (fun _ => True) := by
  simp only [migrate]
  split_ifs
  · exact Triple.pure fun conn _ => by simp
  · split
    · exact Triple.pure fun conn _ => by simp
    · rename_i hUnique
      refine Triple.bind
        (fun result conn => result = .ok () →
          ∀ m ∈ engine.migrations, conn.data.CompletedWith m.version (computeChecksum sha256Hex m))
        ?_ fun result => ?_
      · intro start _
        refine (migrateSorted_passed sha256Hex env start engine.sorted
          (sorted_strict hUnique)).consequence (fun _ h => h) ?_ (fun _ _ => trivial) start rfl
        rintro result conn ⟨currentVer, -, -, hOk⟩ hResult m hMem
        exact (hOk hResult).completed m (mem_sorted.mpr hMem)
      · cases result with
        | error message => exact Triple.pure fun conn _ => by simp
        | ok _ => exact Triple.pure fun conn h _ => h rfl

end MigrationEngine

/-- A call of `migrate`: the engine with what was registered, and what the call
meets. -/
structure MigrationCall (σ : Type) where
  engine : MigrationEngine σ
  env : MigrationEnv σ

namespace MigrationCall
open MigrationEngine MigrationDb

/-- A database without records. -/
def fresh (schema : σ) : MigrationConn σ where
  data := { rows := [], unique := .nil, schema }

variable (sha256Hex : Bytes → Bytes)

def run (call : MigrationCall σ) (conn : MigrationConn σ) :
    Outcome Int (MigrationDb σ) (MigrationEvent σ) (Bool × MigrationEngine σ) :=
  migrate sha256Hex call.env call.engine conn

/-- One call after the other. A call that stops shows the database between two of
its statements. -/
def runAll (calls : List (MigrationCall σ)) (conn : MigrationConn σ) : MigrationConn σ :=
  calls.foldl (fun conn call => (call.run sha256Hex conn).conn) conn

/-- The completed versions are downward closed among those of the call. -/
def DownwardClosed (call : MigrationCall σ) (db : MigrationDb σ) : Prop :=
  ∀ low ∈ call.engine.migrations, ∀ high ∈ call.engine.migrations, low.version < high.version →
    db.Completed high.version → db.Completed low.version

/-- The call registers no version below one that an earlier call had, unless the
earlier call had it too. -/
def FillsNoGap (call earlier : MigrationCall σ) : Prop :=
  ∀ low ∈ call.engine.migrations, ∀ high ∈ call.engine.migrations, low.version < high.version →
    high.version ∈ earlier.engine.migrations.map (·.version) →
    low.version ∈ earlier.engine.migrations.map (·.version)

/-- What no call breaks holds after any number of them. -/
theorem runAll_keeps (inv : MigrationConn σ → Prop) (calls : List (MigrationCall σ))
    (h : ∀ call ∈ calls, ∀ conn, inv conn → inv (call.run sha256Hex conn).conn)
    {conn : MigrationConn σ} (hConn : inv conn) : inv (runAll sha256Hex calls conn) := by
  induction calls generalizing conn with
  | nil => exact hConn
  | cons call rest ih =>
      exact ih (fun c hMem => h c (List.mem_cons_of_mem call hMem))
        (h call (List.mem_cons_self ..) conn hConn)

theorem runAll_append (calls : List (MigrationCall σ)) (call : MigrationCall σ)
    (conn : MigrationConn σ) :
    runAll sha256Hex (calls ++ [call]) conn = (call.run sha256Hex (runAll sha256Hex calls conn)).conn := by
  simp [runAll]

theorem runAll_explained (schema : σ) (calls : List (MigrationCall σ))
    (hRead : ∀ call ∈ calls, call.env.verdict .readCurrent ≠ .fails) :
    ∃ registered : List (List (Migration σ)),
      (∀ ms ∈ registered, ∃ call ∈ calls, call.engine.migrations = ms) ∧
        Explained registered (runAll sha256Hex calls (fresh schema)) := by
  induction calls using List.reverseRecOn with
  | nil => exact ⟨[], by simp, by simp [Explained, Completed, runAll, fresh, row]⟩
  | append_singleton calls call ih =>
      obtain ⟨registered, hRegistered, hExplained⟩ :=
        ih fun c hMem => hRead c (List.mem_append_left _ hMem)
      refine ⟨call.engine.migrations :: registered, ?_, ?_⟩
      · intro ms hMs
        rcases List.mem_cons.mp hMs with rfl | hMs
        · exact ⟨call, by simp, rfl⟩
        · obtain ⟨c, hMem, hC⟩ := hRegistered ms hMs
          exact ⟨c, List.mem_append_left _ hMem, hC⟩
      · rw [runAll_append]
        exact (migrate_explained sha256Hex call.env call.engine registered
          (hRead call (by simp))).conn hExplained

theorem downwardClosed_of_fillsNoGap (schema : σ) (earlier : List (MigrationCall σ))
    (call : MigrationCall σ)
    (hRead : ∀ c ∈ earlier ++ [call], c.env.verdict .readCurrent ≠ .fails)
    (hGap : ∀ c ∈ earlier, call.FillsNoGap c) :
    call.DownwardClosed (runAll sha256Hex (earlier ++ [call]) (fresh schema)).data := by
  obtain ⟨registered, hRegistered, hExplained⟩ := runAll_explained sha256Hex schema _ hRead
  intro low hLow high hHigh hLt hCompleted
  obtain ⟨ms, hMs, ⟨m, hMem, hVersion⟩, hBelow⟩ := hExplained high.version hCompleted
  obtain ⟨c, hC, rfl⟩ := hRegistered ms hMs
  rcases List.mem_append.mp hC with hEarlier | hCall
  · have hRegisteredLow := hGap c hEarlier low hLow high hHigh hLt
      (List.mem_map.mpr ⟨m, hMem, hVersion⟩)
    obtain ⟨m', hMem', hVersion'⟩ := List.mem_map.mp hRegisteredLow
    have hBelow' := hBelow m' hMem' (by omega)
    rwa [hVersion'] at hBelow'
  · obtain rfl := List.mem_singleton.mp hCall
    exact hBelow low hLow hLt

/-- Over any sequence of calls: a call that returns true leaves every registered
version completed with its checksum. As long as the records can be read, the
completed versions are downward closed among those registered, unless a call
fills a gap below a version that was registered before, and a version recorded
as failed stays failed and is never executed again. A callback that fails
changes nothing but the record of its version, as long as its savepoint can be
rolled back. -/
theorem runAll_invariants (schema : σ) (earlier : List (MigrationCall σ)) (call : MigrationCall σ) :
    (∀ engine conn, call.run sha256Hex (runAll sha256Hex earlier (fresh schema)) =
        .done (true, engine) conn →
      ∀ m ∈ call.engine.migrations,
        conn.data.CompletedWith m.version (computeChecksum sha256Hex m)) ∧
    ((∀ c ∈ earlier ++ [call], c.env.verdict .readCurrent ≠ .fails) →
      (∀ c ∈ earlier, call.FillsNoGap c) →
      call.DownwardClosed (runAll sha256Hex (earlier ++ [call]) (fresh schema)).data) ∧
    ((∀ c ∈ earlier ++ [call], ∀ version, c.env.verdict (.readStatus version) ≠ .fails) →
      (runAll sha256Hex (earlier ++ [call]) (fresh schema)).events.Pairwise NotAgain ∧
      ∀ version, (runAll sha256Hex earlier (fresh schema)).data.Failed version →
        NotRunSince version (runAll sha256Hex earlier (fresh schema))
          (runAll sha256Hex (earlier ++ [call]) (fresh schema))) ∧
    ((∀ c ∈ earlier ++ [call], ∀ version, c.env.verdict (.rollbackTo version) ≠ .fails) →
      UndoneExactly (runAll sha256Hex (earlier ++ [call]) (fresh schema))) := by
  refine ⟨?_, downwardClosed_of_fillsNoGap sha256Hex schema earlier call, fun hRead => ⟨?_, ?_⟩,
    fun hRollback => ?_⟩
  · intro engine conn hRun
    have hCompleted := migrate_completed sha256Hex call.env call.engine
      (runAll sha256Hex earlier (fresh schema)) trivial
    simp only [run] at hRun
    rw [hRun] at hCompleted
    exact hCompleted rfl
  · refine (runAll_keeps sha256Hex NeverAgain _ (fun c hMem conn hConn => ?_)
      ⟨by simp [fresh], .nil⟩).ordered
    exact (migrate_keeps sha256Hex c.env c.engine fun m _ =>
      round_neverAgain sha256Hex c.env m (hRead c hMem m.version)).conn hConn
  · intro version hFailed
    rw [runAll_append]
    refine (migrate_keeps sha256Hex call.env call.engine fun m _ =>
      round_notRunSince sha256Hex call.env m (hRead call (by simp) m.version) version _).conn ?_
    exact ⟨hFailed, [], rfl, by simp⟩
  · refine runAll_keeps sha256Hex UndoneExactly _ (fun c hMem conn hConn => ?_)
      (by simp [UndoneExactly, fresh])
    exact (migrate_keeps sha256Hex c.env c.engine fun m _ =>
      round_undoneExactly sha256Hex c.env m (hRollback c hMem m.version)).conn hConn

/-- A call that registers these versions, with callbacks that do nothing, and
meets no fault. -/
def registering (versions : List Int) : MigrationCall Unit where
  engine := (versions.map fun version =>
    { version, name := bytes "step", descriptor := bytes "step",
      up := some fun _ => ((), true, []) : Migration Unit }).foldl registerMigration {}
  env := { verdict := fun _ => .succeeds }

/-- Version 1 is registered after version 2 was completed. It is not applied any
more, and the call reports a checksum mismatch. -/
theorem late_version_not_downwardClosed :
    ¬ (registering [1, 2]).DownwardClosed
      (runAll id [registering [2], registering [1, 2]] (fresh ())).data := by
  simp only [DownwardClosed]
  decide

end MigrationCall

end ContainerCP.Storage
