import ContainerCP.Database.LifecycleService

/-! When the creation of a database is all or nothing. -/
namespace ContainerCP.DatabaseLifecycle

open Sql

/-- The databases and the users that there were are as they were. -/
structure Kept (before after : Server) : Prop where
  databases : ∀ name content, before.databases name = some content → after.databases name = some content
  users : ∀ user account, before.users user = some account →
    after.users user = some account ∧ after.grants user = before.grants user

/-- A creation that fails and does not ask for a recovery by hand has changed nothing, and
in no case is anything changed that was there before. -/
structure AllOrNothing (env : Environment) (siteId databaseId : UInt64) (world : World) : Prop where
  failed : (createManagedDatabase env siteId databaseId world).1.success = false →
    (createManagedDatabase env siteId databaseId world).1.manualRecoveryRequired = false →
    (createManagedDatabase env siteId databaseId world).2.server = world.server
  kept : Kept world.server (createManagedDatabase env siteId databaseId world).2.server

/-- The creation gets behind the checks: neither probe reports that something is there. -/
structure Proceeds (env : Environment) (siteId databaseId : UInt64) (world : World) (database : Storage.Database) : Prop where
  resolved : resolveTarget env siteId databaseId world = .ok database
  runs : env.runtime = bytes "Running"
  account : env.serviceAccount.limit = none
  database_missing : databaseExists env.databaseProbe world.server database.dbName = false
  user_missing : userExists env.userProbe world.server database.dbUser = false

/-- The call that makes the user alters no user that there is, and does not make one and
report a failure. The exception is that the compensation fails and says so. -/
def UserSafe (env : Environment) (server : Server) (database : Storage.Database) : Prop :=
  passwordSupported database.dbPassword = false ∨ env.createUser.limit = some 0 ∨
    (if (server.users database.dbUser).isSome then env.createUser.limit = some 1
    else env.createUser.limit = none ∨ env.dropDatabase.limit ≠ none ∨ env.persistRollback = false)

/-- The call that makes the database finds one there, or does nothing, or works; or it
makes one, reports a failure, and the compensation says that it fails. -/
def Safe (env : Environment) (server : Server) (database : Storage.Database) : Prop :=
  (server.databases database.dbName).isSome ∨ env.createDatabase.limit = some 0 ∨
    (if env.createDatabase.limit = none then UserSafe env server database else env.persistRollback = false)

/-! ## What a run touches -/

section Touches

variable (database user : Bytes) (before : Server)

/-- Nothing differs but one database and one user. -/
structure Touches (after : Server) : Prop where
  databases : ∀ name, name ≠ database → after.databases name = before.databases name
  users : ∀ name, name ≠ user → after.users name = before.users name ∧ after.grants name = before.grants name

/-- The statements that are about one database and one user. -/
def About : Statement → Prop
  | .createDatabase name => name = database
  | .createUserIfNotExists name _ => name = user
  | .alterUser name _ => name = user
  | .grant _ name other => name = database ∧ other = user
  | .revokeAll name other => name = database ∧ other = user
  | .dropDatabaseIfExists name => name = database
  | .dropUserIfExists name => name = user

variable {database user before} {after : Server}

theorem Touches.refl (server : Server) : Touches database user server server := ⟨fun _ _ => rfl, fun _ _ => ⟨rfl, rfl⟩⟩

theorem Touches.setDatabase (h : Touches database user before after) (content : Option Bytes) :
    Touches database user before (after.setDatabase database content) where
  databases name hName := by
    rw [Server.databases_setDatabase, Function.update_of_ne hName]
    exact h.databases name hName
  users := h.users

theorem Touches.setUser (h : Touches database user before after) (account : User) :
    Touches database user before (after.setUser user account) where
  databases := h.databases
  users name hName := by
    rw [Server.users_setUser, Function.update_of_ne hName]
    exact h.users name hName

theorem Touches.dropUser (h : Touches database user before after) : Touches database user before (after.dropUser user) where
  databases := h.databases
  users name hName := by
    rw [Server.users_dropUser, Server.grants_dropUser, Function.update_of_ne hName, Function.update_of_ne hName]
    exact h.users name hName

theorem Touches.setGrant (h : Touches database user before after) (name : Bytes) (privileges : List Bytes)
    (hUser : after.users user ≠ none) : Touches database user before (after.setGrant user name privileges hUser) where
  databases := h.databases
  users name hName := by
    rw [Server.grants_setGrant, Function.update_of_ne hName]
    exact h.users name hName

theorem Touches.apply {statement : Statement} {next : Server} (h : Touches database user before after)
    (hAbout : About database user statement) (hApply : statement.apply after = some next) :
    Touches database user before next := by
  cases statement with
  | createDatabase name =>
      obtain rfl := hAbout
      simp only [Statement.apply] at hApply
      split at hApply
      · cases hApply
      · exact Option.some.inj hApply ▸ h.setDatabase _
  | createUserIfNotExists name password =>
      obtain rfl := hAbout
      simp only [Statement.apply] at hApply
      split at hApply
      · exact Option.some.inj hApply ▸ h
      · exact Option.some.inj hApply ▸ h.setUser _
  | alterUser name password =>
      obtain rfl := hAbout
      simp only [Statement.apply] at hApply
      split at hApply
      · cases hApply
      · exact Option.some.inj hApply ▸ h.setUser _
  | grant privileges name other =>
      obtain ⟨rfl, rfl⟩ := hAbout
      simp only [Statement.apply] at hApply
      split at hApply
      · next hUser => exact Option.some.inj hApply ▸ h.setGrant _ _ hUser
      · cases hApply
  | revokeAll name other =>
      obtain ⟨rfl, rfl⟩ := hAbout
      simp only [Statement.apply] at hApply
      split at hApply
      · next hUser =>
        split at hApply
        · cases hApply
        · exact Option.some.inj hApply ▸ h.setGrant _ _ hUser
      · cases hApply
  | dropDatabaseIfExists name =>
      obtain rfl := hAbout
      exact Option.some.inj hApply ▸ h.setDatabase _
  | dropUserIfExists name =>
      obtain rfl := hAbout
      exact Option.some.inj hApply ▸ h.dropUser

theorem Touches.kept (h : Touches database user before after) (hDatabase : before.databases database = none)
    (hUser : before.users user = none) : Kept before after where
  databases name content hContent := by
    have hName : name ≠ database := fun hEq => by simp [hEq, hDatabase] at hContent
    rw [h.databases name hName, hContent]
  users name account hAccount := by
    have hName : name ≠ user := fun hEq => by simp [hEq, hUser] at hAccount
    rw [(h.users name hName).1, hAccount]
    exact ⟨rfl, (h.users name hName).2⟩

/-- With the database and the user as they were, everything is. -/
theorem Touches.eq (h : Touches database user before after) (hDatabase : after.databases database = before.databases database)
    (hBefore : before.users user = none) (hAfter : after.users user = none) : after = before := by
  ext name : 2
  · by_cases hName : name = database
    · rw [hName, hDatabase]
    · exact h.databases name hName
  · by_cases hName : name = user
    · rw [hName, hBefore, hAfter]
    · exact (h.users name hName).1
  · by_cases hName : name = user
    · funext other
      rw [hName, before.granted user other hBefore, after.granted user other hAfter]
    · exact (h.users name hName).2

end Touches

/-! ## The compensation -/

section Compensation

variable (env : Environment) (database : Storage.Database)

@[simp] theorem success_report (call : Call) (success : Bool) : (call.report success).success = success := by
  cases success <;> rfl

theorem takeBack_none_iff (needed : Bool) (message : String) (call : Server → ProviderResult × Server)
    (before : Compensation × Server) :
    (takeBack needed message call before).1 = none ↔
      before.1 = none ∧ (needed = true → (call before.2).1.success = true) := by
  rw [takeBack]
  cases needed with
  | false => simp
  | true =>
      cases hBefore : before.1 with
      | none => by_cases hSuccess : (call before.2).1.success <;> simp [hSuccess]
      | some first => simp

theorem takeBack_server (needed : Bool) (message : String) (call : Server → ProviderResult × Server)
    (before : Compensation × Server) :
    (takeBack needed message call before).2 = if needed then (call before.2).2 else before.2 := by
  rw [takeBack]
  split
  · simp only
    split <;> rfl
  · rfl

theorem fail_server (progress : Progress) (step : String) (code message : Bytes) (world : World) :
    (fail env database progress step code message world).2.server =
      (compensateServer env database progress world.server).2 := by
  rw [fail]
  split <;> rfl

theorem fail_success (progress : Progress) (step : String) (code message : Bytes) (world : World) :
    (fail env database progress step code message world).1.success = false := by
  rw [fail]
  split <;> rfl

theorem fail_manual (progress : Progress) (step : String) (code message : Bytes) (world : World) :
    (fail env database progress step code message world).1.manualRecoveryRequired = false ↔
      (compensateServer env database progress world.server).1 = none ∧ env.persistRollback = true := by
  have hManual : (fail env database progress step code message world).1.manualRecoveryRequired = false ↔
      (compensate env database progress world).1 = none := by
    rw [fail]
    split
    · next hSome => simp [hSome, lifecycleFailure]
    · next hNone => simp [hNone, lifecycleFailure]
  rw [hManual, compensate]
  cases env.persistRollback <;> cases (compensateServer env database progress world.server).1 <;> simp

/-- The database alone is dropped, unless the call breaks before. -/
theorem compensateServer_database (server : Server) :
    ((compensateServer env database ⟨true, false, false⟩ server).1 = none ↔ env.dropDatabase.limit = none) ∧
      (compensateServer env database ⟨true, false, false⟩ server).2 =
        if env.dropDatabase.limit = some 0 then server else server.setDatabase database.dbName none := by
  have hApply : (Statement.dropDatabaseIfExists database.dbName).apply server =
      some (server.setDatabase database.dbName none) := rfl
  constructor
  · simp [compensateServer, takeBack_none_iff, takeBack_server, dropDatabase, executeSql, execute_single hApply]
  · simp [compensateServer, takeBack_server, dropDatabase, executeSql, execute_single hApply]

/-- A compensation without a failure leaves neither the database nor the user. -/
theorem compensateServer_all {granted : Bool} {server : Server}
    (h : (compensateServer env database ⟨true, true, granted⟩ server).1 = none) :
    (compensateServer env database ⟨true, true, granted⟩ server).2.users database.dbUser = none ∧
      (compensateServer env database ⟨true, true, granted⟩ server).2.databases database.dbName = none := by
  have hDatabase : ∀ server, (Statement.dropDatabaseIfExists database.dbName).apply server =
      some (server.setDatabase database.dbName none) := fun _ => rfl
  have hUser : ∀ server, (Statement.dropUserIfExists database.dbUser).apply server =
      some (server.dropUser database.dbUser) := fun _ => rfl
  rw [compensateServer, takeBack_none_iff, takeBack_none_iff] at h
  obtain ⟨⟨-, hDropUser⟩, hDropDatabase⟩ := h
  have hUserLimit : env.dropUser.limit = none := by
    simpa [dropUser, executeSql, execute_single (hUser _)] using hDropUser rfl
  have hDatabaseLimit : env.dropDatabase.limit = none := by
    simpa [dropDatabase, executeSql, execute_single (hDatabase _)] using hDropDatabase rfl
  rw [compensateServer, takeBack_server, takeBack_server]
  simp [dropUser, dropDatabase, executeSql, execute_single (hUser _), execute_single (hDatabase _), hUserLimit, hDatabaseLimit]

end Compensation

/-! ## The steps behind the user -/

section Invariants

variable {env : Environment} {database : Storage.Database} {holds : Server → Prop}

/-- The statements that can follow once there is a user. -/
def laterStatements (database : Storage.Database) : List Statement :=
  [.grant managedDatabasePrivileges database.dbName database.dbUser, .revokeAll database.dbName database.dbUser,
    .dropDatabaseIfExists database.dbName, .dropUserIfExists database.dbUser]

variable (hStep : ∀ statement ∈ laterStatements database, ∀ server after,
  holds server → statement.apply server = some after → holds after)

include hStep

theorem executeSql_invariant {statement : Statement} (hMem : statement ∈ laterStatements database) (call : Call)
    {server : Server} (h : holds server) : holds (executeSql call [statement] server).2 := by
  refine execute_invariant ?_ call.limit h
  intro other hOther
  obtain rfl := List.mem_singleton.mp hOther
  exact hStep other hMem

theorem takeBack_invariant {statement : Statement} (hMem : statement ∈ laterStatements database) (call : Call) (needed : Bool)
    (message : String) {before : Compensation × Server} (h : holds before.2) :
    holds (takeBack needed message (executeSql call [statement]) before).2 := by
  rw [takeBack_server]
  split
  · exact executeSql_invariant hStep hMem call h
  · exact h

theorem compensateServer_invariant (progress : Progress) {server : Server} (h : holds server) :
    holds (compensateServer env database progress server).2 := by
  refine takeBack_invariant hStep ?_ _ _ _ (takeBack_invariant hStep ?_ _ _ _ (takeBack_invariant hStep ?_ _ _ _ h))
  · simp [laterStatements]
  · simp [laterStatements]
  · simp [laterStatements]

theorem fail_invariant (progress : Progress) (step : String) (code message : Bytes) {world : World} (h : holds world.server) :
    holds (fail env database progress step code message world).2.server := by
  rw [fail_server]
  exact compensateServer_invariant hStep progress h

theorem persisting_invariant {world : World} (h : holds world.server) :
    holds (persisting env database world).2.server := by
  rw [persisting]
  split
  · exact h
  · exact fail_invariant hStep _ _ _ _ h

theorem verifying_invariant {world : World} (h : holds world.server) :
    holds (verifying env database world).2.server := by
  rw [verifying]
  split
  · exact persisting_invariant hStep h
  · exact fail_invariant hStep _ _ _ _ h

/-- What the later statements preserve, all that follows preserves. -/
theorem granting_invariant {world : World} (h : holds world.server) :
    holds (granting env database world).2.server := by
  have hGranted := executeSql_invariant hStep
    (show Statement.grant managedDatabasePrivileges database.dbName database.dbUser ∈ laterStatements database by
      simp [laterStatements]) env.grant h
  rw [granting]
  split
  · exact verifying_invariant hStep hGranted
  · exact fail_invariant hStep _ _ _ _ hGranted

end Invariants

section Undone

variable {env : Environment} {database : Storage.Database} {world : World}

/-- Neither the database nor the user is left. -/
def Undone (database : Storage.Database) (outcome : Result × World) : Prop :=
  outcome.1.success = false → outcome.1.manualRecoveryRequired = false →
    outcome.2.server.users database.dbUser = none ∧ outcome.2.server.databases database.dbName = none

theorem undone_fail (granted : Bool) (step : String) (code message : Bytes) :
    Undone database (fail env database ⟨true, true, granted⟩ step code message world) := by
  intro _ hManual
  obtain ⟨hNone, -⟩ := (fail_manual env database _ step code message world).mp hManual
  rw [fail_server]
  exact compensateServer_all env database hNone

theorem undone_persisting : Undone database (persisting env database world) := by
  rw [persisting]
  split
  · exact fun hSuccess => absurd hSuccess (by simp)
  · exact undone_fail true _ _ _

theorem undone_verifying : Undone database (verifying env database world) := by
  rw [verifying]
  split
  · exact undone_persisting
  · exact undone_fail true _ _ _

theorem undone_granting : Undone database (granting env database world) := by
  rw [granting]
  split
  · exact undone_verifying
  · exact undone_fail false _ _ _

end Undone

/-! ## A user that was not there -/

section Creation

variable {env : Environment} {database : Storage.Database} {world : World}

theorem touches_later (before : Server) : ∀ statement ∈ laterStatements database, ∀ server after,
    Touches database.dbName database.dbUser before server → statement.apply server = some after →
    Touches database.dbName database.dbUser before after := by
  intro statement hMem server after hTouches hApply
  refine hTouches.apply ?_ hApply
  simp only [laterStatements, List.mem_cons, List.not_mem_nil, or_false] at hMem
  rcases hMem with rfl | rfl | rfl | rfl
  · exact ⟨rfl, rfl⟩
  · exact ⟨rfl, rfl⟩
  · exact rfl
  · exact rfl

/-- The later statements leave the user or drop it. -/
theorem not_restored_later (account : User) : ∀ statement ∈ laterStatements database, ∀ server after : Server,
    server.users database.dbUser ≠ some account → statement.apply server = some after →
    after.users database.dbUser ≠ some account := by
  intro statement hMem server after hOther hApply
  simp only [laterStatements, List.mem_cons, List.not_mem_nil, or_false] at hMem
  rcases hMem with rfl | rfl | rfl | rfl
  · simp only [Statement.apply] at hApply
    split at hApply
    · exact Option.some.inj hApply ▸ hOther
    · cases hApply
  · simp only [Statement.apply] at hApply
    split at hApply
    · split at hApply
      · cases hApply
      · exact Option.some.inj hApply ▸ hOther
    · cases hApply
  · exact Option.some.inj hApply ▸ hOther
  · rw [← Option.some.inj hApply, Server.users_dropUser, Function.update_self]
    simp

theorem touches_createOrUpdateUser (call : Call) (before : Server) {server : Server}
    (h : Touches database.dbName database.dbUser before server) :
    Touches database.dbName database.dbUser before
      (createOrUpdateUser call database.dbUser database.dbPassword server).2 := by
  rw [createOrUpdateUser]
  split
  · refine execute_invariant ?_ call.limit h
    intro statement hMem server after hTouches hApply
    refine hTouches.apply ?_ hApply
    simp only [List.mem_cons, List.not_mem_nil, or_false] at hMem
    rcases hMem with rfl | rfl
    · exact rfl
    · exact rfl
  · exact h

theorem touches_creatingUser (env : Environment) (before : Server) (h : Touches database.dbName database.dbUser before world.server) :
    Touches database.dbName database.dbUser before (creatingUser env database world).2.server := by
  have hUser := touches_createOrUpdateUser env.createUser before h
  rw [creatingUser]
  split
  · exact granting_invariant (touches_later before) hUser
  · exact fail_invariant (touches_later before) _ _ _ _ hUser

/-- For a user that there is the password is set, unless the script ends before. -/
theorem createOrUpdateUser_existing (call : Call) {user password : Bytes} {server : Server} {account : User}
    (hSupported : passwordSupported password = true) (hUser : server.users user = some account) :
    (createOrUpdateUser call user password server).1.success = call.limit.isNone ∧
      (createOrUpdateUser call user password server).2 =
        if call.limit = some 0 ∨ call.limit = some 1 then server else server.setUser user ⟨password, account.settings + 1⟩ := by
  have hCreate : (Statement.createUserIfNotExists user password).apply server = some server := by
    simp only [Statement.apply, hUser]
  have hAlter : (Statement.alterUser user password).apply server = some (server.setUser user ⟨password, account.settings + 1⟩) := by
    simp only [Statement.apply, hUser]
  rw [createOrUpdateUser, if_pos hSupported, executeSql, success_report]
  rcases call.limit with - | (- | - | limit)
  · simp [execute, hCreate, hAlter]
  · simp [execute]
  · simp [execute, hCreate]
  · simp [execute, hCreate, hAlter]

/-- A user that there was not is made, unless the script ends before. -/
theorem createOrUpdateUser_missing (call : Call) {user password : Bytes} {server : Server}
    (hSupported : passwordSupported password = true) (hUser : server.users user = none) :
    (createOrUpdateUser call user password server).1.success = call.limit.isNone ∧
      (call.limit ≠ some 0 → (createOrUpdateUser call user password server).2.users user ≠ none) := by
  have hCreate : (Statement.createUserIfNotExists user password).apply server = some (server.setUser user ⟨password, 1⟩) := by
    simp only [Statement.apply, hUser]
  have hAlter : (Statement.alterUser user password).apply (server.setUser user ⟨password, 1⟩) =
      some ((server.setUser user ⟨password, 1⟩).setUser user ⟨password, 2⟩) := by
    simp only [Statement.apply, Server.users_setUser, Function.update_self]
  rw [createOrUpdateUser, if_pos hSupported, executeSql, success_report]
  rcases call.limit with - | (- | - | limit)
  · simp [execute, hCreate, hAlter]
  · simp [execute]
  · simp [execute, hCreate]
  · simp [execute, hCreate, hAlter]

theorem createOrUpdateUser_idle {call : Call} (user : Bytes) {password : Bytes} (server : Server)
    (h : passwordSupported password = false ∨ call.limit = some 0) :
    (createOrUpdateUser call user password server).1.success = false ∧
      (createOrUpdateUser call user password server).2 = server := by
  rw [createOrUpdateUser]
  split
  · next hSupported =>
    rcases h with hNot | hLimit
    · simp [hSupported] at hNot
    · simp [executeSql, hLimit, execute]
  · exact ⟨rfl, rfl⟩

end Creation

/-! ## Behind the database -/

section BehindDatabase

variable {env : Environment} {database : Storage.Database} {world : World} {before : Server}

/-- The two demands, for any outcome. -/
def Proper (before : Server) (outcome : Result × World) : Prop :=
  (outcome.1.success = false → outcome.1.manualRecoveryRequired = false → outcome.2.server = before) ∧
    Kept before outcome.2.server

theorem kept_refl (server : Server) : Kept server server := ⟨fun _ _ h => h, fun _ _ h => ⟨h, rfl⟩⟩

theorem kept_setDatabase (hDatabase : before.databases database.dbName = none) (content : Option Bytes) :
    Kept before (before.setDatabase database.dbName content) where
  databases name old hOld := by
    have hName : name ≠ database.dbName := fun hEq => by simp [hEq, hDatabase] at hOld
    rw [Server.databases_setDatabase, Function.update_of_ne hName, hOld]
  users _ _ h := ⟨h, rfl⟩

theorem setDatabase_setDatabase (hDatabase : before.databases database.dbName = none) (content : Option Bytes) :
    (before.setDatabase database.dbName content).setDatabase database.dbName none = before := by
  have hUpdate : Function.update before.databases database.dbName none = before.databases := by
    rw [← hDatabase, Function.update_eq_self]
  ext1
  · rw [Server.databases_setDatabase, Server.databases_setDatabase, Function.update_idem, hUpdate]
  · rfl
  · rfl

variable (hDatabase : before.databases database.dbName = none)
  (hWorld : world.server = before.setDatabase database.dbName (some []))

include hDatabase hWorld

/-- A call for the user that does nothing leaves the database to be dropped. -/
theorem proper_of_idle
    (hFails : (createOrUpdateUser env.createUser database.dbUser database.dbPassword world.server).1.success = false)
    (hIdle : (createOrUpdateUser env.createUser database.dbUser database.dbPassword world.server).2 = world.server) :
    Proper before (creatingUser env database world) := by
  rw [creatingUser]
  simp only [hFails, hIdle, Bool.false_eq_true, if_false]
  have hServer := (compensateServer_database env database world.server).2
  have hDropped : (world.server.setDatabase database.dbName none) = before := by
    rw [hWorld, setDatabase_setDatabase hDatabase]
  refine ⟨fun _ hManual => ?_, ?_⟩
  · obtain ⟨hNone, -⟩ := (fail_manual env database _ _ _ _ _).mp hManual
    have hLimit := (compensateServer_database env database world.server).1.mp hNone
    rw [fail_server, hServer, hLimit, if_neg (by simp), hDropped]
  · rw [fail_server, hServer]
    split
    · rw [hWorld]
      exact kept_setDatabase hDatabase _
    · rw [hDropped]
      exact kept_refl before

omit hDatabase in
theorem touches_world : Touches database.dbName database.dbUser before world.server := by
  rw [hWorld]
  exact (Touches.refl before).setDatabase _

/-- A user that is made anew is dropped again, or the failure is reported. -/
theorem proper_of_missing (hSupported : passwordSupported database.dbPassword = true)
    (hUser : before.users database.dbUser = none)
    (hSafe : env.createUser.limit = none ∨ env.dropDatabase.limit ≠ none ∨ env.persistRollback = false) :
    Proper before (creatingUser env database world) := by
  have hTouches := touches_creatingUser env before (touches_world hWorld)
  have hMissing : world.server.users database.dbUser = none := by rw [hWorld]; exact hUser
  have hSuccess := (createOrUpdateUser_missing env.createUser hSupported hMissing).1
  refine ⟨fun hFailed hManual => ?_, hTouches.kept hDatabase hUser⟩
  by_cases hLimit : env.createUser.limit = none
  · have hGranting : creatingUser env database world = granting env database
        { world with server := (createOrUpdateUser env.createUser database.dbUser database.dbPassword world.server).2 } := by
      simp [creatingUser, hSuccess, hLimit]
    rw [hGranting] at hFailed hManual hTouches ⊢
    obtain ⟨hNoUser, hNoDatabase⟩ := undone_granting hFailed hManual
    exact hTouches.eq (hNoDatabase.trans hDatabase.symm) hUser hNoUser
  · have hFails : (createOrUpdateUser env.createUser database.dbUser database.dbPassword world.server).1.success = false := by
      rw [hSuccess]
      simpa [Option.isSome_iff_ne_none] using hLimit
    rw [creatingUser] at hManual
    simp only [hFails, Bool.false_eq_true, if_false] at hManual
    obtain ⟨hNone, hPersist⟩ := (fail_manual env database _ _ _ _ _).mp hManual
    have hDrop := (compensateServer_database env database _).1.mp hNone
    simp [hLimit, hDrop, hPersist] at hSafe

omit hDatabase in
/-- A user that was there is altered, and nothing that follows sets it back. -/
theorem not_proper_of_existing (hSupported : passwordSupported database.dbPassword = true) {account : User}
    (hUser : before.users database.dbUser = some account) (hZero : env.createUser.limit ≠ some 0)
    (hOne : env.createUser.limit ≠ some 1) : ¬Proper before (creatingUser env database world) := by
  have hExisting : world.server.users database.dbUser = some account := by rw [hWorld]; exact hUser
  have hServer := (createOrUpdateUser_existing env.createUser hSupported hExisting).2
  rw [if_neg (not_or.mpr ⟨hZero, hOne⟩)] at hServer
  have hAltered : (createOrUpdateUser env.createUser database.dbUser database.dbPassword world.server).2.users
      database.dbUser ≠ some account := by
    rw [hServer]
    intro hEq
    have hSettings : account.settings + 1 = account.settings := by
      simpa using congrArg (Option.map User.settings) hEq
    omega
  have hEnd : (creatingUser env database world).2.server.users database.dbUser ≠ some account := by
    rw [creatingUser]
    split
    · exact granting_invariant (not_restored_later account) hAltered
    · exact fail_invariant (not_restored_later account) _ _ _ _ hAltered
  exact fun h => hEnd (h.2.users _ _ hUser).1

omit hDatabase in
/-- A user that is made and reported as a failure stays. -/
theorem not_proper_of_missing (hSupported : passwordSupported database.dbPassword = true)
    (hUser : before.users database.dbUser = none) (hLimit : env.createUser.limit ≠ none)
    (hZero : env.createUser.limit ≠ some 0) (hDrop : env.dropDatabase.limit = none) (hPersist : env.persistRollback = true) :
    ¬Proper before (creatingUser env database world) := by
  have hMissing : world.server.users database.dbUser = none := by rw [hWorld]; exact hUser
  obtain ⟨hSuccess, hMade⟩ := createOrUpdateUser_missing env.createUser hSupported hMissing
  have hFails : (createOrUpdateUser env.createUser database.dbUser database.dbPassword world.server).1.success = false := by
    rw [hSuccess]
    simpa [Option.isSome_iff_ne_none] using hLimit
  rw [creatingUser]
  simp only [hFails, Bool.false_eq_true, if_false]
  intro h
  have hServer := h.1 (fail_success env database _ _ _ _ _)
    ((fail_manual env database _ _ _ _ _).mpr ⟨(compensateServer_database env database _).1.mpr hDrop, hPersist⟩)
  rw [fail_server, (compensateServer_database env database _).2, hDrop, if_neg (by simp)] at hServer
  have hLeft := hMade hZero
  rw [← hServer] at hUser
  exact hLeft hUser

/-- Behind the database it is the call for the user that decides. -/
theorem proper_creatingUser_iff :
    Proper before (creatingUser env database world) ↔ UserSafe env before database := by
  by_cases hIdle : passwordSupported database.dbPassword = false ∨ env.createUser.limit = some 0
  · obtain ⟨hFails, hSame⟩ := createOrUpdateUser_idle database.dbUser world.server hIdle
    exact iff_of_true (proper_of_idle hDatabase hWorld hFails hSame) (by rw [UserSafe, ← or_assoc]; exact .inl hIdle)
  obtain ⟨hSupported, hZero⟩ := not_or.mp hIdle
  rw [Bool.not_eq_false] at hSupported
  have hSafe : UserSafe env before database ↔ (if (before.users database.dbUser).isSome then env.createUser.limit = some 1
      else env.createUser.limit = none ∨ env.dropDatabase.limit ≠ none ∨ env.persistRollback = false) := by
    simp [UserSafe, hSupported, hZero]
  rw [hSafe]
  cases hUser : before.users database.dbUser with
  | none =>
      simp only [Option.isSome_none, Bool.false_eq_true, if_false]
      refine ⟨fun h => ?_, proper_of_missing hDatabase hWorld hSupported hUser⟩
      by_contra hNot
      simp only [not_or, ne_eq, not_not, Bool.not_eq_false] at hNot
      exact not_proper_of_missing hWorld hSupported hUser hNot.1 hZero hNot.2.1 hNot.2.2 h
  | some account =>
      simp only [Option.isSome_some, if_true]
      constructor
      · intro h
        by_contra hOne
        exact not_proper_of_existing hWorld hSupported hUser hZero hOne h
      · intro hOne
        have hExisting : world.server.users database.dbUser = some account := by rw [hWorld]; exact hUser
        obtain ⟨hSuccess, hServer⟩ := createOrUpdateUser_existing env.createUser hSupported hExisting
        exact proper_of_idle hDatabase hWorld (by simp [hSuccess, hOne]) (by simp [hServer, hOne])

end BehindDatabase

/-! ## Every creation -/

theorem proper_of_unchanged {before : Server} {outcome : Result × World} (h : outcome.2.server = before) :
    Proper before outcome := ⟨fun _ _ => h, h ▸ kept_refl _⟩

theorem proper_creatingDatabase_iff (env : Environment) (database : Storage.Database) (world : World) :
    Proper world.server (creatingDatabase env database world) ↔ Safe env world.server database := by
  cases hDatabase : world.server.databases database.dbName with
  | some content =>
      have hApply : (Statement.createDatabase database.dbName).apply world.server = none := by
        simp only [Statement.apply, hDatabase]
      have hCreate : createDatabase env.createDatabase database.dbName world.server =
          (env.createDatabase.report false, world.server) := by
        rw [createDatabase, executeSql, execute_single_fails hApply]
      refine iff_of_true (proper_of_unchanged ?_) (.inl (by rw [hDatabase]; rfl))
      simp [creatingDatabase, hCreate, fail_server, compensateServer, takeBack]
  | none =>
      have hApply : (Statement.createDatabase database.dbName).apply world.server =
          some (world.server.setDatabase database.dbName (some [])) := by
        simp only [Statement.apply, hDatabase]
      have hCreate : createDatabase env.createDatabase database.dbName world.server =
          (env.createDatabase.report env.createDatabase.limit.isNone,
            if env.createDatabase.limit = some 0 then world.server
            else world.server.setDatabase database.dbName (some [])) := by
        rw [createDatabase, executeSql, execute_single hApply]
      have hSafe : Safe env world.server database ↔ (env.createDatabase.limit = some 0 ∨
          if env.createDatabase.limit = none then UserSafe env world.server database else env.persistRollback = false) := by
        simp [Safe, hDatabase]
      rw [hSafe]
      rcases hLimit : env.createDatabase.limit with - | (- | limit)
      · have hNext : creatingDatabase env database world =
            creatingUser env database { world with server := world.server.setDatabase database.dbName (some []) } := by
          simp [creatingDatabase, hCreate, hLimit]
        rw [hNext]
        simpa using proper_creatingUser_iff hDatabase rfl
      · refine iff_of_true (proper_of_unchanged ?_) (.inl rfl)
        simp [creatingDatabase, hCreate, hLimit, fail_server, compensateServer, takeBack]
      · -- The database is there, and nobody takes it back.
        have hFail : creatingDatabase env database world = fail env database {} "Creating database" env.createDatabase.code
            (bytes "Physical database creation failed: " ++ env.createDatabase.message)
            { world with server := world.server.setDatabase database.dbName (some []) } := by
          simp [creatingDatabase, hCreate, hLimit, Call.report]
        have hServer : (creatingDatabase env database world).2.server = world.server.setDatabase database.dbName (some []) := by
          rw [hFail, fail_server]
          rfl
        have hManual : (creatingDatabase env database world).1.manualRecoveryRequired = false ↔ env.persistRollback = true := by
          rw [hFail, fail_manual]
          simp [compensateServer, takeBack]
        have hSuccess : (creatingDatabase env database world).1.success = false := by rw [hFail, fail_success]
        have hOther : world.server.setDatabase database.dbName (some []) ≠ world.server := by
          intro hEq
          have hContent := congrFun (congrArg Server.databases hEq) database.dbName
          rw [Server.databases_setDatabase, Function.update_self, hDatabase] at hContent
          cases hContent
        simp only [Option.some.injEq, Nat.succ_ne_zero, false_or, reduceCtorEq, if_false]
        constructor
        · intro h
          by_contra hPersist
          exact hOther (hServer ▸ h.1 hSuccess (hManual.mpr (by simpa using hPersist)))
        · intro hPersist
          refine ⟨fun _ hNot => absurd (hManual.mp hNot) (by simp [hPersist]), ?_⟩
          rw [hServer]
          exact kept_setDatabase hDatabase _

theorem createManagedDatabase_of_proceeds {env : Environment} {siteId databaseId : UInt64} {world : World}
    {database : Storage.Database} (h : Proceeds env siteId databaseId world database) :
    createManagedDatabase env siteId databaseId world = creatingDatabase env database world := by
  simp [createManagedDatabase, h.resolved, h.runs, h.account, h.database_missing, h.user_missing]

/-- Where a check stops the creation nothing has been touched. -/
theorem unchanged_of_not_proceeds {env : Environment} {siteId databaseId : UInt64} {world : World}
    (h : ∀ database, ¬Proceeds env siteId databaseId world database) :
    (createManagedDatabase env siteId databaseId world).2.server = world.server := by
  rw [createManagedDatabase]
  split
  · rfl
  · next database hResolved =>
    split
    · rfl
    · next hRuns =>
      split
      · rfl
      · next hAccount =>
        split
        · rfl
        · next hProbes =>
          rw [Bool.or_eq_true, not_or] at hProbes
          exact absurd ⟨hResolved, not_not.mp hRuns, by simpa using hAccount, by simpa using hProbes.1,
            by simpa using hProbes.2⟩ (h database)

/-- A creation is all or nothing if, and only if, it stops at the checks or its calls are
safe. -/
theorem allOrNothing_iff (env : Environment) (siteId databaseId : UInt64) (world : World) :
    AllOrNothing env siteId databaseId world ↔
      ∀ database, Proceeds env siteId databaseId world database → Safe env world.server database := by
  have hProper : AllOrNothing env siteId databaseId world ↔
      Proper world.server (createManagedDatabase env siteId databaseId world) :=
    ⟨fun h => ⟨h.failed, h.kept⟩, fun h => ⟨h.1, h.2⟩⟩
  rw [hProper]
  by_cases hProceeds : ∃ database, Proceeds env siteId databaseId world database
  · obtain ⟨database, hProceeds⟩ := hProceeds
    have hUnique : ∀ other, Proceeds env siteId databaseId world other → other = database := fun other hOther =>
      Except.ok.inj (hOther.resolved.symm.trans hProceeds.resolved)
    rw [createManagedDatabase_of_proceeds hProceeds, proper_creatingDatabase_iff]
    exact ⟨fun h other hOther => hUnique other hOther ▸ h, fun h => h database hProceeds⟩
  · rw [not_exists] at hProceeds
    exact iff_of_true (proper_of_unchanged (unchanged_of_not_proceeds hProceeds))
      fun database hDatabase => absurd hDatabase (hProceeds database)

/-! A site whose user is there already. The probe for it fails, the grants fail, and the
compensation drops it. -/

def occupiedServer : Server where
  databases _ := none
  users := Function.update (fun _ => none) (bytes "app") (some ⟨bytes "old", 1⟩)
  grants _ _ := []
  granted _ _ _ := rfl

def occupiedWorld : World where
  sites := [{ id := 1 }]
  databases := [{ id := 1, siteId := 1, dbName := bytes "app", dbUser := bytes "app", dbPassword := bytes "new" }]
  server := occupiedServer

def brokenProbe : Environment where
  envFile := bytes "CONTAINERCP_DB_SERVICE_USER=s\nCONTAINERCP_DB_SERVICE_PASSWORD=t\n"
  runtime := bytes "Running"
  userProbe := { limit := some 0 }
  grant := { limit := some 0 }

theorem not_allOrNothing_brokenProbe : ¬AllOrNothing brokenProbe 1 1 occupiedWorld := by
  intro h
  have hFailed : (createManagedDatabase brokenProbe 1 1 occupiedWorld).1.success = false := by decide
  have hSilent : (createManagedDatabase brokenProbe 1 1 occupiedWorld).1.manualRecoveryRequired = false := by decide
  have hDropped : (createManagedDatabase brokenProbe 1 1 occupiedWorld).2.server.users (bytes "app") = none := by
    decide
  rw [h.failed hFailed hSilent] at hDropped
  exact absurd hDropped (by decide)

end ContainerCP.DatabaseLifecycle
