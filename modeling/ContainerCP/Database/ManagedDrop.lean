import Mathlib.Data.List.Nodup
import ContainerCP.Database.LifecycleService

/-! `DatabaseLifecycleService::dropManagedDatabase`: the user goes with its last database.
How many databases it has is read off the first byte of a printed count. -/
namespace ContainerCP.DatabaseLifecycle

open Sql

/-! ## The grant table -/

/-- The databases on which anything is granted, as the server can list them. -/
structure GrantTable (server : Server) where
  databases : List Bytes
  nodup : databases.Nodup
  complete : ∀ user database, server.grants user database ≠ [] → database ∈ databases

/-- The databases of a list on which a user has privileges. -/
def grantedOn (databases : List Bytes) (server : Server) (user : Bytes) : List Bytes :=
  databases.filter fun database => server.grants user database ≠ []

/-- `user_schema_grant_count`: what the query prints, if it works. No statement of a drop
grants anything, so the databases in the table at its start are enough. -/
def userSchemaGrantCount (call : Call) (databases : List Bytes) (server : Server) (user : Bytes) : Option Bytes :=
  if call.limit.isSome then none else some (decimal (grantedOn databases server user).length ++ [newline])

/-! ## The drop -/

structure DropRequest where
  siteId : UInt64
  databaseId : UInt64
  confirmation : Bytes
  expectedDomain : Bytes
  expectedDatabaseName : Bytes
  deriving DecidableEq

/-- Every answer that one drop can get. -/
structure DropEnvironment extends Environment where
  grantCount : Call := {}

/-- `generic_confirmation`. -/
def genericConfirmation (value : Bytes) : Bool :=
  value ∈ ["true", "false", "yes", "no", "delete", "drop"].map bytes

/-- `database_drop_confirmation_valid`. -/
def databaseDropConfirmationValid (confirmation databaseName domain : Bytes) : Bool :=
  !(confirmation = [] || 253 < confirmation.length || genericConfirmation confirmation) &&
    confirmation.all (fun c => !(c < 32 || c = 127)) && (confirmation = databaseName || confirmation = domain)

/-- What the count must look like for the user to go. -/
def lastGrant (output : Bytes) : Bool :=
  output = [] || output.head? = some (ascii '0') || output.head? = some (ascii '1')

/-- The database goes, if it is there. -/
def droppingDatabase (env : DropEnvironment) (database : Storage.Database) (server : Server) : ProviderResult × Server :=
  if databaseExists env.databaseProbe server database.dbName then
    dropDatabase env.dropDatabase database.dbName
      (revokeDatabasePrivileges env.revoke database.dbName database.dbUser server).2
  else (⟨true, [], []⟩, server)

/-- The user goes, if it is there and the count is small. -/
def droppingUser (env : DropEnvironment) (grants : List Bytes) (database : Storage.Database) (exists_ : Bool)
    (server : Server) : Server :=
  if exists_ then
    match userSchemaGrantCount env.grantCount grants server database.dbUser with
    | some output => if lastGrant output then (dropUser env.dropUser database.dbUser server).2 else server
    | none => server
  else server

/-- The part of `dropManagedDatabase` behind the checks. -/
def dropping (env : DropEnvironment) (grants : List Bytes) (database : Storage.Database) (world : World) : Result × World :=
  let databaseThere := databaseExists env.databaseProbe world.server database.dbName
  let userThere := userExists env.userProbe world.server database.dbUser
  let (answer, server) := droppingDatabase env database world.server
  if !answer.success then
    (lifecycleFailure "Compensating changes" answer.code (bytes "Physical database drop failed") true,
      { world with server })
  else
    let server := droppingUser env grants database userThere server
    let world := { world with databases := world.databases.eraseP (·.id = database.id), server }
    if env.persist then
      (⟨true, if databaseThere then bytes "dropped" else bytes "already_absent_metadata_removed",
        bytes "Managed database dropped", "Completed", false⟩, world)
    else
      (lifecycleFailure "Persisting metadata" (bytes "metadata_persist_failed")
        (bytes "Metadata removal failed after physical drop") true, world)

/-- `dropManagedDatabase`, with the databases of the grant table. -/
def dropManagedDatabase (env : DropEnvironment) (grants : List Bytes) (request : DropRequest) (world : World) :
    Result × World :=
  match resolveTarget env.toEnvironment request.siteId request.databaseId world with
  | .error result => (result, world)
  | .ok database =>
      let domain := ((world.sites.find? (·.id = request.siteId)).map (·.domain)).getD []
      if domain ≠ request.expectedDomain ∨ database.dbName ≠ request.expectedDatabaseName then
        (lifecycleFailure "Validating ownership" (bytes "target_relation_changed")
          (bytes "Database target changed after the drop request was created") false, world)
      else if !databaseDropConfirmationValid request.confirmation database.dbName domain then
        (lifecycleFailure "Validating ownership" (bytes "confirmation_mismatch")
          (bytes "Confirmation must match the database name or site domain") false, world)
      else if env.runtime ≠ bytes "Running" then
        (lifecycleFailure "Checking MariaDB runtime" (bytes "runtime_unavailable")
          (bytes "MariaDB runtime is not running") false, world)
      else if env.serviceAccount.limit.isSome then
        (lifecycleFailure "Preparing secure credentials" env.serviceAccount.code
          (bytes "MariaDB service account verification failed") false, world)
      else dropping env grants database world

/-! ## The first digit of a count -/

theorem decimal_head_of_le {n : Nat} (h : 10 ≤ n) : (decimal n).head? = (decimal (n / 10)).head? := by
  rw [decimal, Nat.toDigits_of_base_le (by decide) h, List.map_append, List.head?_append]
  cases hHead : ((Nat.toDigits 10 (n / 10)).map ascii).head? with
  | none => exact absurd (List.head?_eq_none_iff.mp hHead) (decimal_ne_nil _)
  | some c => exact hHead.symm

theorem decimal_of_lt {n : Nat} (h : n < 10) : (decimal n).head? = some (ascii n.digitChar) := by
  rw [decimal, Nat.toDigits_of_lt_base h]
  rfl

/-- A number starts with a one if it is between a power of ten and its double. -/
theorem decimal_head_one_iff (n : Nat) :
    (decimal n).head? = some (ascii '1') ↔ ∃ k, 10 ^ k ≤ n ∧ n < 2 * 10 ^ k := by
  induction n using Nat.strong_induction_on with
  | _ n ih =>
    by_cases hSmall : n < 10
    · rw [decimal_of_lt hSmall]
      have hDigit : ∀ n < 10, some (ascii n.digitChar) = some (ascii '1') ↔ n = 1 := by decide
      rw [hDigit n hSmall]
      constructor
      · rintro rfl
        exact ⟨0, by decide⟩
      · rintro ⟨k, hLow, hHigh⟩
        cases k with
        | zero => omega
        | succ k =>
            have hPos : 0 < 10 ^ k := Nat.pow_pos (by decide)
            rw [pow_succ] at hLow
            omega
    · rw [decimal_head_of_le (by omega), ih (n / 10) (by omega)]
      constructor
      · rintro ⟨k, hLow, hHigh⟩
        refine ⟨k + 1, ?_, ?_⟩
        · rw [pow_succ]
          omega
        · rw [pow_succ]
          omega
      · rintro ⟨k, hLow, hHigh⟩
        cases k with
        | zero => omega
        | succ k =>
            rw [pow_succ] at hLow hHigh
            exact ⟨k, by omega, by omega⟩

theorem decimal_head_zero_iff (n : Nat) : (decimal n).head? = some (ascii '0') ↔ n = 0 := by
  induction n using Nat.strong_induction_on with
  | _ n ih =>
    by_cases hSmall : n < 10
    · rw [decimal_of_lt hSmall]
      have hDigit : ∀ n < 10, some (ascii n.digitChar) = some (ascii '0') ↔ n = 0 := by decide
      exact hDigit n hSmall
    · rw [decimal_head_of_le (by omega), ih (n / 10) (by omega)]
      omega

/-- The test of the first byte lets nothing through, or a count that starts with a one. -/
theorem lastGrant_count_iff (count : Nat) :
    lastGrant (decimal count ++ [newline]) = true ↔ count = 0 ∨ ∃ k, 10 ^ k ≤ count ∧ count < 2 * 10 ^ k := by
  have hHead : (decimal count ++ [newline]).head? = (decimal count).head? := by
    rw [List.head?_append]
    cases hSome : (decimal count).head? with
    | none => exact absurd (List.head?_eq_none_iff.mp hSome) (decimal_ne_nil _)
    | some c => rfl
  rw [lastGrant, hHead]
  simp [decimal_head_one_iff, decimal_head_zero_iff]

/-! ## When the user goes -/

/-- A drop that comes to the question about the user, and whose answer is carried out. -/
structure AsksForUser (env : DropEnvironment) (request : DropRequest) (world : World) (database : Storage.Database) :
    Prop where
  resolved : resolveTarget env.toEnvironment request.siteId request.databaseId world = .ok database
  domain : ((world.sites.find? (·.id = request.siteId)).map (·.domain)).getD [] = request.expectedDomain
  name : database.dbName = request.expectedDatabaseName
  confirmed : databaseDropConfirmationValid request.confirmation database.dbName request.expectedDomain = true
  runs : env.runtime = bytes "Running"
  account : env.serviceAccount.limit = none
  dropped : databaseExists env.databaseProbe world.server database.dbName = true → env.dropDatabase.limit = none
  found : userExists env.userProbe world.server database.dbUser = true
  counted : env.grantCount.limit = none
  sent : env.dropUser.limit ≠ some 0

/-- The databases beside its own on which the user has privileges. -/
def otherGrants (databases : List Bytes) (server : Server) (database : Storage.Database) : List Bytes :=
  (grantedOn databases server database.dbUser).filter (· ≠ database.dbName)

/-- The privileges on the database itself are gone when the grants are counted. -/
def Revoked (env : DropEnvironment) (server : Server) (database : Storage.Database) : Prop :=
  databaseExists env.databaseProbe server database.dbName = true ∧ env.revoke.limit ≠ some 0

instance (env : DropEnvironment) (server : Server) (database : Storage.Database) : Decidable (Revoked env server database) :=
  inferInstanceAs (Decidable (_ ∧ _))

/-- What is counted: the other databases, and the own one where its grant is still there. -/
def countedGrants (env : DropEnvironment) (databases : List Bytes) (server : Server) (database : Storage.Database) : Nat :=
  (otherGrants databases server database).length +
    if server.grants database.dbUser database.dbName ≠ [] ∧ ¬ Revoked env server database then 1 else 0

/-- The user of the database is gone. -/
def UserDropped (env : DropEnvironment) (databases : List Bytes) (request : DropRequest) (world : World)
    (database : Storage.Database) : Prop :=
  resolveTarget env.toEnvironment request.siteId request.databaseId world = .ok database ∧
    world.server.users database.dbUser ≠ none ∧
    (dropManagedDatabase env databases request world).2.server.users database.dbUser = none

section Statements

variable (call : Call) (database user : Bytes) (server : Server)

theorem grants_revokeDatabasePrivileges (name : Bytes) :
    (revokeDatabasePrivileges call database user server).2.grants user name =
      if name = database ∧ call.limit ≠ some 0 then [] else server.grants user name := by
  rw [revokeDatabasePrivileges, executeSql]
  by_cases hEmpty : server.grants user database = []
  · -- there is nothing to revoke, and the statement fails
    have hFails : (Statement.revokeAll database user).apply server = none := by
      simp [Statement.apply, hEmpty]
    rw [execute_single_fails hFails]
    split
    · next h => rw [h.1, hEmpty]
    · rfl
  · have hUser : server.users user ≠ none := fun hNone => hEmpty (server.granted user database hNone)
    have hApply : (Statement.revokeAll database user).apply server = some (server.setGrant user database [] hUser) := by
      simp [Statement.apply, hUser, hEmpty]
    rw [execute_single hApply]
    by_cases hSent : call.limit = some 0
    · simp [hSent]
    · by_cases hName : name = database
      · simp [hSent, hName]
      · simp [hSent, hName]

theorem users_revokeDatabasePrivileges : (revokeDatabasePrivileges call database user server).2.users = server.users := by
  refine @execute_invariant (fun after => after.users = server.users) _ ?_ call.limit _ rfl
  intro statement hMem before after hBefore hApply
  rw [List.mem_singleton.mp hMem, Statement.apply] at hApply
  split at hApply
  · split at hApply
    · cases hApply
    · cases hApply
      exact hBefore
  · cases hApply

theorem dropDatabase_apply : (Statement.dropDatabaseIfExists database).apply server = some (server.setDatabase database none) :=
  rfl

theorem dropDatabase_frame : (dropDatabase call database server).2.users = server.users ∧
    (dropDatabase call database server).2.grants = server.grants := by
  rw [dropDatabase, executeSql, execute_single (dropDatabase_apply database server)]
  dsimp only
  split
  · exact ⟨rfl, rfl⟩
  · exact ⟨rfl, rfl⟩

theorem dropDatabase_success : (dropDatabase call database server).1.success = call.limit.isNone := by
  rw [dropDatabase, executeSql, execute_single (dropDatabase_apply database server), Call.report]
  cases call.limit
  · rfl
  · rfl

theorem users_dropUser : (dropUser call user server).2.users user = if call.limit = some 0 then server.users user else none := by
  rw [dropUser, executeSql, execute_single (rfl : (Statement.dropUserIfExists user).apply server = some (server.dropUser user))]
  dsimp only
  split
  · rfl
  · simp

end Statements

section Counting

variable (env : DropEnvironment) (database : Storage.Database) (server : Server)

theorem users_droppingDatabase : (droppingDatabase env database server).2.users = server.users := by
  rw [droppingDatabase]
  split
  · rw [(dropDatabase_frame _ _ _).1, users_revokeDatabasePrivileges]
  · rfl

theorem grants_droppingDatabase (name : Bytes) :
    (droppingDatabase env database server).2.grants database.dbUser name =
      if name = database.dbName ∧ Revoked env server database then [] else server.grants database.dbUser name := by
  rw [droppingDatabase]
  by_cases hThere : databaseExists env.databaseProbe server database.dbName = true
  · rw [if_pos hThere, (dropDatabase_frame _ _ _).2, grants_revokeDatabasePrivileges]
    simp only [Revoked, hThere, true_and]
  · rw [if_neg hThere, if_neg fun h => hThere h.2.1]

/-- A list without repetitions has one entry more than its part without a certain entry. -/
theorem length_filter_split {names : List Bytes} (hNodup : names.Nodup) (p : Bytes → Bool) (name : Bytes) :
    (names.filter p).length =
      ((names.filter p).filter (· ≠ name)).length + if name ∈ names ∧ p name = true then 1 else 0 := by
  have hParts := List.length_eq_length_filter_add (l := names.filter p) fun other => decide (other ≠ name)
  have hSame : ((names.filter p).filter fun other => !decide (other ≠ name)) = (names.filter p).filter (· = name) := by
    apply List.filter_congr
    intro other _
    simp
  have hCount : ((names.filter p).filter (· = name)).length = if name ∈ names ∧ p name = true then 1 else 0 := by
    rw [List.filter_eq, List.length_replicate]
    by_cases hMem : name ∈ names ∧ p name = true
    · rw [if_pos hMem]
      exact List.count_eq_one_of_mem (hNodup.filter p) (List.mem_filter.mpr hMem)
    · rw [if_neg hMem]
      exact List.count_eq_zero_of_not_mem fun h => hMem (List.mem_filter.mp h)
  rw [hParts, hSame, hCount]

/-- The count of the server is that of the table at the start, less what was revoked. -/
theorem length_grantedOn (table : GrantTable server) :
    (grantedOn table.databases (droppingDatabase env database server).2 database.dbUser).length =
      countedGrants env table.databases server database := by
  have hOthers : (grantedOn table.databases (droppingDatabase env database server).2 database.dbUser).filter
      (· ≠ database.dbName) = otherGrants table.databases server database := by
    simp only [otherGrants, grantedOn, List.filter_filter]
    apply List.filter_congr
    intro name _
    by_cases hName : name = database.dbName
    · simp [hName]
    · rw [grants_droppingDatabase, if_neg fun h => hName h.1]
  have hOwn : (database.dbName ∈ table.databases ∧
      decide ((droppingDatabase env database server).2.grants database.dbUser database.dbName ≠ []) = true) ↔
        server.grants database.dbUser database.dbName ≠ [] ∧ ¬ Revoked env server database := by
    rw [decide_eq_true_iff, grants_droppingDatabase]
    by_cases hRevoked : Revoked env server database
    · simp [hRevoked]
    · simp only [hRevoked, and_false, if_false, not_false_eq_true, and_true]
      exact ⟨And.right, fun hGrant => ⟨table.complete _ _ hGrant, hGrant⟩⟩
  have hSplit := length_filter_split table.nodup
    (fun name => decide ((droppingDatabase env database server).2.grants database.dbUser name ≠ [])) database.dbName
  rw [countedGrants, ← hOthers]
  simp only [hOwn] at hSplit
  exact hSplit

end Counting

section Outcome

variable (env : DropEnvironment) (database : Storage.Database) {server : Server}

theorem droppingDatabase_success (server : Server) :
    (droppingDatabase env database server).1.success = true ↔
      (databaseExists env.databaseProbe server database.dbName = true → env.dropDatabase.limit = none) := by
  rw [droppingDatabase]
  split
  · next hThere => simp [dropDatabase_success, hThere]
  · next hMissing => simp [hMissing]

theorem droppingUser_none_iff (databases : List Bytes) (userThere : Bool) (hUser : server.users database.dbUser ≠ none) :
    (droppingUser env databases database userThere server).users database.dbUser = none ↔
      userThere = true ∧ env.grantCount.limit = none ∧
        lastGrant (decimal (grantedOn databases server database.dbUser).length ++ [newline]) = true ∧
        env.dropUser.limit ≠ some 0 := by
  unfold droppingUser userSchemaGrantCount
  cases userThere with
  | false => simp [hUser]
  | true =>
      cases hLimit : env.grantCount.limit with
      | some n => simp [hUser]
      | none =>
          by_cases hLast : lastGrant (decimal (grantedOn databases server database.dbUser).length ++ [newline]) = true
          · by_cases hSent : env.dropUser.limit = some 0
            · simp [hLast, users_dropUser, hSent, hUser]
            · simp [hLast, users_dropUser, hSent]
          · simp [hLast, hUser]

theorem dropping_users (databases : List Bytes) (world : World) :
    (dropping env databases database world).2.server.users =
      if (droppingDatabase env database world.server).1.success = true then
        (droppingUser env databases database (userExists env.userProbe world.server database.dbUser)
          (droppingDatabase env database world.server).2).users
      else (droppingDatabase env database world.server).2.users := by
  unfold dropping
  dsimp only
  cases (droppingDatabase env database world.server).1.success with
  | false => rfl
  | true =>
      cases env.persist with
      | false => rfl
      | true => rfl

end Outcome

/-- The user goes where the drop comes to the question and the count is zero or starts with
a one. -/
theorem userDropped_iff (env : DropEnvironment) (request : DropRequest) (world : World) (table : GrantTable world.server)
    (database : Storage.Database) :
    UserDropped env table.databases request world database ↔
      AsksForUser env request world database ∧
        lastGrant (decimal (countedGrants env table.databases world.server database) ++ [newline]) = true := by
  have hDropping (hSome : world.server.users database.dbUser ≠ none) :
      (dropping env table.databases database world).2.server.users database.dbUser = none ↔
        (databaseExists env.databaseProbe world.server database.dbName = true → env.dropDatabase.limit = none) ∧
          userExists env.userProbe world.server database.dbUser = true ∧ env.grantCount.limit = none ∧
          lastGrant (decimal (countedGrants env table.databases world.server database) ++ [newline]) = true ∧
          env.dropUser.limit ≠ some 0 := by
    have hKept : (droppingDatabase env database world.server).2.users database.dbUser ≠ none := by
      rw [users_droppingDatabase]
      exact hSome
    rw [dropping_users, ← droppingDatabase_success env database world.server, ← length_grantedOn]
    split
    · next hSuccess =>
      rw [droppingUser_none_iff env database table.databases _ hKept]
      simp only [hSuccess, true_and]
    · next hFailed =>
      simp only [hFailed, false_and, iff_false, Bool.false_eq_true]
      exact hKept
  constructor
  · rintro ⟨hResolved, hSome, hNone⟩
    simp only [dropManagedDatabase, hResolved] at hNone
    split at hNone
    · exact absurd hNone hSome
    next hTarget =>
    split at hNone
    · exact absurd hNone hSome
    next hConfirmed =>
    split at hNone
    · exact absurd hNone hSome
    next hRuns =>
    split at hNone
    · exact absurd hNone hSome
    next hAccount =>
    obtain ⟨hDomain, hName⟩ := not_or.mp hTarget
    obtain ⟨hDropped, hFound, hCounted, hCount, hSent⟩ := (hDropping hSome).mp hNone
    rw [not_not.mp hDomain] at hConfirmed
    exact ⟨⟨hResolved, not_not.mp hDomain, not_not.mp hName, by simpa using hConfirmed, not_not.mp hRuns,
      by simpa using hAccount, hDropped, hFound, hCounted, hSent⟩, hCount⟩
  · rintro ⟨hAsks, hCount⟩
    have hSome : world.server.users database.dbUser ≠ none := by
      have hFound := hAsks.found
      rw [userExists, Bool.and_eq_true, Option.isSome_iff_ne_none] at hFound
      exact hFound.2
    refine ⟨hAsks.resolved, hSome, ?_⟩
    have hTarget : ¬ (((world.sites.find? (·.id = request.siteId)).map (·.domain)).getD [] ≠ request.expectedDomain ∨
        database.dbName ≠ request.expectedDatabaseName) :=
      not_or.mpr ⟨not_not.mpr hAsks.domain, not_not.mpr hAsks.name⟩
    have hConfirmed := hAsks.confirmed
    rw [← hAsks.domain] at hConfirmed
    simp only [dropManagedDatabase, hAsks.resolved, if_neg hTarget, hConfirmed, hAsks.runs, hAsks.account]
    exact (hDropping hSome).mpr ⟨hAsks.dropped, hAsks.found, hAsks.counted, hCount, hAsks.sent⟩

/-- A user is only dropped with its last database where a drop that asks for it counts
nothing else, or a number whose first digit is not a one. -/
theorem dropManagedDatabase_spares_iff (env : DropEnvironment) (request : DropRequest) (world : World)
    (table : GrantTable world.server) (database : Storage.Database) :
    (UserDropped env table.databases request world database →
      ∀ name, world.server.grants database.dbUser name ≠ [] → name = database.dbName) ↔
    (AsksForUser env request world database → otherGrants table.databases world.server database = [] ∨
      ∀ k, ¬ (10 ^ k ≤ countedGrants env table.databases world.server database ∧
        countedGrants env table.databases world.server database < 2 * 10 ^ k)) := by
  have hOnly : (∀ name, world.server.grants database.dbUser name ≠ [] → name = database.dbName) ↔
      otherGrants table.databases world.server database = [] := by
    rw [otherGrants, List.filter_eq_nil_iff]
    constructor
    · intro hOnly name hMem
      have hGrant := (List.mem_filter.mp hMem).2
      simpa using hOnly name (by simpa using hGrant)
    · intro hNone name hGrant
      have hMem : name ∈ grantedOn table.databases world.server database.dbUser :=
        List.mem_filter.mpr ⟨table.complete _ _ hGrant, by simpa using hGrant⟩
      simpa using hNone name hMem
  rw [userDropped_iff, lastGrant_count_iff, hOnly]
  constructor
  · intro hSpares hAsks
    by_contra hOthers
    obtain ⟨hOthers, hDigit⟩ := not_or.mp hOthers
    obtain ⟨k, hk⟩ := not_forall.mp hDigit
    exact hOthers (hSpares ⟨hAsks, .inr ⟨k, not_not.mp hk⟩⟩)
  · rintro hSafe ⟨hAsks, hZero | ⟨k, hk⟩⟩
    · rw [countedGrants] at hZero
      exact List.eq_nil_of_length_eq_zero (by omega)
    · exact (hSafe hAsks).resolve_right fun hDigit => hDigit k hk

/-! A user with privileges on other databases than its own. -/

def sharedServer (others : List Bytes) : Server where
  databases name := if name = bytes "app" then some [] else none
  users user := if user = bytes "app" then some ⟨bytes "old", 1⟩ else none
  grants user database := if user = bytes "app" ∧ database ∈ bytes "app" :: others then [managedDatabasePrivileges] else []
  granted user database hNone := by
    rw [if_neg]
    rintro ⟨rfl, -⟩
    rw [if_pos rfl] at hNone
    cases hNone

def sharedWorld (others : List Bytes) : World where
  sites := [{ id := 1, domain := bytes "example.org" }]
  databases := [{ id := 1, siteId := 1, dbName := bytes "app", dbUser := bytes "app", dbPassword := bytes "old" }]
  server := sharedServer others

def workingDrop : DropEnvironment where
  envFile := bytes "CONTAINERCP_DB_SERVICE_USER=s\nCONTAINERCP_DB_SERVICE_PASSWORD=t\n"
  runtime := bytes "Running"

def dropSample : DropRequest := ⟨1, 1, bytes "app", bytes "example.org", bytes "app"⟩

def tenOthers : List Bytes := (List.range 10).map fun i => bytes "blog" ++ decimal i

/-- The user is dropped although it has one other database, or ten. -/
theorem shared_user_dropped :
    ((sharedWorld [bytes "blog"]).server.users (bytes "app") ≠ none ∧
      (dropManagedDatabase workingDrop [bytes "app", bytes "blog"] dropSample
        (sharedWorld [bytes "blog"])).2.server.users (bytes "app") = none ∧
      (sharedWorld [bytes "blog"]).server.grants (bytes "app") (bytes "blog") ≠ []) ∧
    (dropManagedDatabase workingDrop (bytes "app" :: tenOthers) dropSample (sharedWorld tenOthers)).2.server.users
        (bytes "app") = none ∧
      ∀ name ∈ tenOthers, (sharedWorld tenOthers).server.grants (bytes "app") name ≠ [] := by
  decide

end ContainerCP.DatabaseLifecycle
