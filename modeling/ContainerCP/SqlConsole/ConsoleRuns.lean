import ContainerCP.SqlConsole.ConsoleService
import ContainerCP.SqlConsole.SessionRuns

/-! Runs of the console service across restarts of its process, and what a
successful recovery says about the temporary users that are left. -/
namespace ContainerCP.SqlConsole

/-! ## Steps and runs -/

inductive Step where
  | createLaunch (env : Environment) (request : SqlConsoleCreateRequest)
  | launch (env : Environment) (request : SqlConsoleCreateRequest) (databaseName : Bytes)
  | launchSite (env : Environment) (siteEnv : Option Bytes) (request : SqlConsoleCreateRequest) (databaseName : Bytes)
  | redeem (env : Environment) (launchId launchSecret : Bytes)
  | authorize (env : Environment) (launchId launchSecret : Bytes)
  | touch (env : Environment) (launchId launchSecret : Bytes)
  | redeemInternal (env : Environment) (launchId launchSecret : Bytes)
  | redeemInternalFor (env : Environment) (launchId launchSecret : Bytes) (databaseId : UInt64)
  | revoke (env : Environment) (launchId : Bytes)
  | revokeTemporary (env : Environment) (launchId : Bytes)
  | revokeSite (env : Environment) (siteEnv : Option Bytes) (launchId : Bytes)
  | sweep (env : Environment)
  | list (env : Environment) (databaseId : UInt64)
  | restart (policy : SqlConsoleSessionPolicy)
  | recover (env : RecoveryEnvironment)

def Console.step (console : Console) (service : Service) : Step → Console
  | .createLaunch env request => (console.createLaunchSession service env request).2
  | .launch env request databaseName => (console.createTemporaryLaunchSession service env request databaseName).2
  | .launchSite env siteEnv request databaseName =>
      (console.createSiteTemporaryLaunchSession service env siteEnv request databaseName).2
  | .redeem env launchId secret => (console.redeemLaunchSession service env launchId secret).2
  | .authorize env launchId secret => (console.authorizeLaunchSession service env launchId secret).2
  | .touch env launchId secret => (console.touchLaunchSession service env launchId secret).2
  | .redeemInternal env launchId secret => (console.redeemInternalLaunchSession service env launchId secret).2
  | .redeemInternalFor env launchId secret databaseId =>
      (console.redeemInternalLaunchSessionFor service env launchId secret databaseId).2
  | .revoke env launchId => (console.revokeLaunchSession service env launchId).2
  | .revokeTemporary env launchId => (console.revokeTemporaryLaunchSession service env launchId).2
  | .revokeSite env siteEnv launchId => (console.revokeSiteTemporaryLaunchSession service env siteEnv launchId).2
  | .sweep env => (console.sweepExpiredSessions service env).2
  | .list env databaseId => (console.listSessions env databaseId).2
  | .restart policy => { console with manager := .new policy }
  | .recover env => (console.recoverPersistedSessions service env).2

def Console.run (console : Console) (service : Service) (steps : List Step) : Console :=
  steps.foldl (fun console step => console.step service step) console

/-- A service with a provider and a store. -/
def Service.full : Service := ⟨true, true⟩

/-- A process over whatever file an earlier installation left, before any user was
created. -/
def Console.start (policy : SqlConsoleSessionPolicy) (file : Option Bytes) : Console where
  manager := .new policy
  file := file

/-- A user stands in a record that a recovery would try to clean. -/
def Recorded (records : List SqlConsoleSession) (user : Bytes) : Prop :=
  ∃ record ∈ records, recoverable record = true ∧ record.temporaryUserName = user

instance (records : List SqlConsoleSession) (user : Bytes) : Decidable (Recorded records user) :=
  inferInstanceAs (Decidable (∃ record ∈ records, _))

/-- A recovery that reports success leaves no user behind: each one that is still
there stands in the store for a later recovery. -/
def RecoveryComplete (service : Service) (console : Console) (env : RecoveryEnvironment) : Prop :=
  (console.recoverPersistedSessions service env).1.success = true →
    ∀ user ∈ (console.recoverPersistedSessions service env).2.users,
      Recorded (loadStore (console.recoverPersistedSessions service env).2.file) user

instance (service : Service) (console : Console) (env : RecoveryEnvironment) :
    Decidable (RecoveryComplete service console env) :=
  inferInstanceAs (Decidable (_ → ∀ user ∈ _, _))

/-! ## The condition on a step -/

/-- Every user in effect is held by an active session of this process. -/
def Console.Held (console : Console) : Prop := ∀ user ∈ console.users, Recorded console.manager.listInternal user

/-- The file that replaces the store is complete. -/
def SaveVerdict.NotCut (save : SaveVerdict) : Prop := ∀ size, save ≠ .truncated size

/-- A session with a user in effect is not past a deadline at this reading of the
clock. -/
def Console.Unexpired (console : Console) (launchId : Bytes) (now : Time) : Prop :=
  ∀ session, console.manager.sessions.lookup launchId = some session →
    session.temporaryUserName ∈ console.users → expired session now = false

/-- A launch that creates a user also gets to the record of it, or drops the user
again. -/
def Console.LaunchCareful (console : Console) (env : Environment) : Prop :=
  env.createUser.success = true →
    env.save = .replaced ∧ (env.grant.success = true ∨ env.dropAgain.success = true) ∧
      (env.drop.success = true ∨ env.password ≠ some [] ∧
        ¬(env.around 0).clock 0 + seconds console.manager.policy.absoluteTtl ≤ (env.around 1).clock 0)

/-- The condition on a step. A step that writes the store does so only while each
user in effect belongs to an active session of the process, it ends no such session
without dropping its user, and the store gets a complete file. -/
def Console.Careful (console : Console) : Step → Prop
  | .createLaunch env _ => console.Held ∧ env.save.NotCut
  | .launch env _ _ => console.Held ∧ env.save.NotCut ∧ console.LaunchCareful env
  | .launchSite env _ _ _ => console.Held ∧ env.save.NotCut ∧ console.LaunchCareful env
  | .redeem env launchId _ => console.Held ∧ env.save.NotCut ∧ console.Unexpired launchId ((env.around 0).clock 0)
  | .authorize env launchId _ => console.Held ∧ env.save.NotCut ∧ console.Unexpired launchId ((env.around 0).clock 0)
  | .touch env launchId _ => console.Held ∧ env.save.NotCut ∧ console.Unexpired launchId ((env.around 0).clock 0)
  | .redeemInternal env launchId _ =>
      console.Held ∧ env.save.NotCut ∧ console.Unexpired launchId ((env.around 0).clock 0)
  | .redeemInternalFor env launchId _ _ =>
      console.Held ∧ env.save.NotCut ∧ console.Unexpired launchId ((env.around 0).clock 0) ∧
        console.Unexpired launchId ((env.around 1).clock 0)
  | .revoke env launchId =>
      console.Held ∧ env.save.NotCut ∧
        ∀ session, console.manager.sessions.lookup launchId = some session →
          session.temporaryUserName ∉ console.users
  | .revokeTemporary env _ => console.Held ∧ env.save.NotCut
  | .revokeSite env _ _ => console.Held ∧ env.save.NotCut
  | .sweep env => console.Held ∧ env.save.NotCut ∧ ∀ launchId, console.Unexpired launchId ((env.around 0).clock 0)
  | .list _ _ => True
  | .restart _ => True
  | .recover env => env.save.NotCut

def Console.AllCareful (service : Service) : Console → List Step → Prop
  | _, [] => True
  | console, step :: rest => console.Careful step ∧ (console.step service step).AllCareful service rest

/-! ## The store records every user -/

/-- Every user in effect stands in the store for a recovery. -/
def Console.Covered (console : Console) : Prop := ∀ user ∈ console.users, Recorded (loadStore console.file) user

@[simp]
theorem recoverable_persisted (session : SqlConsoleSession) : recoverable (persisted session) = recoverable session :=
  rfl

theorem recorded_map_persisted {sessions : List SqlConsoleSession} {user : Bytes} (h : Recorded sessions user) :
    Recorded (sessions.map persisted) user := by
  obtain ⟨session, hMem, hRecoverable, rfl⟩ := h
  exact ⟨persisted session, List.mem_map_of_mem hMem, hRecoverable, rfl⟩

/-- A save that is not cut short keeps a user recorded that stands in both the new
and the old text. -/
theorem recorded_write {save : SaveVerdict} (hSave : save.NotCut) {sessions : List SqlConsoleSession}
    {file : Option Bytes} {user : Bytes} (hNew : Recorded sessions user)
    (hOld : save = .refused → Recorded (loadStore file) user) :
    Recorded (loadStore (save.write (storeText sessions) file)) user := by
  cases save with
  | replaced =>
      rw [SaveVerdict.write, loadStore_storeText]
      exact recorded_map_persisted hNew
  | refused => exact hOld rfl
  | truncated size => exact absurd rfl (hSave size)

theorem covered_persistSessions {service : Service} {console : Console} {env : Environment} (hStore : service.hasStore = true)
    (hSave : env.save.NotCut) (hHeld : console.Held) (hCovered : env.save = .refused → console.Covered) :
    (console.persistSessions service env).Covered := by
  intro user hUser
  rw [Console.persistSessions, if_pos hStore] at hUser ⊢
  exact recorded_write hSave (hHeld user hUser) fun hRefused => hCovered hRefused user hUser

/-! ## Sessions that keep their user -/

/-- A recoverable session stays one, with its user. -/
def KeepsUser (before after : SqlConsoleSession) : Prop :=
  recoverable before = true → recoverable after = true ∧ after.temporaryUserName = before.temporaryUserName

theorem KeepsUser.refl (session : SqlConsoleSession) : KeepsUser session session := fun h => ⟨h, rfl⟩

/-- Only the names and the state make a session recoverable. -/
theorem KeepsUser.of_names {before after : SqlConsoleSession}
    (hUser : after.temporaryUserName = before.temporaryUserName) (hDatabase : after.databaseName = before.databaseName)
    (hStatus : ¬after.status.Terminal) : KeepsUser before after := by
  intro h
  refine ⟨?_, hUser⟩
  simp only [recoverable, Bool.and_eq_true, Bool.not_eq_true', Bool.or_eq_false_iff, decide_eq_false_iff_not] at h ⊢
  refine ⟨⟨hUser ▸ h.1.1, hDatabase ▸ h.1.2⟩, ?_, ?_⟩
  · exact fun hRevoked => hStatus (.inr hRevoked)
  · exact fun hExpired => hStatus (.inl hExpired)

theorem expireIfNeeded_of_not_expired {session : SqlConsoleSession} {now : Time} (h : expired session now = false) :
    expireIfNeeded session now = session := by
  rw [expireIfNeeded, h]
  rfl

section Sessions

variable (policy : SqlConsoleSessionPolicy) (around : Surroundings) {session : SqlConsoleSession}

theorem keepsUser_authorizeSession (launchSecret : Bytes) (h : expired session (around.clock 0) = false) :
    KeepsUser session (authorizeSession policy around launchSecret session).2 := by
  simp only [authorizeSession, expireIfNeeded_of_not_expired h]
  split
  · exact KeepsUser.refl _
  split
  · exact KeepsUser.refl _
  split
  · exact KeepsUser.refl _
  split
  · next hExpired hRevoked _ _ => exact KeepsUser.of_names rfl rfl fun h => h.elim hExpired hRevoked
  · exact KeepsUser.refl _

theorem keepsUser_redeemSession (launchSecret : Bytes) (h : expired session (around.clock 0) = false) :
    KeepsUser session (redeemSession policy around launchSecret session).2 := by
  simp only [redeemSession, expireIfNeeded_of_not_expired h]
  split
  · exact KeepsUser.refl _
  split
  · exact KeepsUser.refl _
  split
  · exact KeepsUser.refl _
  split
  · exact KeepsUser.refl _
  · exact KeepsUser.of_names rfl rfl fun h => h.elim SqlConsoleSessionStatus.noConfusion SqlConsoleSessionStatus.noConfusion

theorem keepsUser_touchSession (launchSecret : Bytes) (h : expired session (around.clock 0) = false) :
    KeepsUser session (touchSession policy around launchSecret session).2 := by
  simp only [touchSession, expireIfNeeded_of_not_expired h]
  split
  · exact KeepsUser.refl _
  split
  · exact KeepsUser.refl _
  split
  · exact KeepsUser.refl _
  split
  · exact KeepsUser.refl _
  · next hExpired hRevoked _ _ => exact KeepsUser.of_names rfl rfl fun h => h.elim hExpired hRevoked

end Sessions

/-- The sessions whose user is among `users` keep it. -/
def KeepsUsers (users : List Bytes) (before after : SqlConsoleSessionManager) : Prop :=
  ∀ launchId session, before.sessions.lookup launchId = some session → recoverable session = true →
    session.temporaryUserName ∈ users →
    ∃ session', after.sessions.lookup launchId = some session' ∧ recoverable session' = true ∧
      session'.temporaryUserName = session.temporaryUserName

theorem KeepsUsers.refl (users : List Bytes) (manager : SqlConsoleSessionManager) : KeepsUsers users manager manager :=
  fun _ session hFound hRecoverable _ => ⟨session, hFound, hRecoverable, rfl⟩

theorem KeepsUsers.trans {users : List Bytes} {first second third : SqlConsoleSessionManager}
    (h : KeepsUsers users first second) (h' : KeepsUsers users second third) : KeepsUsers users first third := by
  intro launchId session hFound hRecoverable hUser
  obtain ⟨middle, hMiddle, hKeep, hName⟩ := h launchId session hFound hRecoverable hUser
  obtain ⟨last, hLast, hKeep', hName'⟩ := h' launchId middle hMiddle hKeep (hName ▸ hUser)
  exact ⟨last, hLast, hKeep', hName'.trans hName⟩

/-- The users that were held stay held. -/
theorem held_of_keepsUsers {console console' : Console} (hHeld : console.Held)
    (hUsers : ∀ user ∈ console'.users, user ∈ console.users)
    (hKeeps : KeepsUsers console'.users console.manager console'.manager) : console'.Held := by
  intro user hUser
  obtain ⟨session, hMem, hRecoverable, rfl⟩ := hHeld user (hUsers user hUser)
  obtain ⟨launchId, hFound⟩ := Table.mem_values.mp hMem
  obtain ⟨session', hFound', hKeep, hName⟩ := hKeeps launchId session hFound hRecoverable hUser
  exact ⟨session', Table.mem_values.mpr ⟨launchId, hFound'⟩, hKeep, hName⟩

theorem keepsUsers_insert {users : List Bytes} {manager : SqlConsoleSessionManager} {launchId : Bytes}
    {session : SqlConsoleSession}
    (h : ∀ found, manager.sessions.lookup launchId = some found → found.temporaryUserName ∈ users →
      KeepsUser found session) :
    KeepsUsers users manager { manager with sessions := manager.sessions.insert launchId session } := by
  intro other found hFound hRecoverable hUser
  by_cases hSame : other = launchId
  · subst hSame
    obtain ⟨hKeep, hName⟩ := h found hFound hUser hRecoverable
    exact ⟨session, AList.lookup_insert _, hKeep, hName⟩
  · exact ⟨found, (AList.lookup_insert_ne hSame).trans hFound, hRecoverable, rfl⟩

theorem keepsUsers_onSession {users : List Bytes} {manager : SqlConsoleSessionManager} {launchId : Bytes}
    {operation : SqlConsoleSession → SqlConsoleOperationResult × SqlConsoleSession}
    (h : ∀ session, manager.sessions.lookup launchId = some session → session.temporaryUserName ∈ users →
      KeepsUser session (operation session).2) :
    KeepsUsers users manager (manager.onSession launchId operation).2 := by
  rw [SqlConsoleSessionManager.onSession]
  split
  · exact KeepsUsers.refl users manager
  · next session hFound =>
    apply keepsUsers_insert
    intro found hFound' hUser
    cases hFound.symm.trans hFound'
    exact h session hFound hUser

theorem keepsUsers_find {users : List Bytes} {manager : SqlConsoleSessionManager} {launchId : Bytes}
    {around : Surroundings}
    (h : ∀ session, manager.sessions.lookup launchId = some session → session.temporaryUserName ∈ users →
      expired session (around.clock 0) = false) :
    KeepsUsers users manager (manager.find around launchId).2 := by
  rw [SqlConsoleSessionManager.find]
  split
  · exact KeepsUsers.refl users manager
  · next session hFound =>
    apply keepsUsers_insert
    intro found hFound' hUser
    cases hFound.symm.trans hFound'
    rw [expireIfNeeded_of_not_expired (h session hFound hUser)]
    exact KeepsUser.refl session

/-- A look at a session leaves its names. -/
theorem find_names {manager : SqlConsoleSessionManager} {around : Surroundings} {launchId : Bytes}
    {session : SqlConsoleSession} (h : (manager.find around launchId).1 = some session) :
    ∃ found, manager.sessions.lookup launchId = some found ∧
      found.temporaryUserName = session.temporaryUserName ∧ found.databaseName = session.databaseName := by
  rw [SqlConsoleSessionManager.find] at h
  split at h
  · cases h
  · next found hFound =>
    cases h
    refine ⟨found, hFound, ?_⟩
    rw [expireIfNeeded]
    split <;> exact ⟨rfl, rfl⟩

/-- What `create` does when it succeeds: a session without a user under an id that
was not in use. -/
theorem create_success {manager : SqlConsoleSessionManager} {around : Surroundings} {request : SqlConsoleCreateRequest}
    (h : (manager.create around request).1.success = true) :
    ∃ session, session = newSession manager.policy request (manager.create around request).1.launchId
        session.secretDigest (around.clock 0) ∧
      (manager.create around request).1.launchId ∉ manager.sessions ∧
      (manager.create around request).2 =
        { manager with sessions := manager.sessions.insert (manager.create around request).1.launchId session } := by
  rw [SqlConsoleSessionManager.create] at h ⊢
  split at h
  · next hValid =>
    rw [if_pos hValid]
    split at h
    · next launchId launchSecret hPicked hSecret =>
      dsimp only at h ⊢
      split at h
      · exact absurd h Bool.false_ne_true
      · next hDigest =>
        simp only [hDigest, if_false]
        exact ⟨_, rfl, pickLaunchId_notMem hPicked, rfl⟩
    · exact absurd h Bool.false_ne_true
  · exact absurd h Bool.false_ne_true

theorem create_failure {manager : SqlConsoleSessionManager} {around : Surroundings} {request : SqlConsoleCreateRequest}
    (h : (manager.create around request).1.success = false) : (manager.create around request).2 = manager := by
  rw [SqlConsoleSessionManager.create] at h ⊢
  split
  · next hValid =>
    rw [if_pos hValid] at h
    split
    · next hPicked hSecret =>
      dsimp only at h ⊢
      split
      · rfl
      · next hDigest =>
        simp [hPicked, hSecret, hDigest] at h
    · rfl
  · rfl

theorem keepsUsers_create (users : List Bytes) (manager : SqlConsoleSessionManager) (around : Surroundings)
    (request : SqlConsoleCreateRequest) : KeepsUsers users manager (manager.create around request).2 := by
  cases hSuccess : (manager.create around request).1.success with
  | false =>
      rw [create_failure hSuccess]
      exact KeepsUsers.refl users manager
  | true =>
      obtain ⟨session, -, hFresh, hManager⟩ := create_success hSuccess
      rw [hManager]
      apply keepsUsers_insert
      intro found hFound
      exact absurd (AList.lookup_isSome.mp (by simp [hFound])) hFresh

theorem keepsUsers_sweepExpired {users : List Bytes} {manager : SqlConsoleSessionManager} {around : Surroundings}
    (h : ∀ launchId session, manager.sessions.lookup launchId = some session → session.temporaryUserName ∈ users →
      expired session (around.clock 0) = false) :
    KeepsUsers users manager (manager.sweepExpired around).2 := by
  intro launchId session hFound hRecoverable hUser
  refine ⟨session, ?_, hRecoverable, rfl⟩
  simp [SqlConsoleSessionManager.sweepExpired, hFound,
    expireIfNeeded_of_not_expired (h launchId session hFound hUser)]

/-- A session without a user in effect may end. -/
theorem keepsUsers_revoke {users : List Bytes} {manager : SqlConsoleSessionManager} {launchId : Bytes}
    {around : Surroundings}
    (h : ∀ session, manager.sessions.lookup launchId = some session → recoverable session = true →
      session.temporaryUserName ∉ users) :
    KeepsUsers users manager (manager.revoke around launchId).2 := by
  apply keepsUsers_onSession
  intro session hFound hUser hRecoverable
  exact absurd hUser (h session hFound hRecoverable)

/-! ## One step -/

theorem covered_of_subset {console console' : Console} (h : console.Covered) (hFile : console'.file = console.file)
    (hUsers : ∀ user ∈ console'.users, user ∈ console.users) : console'.Covered := by
  intro user hUser
  rw [hFile]
  exact h user (hUsers user hUser)

/-- An operation of the manager that keeps the users, and the save behind it. -/
theorem covered_thenPersist {service : Service} {console : Console} {env : Environment} {α : Type} (done : α × SqlConsoleSessionManager)
    (hStore : service.hasStore = true) (hSave : env.save.NotCut) (hHeld : console.Held) (hCovered : console.Covered)
    (hKeeps : KeepsUsers console.users console.manager done.2) : (console.thenPersist service env done).2.Covered := by
  show ({ console with manager := done.2 }.persistSessions service env).Covered
  refine covered_persistSessions ?_ hSave ?_ ?_
  · exact hStore
  · exact held_of_keepsUsers hHeld (fun _ h => h) hKeeps
  · exact fun _ => hCovered

theorem covered_abandonLaunch {service : Service} {console : Console} {env : Environment} {index : Nat} {created : SqlConsoleCreateResult}
    {code message : String} (hStore : service.hasStore = true) (hSave : env.save.NotCut) (hHeld : console.Held)
    (hCovered : console.Covered)
    (hBare : ∀ session, console.manager.sessions.lookup created.launchId = some session → recoverable session = false) :
    (console.abandonLaunch service env index created code message).2.Covered := by
  apply covered_thenPersist (console.manager.revoke (env.around index) created.launchId) hStore hSave hHeld hCovered
  apply keepsUsers_revoke
  intro session hFound hRecoverable
  rw [hBare session hFound] at hRecoverable
  cases hRecoverable

theorem recoverable_of_no_user {session : SqlConsoleSession} (h : session.temporaryUserName = []) :
    recoverable session = false := by
  simp [recoverable, h]

theorem attachSession_failure {around : Surroundings} {databaseName userName password : Bytes}
    {session : SqlConsoleSession} (hBare : session.temporaryUserName = [])
    (h : (attachTemporaryDatabaseUserSession around databaseName userName password session).1.success = false) :
    (attachTemporaryDatabaseUserSession around databaseName userName password session).2.temporaryUserName = [] := by
  have hSeen : (expireIfNeeded session (around.clock 0)).temporaryUserName = [] := by
    rw [expireIfNeeded]
    split <;> exact hBare
  simp only [attachTemporaryDatabaseUserSession] at h ⊢
  split at h
  · next hStatus => rwa [if_pos hStatus]
  · next hStatus =>
    rw [if_neg hStatus]
    split at h
    · next hEmpty => rwa [if_pos hEmpty]
    · cases h

theorem attachSession_success {around : Surroundings} {databaseName userName password : Bytes}
    {session : SqlConsoleSession}
    (h : (attachTemporaryDatabaseUserSession around databaseName userName password session).1.success = true) :
    recoverable (attachTemporaryDatabaseUserSession around databaseName userName password session).2 = true ∧
      (attachTemporaryDatabaseUserSession around databaseName userName password session).2.temporaryUserName =
        userName := by
  simp only [attachTemporaryDatabaseUserSession] at h ⊢
  split at h
  · cases h
  · next hStatus =>
    rw [if_neg hStatus]
    split at h
    · cases h
    · next hNames =>
      rw [if_neg hNames]
      simp only [ne_eq, not_not] at hStatus
      simp only [not_or] at hNames
      refine ⟨?_, rfl⟩
      simp [recoverable, hStatus, hNames]

/-- A fresh session takes its user unless the clock has run past its deadline. -/
theorem attachSession_of_fresh {policy : SqlConsoleSessionPolicy} {request : SqlConsoleCreateRequest}
    {launchId digest databaseName userName password : Bytes} {now : Time} {around : Surroundings}
    (hDatabase : databaseName ≠ []) (hUser : userName ≠ []) (hPassword : password ≠ [])
    (hClock : ¬now + seconds policy.absoluteTtl ≤ around.clock 0) :
    (attachTemporaryDatabaseUserSession around databaseName userName password
      (newSession policy request launchId digest now)).1.success = true := by
  have hNotExpired : expired (newSession policy request launchId digest now) (around.clock 0) = false := by
    simp [expired, newSession, hClock]
  simp only [attachTemporaryDatabaseUserSession, expireIfNeeded_of_not_expired hNotExpired]
  rw [if_neg (by simp [newSession]), if_neg (by simp [hDatabase, hUser, hPassword])]
  rfl

theorem dropUser_subset {userName user : Bytes} {result : DatabaseProviderResult} {users : List Bytes}
    (h : user ∈ dropUser userName result users) : user ∈ users := by
  rw [dropUser] at h
  split at h
  · exact List.mem_of_mem_filter h
  · exact h

theorem ne_of_mem_dropUser {userName user : Bytes} {result : DatabaseProviderResult} {users : List Bytes}
    (hDrop : result.success = true) (h : user ∈ dropUser userName result users) : user ≠ userName := by
  rw [dropUser, if_pos hDrop] at h
  simpa using List.of_mem_filter h

theorem mem_of_mem_dropUser_cons {userName user : Bytes} {result : DatabaseProviderResult} {users : List Bytes}
    (hDrop : result.success = true) (h : user ∈ dropUser userName result (userName :: users)) : user ∈ users := by
  rcases List.mem_cons.mp (dropUser_subset h) with rfl | hOld
  · exact absurd rfl (ne_of_mem_dropUser hDrop h)
  · exact hOld

/-- The users behind a provision that fails, when it leaves no user of its own. -/
theorem provision_failure {env : Environment} {userName user : Bytes} {users : List Bytes}
    (hClean : env.createUser.success = true → env.grant.success = true ∨ env.dropAgain.success = true)
    (hFailed : (createTemporarySqlConsoleUser env userName users).1.success = false)
    (h : user ∈ (createTemporarySqlConsoleUser env userName users).2) : user ∈ users := by
  rw [createTemporarySqlConsoleUser] at hFailed h
  split at h
  · next hCreate =>
    rw [if_pos hCreate] at hFailed
    split at h
    · next hGrant =>
      rw [if_pos hGrant] at hFailed
      cases hFailed
    · next hGrant =>
      have hDrop := (hClean hCreate).resolve_left hGrant
      exact mem_of_mem_dropUser_cons hDrop h
  · exact h

theorem provision_success {env : Environment} {userName : Bytes} {users : List Bytes}
    (h : (createTemporarySqlConsoleUser env userName users).1.success = true) :
    env.createUser.success = true ∧ (createTemporarySqlConsoleUser env userName users).2 = userName :: users := by
  rw [createTemporarySqlConsoleUser] at h ⊢
  split at h
  · next hCreate =>
    rw [if_pos hCreate]
    split at h
    · next hGrant => exact ⟨hCreate, by rw [if_pos hGrant]⟩
    · next hGrant => exact absurd h hGrant
  · next hCreate => exact absurd h hCreate

/-- The part of a launch behind its session. The session has no user yet, and takes
the user unless the clock has run past its deadline. -/
theorem covered_provisionLaunch {service : Service} {console : Console} {env : Environment} {created : SqlConsoleCreateResult}
    {session : SqlConsoleSession} {databaseName userName password : Bytes} (hStore : service.hasStore = true)
    (hSave : env.save.NotCut) (hHeld : console.Held) (hCovered : console.Covered)
    (hFound : console.manager.sessions.lookup created.launchId = some session)
    (hBare : session.temporaryUserName = [])
    (hCareful : env.createUser.success = true →
      env.save = .replaced ∧ (env.grant.success = true ∨ env.dropAgain.success = true) ∧
        (env.drop.success = true ∨ (attachTemporaryDatabaseUserSession (env.around 1) databaseName userName password
          session).1.success = true)) :
    (console.provisionLaunch service env created databaseName userName password).2.Covered := by
  rw [Console.provisionLaunch]
  dsimp only
  cases hProvisioned : (createTemporarySqlConsoleUser env userName console.users).1.success with
  | false =>
      have hUsers : ∀ user ∈ (createTemporarySqlConsoleUser env userName console.users).2, user ∈ console.users :=
        fun _ hUser => provision_failure (fun hCreate => (hCareful hCreate).2.1) hProvisioned hUser
      rw [if_pos (by rfl)]
      refine covered_abandonLaunch ?_ hSave ?_ ?_ ?_
      · exact hStore
      · exact held_of_keepsUsers hHeld hUsers (KeepsUsers.refl _ _)
      · exact covered_of_subset hCovered rfl hUsers
      · intro found hFound'
        cases hFound.symm.trans hFound'
        exact recoverable_of_no_user hBare
  | true =>
      obtain ⟨hCreate, hUsers⟩ := provision_success hProvisioned
      obtain ⟨hReplaced, -, hAttachOrDrop⟩ := hCareful hCreate
      rw [hUsers]
      have hResult : (console.manager.attachTemporaryDatabaseUser (env.around 1) created.launchId databaseName userName
          password).1 = (attachTemporaryDatabaseUserSession (env.around 1) databaseName userName password session).1 :=
        onSession_success _ hFound
      have hManager : (console.manager.attachTemporaryDatabaseUser (env.around 1) created.launchId databaseName userName
          password).2.sessions.lookup created.launchId =
            some (attachTemporaryDatabaseUserSession (env.around 1) databaseName userName password session).2 := by
        simp [SqlConsoleSessionManager.attachTemporaryDatabaseUser, SqlConsoleSessionManager.onSession, hFound]
      have hKeeps : ∀ users, KeepsUsers users console.manager
          (console.manager.attachTemporaryDatabaseUser (env.around 1) created.launchId databaseName userName
            password).2 := by
        intro users
        apply keepsUsers_onSession
        intro found hFound' _ hRecoverable
        cases hFound.symm.trans hFound'
        rw [recoverable_of_no_user hBare] at hRecoverable
        cases hRecoverable
      cases hAttached : (attachTemporaryDatabaseUserSession (env.around 1) databaseName userName password
          session).1.success with
      | false =>
          have hDrop : env.drop.success = true := by
            rcases hAttachOrDrop with hDrop | hAttach
            · exact hDrop
            · rw [hAttached] at hAttach
              cases hAttach
          simp only [hResult, hAttached, Bool.not_true, Bool.not_false, Bool.false_eq_true, if_false, if_true]
          refine covered_abandonLaunch ?_ hSave ?_ ?_ ?_
          · exact hStore
          · exact held_of_keepsUsers hHeld (fun _ hUser => mem_of_mem_dropUser_cons hDrop hUser) (hKeeps _)
          · exact covered_of_subset hCovered rfl fun _ hUser => mem_of_mem_dropUser_cons hDrop hUser
          · intro found hFound'
            cases hManager.symm.trans hFound'
            exact recoverable_of_no_user (attachSession_failure hBare hAttached)
      | true =>
          obtain ⟨hRecoverable, hName⟩ := attachSession_success hAttached
          simp only [hResult, hAttached, Bool.not_true, Bool.false_eq_true, if_false]
          refine covered_persistSessions ?_ hSave ?_ ?_
          · exact hStore
          · intro user hUser
            rcases List.mem_cons.mp hUser with rfl | hOld
            · exact ⟨_, Table.mem_values.mpr ⟨_, hManager⟩, hRecoverable, hName⟩
            · obtain ⟨held, hMem, hHolds, rfl⟩ := hHeld user hOld
              obtain ⟨launchId, hLookup⟩ := Table.mem_values.mp hMem
              obtain ⟨held', hLookup', hHolds', hSame⟩ := hKeeps console.users launchId held hLookup hHolds hOld
              exact ⟨held', Table.mem_values.mpr ⟨launchId, hLookup'⟩, hHolds', hSame⟩
          · intro hRefused
            rw [hReplaced] at hRefused
            cases hRefused

theorem covered_launch {service : Service} {console : Console} {env : Environment} (request : SqlConsoleCreateRequest)
    (databaseName : Bytes) (hStore : service.hasStore = true) (hHeld : console.Held) (hSave : env.save.NotCut)
    (hLaunch : console.LaunchCareful env) (hCovered : console.Covered) :
    (console.createTemporaryLaunchSession service env request databaseName).2.Covered := by
  rw [Console.createTemporaryLaunchSession]
  split
  · exact hCovered
  split
  · exact hCovered
  · next hDatabase =>
    dsimp only
    have hKeeps := keepsUsers_create console.users console.manager (env.around 0) request
    have hLaunched : { console with manager := (console.manager.create (env.around 0) request).2 }.Held :=
      held_of_keepsUsers hHeld (fun _ h => h) hKeeps
    split
    · exact hCovered
    · next hSuccess =>
      have hCreated : (console.manager.create (env.around 0) request).1.success = true := by simpa using hSuccess
      obtain ⟨session, hNew, -, hManager⟩ := create_success hCreated
      generalize console.manager.create (env.around 0) request = created at hNew hManager hLaunched hCreated ⊢
      have hFound : created.2.sessions.lookup created.1.launchId = some session := by
        rw [hManager]
        exact AList.lookup_insert _
      have hBare : session.temporaryUserName = [] := by rw [hNew]; rfl
      split
      · next c rest password hUser hPassword =>
        refine covered_provisionLaunch ?_ hSave hLaunched ?_ hFound hBare ?_
        · exact hStore
        · exact hCovered
        intro hCreate
        obtain ⟨hReplaced, hGrant, hDropOrClock⟩ := hLaunch hCreate
        refine ⟨hReplaced, hGrant, hDropOrClock.imp_right ?_⟩
        rintro ⟨hNotEmpty, hClock⟩
        rw [hNew]
        apply attachSession_of_fresh hDatabase (List.cons_ne_nil c rest) _ hClock
        rintro rfl
        exact hNotEmpty hPassword
      · refine covered_abandonLaunch ?_ hSave hLaunched ?_ ?_
        · exact hStore
        · exact hCovered
        intro found hFound'
        cases hFound.symm.trans hFound'
        exact recoverable_of_no_user hBare

/-- The look at a session may find it expired; nothing is saved behind it. -/
theorem covered_redeemInternal {service : Service} {console : Console} {env : Environment} {index : Nat} {launchId launchSecret : Bytes}
    (hStore : service.hasStore = true) (hSave : env.save.NotCut) (hHeld : console.Held) (hCovered : console.Covered)
    (hClock : console.Unexpired launchId ((env.around index).clock 0)) :
    (console.redeemInternal service env index launchId launchSecret).2.Covered := by
  have hRedeemed : (console.thenPersist service env
      (console.manager.redeem (env.around index) launchId launchSecret)).2.Covered := by
    apply covered_thenPersist _ hStore hSave hHeld hCovered
    apply keepsUsers_onSession
    intro session hFound hUser
    exact keepsUser_redeemSession _ _ _ (hClock session hFound hUser)
  rw [Console.redeemInternal]
  dsimp only
  split
  · exact hRedeemed
  split
  · split <;> exact covered_of_subset hRedeemed rfl fun _ h => h
  · exact covered_of_subset hRedeemed rfl fun _ h => h

theorem covered_redeemInternalFor {service : Service} {console : Console} {env : Environment} {launchId launchSecret : Bytes}
    (databaseId : UInt64) (hStore : service.hasStore = true) (hSave : env.save.NotCut) (hHeld : console.Held)
    (hCovered : console.Covered) (hClock : console.Unexpired launchId ((env.around 0).clock 0))
    (hLater : console.Unexpired launchId ((env.around 1).clock 0)) :
    (console.redeemInternalLaunchSessionFor service env launchId launchSecret databaseId).2.Covered := by
  have hKeeps : KeepsUsers console.users console.manager (console.manager.find (env.around 0) launchId).2 :=
    keepsUsers_find hClock
  have hLooked : { console with manager := (console.manager.find (env.around 0) launchId).2 }.Held :=
    held_of_keepsUsers hHeld (fun _ h => h) hKeeps
  rw [Console.redeemInternalLaunchSessionFor]
  split
  · exact hCovered
  · split
    · exact hCovered
    · refine covered_redeemInternal ?_ hSave hLooked ?_ ?_
      · exact hStore
      · exact hCovered
      · -- the first look left the session as it was
        intro session hFound hUser
        change (console.manager.find (env.around 0) launchId).2.sessions.lookup launchId = some session at hFound
        rw [SqlConsoleSessionManager.find] at hFound
        split at hFound
        · exact hLater session hFound hUser
        · next found hBefore =>
          rw [AList.lookup_insert] at hFound
          cases hFound
          have hSame : expireIfNeeded found ((env.around 0).clock 0) = found := by
            apply expireIfNeeded_of_not_expired
            apply hClock found hBefore
            have hName : (expireIfNeeded found ((env.around 0).clock 0)).temporaryUserName = found.temporaryUserName := by
              rw [expireIfNeeded]
              split <;> rfl
            rw [← hName]
            exact hUser
          rw [hSame] at hUser ⊢
          exact hLater found hBefore hUser

theorem covered_revokeTemporary {service : Service} {console : Console} {env : Environment} {launchId : Bytes}
    (hProvider : service.hasProvider = true) (hStore : service.hasStore = true) (hSave : env.save.NotCut)
    (hHeld : console.Held) (hCovered : console.Covered) :
    (console.revokeTemporaryLaunchSession service env launchId).2.Covered := by
  rw [Console.revokeTemporaryLaunchSession]
  split
  · exact hCovered
  · next session hFound =>
    obtain ⟨found, hBefore, hName, hDatabase⟩ := find_names hFound
    -- what the call does to the table it does to this session only
    have hOthers : ∀ users (manager : SqlConsoleSessionManager),
        (∀ other, other ≠ launchId → manager.sessions.lookup other = console.manager.sessions.lookup other) →
        (found.temporaryUserName ∈ users → recoverable found = false) →
        KeepsUsers users console.manager manager := by
      intro users manager hSame hEnds other held hHeldBy hRecoverable hUser
      by_cases hOther : other = launchId
      · subst hOther
        cases hBefore.symm.trans hHeldBy
        rw [hEnds hUser] at hRecoverable
        cases hRecoverable
      · exact ⟨held, (hSame other hOther).trans hHeldBy, hRecoverable, rfl⟩
    have hFind : ∀ other, other ≠ launchId →
        (console.manager.find (env.around 0) launchId).2.sessions.lookup other =
          console.manager.sessions.lookup other := by
      intro other hOther
      rw [SqlConsoleSessionManager.find]
      split
      · rfl
      · exact AList.lookup_insert_ne hOther
    have hOn : ∀ (manager : SqlConsoleSessionManager)
        (operation : SqlConsoleSession → SqlConsoleOperationResult × SqlConsoleSession) (other : Bytes),
        other ≠ launchId →
        (manager.onSession launchId operation).2.sessions.lookup other = manager.sessions.lookup other := by
      intro manager operation other hOther
      rw [SqlConsoleSessionManager.onSession]
      split
      · rfl
      · exact AList.lookup_insert_ne hOther
    split
    · next hNames =>
      split
      · exact hCovered
      · next hDropped =>
        have hDrop : env.drop.success = true := by simpa using hDropped
        refine covered_persistSessions ?_ hSave ?_ ?_
        · exact hStore
        · refine held_of_keepsUsers hHeld (fun _ hUser => dropUser_subset hUser) (hOthers _ _ ?_ ?_)
          · intro other hOther
            exact ((hOn _ _ other hOther).trans (hOn _ _ other hOther)).trans (hFind other hOther)
          · intro hUser
            exact absurd hName (ne_of_mem_dropUser hDrop hUser)
        · intro _
          exact covered_of_subset hCovered rfl fun _ hUser => dropUser_subset hUser
    · next hNames =>
      have hBare : recoverable found = false := by
        simp only [hProvider, true_and, not_and_or, not_not] at hNames
        rcases hNames with hNone | hNone
        · exact recoverable_of_no_user (hName.trans hNone)
        · simp [recoverable, hDatabase.trans hNone]
      refine covered_persistSessions ?_ hSave ?_ ?_
      · exact hStore
      · refine held_of_keepsUsers hHeld (fun _ hUser => hUser) (hOthers _ _ ?_ fun _ => hBare)
        intro other hOther
        exact (hOn _ _ other hOther).trans (hFind other hOther)
      · exact fun _ => hCovered

/-! ## The loop of the recovery -/

/-- What the loop leaves: a record whose user is still there was not cleaned, and
its failure was counted. -/
structure RecoverySpec (records : List SqlConsoleSession) (before after : Recovery) : Prop where
  users : ∀ user ∈ after.users, user ∈ before.users
  kept : ∀ record ∈ before.records, record ∈ after.records
  counted : before.failed ≤ after.failed
  failed : ∀ record ∈ records, recoverable record = true → record.temporaryUserName ∈ after.users →
    record ∈ after.records ∧ before.failed < after.failed

theorem recoverLoop_spec (env : RecoveryEnvironment) (index : Nat) (records : List SqlConsoleSession)
    (state : Recovery) : RecoverySpec records state (recoverLoop env index records state) := by
  induction records generalizing index state with
  | nil =>
      refine ⟨fun _ h => h, fun _ h => h, Nat.le_refl _, ?_⟩
      intro record hRecord
      exact absurd hRecord List.not_mem_nil
  | cons session rest ih =>
      rw [recoverLoop]
      split
      · next hSkipped =>
        have hRest := ih (index + 1) { state with records := state.records ++ [session] }
        refine ⟨hRest.users, fun record h => hRest.kept record (List.mem_append_left _ h), hRest.counted, ?_⟩
        intro record hRecord hRecoverable hUser
        rcases List.mem_cons.mp hRecord with rfl | hRecord
        · rw [hRecoverable] at hSkipped
          cases hSkipped
        · exact hRest.failed record hRecord hRecoverable hUser
      split
      · have hRest := ih (index + 1)
          { state with records := state.records ++ [session], failed := state.failed + 1 }
        refine ⟨hRest.users, fun record h => hRest.kept record (List.mem_append_left _ h),
          (Nat.le_succ _).trans hRest.counted, ?_⟩
        intro record hRecord hRecoverable hUser
        rcases List.mem_cons.mp hRecord with rfl | hRecord
        · exact ⟨hRest.kept record (List.mem_append_right _ List.mem_cons_self), hRest.counted⟩
        · obtain ⟨hKept, hFailed⟩ := hRest.failed record hRecord hRecoverable hUser
          exact ⟨hKept, (Nat.lt_succ_self _).trans hFailed⟩
      · next hSettled =>
        have hDrop : (env.drops index).success = true := by
          simp only [Bool.or_eq_true, Bool.not_eq_true', not_or, Bool.not_eq_false] at hSettled
          exact hSettled.2
        have hRest := ih (index + 1)
          { records := state.records ++ [recoveredSession session (env.now index)]
            cleaned := state.cleaned + 1
            failed := state.failed
            users := dropUser session.temporaryUserName (env.drops index) state.users }
        refine ⟨fun user h => dropUser_subset (hRest.users user h),
          fun record h => hRest.kept record (List.mem_append_left _ h), hRest.counted, ?_⟩
        intro record hRecord hRecoverable hUser
        rcases List.mem_cons.mp hRecord with rfl | hRecord
        · exact absurd rfl (ne_of_mem_dropUser hDrop (hRest.users _ hUser))
        · exact hRest.failed record hRecord hRecoverable hUser

theorem covered_recover {service : Service} {console : Console} {env : RecoveryEnvironment} (hSave : env.save.NotCut)
    (hCovered : console.Covered) : (console.recoverPersistedSessions service env).2.Covered := by
  rw [Console.recoverPersistedSessions]
  split
  · exact hCovered
  split
  · exact hCovered
  · have hSpec := recoverLoop_spec env 0 (loadStore console.file) { users := console.users }
    intro user hUser
    have hBefore := hCovered user (hSpec.users user hUser)
    obtain ⟨record, hRecord, hRecoverable, rfl⟩ := hBefore
    obtain ⟨hKept, -⟩ := hSpec.failed record hRecord hRecoverable hUser
    exact recorded_write hSave ⟨record, hKept, hRecoverable, rfl⟩ fun _ => ⟨record, hRecord, hRecoverable, rfl⟩

/-- A recovery that succeeds on a store that records every user has dropped them
all. -/
theorem recoveryComplete_of_covered {service : Service} {console : Console} (hStore : service.hasStore = true)
    (hCovered : console.Covered) (env : RecoveryEnvironment) :
    RecoveryComplete service console env := by
  intro hSuccess user hUser
  rw [Console.recoverPersistedSessions] at hSuccess hUser
  simp only [hStore, Bool.not_true, Bool.false_eq_true, if_false] at hSuccess hUser
  split at hSuccess
  · cases hSuccess
  · next hProvider =>
    rw [if_neg hProvider] at hUser
    have hSpec := recoverLoop_spec env 0 (loadStore console.file) { users := console.users }
    obtain ⟨record, hRecord, hRecoverable, rfl⟩ := hCovered user (hSpec.users user hUser)
    obtain ⟨-, hFailed⟩ := hSpec.failed record hRecord hRecoverable hUser
    dsimp only at hSuccess
    rw [if_pos hFailed] at hSuccess
    cases hSuccess

/-! ## Runs -/

/-- A careful step leaves every user in effect recorded in the store. -/
theorem covered_step {console : Console} (step : Step) (hCareful : console.Careful step)
    (hCovered : console.Covered) : (console.step .full step).Covered := by
  cases step with
  | createLaunch env request =>
      exact covered_thenPersist _ rfl hCareful.2 hCareful.1 hCovered (keepsUsers_create _ _ _ _)
  | launch env request databaseName =>
      exact covered_launch request databaseName rfl hCareful.1 hCareful.2.1 hCareful.2.2 hCovered
  | launchSite env siteEnv request databaseName =>
      simp only [Console.step, Console.createSiteTemporaryLaunchSession]
      split
      · exact covered_launch request databaseName rfl hCareful.1 hCareful.2.1 hCareful.2.2 hCovered
      · exact hCovered
  | redeem env launchId secret =>
      apply covered_thenPersist _ rfl hCareful.2.1 hCareful.1 hCovered
      apply keepsUsers_onSession
      intro session hFound hUser
      exact keepsUser_redeemSession _ _ _ (hCareful.2.2 session hFound hUser)
  | authorize env launchId secret =>
      apply covered_thenPersist _ rfl hCareful.2.1 hCareful.1 hCovered
      apply keepsUsers_onSession
      intro session hFound hUser
      exact keepsUser_authorizeSession _ _ _ (hCareful.2.2 session hFound hUser)
  | touch env launchId secret =>
      apply covered_thenPersist _ rfl hCareful.2.1 hCareful.1 hCovered
      apply keepsUsers_onSession
      intro session hFound hUser
      exact keepsUser_touchSession _ _ _ (hCareful.2.2 session hFound hUser)
  | redeemInternal env launchId secret =>
      exact covered_redeemInternal rfl hCareful.2.1 hCareful.1 hCovered hCareful.2.2
  | redeemInternalFor env launchId secret databaseId =>
      exact covered_redeemInternalFor databaseId rfl hCareful.2.1 hCareful.1 hCovered hCareful.2.2.1 hCareful.2.2.2
  | revoke env launchId =>
      apply covered_thenPersist _ rfl hCareful.2.1 hCareful.1 hCovered
      apply keepsUsers_revoke
      intro session hFound _
      exact hCareful.2.2 session hFound
  | revokeTemporary env launchId => exact covered_revokeTemporary rfl rfl hCareful.2 hCareful.1 hCovered
  | revokeSite env siteEnv launchId =>
      simp only [Console.step, Console.revokeSiteTemporaryLaunchSession]
      split
      · exact covered_revokeTemporary rfl rfl hCareful.2 hCareful.1 hCovered
      · exact hCovered
  | sweep env =>
      apply covered_thenPersist _ rfl hCareful.2.1 hCareful.1 hCovered
      apply keepsUsers_sweepExpired
      intro launchId session hFound hUser
      exact hCareful.2.2 launchId session hFound hUser
  | list env databaseId => exact hCovered
  | restart policy => exact hCovered
  | recover env => exact covered_recover hCareful hCovered

theorem covered_run {console : Console} (steps : List Step) (hCareful : console.AllCareful .full steps)
    (hCovered : console.Covered) : (console.run .full steps).Covered := by
  induction steps generalizing console with
  | nil => exact hCovered
  | cons step rest ih => exact ih hCareful.2 (covered_step step hCareful.1 hCovered)

/-- In every run of careful steps, a recovery that reports success leaves no
temporary user that the store does not record. -/
theorem recoveryComplete_of_careful (policy : SqlConsoleSessionPolicy) (file : Option Bytes) (steps : List Step)
    (hCareful : (Console.start policy file).AllCareful .full steps) (env : RecoveryEnvironment) :
    RecoveryComplete .full ((Console.start policy file).run .full steps) env := by
  apply recoveryComplete_of_covered rfl
  apply covered_run steps hCareful
  intro user hUser
  exact absurd hUser List.not_mem_nil

/-! ## The run that goes wrong -/

namespace OrphanRun

def done (code message : String) : DatabaseProviderResult := ⟨true, code, message⟩

def around (now : Time) : Surroundings where
  clock _ := now
  hex16 _ := some (bytes "00112233445566778899aabbccddeeff")
  hex32 := some (bytes "5a5a")
  secretDigest secret := secret

def environment (now : Time) : Environment where
  around _ := around now
  password := some (bytes "secret")
  createUser := done "temporary_sql_console_user_created" ""
  grant := done "temporary_sql_console_privileges_granted" ""
  dropAgain := done "temporary_sql_console_user_dropped" ""
  drop := done "temporary_sql_console_user_dropped" ""
  save := .replaced

def request : SqlConsoleCreateRequest where
  databaseId := 1
  siteId := 1
  adminUsername := bytes "admin"
  adminRole := bytes "admin"

def recovery : RecoveryEnvironment where
  resolves _ := true
  drops _ := done "temporary_sql_console_user_dropped" ""
  now _ := seconds 4000
  save := .replaced

/-- A launch, and a restart before anything else happens. -/
def launched : List Step := [.launch (environment 0) request (bytes "shop"), .restart {}]

/-- A launch, a sweep when the session is past its deadline, and a restart. -/
def swept : List Step := [.launch (environment 0) request (bytes "shop"), .sweep (environment (seconds 3600)), .restart {}]

end OrphanRun

theorem not_recoveryComplete_swept :
    ¬∀ (policy : SqlConsoleSessionPolicy) (file : Option Bytes) (steps : List Step) (env : RecoveryEnvironment),
      RecoveryComplete .full ((Console.start policy file).run .full steps) env := by
  intro h
  exact absurd (h {} none OrphanRun.swept OrphanRun.recovery) (by decide)

theorem recoveryComplete_launched :
    (Console.start {} none).AllCareful .full OrphanRun.launched ∧
      RecoveryComplete .full ((Console.start {} none).run .full OrphanRun.launched) OrphanRun.recovery := by
  have hCareful : (Console.start {} none).AllCareful .full OrphanRun.launched := by
    refine ⟨⟨?_, ?_, ?_⟩, trivial, trivial⟩
    · intro user hUser
      exact absurd hUser List.not_mem_nil
    · intro size h
      cases h
    · intro _
      exact ⟨rfl, .inl rfl, .inl rfl⟩
  exact ⟨hCareful, recoveryComplete_of_careful {} none OrphanRun.launched hCareful OrphanRun.recovery⟩

end ContainerCP.SqlConsole
