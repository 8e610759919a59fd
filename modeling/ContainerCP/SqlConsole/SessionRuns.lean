import ContainerCP.SqlConsole.SessionManager

/-! Runs of the session manager: any sequence of calls, each with its own readings
of the clock. A session only moves forward through its states, whatever the clock
says. -/
namespace ContainerCP.SqlConsole

/-! ## What becomes of a session -/

/-- The idle deadline is never behind the final one. -/
def WithinDeadline (session : SqlConsoleSession) : Prop := session.idleExpiresAt ≤ session.expiresAt

/-- What a session can become: it keeps to its deadline, it leaves no terminal
state, and it does not become a fresh session again. -/
structure Later (before after : SqlConsoleSession) : Prop where
  within : WithinDeadline before → WithinDeadline after
  terminal : before.status.Terminal → after.status = before.status
  started : before.status ≠ .created → after.status ≠ .created

theorem Later.refl (session : SqlConsoleSession) : Later session session :=
  ⟨fun h => h, fun _ => rfl, fun h => h⟩

theorem Later.trans {first second third : SqlConsoleSession} (h : Later first second) (h' : Later second third) :
    Later first third where
  within hWithin := h'.within (h.within hWithin)
  terminal hTerminal := by
    have hSecond := h.terminal hTerminal
    exact (h'.terminal (hSecond ▸ hTerminal)).trans hSecond
  started hStarted := h'.started (h.started hStarted)

/-- A session that was not terminal leaves its state for one that is not the first. -/
theorem Later.of_active {before after : SqlConsoleSession} (hBefore : ¬before.status.Terminal)
    (hAfter : after.status ≠ .created) (hWithin : WithinDeadline before → WithinDeadline after) :
    Later before after :=
  ⟨hWithin, fun h => absurd h hBefore, fun _ => hAfter⟩

theorem later_noteActivity (policy : SqlConsoleSessionPolicy) (session : SqlConsoleSession) (now : Time) :
    Later session (noteActivity policy session now) :=
  ⟨fun _ => minTime_le _ _, fun _ => rfl, fun h => h⟩

theorem expired_eq_false {session : SqlConsoleSession} (h : session.status.Terminal) (now : Time) :
    expired session now = false :=
  if_pos h

theorem later_expireIfNeeded (session : SqlConsoleSession) (now : Time) :
    Later session (expireIfNeeded session now) := by
  rw [expireIfNeeded]
  split
  · next hExpired =>
    refine Later.of_active ?_ SqlConsoleSessionStatus.noConfusion fun h => h
    intro hTerminal
    rw [expired_eq_false hTerminal] at hExpired
    exact Bool.false_ne_true hExpired
  · exact Later.refl session

/-- A terminal session passes the look at its expiry as it is. -/
theorem expireIfNeeded_of_terminal {session : SqlConsoleSession} (h : session.status.Terminal) (now : Time) :
    expireIfNeeded session now = session := by
  rw [expireIfNeeded, expired_eq_false h]
  rfl

section Operations

variable (policy : SqlConsoleSessionPolicy) (around : Surroundings)

theorem later_authorizeSession (launchSecret : Bytes) (session : SqlConsoleSession) :
    Later session (authorizeSession policy around launchSecret session).2 := by
  apply (later_expireIfNeeded session (around.clock 0)).trans
  simp only [authorizeSession]
  split
  · exact Later.refl _
  split
  · exact Later.refl _
  split
  · exact Later.refl _
  split
  · exact later_noteActivity policy _ _
  · exact Later.refl _

theorem later_redeemSession (launchSecret : Bytes) (session : SqlConsoleSession) :
    Later session (redeemSession policy around launchSecret session).2 := by
  apply (later_expireIfNeeded session (around.clock 0)).trans
  simp only [redeemSession]
  split
  · exact Later.refl _
  split
  · exact Later.refl _
  split
  · exact Later.refl _
  split
  · exact Later.refl _
  · next hExpired hRevoked _ _ =>
    exact Later.of_active (fun h => h.elim hExpired hRevoked) SqlConsoleSessionStatus.noConfusion
      fun _ => minTime_le _ _

theorem later_touchSession (launchSecret : Bytes) (session : SqlConsoleSession) :
    Later session (touchSession policy around launchSecret session).2 := by
  apply (later_expireIfNeeded session (around.clock 0)).trans
  simp only [touchSession]
  split
  · exact Later.refl _
  split
  · exact Later.refl _
  split
  · exact Later.refl _
  split
  · exact Later.refl _
  · exact later_noteActivity policy _ _

theorem later_revokeSession (session : SqlConsoleSession) : Later session (revokeSession around session).2 := by
  apply (later_expireIfNeeded session (around.clock 0)).trans
  simp only [revokeSession]
  split
  · exact Later.refl _
  split
  · exact Later.refl _
  · next hRevoked hExpired =>
    exact Later.of_active (fun h => h.elim hExpired hRevoked) SqlConsoleSessionStatus.noConfusion fun h => h

theorem later_attachTemporaryDatabaseUserSession (databaseName userName password : Bytes)
    (session : SqlConsoleSession) :
    Later session (attachTemporaryDatabaseUserSession around databaseName userName password session).2 := by
  apply (later_expireIfNeeded session (around.clock 0)).trans
  simp only [attachTemporaryDatabaseUserSession]
  split
  · exact Later.refl _
  split
  · exact Later.refl _
  · exact ⟨fun h => h, fun _ => rfl, fun h => h⟩

theorem later_clearTemporaryDatabaseUserSession (session : SqlConsoleSession) :
    Later session (clearTemporaryDatabaseUserSession session).2 :=
  ⟨fun h => h, fun _ => rfl, fun h => h⟩

/-! ## Terminal sessions are refused -/

theorem authorizeSession_of_terminal (launchSecret : Bytes) {session : SqlConsoleSession}
    (h : session.status.Terminal) : (authorizeSession policy around launchSecret session).1.success = false := by
  simp only [authorizeSession, expireIfNeeded_of_terminal h]
  rcases h with h | h <;> simp [h, failure]

theorem redeemSession_of_terminal (launchSecret : Bytes) {session : SqlConsoleSession}
    (h : session.status.Terminal) : (redeemSession policy around launchSecret session).1.success = false := by
  simp only [redeemSession, expireIfNeeded_of_terminal h]
  rcases h with h | h <;> simp [h, failure]

theorem touchSession_of_terminal (launchSecret : Bytes) {session : SqlConsoleSession}
    (h : session.status.Terminal) : (touchSession policy around launchSecret session).1.success = false := by
  simp only [touchSession, expireIfNeeded_of_terminal h]
  rcases h with h | h <;> simp [h, failure]

/-- A redemption that succeeds finds a fresh session where redemptions are single
use, and leaves a redeemed one. -/
theorem redeemSession_success {launchSecret : Bytes} {session : SqlConsoleSession}
    (hSingle : policy.singleUseRedemption = true)
    (h : (redeemSession policy around launchSecret session).1.success = true) :
    session.status = .created ∧ (redeemSession policy around launchSecret session).2.status = .redeemed := by
  have hLater := later_expireIfNeeded session (around.clock 0)
  simp only [redeemSession] at h ⊢
  split at h
  · exact absurd h Bool.false_ne_true
  split at h
  · exact absurd h Bool.false_ne_true
  split at h
  · exact absurd h Bool.false_ne_true
  split at h
  · exact absurd h Bool.false_ne_true
  · next hExpired hRevoked hRedeemed hDigest =>
    rw [if_neg hExpired, if_neg hRevoked, if_neg hRedeemed, if_neg hDigest]
    refine ⟨?_, rfl⟩
    by_contra hStarted
    have hSeen := hLater.started hStarted
    have hNotRedeemed : (expireIfNeeded session (around.clock 0)).status ≠ .redeemed := by
      intro hStatus
      exact hRedeemed ⟨hSingle, hStatus⟩
    cases hStatus : (expireIfNeeded session (around.clock 0)).status with
    | created => exact hSeen hStatus
    | redeemed => exact hNotRedeemed hStatus
    | expired => exact hExpired hStatus
    | revoked => exact hRevoked hStatus

end Operations

/-! ## Calls and runs -/

inductive Operation where
  | create (request : SqlConsoleCreateRequest)
  | find (launchId : Bytes)
  | authorize (launchId launchSecret : Bytes)
  | redeem (launchId launchSecret : Bytes)
  | touch (launchId launchSecret : Bytes)
  | revoke (launchId : Bytes)
  | attachTemporaryDatabaseUser (launchId databaseName userName password : Bytes)
  | clearTemporaryDatabaseUser (launchId : Bytes)
  | sweepExpired
  | listPublic (databaseId : UInt64)
  deriving DecidableEq

/-- An operation and what it finds around it. -/
structure Call where
  operation : Operation
  around : Surroundings

/-- What a call gives back, as far as it says whether it succeeded. -/
def SqlConsoleSessionManager.call (manager : SqlConsoleSessionManager) (call : Call) :
    Bool × SqlConsoleSessionManager :=
  match call.operation with
  | .create request => let done := manager.create call.around request; (done.1.success, done.2)
  | .find launchId => let done := manager.find call.around launchId; (done.1.isSome, done.2)
  | .authorize launchId secret => let done := manager.authorize call.around launchId secret; (done.1.success, done.2)
  | .redeem launchId secret => let done := manager.redeem call.around launchId secret; (done.1.success, done.2)
  | .touch launchId secret => let done := manager.touch call.around launchId secret; (done.1.success, done.2)
  | .revoke launchId => let done := manager.revoke call.around launchId; (done.1.success, done.2)
  | .attachTemporaryDatabaseUser launchId databaseName userName password =>
      let done := manager.attachTemporaryDatabaseUser call.around launchId databaseName userName password
      (done.1.success, done.2)
  | .clearTemporaryDatabaseUser launchId =>
      let done := manager.clearTemporaryDatabaseUser launchId; (done.1.success, done.2)
  | .sweepExpired => (true, (manager.sweepExpired call.around).2)
  | .listPublic databaseId => (true, (manager.listPublic call.around databaseId).2)

/-- The manager behind a sequence of calls. -/
def SqlConsoleSessionManager.run (manager : SqlConsoleSessionManager) (calls : List Call) :
    SqlConsoleSessionManager :=
  calls.foldl (fun manager call => (manager.call call).2) manager

/-- The calls of a sequence, each with whether it succeeded. -/
def SqlConsoleSessionManager.answers : SqlConsoleSessionManager → List Call → List (Operation × Bool)
  | _, [] => []
  | manager, call :: rest => (call.operation, (manager.call call).1) :: (manager.call call).2.answers rest

theorem pickLaunchId_notMem {sessions : Table Bytes SqlConsoleSession} {hex16 : Nat → Option Bytes} {launchId : Bytes}
    {attempts attempt : Nat} (h : pickLaunchId sessions hex16 attempts attempt = some launchId) :
    launchId ∉ sessions := by
  induction attempts generalizing attempt with
  | zero => exact absurd h (by simp [pickLaunchId])
  | succ attempts ih =>
      rw [pickLaunchId] at h
      cases hCandidate : hex16 attempt with
      | none => simp [hCandidate] at h
      | some candidate =>
          simp only [hCandidate] at h
          split at h
          · exact ih h
          · next hFresh =>
            cases h
            exact hFresh

/-- What one call can do to the table: the sessions move forward, and a session
that was not there is a fresh one within its deadline. -/
structure Moves (before after : SqlConsoleSessionManager) : Prop where
  policy : after.policy = before.policy
  later : ∀ {launchId session}, before.sessions.lookup launchId = some session →
    ∃ session', after.sessions.lookup launchId = some session' ∧ Later session session'
  fresh : ∀ {launchId session}, after.sessions.lookup launchId = some session →
    before.sessions.lookup launchId = none → WithinDeadline session

theorem Moves.refl (manager : SqlConsoleSessionManager) : Moves manager manager where
  policy := rfl
  later h := ⟨_, h, Later.refl _⟩
  fresh h hNone := by simp [hNone] at h

/-- A session of the table is replaced by a later one. -/
theorem moves_insert {manager : SqlConsoleSessionManager} {launchId : Bytes} {session session' : SqlConsoleSession}
    (hFound : manager.sessions.lookup launchId = some session) (hLater : Later session session') :
    Moves manager { manager with sessions := manager.sessions.insert launchId session' } where
  policy := rfl
  later := by
    intro other found hOther
    by_cases hSame : other = launchId
    · subst hSame
      cases hFound.symm.trans hOther
      exact ⟨session', AList.lookup_insert _, hLater⟩
    · exact ⟨found, (AList.lookup_insert_ne hSame).trans hOther, Later.refl _⟩
  fresh := by
    intro other found hOther hNone
    by_cases hSame : other = launchId
    · subst hSame
      cases hFound.symm.trans hNone
    · rw [AList.lookup_insert_ne hSame, hNone] at hOther
      cases hOther

theorem moves_onSession (manager : SqlConsoleSessionManager) (launchId : Bytes)
    {operation : SqlConsoleSession → SqlConsoleOperationResult × SqlConsoleSession}
    (hLater : ∀ session, Later session (operation session).2) :
    Moves manager (manager.onSession launchId operation).2 := by
  rw [SqlConsoleSessionManager.onSession]
  split
  · exact Moves.refl manager
  · next session hFound => exact moves_insert hFound (hLater session)

theorem moves_create (manager : SqlConsoleSessionManager) (around : Surroundings) (request : SqlConsoleCreateRequest) :
    Moves manager (manager.create around request).2 := by
  rw [SqlConsoleSessionManager.create]
  split
  · split
    · next launchId launchSecret hPicked _ =>
      have hFresh := pickLaunchId_notMem hPicked
      dsimp only
      split
      · exact Moves.refl manager
      · refine ⟨rfl, ?_, ?_⟩
        · intro other found hOther
          have hNe : other ≠ launchId := by
            rintro rfl
            exact hFresh (AList.lookup_isSome.mp (by simp [hOther]))
          exact ⟨found, (AList.lookup_insert_ne hNe).trans hOther, Later.refl _⟩
        · intro other found hOther hNone
          by_cases hSame : other = launchId
          · subst hSame
            rw [AList.lookup_insert] at hOther
            cases hOther
            exact minTime_le _ _
          · rw [AList.lookup_insert_ne hSame, hNone] at hOther
            cases hOther
    · exact Moves.refl manager
  · exact Moves.refl manager

theorem moves_sweepExpired (manager : SqlConsoleSessionManager) (around : Surroundings) :
    Moves manager (manager.sweepExpired around).2 where
  policy := rfl
  later := by
    intro launchId session hFound
    refine ⟨expireIfNeeded session (around.clock 0), ?_, later_expireIfNeeded session _⟩
    simp [SqlConsoleSessionManager.sweepExpired, hFound]
  fresh := by
    intro launchId session hFound hNone
    simp [SqlConsoleSessionManager.sweepExpired, hNone] at hFound

/-- One call moves the table. -/
theorem moves_call (manager : SqlConsoleSessionManager) (call : Call) : Moves manager (manager.call call).2 := by
  obtain ⟨operation, around⟩ := call
  cases operation with
  | create request => exact moves_create manager around request
  | find launchId =>
      show Moves manager (manager.find around launchId).2
      rw [SqlConsoleSessionManager.find]
      split
      · exact Moves.refl manager
      · next session hFound => exact moves_insert hFound (later_expireIfNeeded session _)
  | authorize launchId secret => exact moves_onSession manager launchId (later_authorizeSession _ around secret)
  | redeem launchId secret => exact moves_onSession manager launchId (later_redeemSession _ around secret)
  | touch launchId secret => exact moves_onSession manager launchId (later_touchSession _ around secret)
  | revoke launchId => exact moves_onSession manager launchId (later_revokeSession around)
  | attachTemporaryDatabaseUser launchId databaseName userName password =>
      exact moves_onSession manager launchId
        (later_attachTemporaryDatabaseUserSession around databaseName userName password)
  | clearTemporaryDatabaseUser launchId =>
      exact moves_onSession manager launchId later_clearTemporaryDatabaseUserSession
  | sweepExpired => exact moves_sweepExpired manager around
  | listPublic databaseId => exact moves_sweepExpired manager around

theorem Moves.trans {first second third : SqlConsoleSessionManager} (h : Moves first second)
    (h' : Moves second third) : Moves first third where
  policy := h'.policy.trans h.policy
  later hFound := by
    obtain ⟨session, hSecond, hLater⟩ := h.later hFound
    obtain ⟨session', hThird, hLater'⟩ := h'.later hSecond
    exact ⟨session', hThird, hLater.trans hLater'⟩
  fresh := by
    intro launchId session hFound hNone
    cases hSecond : second.sessions.lookup launchId with
    | none => exact h'.fresh hFound hSecond
    | some middle =>
        obtain ⟨session', hThird, hLater⟩ := h'.later hSecond
        cases hThird.symm.trans hFound
        exact hLater.within (h.fresh hSecond hNone)

theorem moves_run (manager : SqlConsoleSessionManager) (calls : List Call) : Moves manager (manager.run calls) := by
  induction calls generalizing manager with
  | nil => exact Moves.refl manager
  | cons call rest ih => exact (moves_call manager call).trans (ih (manager.call call).2)

/-- The operations that use a session with its secret. -/
def Operation.uses (launchId : Bytes) : Operation → Bool
  | .authorize id _ => id = launchId
  | .redeem id _ => id = launchId
  | .touch id _ => id = launchId
  | _ => false

/-- A redemption of the session that succeeded. -/
def redeems (launchId : Bytes) : Operation × Bool → Bool
  | (.redeem id _, true) => id = launchId
  | _ => false

theorem onSession_success {manager : SqlConsoleSessionManager} {launchId : Bytes} {session : SqlConsoleSession}
    (operation : SqlConsoleSession → SqlConsoleOperationResult × SqlConsoleSession)
    (hFound : manager.sessions.lookup launchId = some session) :
    (manager.onSession launchId operation).1 = (operation session).1 := by
  simp [SqlConsoleSessionManager.onSession, hFound]

/-- No use of a terminal session succeeds. -/
theorem call_of_terminal {manager : SqlConsoleSessionManager} {launchId : Bytes} {session : SqlConsoleSession}
    (hFound : manager.sessions.lookup launchId = some session) (hTerminal : session.status.Terminal) (call : Call)
    (hUses : call.operation.uses launchId = true) : (manager.call call).1 = false := by
  obtain ⟨operation, around⟩ := call
  cases operation with
  | authorize id secret =>
      cases of_decide_eq_true hUses
      show (manager.onSession launchId _).1.success = false
      rw [onSession_success _ hFound]
      exact authorizeSession_of_terminal _ around secret hTerminal
  | redeem id secret =>
      cases of_decide_eq_true hUses
      show (manager.onSession launchId _).1.success = false
      rw [onSession_success _ hFound]
      exact redeemSession_of_terminal _ around secret hTerminal
  | touch id secret =>
      cases of_decide_eq_true hUses
      show (manager.onSession launchId _).1.success = false
      rw [onSession_success _ hFound]
      exact touchSession_of_terminal _ around secret hTerminal
  | _ => exact absurd hUses Bool.false_ne_true

theorem answers_of_terminal {manager : SqlConsoleSessionManager} {launchId : Bytes} {session : SqlConsoleSession}
    (hFound : manager.sessions.lookup launchId = some session) (hTerminal : session.status.Terminal)
    (calls : List Call) :
    ∀ answer ∈ manager.answers calls, answer.1.uses launchId = true → answer.2 = false := by
  induction calls generalizing manager session with
  | nil =>
      intro answer hAnswer
      exact absurd hAnswer List.not_mem_nil
  | cons call rest ih =>
      intro answer hAnswer hUses
      rcases List.mem_cons.mp hAnswer with rfl | hRest
      · exact call_of_terminal hFound hTerminal call hUses
      · obtain ⟨session', hFound', hLater⟩ := (moves_call manager call).later hFound
        have hTerminal' : session'.status.Terminal := by
          rw [hLater.terminal hTerminal]
          exact hTerminal
        exact ih hFound' hTerminal' answer hRest hUses

/-- A redemption that succeeds finds a fresh session. -/
theorem call_redeems {manager : SqlConsoleSessionManager} {launchId : Bytes} {call : Call}
    (hSingle : manager.policy.singleUseRedemption = true)
    (h : redeems launchId (call.operation, (manager.call call).1) = true) :
    ∃ session, manager.sessions.lookup launchId = some session ∧ session.status = .created ∧
      ∃ session', (manager.call call).2.sessions.lookup launchId = some session' ∧ session'.status = .redeemed := by
  obtain ⟨operation, around⟩ := call
  cases operation with
  | redeem id secret =>
      have hBoth : id = launchId ∧ (manager.onSession id (redeemSession manager.policy around secret)).1.success = true := by
        change redeems launchId (.redeem id secret,
          (manager.onSession id (redeemSession manager.policy around secret)).1.success) = true at h
        cases hSuccess : (manager.onSession id (redeemSession manager.policy around secret)).1.success with
        | false => simp [hSuccess, redeems] at h
        | true => exact ⟨by simpa [hSuccess, redeems] using h, rfl⟩
      obtain ⟨rfl, hSuccess⟩ := hBoth
      cases hFound : manager.sessions.lookup id with
      | none => simp [SqlConsoleSessionManager.onSession, hFound, sessionNotFound] at hSuccess
      | some session =>
          rw [onSession_success _ hFound] at hSuccess
          obtain ⟨hCreated, hRedeemed⟩ := redeemSession_success manager.policy around hSingle hSuccess
          refine ⟨session, rfl, hCreated, _, ?_, hRedeemed⟩
          show (manager.onSession id _).2.sessions.lookup id = _
          simp [SqlConsoleSessionManager.onSession, hFound]
  | _ => simp [redeems] at h

/-- A session that was started is not redeemed any more. -/
theorem countP_redeems_of_started {manager : SqlConsoleSessionManager} {launchId : Bytes} {session : SqlConsoleSession}
    (hSingle : manager.policy.singleUseRedemption = true)
    (hFound : manager.sessions.lookup launchId = some session) (hStarted : session.status ≠ .created)
    (calls : List Call) : (manager.answers calls).countP (redeems launchId) = 0 := by
  induction calls generalizing manager session with
  | nil => rfl
  | cons call rest ih =>
      have hMoves := moves_call manager call
      obtain ⟨session', hFound', hLater⟩ := hMoves.later hFound
      have hRest := ih (hMoves.policy ▸ hSingle) hFound' (hLater.started hStarted)
      have hNot : ¬redeems launchId (call.operation, (manager.call call).1) = true := by
        intro hRedeems
        obtain ⟨fresh, hFresh, hCreated, -⟩ := call_redeems hSingle hRedeems
        cases hFound.symm.trans hFresh
        exact hStarted hCreated
      rw [SqlConsoleSessionManager.answers, List.countP_cons_of_neg hNot, hRest]

theorem countP_redeems_le {manager : SqlConsoleSessionManager} (launchId : Bytes)
    (hSingle : manager.policy.singleUseRedemption = true) (calls : List Call) :
    (manager.answers calls).countP (redeems launchId) ≤ 1 := by
  induction calls generalizing manager with
  | nil => exact Nat.zero_le 1
  | cons call rest ih =>
      have hSingle' : (manager.call call).2.policy.singleUseRedemption = true :=
        (moves_call manager call).policy ▸ hSingle
      by_cases hRedeems : redeems launchId (call.operation, (manager.call call).1) = true
      · obtain ⟨_, -, -, session', hFound', hRedeemed⟩ := call_redeems hSingle hRedeems
        have hRest := countP_redeems_of_started hSingle' hFound' (by simp [hRedeemed]) rest
        rw [SqlConsoleSessionManager.answers, List.countP_cons_of_pos hRedeems, hRest]
      · rw [SqlConsoleSessionManager.answers, List.countP_cons_of_neg hRedeems]
        exact ih hSingle'

/-- In every run, whatever the clock says at each call: once a session is expired or
revoked it stays so and no later use of it succeeds, a single-use session is
redeemed at most once, and the idle deadline is never behind the final one. -/
theorem sessions_of_run (policy : SqlConsoleSessionPolicy) (calls : List Call) :
    (∀ first second launchId session, calls = first ++ second →
      ((SqlConsoleSessionManager.new policy).run first).sessions.lookup launchId = some session →
      session.status.Terminal →
      (∃ session', ((SqlConsoleSessionManager.new policy).run calls).sessions.lookup launchId = some session' ∧
        session'.status = session.status) ∧
      ∀ answer ∈ ((SqlConsoleSessionManager.new policy).run first).answers second,
        answer.1.uses launchId = true → answer.2 = false) ∧
    (policy.singleUseRedemption = true → ∀ launchId,
      ((SqlConsoleSessionManager.new policy).answers calls).countP (redeems launchId) ≤ 1) ∧
    ∀ launchId session, ((SqlConsoleSessionManager.new policy).run calls).sessions.lookup launchId = some session →
      session.idleExpiresAt ≤ session.expiresAt := by
  refine ⟨?_, ?_, ?_⟩
  · rintro first second launchId session rfl hFound hTerminal
    refine ⟨?_, answers_of_terminal hFound hTerminal second⟩
    obtain ⟨session', hFound', hLater⟩ :=
      (moves_run ((SqlConsoleSessionManager.new policy).run first) second).later hFound
    refine ⟨session', ?_, hLater.terminal hTerminal⟩
    rw [SqlConsoleSessionManager.run, List.foldl_append]
    exact hFound'
  · intro hSingle launchId
    exact countP_redeems_le launchId hSingle calls
  · intro launchId session hFound
    exact (moves_run (SqlConsoleSessionManager.new policy) calls).fresh hFound rfl

end ContainerCP.SqlConsole
