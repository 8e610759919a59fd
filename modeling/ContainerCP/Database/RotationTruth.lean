import ContainerCP.Database.CredentialRotation

/-! What the final state of a rotation says about the three places of the password.
A call that reports success has had its effect, and a login that succeeds used the
right password; everything else may go wrong at any call. -/
namespace ContainerCP.CredentialRotation

open Control

/-- The three places hold what they held at the start. -/
structure Same (start adapter : Adapter) : Prop where
  mariadb : adapter.mariadb = start.mariadb
  config : adapter.config = start.config
  stored : adapter.stored = start.stored

/-- The three places hold a password. -/
structure Holds (password : Bytes) (adapter : Adapter) : Prop where
  mariadb : adapter.mariadb = password
  config : adapter.config = password
  stored : adapter.stored = some password

/-- What a final state promises. A rotation ends in no other state than these four. -/
def Outcome (start : Adapter) (newPassword : Bytes) : RotationState → Adapter → Prop
  | .failed, adapter => Same start adapter
  | .compensated, adapter => Same start adapter
  | .completed, adapter => Holds newPassword adapter
  | .manualRecoveryRequired, _ => True
  | _, _ => False

/-- A rotation that has read its metadata: nothing is changed yet, and the context
has the password of the store. -/
structure Loaded (start adapter : Adapter) : Prop where
  same : Same start adapter
  context : ∃ context, adapter.context = some context ∧ start.stored = some context.oldPassword

/-- The old password also is the one of the server. -/
structure Verified (start adapter : Adapter) : Prop where
  same : Same start adapter
  context : ∃ context, adapter.context = some context ∧ start.stored = some context.oldPassword ∧
    start.mariadb = context.oldPassword

/-- What a compensation needs: the old password, and the old configuration where it
still is or where the update kept it. -/
def Compensable (start : Adapter) (configUpdated : Bool) (adapter : Adapter) : Prop :=
  ∃ context, adapter.context = some context ∧ start.stored = some context.oldPassword ∧
    start.mariadb = context.oldPassword ∧
      (if configUpdated then context.configRollback else adapter.config) = start.config

section Rules

variable {start : Adapter} {newPassword : Bytes}

def On (P : Adapter → Prop) (s : Running) : Prop := P s.adapter

/-- The exits of a rotation that keep the promise of their state. -/
def Kept (start : Adapter) (newPassword : Bytes) (result : RotationResult) (s : Running) : Prop :=
  Outcome start newPassword result.finalState s.adapter

theorem spec_note {P : Adapter → Prop} (state : RotationState) (code message : String) :
    Spec (On P) (note state code message) (fun _ => On P) (Kept start newPassword) :=
  fun _ h => h

theorem spec_call {P : Adapter → Prop} {α : Type} {step : Adapter → α × Adapter} {Q : α → Adapter → Prop}
    (h : ∀ adapter, P adapter → Q (step adapter).1 (step adapter).2) :
    Spec (On P) (call step) (fun result => On (Q result)) (Kept start newPassword) :=
  fun s hPre => h s.adapter hPre

theorem spec_failWith {P : Adapter → Prop} {α : Type} {post : α → Running → Prop} {state : RotationState}
    (code message : String) (h : ∀ adapter, P adapter → Outcome start newPassword state adapter) :
    Spec (On P) (failWith state code message) post (Kept start newPassword) :=
  fun s hPre => h s.adapter hPre

theorem spec_manualRecovery {P : Adapter → Prop} {α : Type} {post : α → Running → Prop} :
    Spec (On P) manualRecovery post (Kept start newPassword) :=
  spec_failWith _ _ fun _ _ => trivial

theorem spec_runStep {P : Adapter → Prop} {step : Adapter → StepResult × Adapter} {Q : StepResult → Adapter → Prop}
    (state : RotationState) (code message : String)
    (h : ∀ adapter, P adapter → Q (step adapter).1 (step adapter).2) :
    Spec (On P) (runStep state code message step) (fun result => On (Q result)) (Kept start newPassword) :=
  fun s hPre => h s.adapter hPre

/-- A step in front of the first change: it changes none of the three places, and a
success gives the next stage. -/
theorem spec_prepare {P : Adapter → Prop} {Q : StepResult → Adapter → Prop} {step : Adapter → StepResult × Adapter}
    {state : RotationState} {code message fallback failure : String}
    (hSame : ∀ adapter, P adapter → Same start (step adapter).2)
    (hNext : ∀ adapter, P adapter → (step adapter).1.success = true → Q (step adapter).1 (step adapter).2) :
    Spec (On P) (prepare state code message step fallback failure) (fun result => On (Q result))
      (Kept start newPassword) := by
  refine Spec.bind (fun result => On fun adapter => Same start adapter ∧ (result.success = true → Q result adapter))
    (spec_runStep state code message fun adapter h => ⟨hSame adapter h, hNext adapter h⟩) ?_
  intro result
  cases hSuccess : result.success with
  | false =>
      refine Spec.bind (fun _ _ => False) (spec_failWith _ _ fun adapter h => h.1) ?_
      intro _ s hFalse
      exact hFalse.elim
  | true => exact fun s h => h.2 rfl

theorem spec_compensateStep {P Q : Adapter → Prop} {step : Adapter → StepResult × Adapter} {code message : String}
    (h : ∀ adapter, P adapter → (step adapter).1.success = true → Q (step adapter).2) :
    Spec (On P) (compensateStep code message step) (fun _ => On Q) (Kept start newPassword) := by
  refine Spec.bind (fun _ => On P) (spec_note _ _ _) ?_
  intro _
  refine Spec.bind (fun result => On fun adapter => result.success = true → Q adapter)
    (spec_call fun adapter hPre => h adapter hPre) ?_
  intro result
  cases hSuccess : result.success with
  | false => exact spec_manualRecovery
  | true => exact fun s hPre => hPre rfl

end Rules

/-! ## In front of the first change -/

section Prepare

variable {start : Adapter} {request : Request}

theorem Same.eraseContext {adapter : Adapter} (h : Same start adapter) : Same start adapter.eraseContext :=
  ⟨h.mariadb, h.config, h.stored⟩

theorem loaded_loadMetadata {adapter : Adapter} (hSame : Same start adapter)
    (hStored : start.stored = (adapter.databases.find? (·.id = request.databaseId)).map Storage.Database.dbPassword) :
    Same start (adapter.loadMetadata request).2 ∧
      ((adapter.loadMetadata request).1.success = true → Loaded start (adapter.loadMetadata request).2) := by
  rw [Adapter.loadMetadata]
  split
  · exact ⟨hSame, fun h => absurd h Bool.false_ne_true⟩
  split
  · exact ⟨hSame, fun h => absurd h Bool.false_ne_true⟩
  · next database hFound =>
    obtain ⟨hFind, -⟩ := Option.filter_eq_some_iff.mp hFound
    split
    · exact ⟨hSame, fun h => absurd h Bool.false_ne_true⟩
    · refine ⟨⟨hSame.mariadb, hSame.config, hSame.stored⟩, fun _ => ⟨⟨hSame.mariadb, hSame.config, hSame.stored⟩, ?_⟩⟩
      exact ⟨_, rfl, by rw [hStored, hFind]; rfl⟩

theorem loaded_inspectWordPress {adapter : Adapter} (h : Loaded start adapter) (answer : Answer) :
    Same start (adapter.inspectWordPress answer).2 ∧
      ((adapter.inspectWordPress answer).1.success = true → Loaded start (adapter.inspectWordPress answer).2) := by
  rw [Adapter.inspectWordPress]
  split
  · exact ⟨h.same, fun _ => h⟩
  split
  · exact ⟨h.same, fun _ => h⟩
  · exact ⟨h.same.eraseContext, fun hFailed => absurd hFailed Bool.false_ne_true⟩

theorem loaded_resolveDatabaseTarget {adapter : Adapter} (h : Loaded start adapter) (target : TargetAnswer) :
    Same start (adapter.resolveDatabaseTarget request target).2 ∧
      ((adapter.resolveDatabaseTarget request target).1.success = true →
        Loaded start (adapter.resolveDatabaseTarget request target).2) := by
  obtain ⟨hSame, context, hContext, hStored⟩ := h
  simp only [Adapter.resolveDatabaseTarget, hContext]
  split
  · exact ⟨hSame.eraseContext, fun hFailed => absurd hFailed Bool.false_ne_true⟩
  split
  · exact ⟨hSame.eraseContext, fun hFailed => absurd hFailed Bool.false_ne_true⟩
  split
  · exact ⟨hSame.eraseContext, fun hFailed => absurd hFailed Bool.false_ne_true⟩
  · next database _ _ _ =>
    have hSame' : Same start { adapter with context := some { context with dbUser := database.dbUser } } :=
      ⟨hSame.mariadb, hSame.config, hSame.stored⟩
    exact ⟨hSame', fun _ => ⟨hSame', _, rfl, hStored⟩⟩

theorem loaded_loadMariaDBAdminCredentials {adapter : Adapter} (h : Loaded start adapter) (rootPassword : Bytes) :
    Same start (adapter.loadMariaDBAdminCredentials rootPassword).2 ∧
      ((adapter.loadMariaDBAdminCredentials rootPassword).1.success = true →
        Loaded start (adapter.loadMariaDBAdminCredentials rootPassword).2) := by
  rw [Adapter.loadMariaDBAdminCredentials]
  split
  · exact ⟨h.same, fun _ => h⟩
  split
  · exact ⟨h.same.eraseContext, fun hFailed => absurd hFailed Bool.false_ne_true⟩
  · exact ⟨h.same, fun _ => h⟩

/-- A user that may be rotated keeps the context. -/
theorem loaded_assessSharedUser {adapter : Adapter} (h : Loaded start adapter) (answer : Answer)
    (assessed : SharedAssessment) :
    Same start (adapter.assessSharedUser request answer assessed).2 ∧
      ((adapter.assessSharedUser request answer assessed).1.success = true →
        rotationAllowed (adapter.assessSharedUser request answer assessed).1.sharedAssessment = true →
        Loaded start (adapter.assessSharedUser request answer assessed).2) := by
  rw [Adapter.assessSharedUser]
  split
  · exact ⟨h.same, fun _ _ => h⟩
  dsimp only
  split
  · exact ⟨h.same.eraseContext, fun _ hAllowed => absurd hAllowed Bool.false_ne_true⟩
  · cases hAnswer : answer.success with
    | false => exact ⟨h.same.eraseContext, fun hFailed => absurd hFailed Bool.false_ne_true⟩
    | true =>
        simp only [if_true, Bool.true_and]
        refine ⟨?_, ?_⟩
        · split
          · exact h.same
          · exact h.same.eraseContext
        · intro _ hAllowed
          rw [if_pos hAllowed]
          exact h

theorem verified_verifyOldCredential {adapter : Adapter} (h : Loaded start adapter) (answer : Answer) :
    Same start (adapter.verifyOldCredential answer).2 ∧
      ((adapter.verifyOldCredential answer).1.success = true →
        Verified start (adapter.verifyOldCredential answer).2) := by
  obtain ⟨hSame, context, hContext, hStored⟩ := h
  simp only [Adapter.verifyOldCredential, hContext]
  split
  · next hLogin =>
    have hServer : adapter.mariadb = context.oldPassword := by
      simp only [Adapter.verifyPassword, Bool.and_eq_true, decide_eq_true_eq] at hLogin
      exact hLogin.2
    exact ⟨hSame, fun _ => ⟨hSame, context, hContext, hStored, hSame.mariadb.symm.trans hServer⟩⟩
  · exact ⟨hSame.eraseContext, fun hFailed => absurd hFailed Bool.false_ne_true⟩

theorem verified_generatePassword {adapter : Adapter} (h : Verified start adapter) (generated : Bytes) :
    Same start (adapter.generatePassword generated).2 ∧
      ((adapter.generatePassword generated).1.success = true →
        Verified start (adapter.generatePassword generated).2 ∧
          (adapter.generatePassword generated).1.generatedPassword = generated) := by
  obtain ⟨hSame, context, hContext, hStored, hServer⟩ := h
  rw [Adapter.generatePassword]
  split
  · exact ⟨hSame.eraseContext, fun hFailed => absurd hFailed Bool.false_ne_true⟩
  · refine ⟨⟨hSame.mariadb, hSame.config, hSame.stored⟩, fun _ => ⟨⟨⟨hSame.mariadb, hSame.config, hSame.stored⟩, ?_⟩, rfl⟩⟩
    exact ⟨{ context with newPassword := generated }, by rw [hContext]; rfl, hStored, hServer⟩

end Prepare

section Phases

variable {start : Adapter} (env : Environment) (request : Request)

/-- The state at the start of the steps: nothing is changed, and the records in
memory are those of the store. -/
def Fresh (start : Adapter) (request : Request) (adapter : Adapter) : Prop :=
  Same start adapter ∧
    start.stored = (adapter.databases.find? (·.id = request.databaseId)).map Storage.Database.dbPassword

theorem spec_prepareRotation :
    Spec (On (Fresh start request)) (prepareRotation env request)
      (fun newPassword => On fun adapter => newPassword = env.generated ∧ Verified start adapter)
      (Kept start env.generated) := by
  unfold prepareRotation
  refine Spec.bind (fun _ => On (Loaded start)) (spec_prepare
    (fun adapter h => (loaded_loadMetadata h.1 h.2).1) (fun adapter h => (loaded_loadMetadata h.1 h.2).2)) ?_
  intro _
  refine Spec.bind (fun _ => On (Loaded start)) (spec_prepare
    (fun adapter h => (loaded_inspectWordPress h _).1) (fun adapter h => (loaded_inspectWordPress h _).2)) ?_
  intro _
  refine Spec.bind (fun _ => On (Loaded start)) (spec_prepare
    (fun adapter h => (loaded_resolveDatabaseTarget h _).1) (fun adapter h => (loaded_resolveDatabaseTarget h _).2)) ?_
  intro _
  refine Spec.bind (fun _ => On (Loaded start)) (spec_prepare
    (fun adapter h => (loaded_loadMariaDBAdminCredentials h _).1)
    (fun adapter h => (loaded_loadMariaDBAdminCredentials h _).2)) ?_
  intro _
  refine Spec.bind (fun result => On fun adapter => Same start adapter ∧
      (rotationAllowed result.sharedAssessment = true → Loaded start adapter)) (spec_prepare
    (fun adapter h => (loaded_assessSharedUser h _ _).1)
    (fun adapter h hSuccess =>
      ⟨(loaded_assessSharedUser h _ _).1, (loaded_assessSharedUser h _ _).2 hSuccess⟩)) ?_
  intro shared
  refine Spec.bind (fun _ => On (Loaded start)) ?_ ?_
  · cases hAllowed : rotationAllowed shared.sharedAssessment with
    | false => exact spec_failWith _ _ fun adapter h => h.1
    | true => exact fun s h => h.2 rfl
  intro _
  refine Spec.bind (fun _ => On (Verified start)) (spec_prepare
    (fun adapter h => (verified_verifyOldCredential h _).1) (fun adapter h => (verified_verifyOldCredential h _).2)) ?_
  intro _
  refine Spec.bind (fun result => On fun adapter => Same start adapter ∧
      (result.success = true → Verified start adapter ∧ result.generatedPassword = env.generated))
    (spec_runStep _ _ _ fun adapter h => verified_generatePassword h _) ?_
  intro generated
  refine Spec.bind (fun _ => On fun adapter => Verified start adapter ∧ generated.generatedPassword = env.generated) ?_ ?_
  · cases hSuccess : generated.success with
    | false => exact spec_failWith _ _ fun adapter h => h.1
    | true =>
        refine Spec.branch (fun _ => spec_failWith _ _ fun adapter h => h.1) fun _ => ?_
        exact fun s h => h.2 rfl
  · exact fun _ s h => ⟨h.2, h.1⟩

/-! ## Behind the first change -/

theorem spec_compensateAfterFailure {α : Type} {post : α → Running → Prop} (configUpdated runtimeApplyAttempted : Bool) :
    Spec (On (Compensable start configUpdated))
      (compensateAfterFailure env request configUpdated runtimeApplyAttempted) post (Kept start env.generated) := by
  unfold compensateAfterFailure
  refine Spec.bind (fun _ => On (Compensable start configUpdated)) (spec_note _ _ _) ?_
  intro _
  -- the server has its old password from here on
  let restored := fun (configRestored : Bool) (adapter : Adapter) =>
    Compensable start configRestored adapter ∧ adapter.mariadb = start.mariadb
  refine Spec.bind (fun _ => On (restored configUpdated)) (spec_compensateStep ?_) ?_
  · rintro adapter ⟨context, hContext, hStored, hServer, hConfig⟩ hSuccess
    simp only [Adapter.restoreMariaDBPassword, hContext] at hSuccess ⊢
    have hAnswer : env.restore.success = true := by
      cases hAnswer : env.restore.success with
      | false =>
          rw [hAnswer] at hSuccess
          exact absurd hSuccess Bool.false_ne_true
      | true => rfl
    rw [if_pos (by simp [ChangeAnswer.effective, hAnswer])]
    exact ⟨⟨context, rfl, hStored, hServer, hConfig⟩, hServer.symm⟩
  intro _
  refine Spec.bind (fun _ => On (restored false)) ?_ ?_
  · cases configUpdated with
    | false => exact fun s h => h
    | true =>
        refine spec_compensateStep ?_
        rintro adapter ⟨⟨context, hContext, hStored, hServer, hConfig⟩, hMariadb⟩ hSuccess
        simp only [Adapter.restoreWordPressConfig, hContext] at hSuccess ⊢
        have hAnswer : env.rollback.success = true := by
          cases hAnswer : env.rollback.success with
          | false =>
              rw [hAnswer] at hSuccess
              exact absurd hSuccess Bool.false_ne_true
          | true => rfl
        rw [if_pos (by simp [ChangeAnswer.effective, hAnswer])]
        exact ⟨⟨context, rfl, hStored, hServer, hConfig⟩, hMariadb⟩
  intro _
  refine Spec.bind (fun _ => On (restored false)) ?_ ?_
  · refine Spec.branch (fun _ => spec_compensateStep fun adapter h _ => h) fun _ => ?_
    exact fun s h => h
  intro _
  refine Spec.bind (fun _ => On (restored false)) (spec_compensateStep ?_) ?_
  · rintro adapter ⟨⟨context, hContext, hRest⟩, hMariadb⟩ hSuccess
    simp only [Adapter.verifyOldCredential, hContext] at hSuccess ⊢
    split at hSuccess
    · next hLogin =>
      rw [if_pos hLogin]
      exact ⟨⟨context, hContext, hRest⟩, hMariadb⟩
    · exact absurd hSuccess Bool.false_ne_true
  intro _
  refine Spec.bind (fun _ => On (restored false)) (spec_compensateStep fun adapter h _ => h) ?_
  intro _
  refine Spec.bind (fun _ => On (restored false)) (spec_compensateStep fun adapter h _ => h) ?_
  intro _
  refine Spec.bind (fun _ => On (Same start)) (spec_compensateStep ?_) ?_
  · rintro adapter ⟨⟨context, hContext, hStored, -, hConfig⟩, hMariadb⟩ hSuccess
    simp only [Adapter.verifyRestoredMetadata, hContext] at hSuccess ⊢
    split at hSuccess
    · exact absurd hSuccess Bool.false_ne_true
    split at hSuccess
    · exact absurd hSuccess Bool.false_ne_true
    split at hSuccess
    · exact absurd hSuccess Bool.false_ne_true
    split at hSuccess
    · exact absurd hSuccess Bool.false_ne_true
    · next hMemory hReader hRead =>
      rw [if_neg hMemory, if_neg hReader, if_neg hRead]
      simp only [ne_eq, not_not] at hRead
      have hReread : adapter.stored = some context.oldPassword := by
        rw [Adapter.readPassword] at hRead
        split at hRead
        · exact hRead
        · cases hRead
      exact ⟨hMariadb, hConfig, hReread.trans hStored.symm⟩
  intro _
  exact spec_failWith _ _ fun adapter h => h

theorem spec_proceed {P Q : Adapter → Prop} {step : Adapter → StepResult × Adapter} {state : RotationState}
    {code message fallback failure : String} (configUpdated runtimeApplyAttempted : Bool)
    (hFails : ∀ adapter, P adapter → (step adapter).1.success = false →
      Compensable start configUpdated (step adapter).2)
    (hNext : ∀ adapter, P adapter → (step adapter).1.success = true → Q (step adapter).2) :
    Spec (On P)
      (proceed env request state code message step fallback failure configUpdated runtimeApplyAttempted)
      (fun _ => On Q) (Kept start env.generated) := by
  unfold proceed
  refine Spec.bind (fun result => On fun adapter => (result.success = false → Compensable start configUpdated adapter) ∧
    (result.success = true → Q adapter))
    (spec_runStep _ _ _ fun adapter h => ⟨hFails adapter h, hNext adapter h⟩) ?_
  intro result
  cases hSuccess : result.success with
  | false =>
      refine Spec.bind (fun _ => On (Compensable start configUpdated)) (fun s h => h.1 rfl) fun _ => ?_
      exact spec_compensateAfterFailure env request configUpdated runtimeApplyAttempted
  | true => exact fun s h => h.2 rfl

/-- The server may have either password; everything else is as it was. -/
def Changing (start adapter : Adapter) : Prop := Compensable start false adapter ∧ adapter.stored = start.stored

theorem changing_changeMariaDBPassword {adapter : Adapter} (h : Verified start adapter) (answer : ChangeAnswer)
    (newPassword : Bytes) : Changing start (adapter.changeMariaDBPassword answer newPassword).2 := by
  obtain ⟨hSame, context, hContext, hStored, hServer⟩ := h
  simp only [Adapter.changeMariaDBPassword, hContext]
  split
  · exact ⟨⟨context, rfl, hStored, hServer, hSame.config⟩, hSame.stored⟩
  · exact ⟨⟨context, hContext, hStored, hServer, hSame.config⟩, hSame.stored⟩

/-- A login with the old password tells that the server still has it. -/
theorem same_of_probeOldCredential {adapter : Adapter} {answer : Answer} (h : Changing start adapter)
    (hSuccess : (adapter.probeOldCredential answer).success = true) : Same start adapter := by
  obtain ⟨⟨context, hContext, -, hServer, hConfig⟩, hStored⟩ := h
  simp only [Adapter.probeOldCredential, hContext] at hSuccess
  split at hSuccess
  · next hLogin =>
    simp only [Adapter.verifyPassword, Bool.and_eq_true, decide_eq_true_eq] at hLogin
    exact ⟨hLogin.2.trans hServer.symm, hConfig, hStored⟩
  · exact absurd hSuccess Bool.false_ne_true

theorem spec_changePassword (newPassword : Bytes) :
    Spec (On (Verified start)) (changePassword env newPassword) (fun _ => On (Compensable start false))
      (Kept start env.generated) := by
  unfold changePassword
  refine Spec.bind (fun _ => On (Changing start))
    (spec_runStep _ _ _ fun adapter h => changing_changeMariaDBPassword h _ _) ?_
  intro result
  refine Spec.when (fun _ => ?_) fun _ s h => h.1
  refine Spec.bind (fun _ => On (Changing start)) (spec_note _ _ _) fun _ => ?_
  refine Spec.bind (fun old => On fun adapter => Changing start adapter ∧ (old.success = true → Same start adapter))
    (fun s h => ⟨h, same_of_probeOldCredential h⟩) fun old => ?_
  refine Spec.bind (fun _ => On fun adapter => Changing start adapter ∧ (old.success = true → Same start adapter))
    (fun s h => h) fun new => ?_
  refine Spec.branch (fun _ s h => h.1.1) fun _ => ?_
  refine Spec.branch (fun hOld => spec_failWith _ _ fun adapter h => h.2 ?_) fun _ => ?_
  · rw [Bool.and_eq_true] at hOld
    exact hOld.1
  · exact Spec.bind (fun _ => On fun _ => True) (fun s _ => trivial) fun _ => spec_manualRecovery

/-- The configuration has the new password, and the update kept its old content. -/
def Updated (start : Adapter) (newPassword : Bytes) (adapter : Adapter) : Prop :=
  Compensable start true adapter ∧ adapter.config = newPassword

theorem compensable_updateWordPressConfig {adapter : Adapter} (h : Compensable start false adapter) (answer : Answer)
    (newPassword : Bytes) :
    ((adapter.updateWordPressConfig answer newPassword).1.success = false →
        Compensable start false (adapter.updateWordPressConfig answer newPassword).2) ∧
      ((adapter.updateWordPressConfig answer newPassword).1.success = true →
        Updated start newPassword (adapter.updateWordPressConfig answer newPassword).2) := by
  obtain ⟨context, hContext, hStored, hServer, hConfig⟩ := h
  simp only [Adapter.updateWordPressConfig, hContext]
  split
  · exact ⟨fun hFailed => absurd hFailed.symm Bool.false_ne_true, fun _ => ⟨⟨_, rfl, hStored, hServer, hConfig⟩, rfl⟩⟩
  · exact ⟨fun _ => ⟨context, hContext, hStored, hServer, hConfig⟩, fun hDone => absurd hDone Bool.false_ne_true⟩

theorem mariadb_of_verifyNewCredential {adapter : Adapter} {answer : Answer} {newPassword : Bytes}
    (h : Compensable start true adapter) (hSuccess : (adapter.verifyNewCredential answer newPassword).success = true) :
    adapter.mariadb = newPassword := by
  obtain ⟨context, hContext, -⟩ := h
  simp only [Adapter.verifyNewCredential, hContext] at hSuccess
  split at hSuccess
  · next hLogin =>
    simp only [Adapter.verifyPassword, Bool.and_eq_true, decide_eq_true_eq] at hLogin
    exact hLogin.2
  · exact absurd hSuccess Bool.false_ne_true

/-- The last step before the end: all but the metadata have the new password. -/
def Persisting (start : Adapter) (newPassword : Bytes) (adapter : Adapter) : Prop :=
  Updated start newPassword adapter ∧ adapter.mariadb = newPassword

theorem holds_persistMetadata {adapter : Adapter} {newPassword : Bytes} (h : Persisting start newPassword adapter) :
    ((adapter.persistMetadata request env newPassword).1.success = false →
        Compensable start true (adapter.persistMetadata request env newPassword).2) ∧
      ((adapter.persistMetadata request env newPassword).1.success = true →
        Holds newPassword (adapter.persistMetadata request env newPassword).2) := by
  obtain ⟨⟨⟨context, hContext, hStored, hServer, hRollback⟩, hConfig⟩, hMariadb⟩ := h
  simp only [Adapter.persistMetadata, hContext]
  split
  · exact ⟨fun _ => ⟨context, hContext, hStored, hServer, hRollback⟩, fun hDone => absurd hDone Bool.false_ne_true⟩
  -- what was saved, whichever way it went
  generalize hSaved : (if env.hasPersist && env.persist.effective then
    { adapter.setMemory request newPassword with stored := some newPassword }
    else adapter.setMemory request newPassword) = saved
  have hKept : saved.context = some context ∧ saved.mariadb = newPassword ∧ saved.config = newPassword := by
    rw [← hSaved]
    split
    · exact ⟨hContext, hMariadb, hConfig⟩
    · exact ⟨hContext, hMariadb, hConfig⟩
  have hCompensable : Compensable start true (saved.setMemory request context.oldPassword) :=
    ⟨context, hKept.1, hStored, hServer, hRollback⟩
  split
  · exact ⟨fun _ => hCompensable, fun hDone => absurd hDone Bool.false_ne_true⟩
  split
  · exact ⟨fun _ => hCompensable, fun hDone => absurd hDone Bool.false_ne_true⟩
  · next hRead =>
    refine ⟨fun hFailed => absurd hFailed.symm Bool.false_ne_true, fun _ => ⟨hKept.2.1, hKept.2.2, ?_⟩⟩
    simp only [Bool.or_eq_true, Bool.not_eq_true', bne_iff_ne, ne_eq, not_or, not_not] at hRead
    have hReread := hRead.2
    rw [Adapter.readPassword] at hReread
    split at hReread
    · exact hReread
    · cases hReread

/-- A rotation keeps the promise of its final state. -/
theorem spec_rotate :
    Spec (On (Fresh start request)) (rotate env request) (Kept start env.generated) (Kept start env.generated) := by
  unfold rotate
  have hFails : ∀ {adapter : Adapter}, Fresh start request adapter → Outcome start env.generated .failed adapter :=
    fun h => h.1
  refine Spec.bind (fun _ => On (Fresh start request))
    (Spec.when (fun _ => spec_failWith _ _ fun _ h => hFails h) fun _ s h => h) fun _ => ?_
  refine Spec.bind (fun _ => On (Fresh start request))
    (Spec.when (fun _ => spec_failWith _ _ fun _ h => hFails h) fun _ s h => h) fun _ => ?_
  refine Spec.bind (fun _ => On (Fresh start request)) (spec_note _ _ _) fun _ => ?_
  refine Spec.bind (fun _ => On (Fresh start request)) (Spec.when (fun _ => ?_) fun _ s h => h) fun _ => ?_
  · exact Spec.bind (fun _ => On (Fresh start request)) (spec_note _ _ _) fun _ =>
      spec_failWith _ _ fun _ h => hFails h
  refine Spec.bind _ (spec_prepareRotation env request) fun newPassword => ?_
  refine Spec.given (fun s h => h.1) ?_
  rintro rfl
  refine Spec.bind (fun _ => On (Compensable start false))
    (Spec.consequence (spec_changePassword env env.generated) (fun s h => h.2) (fun _ _ h => h) fun _ _ h => h)
    fun _ => ?_
  refine Spec.bind (fun _ => On (Updated start env.generated)) (spec_proceed env request false false
    (fun adapter h => (compensable_updateWordPressConfig h _ _).1)
    fun adapter h => (compensable_updateWordPressConfig h _ _).2) fun _ => ?_
  refine Spec.bind (fun _ => On (Updated start env.generated))
    (spec_proceed env request true true (fun adapter h _ => h.1) fun adapter h _ => h) fun _ => ?_
  refine Spec.bind (fun _ => On (Persisting start env.generated)) (spec_proceed env request true true
    (fun adapter h _ => h.1) fun adapter h hDone => ⟨h, mariadb_of_verifyNewCredential h.1 hDone⟩) fun _ => ?_
  refine Spec.bind (fun _ => On (Persisting start env.generated))
    (spec_proceed env request true true (fun adapter h _ => h.1.1) fun adapter h _ => h) fun _ => ?_
  refine Spec.bind (fun _ => On (Persisting start env.generated))
    (spec_proceed env request true true (fun adapter h _ => h.1.1) fun adapter h _ => h) fun _ => ?_
  refine Spec.bind (fun _ => On (Holds env.generated)) (spec_proceed env request true true
    (fun adapter h => (holds_persistMetadata env request h).1)
    fun adapter h => (holds_persistMetadata env request h).2) fun _ => ?_
  exact Spec.bind (fun _ => On (Holds env.generated)) (spec_note _ _ _) fun _ s h => h

end Phases

/-- The final state of a rotation tells the truth, whatever its calls answer: `failed`
and `compensated` leave the three places as they were, `completed` has the new
password in all three, and every other end is `manualRecoveryRequired`. -/
theorem rotate_truthful (env : Environment) (request : Request) (mariadb config : Bytes) (sites : List Storage.Site)
    (databases : List Storage.Database) :
    let start := Adapter.start mariadb config sites databases request.databaseId
    let outcome := finish (rotate env request) ⟨start, []⟩
    match outcome.1.finalState with
    | .failed => Same start outcome.2.adapter
    | .compensated => Same start outcome.2.adapter
    | .completed => Holds env.generated outcome.2.adapter
    | final => final = .manualRecoveryRequired := by
  intro start outcome
  have hKept : Kept start env.generated outcome.1 outcome.2 :=
    (spec_rotate env request).finish ⟨⟨rfl, rfl, rfl⟩, rfl⟩
  unfold Kept at hKept
  cases hFinal : outcome.1.finalState <;> simp_all [Outcome]

end ContainerCP.CredentialRotation
