import ContainerCP.Access.GrantReachability
import ContainerCP.Control.Procedure

/-! What is saved of the users, the keys and the grants behind each request. -/
namespace ContainerCP.SftpApi

open Api (Request Response Endpoint apiRouter)
open Control (Spec)

variable {Host : Type}

/-- The saved rows are the ones in memory, so a restart finds what is there now. -/
def Saved (services : Services Host) : Prop := services.saved = services.memory.lists

/-- The next id of a grant is above all the others, until the counter is through. -/
def GrantIds (memory : Memory) : Prop :=
  memory.grants.nextId ≠ 0 → ∀ grant ∈ memory.grants.grants, grant.id < memory.grants.nextId

structure Durable (services : Services Host) : Prop where
  saved : Saved services
  ids : GrantIds services.memory

/-- What a save of the keys alone makes whole. -/
structure SavedBesidesKeys (services : Services Host) : Prop where
  users : services.saved.users = services.memory.users.users
  grants : services.saved.grants = services.memory.grants.grants
  ids : GrantIds services.memory

theorem Durable.besidesKeys {services : Services Host} (h : Durable services) : SavedBesidesKeys services where
  users := congrArg Lists.users h.saved
  grants := congrArg Lists.grants h.saved
  ids := h.ids

/-! ## How a handler ends -/

/-- From a state with `pre` a handler ends with `post`, unless an exception ends the
process. -/
abbrev Ends {α : Type} (pre : Services Host → Prop) (handler : Api Host α) (post : α → Services Host → Prop) : Prop :=
  Spec pre handler post fun _ _ => True

/-- A handler that keeps what is saved up to date. -/
abbrev Keeps {α : Type} (handler : Api Host α) : Prop := Ends Durable handler fun _ => Durable

namespace Ends

variable {α β : Type} {pre : Services Host → Prop}

theorem of_get {next : Services Host → Api Host α} {post : α → Services Host → Prop}
    (h : ∀ services, pre services → Ends (fun s => s = services) (next services) post) :
    Ends pre (get >>= next) post := by
  intro services hPre
  exact h services hPre services rfl

theorem saveTable {env : Env Host} {call : SaveCall} {copy : Lists → Lists → Lists}
    {post : Unit → Services Host → Prop}
    (h : ∀ services, pre services → post () { services with saved := copy services.memory.lists services.saved }) :
    Ends pre (SftpApi.saveTable env call copy) post := by
  intro services hPre
  cases hThrows : env.throws call with
  | true => simp [SftpApi.saveTable, hThrows]
  | false => simpa [SftpApi.saveTable, hThrows] using h services hPre

theorem alter {change : Memory → Memory} {post : Unit → Services Host → Prop}
    (h : ∀ services, pre services → post () { services with memory := change services.memory }) :
    Ends pre (SftpApi.alter change) post :=
  h

/-- The provider changes what it manages itself. -/
theorem ask {call : Memory → Host → LocalSftp.OperationResult × Host}
    {post : LocalSftp.OperationResult → Services Host → Prop}
    (h : ∀ services result host, pre services → post result { services with host }) : Ends pre (SftpApi.ask call) post :=
  fun services hPre => h services _ _ hPre

/-- All tables are saved at once. -/
theorem save {env : Env Host} (h : ∀ services, pre services → GrantIds services.memory) :
    Ends pre (SftpApi.save env) fun _ => Durable := by
  unfold SftpApi.save
  refine Spec.bind (fun _ s => GrantIds s.memory) (saveTable h) fun _ => ?_
  refine Spec.bind (fun _ s => GrantIds s.memory ∧ s.saved.users = s.memory.users.users)
    (saveTable fun _ hIds => ⟨hIds, rfl⟩) fun _ => ?_
  refine Spec.bind (fun _ => SavedBesidesKeys) (saveTable fun _ hUsers => ⟨hUsers.2, rfl, hUsers.1⟩) fun _ => ?_
  refine Spec.bind (fun _ => Durable) (saveTable ?_) fun _ => saveTable fun _ hSaved => ⟨hSaved.saved, hSaved.ids⟩
  intro services hSaved
  exact ⟨by simp [Saved, Memory.lists, hSaved.users, hSaved.grants], hSaved.ids⟩

theorem saveKeys {env : Env Host} {call : SaveCall} (h : ∀ services, pre services → SavedBesidesKeys services) :
    Ends pre (SftpApi.saveKeys env call) fun _ => Durable := by
  apply saveTable
  intro services hPre
  have hSaved := h services hPre
  exact ⟨by simp [Saved, Memory.lists, hSaved.users, hSaved.grants], hSaved.ids⟩

/-- A change of the keys in memory leaves the rest saved. -/
theorem alterKeys {change : Memory → Access.AccessKeyManager}
    (h : ∀ services, pre services → SavedBesidesKeys services) :
    Ends pre (SftpApi.alter fun memory => { memory with keys := change memory }) fun _ => SavedBesidesKeys :=
  alter fun services hPre => ⟨(h services hPre).users, (h services hPre).grants, (h services hPre).ids⟩

/-- A save whose exception is caught leaves the saved keys as they were. -/
theorem trySaveKeys {env : Env Host} {call : SaveCall} (h : ∀ services, pre services → SavedBesidesKeys services) :
    Ends pre (SftpApi.trySaveKeys env call) fun saved services =>
      if saved then Durable services else env.throws call = true ∧ pre services := by
  intro services hPre
  have hSaves : Ends pre (SftpApi.saveKeys env call) fun _ => Durable := saveKeys h
  have hSaved := hSaves services hPre
  unfold SftpApi.trySaveKeys
  cases hThrows : env.throws call with
  | true =>
      have hError : SftpApi.saveKeys env call services = .error .thrown services := by
        simp [SftpApi.saveKeys, SftpApi.saveTable, hThrows]
      rw [hError]
      exact ⟨rfl, hPre⟩
  | false =>
      cases hRun : SftpApi.saveKeys env call services with
      | error exception s' => simp [SftpApi.saveKeys, SftpApi.saveTable, hThrows] at hRun
      | ok value s' =>
          rw [hRun] at hSaved
          exact hSaved

theorem answer {response : α} (h : ∀ services, pre services → Durable services) :
    Ends pre (pure response : Api Host α) fun _ => Durable :=
  Spec.pure h

end Ends

/-! ## Keys -/

section Handlers

variable {env : Env Host} {request : Request}

theorem keeps_writeKeys {pre : Services Host → Prop} (h : ∀ services, pre services → Durable services) (user : UInt64) :
    Ends pre (writeKeys env user) fun _ => Durable :=
  Ends.ask fun services _ _ hPre => ⟨(h services hPre).saved, (h services hPre).ids⟩

theorem keeps_patchSftpKey : Keeps (patchSftpKey env request) := by
  unfold patchSftpKey
  refine Ends.of_get fun services hDurable => ?_
  have hHere : ∀ s : Services Host, s = services → Durable s := by
    rintro _ rfl
    exact hDurable
  dsimp only
  split
  · exact Ends.answer hHere
  · split
    · exact Ends.answer hHere
    · next user key _ =>
      have hSwitch : ∀ (pre : Services Host → Prop) (condition enabled : Bool), (∀ s, pre s → Durable s) →
          Ends pre (Control.when condition
            (alter fun memory => { memory with keys := setKeyEnabled memory.keys key.id enabled }))
            fun _ => SavedBesidesKeys := by
        intro pre condition enabled hPre
        apply Spec.when
        · intro _
          exact Ends.alterKeys fun s hState => (hPre s hState).besidesKeys
        · intro _ s hState
          exact (hPre s hState).besidesKeys
      refine Spec.bind _ (hSwitch _ _ _ hHere) fun _ => ?_
      refine Spec.bind _ (Ends.saveKeys fun _ => id) fun _ => ?_
      refine Spec.bind _ (keeps_writeKeys (fun _ => id) user) fun written => ?_
      cases written with
      | ok _ => exact Ends.answer fun _ => id
      | error message =>
          refine Spec.bind _ (hSwitch _ _ _ fun _ => id) fun _ => ?_
          refine Spec.bind _ (Ends.saveKeys fun _ => id) fun _ => ?_
          exact Ends.answer fun _ => id

theorem keeps_deleteSftpKey : Keeps (deleteSftpKey env request) := by
  unfold deleteSftpKey
  refine Ends.of_get fun services hDurable => ?_
  have hHere : ∀ s : Services Host, s = services → Durable s := by
    rintro _ rfl
    exact hDurable
  dsimp only
  split
  · exact Ends.answer hHere
  · split
    · exact Ends.answer hHere
    · next user key _ =>
      refine Spec.bind _ (Ends.alterKeys fun s hState => (hHere s hState).besidesKeys) fun _ => ?_
      refine Spec.bind _ (Ends.saveKeys fun _ => id) fun _ => ?_
      refine Spec.bind _ (keeps_writeKeys (fun _ => id) user) fun written => ?_
      cases written with
      | ok _ => exact Ends.answer fun _ => id
      | error message =>
          refine Spec.bind _ (Ends.alterKeys fun _ => Durable.besidesKeys) fun _ => ?_
          refine Spec.bind _ (Ends.saveKeys fun _ => id) fun _ => ?_
          exact Ends.answer fun _ => id

theorem keeps_rollbackKeys (hBack : env.throws .keysBack = false) (previous : List Access.AccessKey) :
    Ends SavedBesidesKeys (rollbackKeys env previous) fun _ => Durable := by
  unfold rollbackKeys
  refine Spec.bind _ (Ends.alterKeys fun _ => id) fun _ => ?_
  refine Spec.bind _ (Ends.trySaveKeys fun _ => id) fun saved => ?_
  cases saved with
  | true => exact Ends.answer fun _ => id
  | false => exact Ends.answer fun s hThrows => absurd (hThrows.1.symm.trans hBack) (by decide)

/-- The id of a new key is the next one of the counter. -/
theorem create_ne_zero {keys : Access.AccessKeyManager} {key : Access.AccessKey} (hNext : keys.nextId ≠ 0)
    (hNew : ¬(keys.keys.any fun existing =>
      existing.accessUserId = key.accessUserId && existing.fingerprint = key.fingerprint) = true) :
    (keys.create key).1 ≠ 0 := by
  rw [Access.AccessKeyManager.create, if_neg hNew]
  exact hNext

theorem keeps_addValidatedKey (hBack : env.throws .keysBack = false) (user : UInt64)
    (validation : Access.SshKeyValidation) (comment : Bytes) (enabled : Bool) (publicKey : Bytes) :
    Ends (fun s => Durable s ∧ s.memory.keys.nextId ≠ 0)
      (addValidatedKey env user validation comment enabled publicKey) fun _ => Durable := by
  unfold addValidatedKey
  refine Ends.of_get fun services ⟨hDurable, hNext⟩ => ?_
  have hHere : ∀ s : Services Host, s = services → Durable s := by
    rintro _ rfl
    exact hDurable
  dsimp only
  split
  · exact Ends.answer hHere
  · next hNew =>
    refine Spec.bind _ (Ends.alterKeys fun s hState => (hHere s hState).besidesKeys) fun _ => ?_
    rw [if_neg (create_ne_zero hNext hNew)]
    refine Spec.bind _ (Ends.trySaveKeys fun _ => id) fun saved => ?_
    cases saved with
    | false =>
        refine Spec.bind (fun _ => Durable) ?_ fun _ => Ends.answer fun _ => id
        exact (keeps_rollbackKeys hBack _).consequence (fun _ hState => hState.2) (fun _ _ => id) fun _ _ _ => trivial
    | true =>
        refine Spec.bind _ (keeps_writeKeys (fun _ => id) user) fun written => ?_
        cases written with
        | ok _ => exact Ends.answer fun _ => id
        | error message =>
            refine Spec.bind (fun _ => Durable) ?_ fun _ => Ends.answer fun _ => id
            exact (keeps_rollbackKeys hBack _).consequence (fun _ => Durable.besidesKeys) (fun _ _ => id)
              fun _ _ _ => trivial

theorem keeps_generateKey (hBack : env.throws .keysBack = false) (user : UInt64) :
    Ends (fun s => Durable s ∧ s.memory.keys.nextId ≠ 0) (generateKey env request user) fun _ => Durable := by
  unfold generateKey
  split
  · exact Ends.answer fun _ => And.left
  · split
    · exact Ends.answer fun _ => And.left
    · split
      · exact Ends.answer fun _ => And.left
      · refine Spec.bind _ (keeps_addValidatedKey hBack _ _ _ _ _) fun result => ?_
        cases result with
        | ok _ => exact Ends.answer fun _ => id
        | error _ => exact Ends.answer fun _ => id

theorem keeps_importKey (hBack : env.throws .keysBack = false) (user : UInt64) :
    Ends (fun s => Durable s ∧ s.memory.keys.nextId ≠ 0) (importKey env request user) fun _ => Durable := by
  unfold importKey
  split
  · exact Ends.answer fun _ => And.left
  · split
    · exact Ends.answer fun _ => And.left
    · refine Spec.bind _ (keeps_addValidatedKey hBack _ _ _ _ _) fun result => ?_
      cases result with
      | ok _ => exact Ends.answer fun _ => id
      | error _ => exact Ends.answer fun _ => id

theorem keeps_rebuildKeys (user : UInt64) : Keeps (rebuildKeys env user) := by
  unfold rebuildKeys
  refine Spec.bind _ (keeps_writeKeys (fun _ => id) user) fun written => ?_
  cases written with
  | ok _ => exact Ends.answer fun _ => id
  | error _ => exact Ends.answer fun _ => id

/-! ## Users -/

theorem keeps_getUsers : Keeps (getUsers env) := by
  unfold getUsers
  refine Ends.of_get fun services hDurable => Ends.answer ?_
  rintro _ rfl
  exact hDurable

theorem keeps_getUser : Keeps (getUser env request) := by
  unfold getUser
  refine Ends.of_get fun services hDurable => ?_
  have hHere : ∀ s : Services Host, s = services → Durable s := by
    rintro _ rfl
    exact hDurable
  dsimp only
  split <;> split <;> exact Ends.answer hHere

/-- A change of the users in memory keeps the ids of the grants. -/
theorem ends_alterUsers {pre : Services Host → Prop} {change : Memory → AccessUserManager}
    (h : ∀ services, pre services → GrantIds services.memory) :
    Ends pre (alter fun memory => { memory with users := change memory }) fun _ s => GrantIds s.memory :=
  Ends.alter h

theorem keeps_postUser :
    Ends (fun s => Durable s ∧ s.memory.users.nextId ≠ 0) (postUser env request) fun _ => Durable := by
  unfold postUser
  refine Ends.of_get fun services ⟨hDurable, hNext⟩ => ?_
  have hHere : ∀ s : Services Host, s = services → Durable s := by
    rintro _ rfl
    exact hDurable
  -- every way that changes the users saves all tables in the end
  have hSaves : ∀ response : Response, Ends (fun s => GrantIds s.memory) (do save env; return response)
      fun _ => Durable :=
    fun response => Spec.bind _ (Ends.save fun _ => id) fun _ => Ends.answer fun _ => id
  dsimp only
  split
  · exact Ends.answer hHere
  · split
    · exact Ends.answer hHere
    · split
      · exact Ends.answer hHere
      · refine Spec.bind _ (ends_alterUsers fun s hState => (hHere s hState).ids) fun _ => ?_
        refine Spec.bind _ (ends_alterUsers fun _ => id) fun _ => ?_
        split
        · exact hSaves _
        · refine Spec.bind (fun _ s => GrantIds s.memory) (Ends.ask fun _ _ _ => id) fun created => ?_
          cases created with
          | error message =>
              refine Ends.of_get fun middle hIds => ?_
              have hMiddle : ∀ s : Services Host, s = middle → GrantIds s.memory := by
                rintro _ rfl
                exact hIds
              split
              · exact Spec.bind _ (ends_alterUsers hMiddle) fun _ => hSaves _
              · exact Spec.bind _ (ends_alterUsers hMiddle) fun _ => hSaves _
          | ok _ =>
              refine Ends.of_get fun middle hIds => ?_
              have hMiddle : ∀ s : Services Host, s = middle → GrantIds s.memory := by
                rintro _ rfl
                exact hIds
              split
              · refine Spec.bind (fun _ s => GrantIds s.memory)
                  (Ends.ask fun s _ _ hState => hMiddle s hState) fun written => ?_
                cases written with
                | error _ => exact hSaves _
                | ok _ => exact hSaves _
              · exact (hSaves _).consequence hMiddle (fun _ _ => id) fun _ _ => id

theorem keeps_patchUser : Keeps (patchUser env request) := by
  unfold patchUser
  refine Ends.of_get fun services hDurable => ?_
  have hHere : ∀ s : Services Host, s = services → Durable s := by
    rintro _ rfl
    exact hDurable
  have hSaves : ∀ response : Response, Ends (fun s => GrantIds s.memory) (do save env; return response)
      fun _ => Durable :=
    fun response => Spec.bind _ (Ends.save fun _ => id) fun _ => Ends.answer fun _ => id
  dsimp only
  split
  · exact Ends.answer hHere
  · split
    · exact keeps_patchSftpKey.consequence hHere (fun _ _ => id) fun _ _ => id
    · split
      · exact Ends.answer hHere
      · split
        · exact Ends.answer hHere
        · next user _ =>
          split
          · exact Ends.answer hHere
          · split
            · exact (hSaves _).consequence (fun s hState => (hHere s hState).ids) (fun _ _ => id) fun _ _ => id
            · split
              · refine Spec.bind (fun _ s => GrantIds s.memory)
                  (Ends.ask fun s _ _ hState => (hHere s hState).ids) fun created => ?_
                cases created with
                | error _ => exact Spec.bind _ (ends_alterUsers fun _ => id) fun _ => hSaves _
                | ok _ => exact Spec.bind _ (ends_alterUsers fun _ => id) fun _ => hSaves _
              · refine Spec.bind (fun _ => Durable)
                  (Ends.ask fun s _ _ hState => ⟨(hHere s hState).saved, (hHere s hState).ids⟩) fun disabled => ?_
                cases disabled with
                | error _ => exact Ends.answer fun _ => id
                | ok _ => exact Spec.bind _ (ends_alterUsers fun _ hState => hState.ids) fun _ => hSaves _

/-- The user that a `DELETE` removes: the path names it and nothing else, and the provider
gives up its account. -/
def removed (env : Env Host) (request : Request) (services : Services Host) : Option AccessUser :=
  if !env.available || (cutAtText (bytes "/keys/") (restOf request)).isSome ||
      (restOf request).contains (ascii '/') then none
  else
    match (parseUid (restOf request)).bind services.memory.users.find with
    | none => none
    | some user =>
        match (env.provider.removeUser services.memory user.id services.host).1 with
        | .error _ => none
        | .ok _ => some user

theorem keeps_deleteUser :
    Ends (fun s => Durable s ∧ removed env request s = none) (deleteUser env request) fun _ => Durable := by
  unfold deleteUser
  refine Ends.of_get fun services ⟨hDurable, hRemoved⟩ => ?_
  have hHere : ∀ s : Services Host, s = services → Durable s := by
    rintro _ rfl
    exact hDurable
  dsimp only
  split
  · exact Ends.answer hHere
  · next hAvailable =>
    split
    · exact keeps_deleteSftpKey.consequence hHere (fun _ _ => id) fun _ _ => id
    · next hKeys =>
      split
      · exact Ends.answer hHere
      · next hSlash =>
        rw [removed, if_neg (by simp_all)] at hRemoved
        split
        · exact Ends.answer hHere
        · next user hUser =>
          rw [hUser] at hRemoved
          dsimp only at hRemoved
          refine Spec.bind (fun result s => Durable s ∧ ∃ message, result = .error message) ?_ fun result => ?_
          · rintro start rfl
            cases hResult : (env.provider.removeUser start.memory user.id start.host).1 with
            | ok _ =>
                rw [hResult] at hRemoved
                cases hRemoved
            | error message => exact ⟨⟨hDurable.saved, hDurable.ids⟩, message, hResult⟩
          · cases result with
            | ok _ => exact fun s hState => by obtain ⟨-, message, hEq⟩ := hState; cases hEq
            | error message => exact Ends.answer fun _ => And.left

/-! ## Grants -/

theorem eraseP_new {grants : List AccessGrant} (grant : AccessGrant) (h : ∀ other ∈ grants, other.id < grant.id) :
    (grants ++ [grant]).eraseP (fun other => other.id = grant.id) = grants := by
  have hOld : ∀ other ∈ grants, ¬decide (other.id = grant.id) = true := by
    intro other hOther
    simpa using UInt64.ne_of_lt (h other hOther)
  rw [List.eraseP_append_right _ hOld, List.eraseP_cons_of_pos (by simp), List.append_nil]

theorem grantIds_create {memory : Memory} (h : GrantIds memory) (hNext : memory.grants.nextId ≠ 0) (user site : UInt64)
    (permission : LocalSftp.Permission) :
    GrantIds { memory with grants := (memory.grants.create user site permission).2 } := by
  intro hNew grant hGrant
  have hPlus : (memory.grants.nextId + 1).toNat = memory.grants.nextId.toNat + 1 := by
    have hNonzero : (memory.grants.nextId + 1).toNat ≠ 0 := fun hZero => hNew (UInt64.toNat_inj.mp hZero)
    rw [UInt64.toNat_add] at hNonzero ⊢
    have hLt := memory.grants.nextId.toNat_lt
    have hOne : (1 : UInt64).toNat = 1 := rfl
    omega
  have hLe : grant.id.toNat ≤ memory.grants.nextId.toNat := by
    rcases List.mem_append.mp hGrant with hOld | hLast
    · exact Nat.le_of_lt (UInt64.lt_iff_toNat_lt.mp (h hNext grant hOld))
    · rw [List.mem_singleton.mp hLast]
  rw [UInt64.lt_iff_toNat_lt]
  exact hPlus ▸ Nat.lt_succ_of_le hLe

theorem grantIds_remove {memory : Memory} (h : GrantIds memory) (id : UInt64) :
    GrantIds { memory with grants := memory.grants.remove id } :=
  fun hNext grant hGrant => h hNext grant (List.mem_of_mem_eraseP hGrant)

theorem keeps_retryGrant (user : UInt64) (behind : Bytes) : Keeps (retryGrant env user behind) := by
  unfold retryGrant
  refine Ends.of_get fun services hDurable => ?_
  have hHere : ∀ s : Services Host, s = services → Durable s := by
    rintro _ rfl
    exact hDurable
  dsimp only
  split
  · exact Ends.answer hHere
  · refine Spec.bind (fun _ => Durable)
      (Ends.ask fun s _ _ hState => ⟨(hHere s hState).saved, (hHere s hState).ids⟩) fun result => ?_
    cases result with
    | error _ => exact Ends.answer fun _ => id
    | ok _ => exact Ends.answer fun _ => id

theorem keeps_postGrant (user : UInt64) :
    Ends (fun s => Durable s ∧ s.memory.grants.nextId ≠ 0) (postGrant env request user) fun _ => Durable := by
  unfold postGrant
  refine Ends.of_get fun services ⟨hDurable, hNext⟩ => ?_
  have hHere : ∀ s : Services Host, s = services → Durable s := by
    rintro _ rfl
    exact hDurable
  dsimp only
  split
  · exact Ends.answer hHere
  · next permission _ =>
    split
    · exact Ends.answer hHere
    · next site _ =>
      split
      · exact Ends.answer hHere
      · split
        · exact Ends.answer hHere
        · have hCreated := grantIds_create hDurable.ids hNext user site (permissionFromString permission)
          let after (s : Services Host) : Prop := s.saved = services.saved ∧ s.memory =
            { services.memory with
              grants := (services.memory.grants.create user site (permissionFromString permission)).2 }
          refine Spec.bind (fun _ => after) ?_ fun _ => ?_
          · rintro _ rfl
            exact ⟨rfl, rfl⟩
          · refine Spec.bind (fun _ => after) (Ends.ask fun _ _ _ => id) fun applied => ?_
            cases applied with
            | error message =>
                refine Spec.bind (fun _ => Durable) (Ends.alter ?_) fun _ => Ends.answer fun _ => id
                rintro s ⟨hSaved, hMemory⟩
                refine ⟨?_, hMemory ▸ grantIds_remove hCreated _⟩
                have hBack := eraseP_new ⟨services.memory.grants.nextId, user, site, permissionFromString permission⟩
                  (hDurable.ids hNext)
                have hLists := hDurable.saved
                rw [Saved, hMemory, hSaved, hLists]
                exact congrArg (Lists.mk _ _) hBack.symm
            | ok _ =>
                refine Spec.bind (fun _ => Durable) (Ends.save ?_) fun _ => Ends.answer fun _ => id
                rintro s ⟨-, hMemory⟩
                exact hMemory ▸ hCreated

theorem keeps_postKeysGrants (hBack : env.throws .keysBack = false) :
    Ends (fun s => Durable s ∧ s.memory.keys.nextId ≠ 0 ∧ s.memory.grants.nextId ≠ 0) (postKeysGrants env request)
      fun _ => Durable := by
  unfold postKeysGrants
  refine Ends.of_get fun services ⟨hDurable, hKeys, hGrants⟩ => ?_
  have hHere : ∀ s : Services Host, s = services → Durable s := by
    rintro _ rfl
    exact hDurable
  have hRoom : ∀ s : Services Host, s = services → Durable s ∧ s.memory.keys.nextId ≠ 0 := by
    rintro _ rfl
    exact ⟨hDurable, hKeys⟩
  have hRoom' : ∀ s : Services Host, s = services → Durable s ∧ s.memory.grants.nextId ≠ 0 := by
    rintro _ rfl
    exact ⟨hDurable, hGrants⟩
  dsimp only
  split
  · exact Ends.answer hHere
  · split
    · split
      · exact Ends.answer hHere
      · next user behind _ =>
        split
        · exact (keeps_rebuildKeys user).consequence hHere (fun _ _ => id) fun _ _ => id
        · split
          · exact (keeps_generateKey hBack user).consequence hRoom (fun _ _ => id) fun _ _ => id
          · split
            · exact Ends.answer hHere
            · exact (keeps_importKey hBack user).consequence hRoom (fun _ _ => id) fun _ _ => id
    · split
      · exact Ends.answer hHere
      · next user behind _ =>
        split
        · exact (keeps_retryGrant user behind).consequence hHere (fun _ _ => id) fun _ _ => id
        · exact (keeps_postGrant user).consequence hRoom' (fun _ _ => id) fun _ _ => id

end Handlers

/-! ## Runs of requests -/

section Runs

variable (env : Env Host) (request : Request)

/-- A request of the SFTP administration is answered. -/
def Answers (services : Services Host) (response : Response) (services' : Services Host) : Prop :=
  ∃ answer, serve env request = some answer ∧ Control.Returns answer services response services'

/-- What keeps a request durable: it is no `DELETE` that removes a user, the counter of
what it creates is not through, and the rows that a failed key operation puts back are
saved. -/
structure Sound (services : Services Host) : Prop where
  stays : endpointOf request.method request.path = some .sftpUserDelete → removed env request services = none
  users : endpointOf request.method request.path = some .sftpUsersPost → services.memory.users.nextId ≠ 0
  keys : endpointOf request.method request.path = some .sftpKeysGrantsPost → services.memory.keys.nextId ≠ 0
  grants : endpointOf request.method request.path = some .sftpKeysGrantsPost → services.memory.grants.nextId ≠ 0
  back : env.throws .keysBack = false

/-- The states that requests of this kind lead to, while the host changes in between. -/
inductive Reaches (start : Services Host) : Services Host → Prop where
  | start : Reaches start start
  | request {env : Env Host} {request : Request} {services services' : Services Host} {response : Response} :
      Reaches start services → Sound env request services → Answers env request services response services' →
      Reaches start services'
  | elsewhere {services : Services Host} (host : Host) : Reaches start services → Reaches start { services with host }

variable {env request}

theorem ends_of_returns {α : Type} {pre : Services Host → Prop} {handler : Api Host α}
    {post : α → Services Host → Prop} (h : Ends pre handler post) {services services' : Services Host} {value : α}
    (hPre : pre services) (hRun : Control.Returns handler services value services') : post value services' := by
  have hEnd := h services hPre
  unfold Control.Returns at hRun
  rw [hRun] at hEnd
  exact hEnd

/-- A request keeps what is saved up to date. -/
theorem durable_answers {services services' : Services Host} {response : Response} (hDurable : Durable services)
    (hSound : Sound env request services) (h : Answers env request services response services') : Durable services' := by
  obtain ⟨answer, hServe, hRun⟩ := h
  obtain ⟨endpoint, hEndpoint, hHandler⟩ := Option.bind_eq_some_iff.mp hServe
  have hServed := endpointOf_unshadowed hEndpoint
  unfold handler at hHandler
  split at hHandler
  · obtain rfl := Option.some.inj hHandler
    exact ends_of_returns keeps_getUsers hDurable hRun
  · obtain rfl := Option.some.inj hHandler
    exact ends_of_returns keeps_getUser hDurable hRun
  · obtain rfl := Option.some.inj hHandler
    exact ends_of_returns keeps_postUser ⟨hDurable, hSound.users hEndpoint⟩ hRun
  · obtain rfl := Option.some.inj hHandler
    exact ends_of_returns keeps_patchUser hDurable hRun
  · obtain rfl := Option.some.inj hHandler
    exact ends_of_returns keeps_deleteUser ⟨hDurable, hSound.stays hEndpoint⟩ hRun
  · obtain rfl := Option.some.inj hHandler
    exact ends_of_returns (keeps_postKeysGrants hSound.back)
      ⟨hDurable, hSound.keys hEndpoint, hSound.grants hEndpoint⟩ hRun
  -- the handlers behind these were registered in vain
  · exact absurd (by decide) hServed
  · exact absurd (by decide) hServed
  · exact absurd (by decide) hServed
  · exact absurd (by decide) hServed
  · exact absurd (by decide) hServed
  · exact absurd (by decide) hServed
  · cases hHandler

theorem durable_reaches {start services : Services Host} (hStart : Durable start) (h : Reaches start services) :
    Durable services := by
  induction h with
  | start => exact hStart
  | request _ hSound hAnswer ih => exact durable_answers ih hSound hAnswer
  | elsewhere host _ ih => exact ⟨ih.saved, ih.ids⟩

/-! ## The removal of a user -/

theorem ask_bind {α : Type} {call : Memory → Host → LocalSftp.OperationResult × Host}
    {next : LocalSftp.OperationResult → Api Host α} (services : Services Host) :
    (ask call >>= next) services =
      next (call services.memory services.host).1
        { services with host := (call services.memory services.host).2 } :=
  rfl

/-- The state that the removal of a user leaves. -/
def afterRemoval (env : Env Host) (services : Services Host) (user : AccessUser) : Services Host where
  memory := { services.memory with users := services.memory.users.remove user.id }
  saved := services.saved
  host := (env.provider.removeUser services.memory user.id services.host).2

theorem deleteUser_removed {services : Services Host} {user : AccessUser} (h : removed env request services = some user) :
    deleteUser env request services = .ok (success (idJson user.id ++ bytes "\x7d")) (afterRemoval env services user) ∧
      user ∈ services.memory.users.users := by
  rw [removed] at h
  split at h
  · cases h
  · next hPath =>
    have hParts : env.available = true ∧ (cutAtText (bytes "/keys/") (restOf request)).isSome = false ∧
        (restOf request).contains (ascii '/') = false := by
      simpa [and_assoc] using hPath
    obtain ⟨hAvailable, hKeys, hSlash⟩ := hParts
    split at h
    · cases h
    · next found hFound =>
      split at h
      · cases h
      · next message hResult =>
        obtain rfl := Option.some.inj h
        constructor
        · simp only [deleteUser, hAvailable, hKeys, hSlash]
          rw [Control.get_bind]
          simp only [Bool.not_true, Bool.false_eq_true, if_false, hFound]
          rw [ask_bind, hResult]
          rfl
        · obtain ⟨id, -, hFind⟩ := Option.bind_eq_some_iff.mp hFound
          exact List.mem_of_find?_eq_some hFind

/-- A removed user comes back with a restart. -/
theorem not_saved_removal {services : Services Host} {user : AccessUser} (hSaved : Saved services)
    (hMem : user ∈ services.memory.users.users) : ¬Saved (afterRemoval env services user) := by
  intro hAfter
  have hUsers : services.memory.users.users = services.memory.users.users.eraseP fun other => other.id = user.id :=
    congrArg Lists.users (hSaved.symm.trans hAfter)
  have hLength := congrArg List.length hUsers
  rw [List.length_eraseP_of_mem hMem (by simp)] at hLength
  have hPositive := List.length_pos_of_mem hMem
  omega

end Runs

/-- The request that removes the user of the sample. -/
def sampleRemoval : Request := { method := bytes "DELETE", path := bytes "/api/access/sftp/users/1" }

theorem sampleServices_durable : Durable sampleServices where
  saved := (by decide : sampleServices.saved = sampleServices.memory.lists)
  ids := by
    have hBelow : ∀ grant ∈ sampleServices.memory.grants.grants, grant.id < sampleServices.memory.grants.nextId := by
      decide
    exact fun _ => hBelow

theorem sampleRemoval_endpoint : endpointOf sampleRemoval.method sampleRemoval.path = some .sftpUserDelete :=
  endpointOf_delete (by decide)

theorem sampleRemoval_removed :
    removed sampleEnv sampleRemoval sampleServices = some { id := 1, username := bytes "alice" } := by
  decide

theorem sampleRemoval_serve : serve sampleEnv sampleRemoval = some (deleteUser sampleEnv sampleRemoval) := by
  rw [serve, sampleRemoval_endpoint]
  rfl

end ContainerCP.SftpApi
