import ContainerCP.Data.Table
import ContainerCP.Text.Bytes
import ContainerCP.Storage.Records

/-! `auth::SessionManager`: the sessions of the panel, by their tokens. The clock is
monotonic and counts from an unknown start. -/
namespace ContainerCP.Auth

structure Session where
  username : Bytes
  role : Bytes
  createdAt : Int
  expiresAt : Int
  deriving DecidableEq

structure SessionManager where
  sessions : Table Bytes Session

/-- `validate`. A session that has expired is erased when it is looked up. -/
def SessionManager.validate (manager : SessionManager) (now : Int) (token : Bytes) : Option Session × SessionManager :=
  if token = [] then (none, manager)
  else
    match manager.sessions.lookup token with
    | none => (none, manager)
    | some session =>
        if session.expiresAt ≤ now then (none, ⟨manager.sessions.erase token⟩) else (some session, manager)

/-- A token names a session that has not expired. -/
def SessionManager.Valid (manager : SessionManager) (now : Int) (token : Bytes) : Prop :=
  ∃ session, manager.sessions.lookup token = some session ∧ now < session.expiresAt

theorem SessionManager.valid_of_validate {manager : SessionManager} {now : Int} {token : Bytes}
    (h : (manager.validate now token).1 ≠ none) : token ≠ [] ∧ manager.Valid now token := by
  rw [validate] at h
  split at h
  · exact absurd rfl h
  · next hToken =>
    split at h
    · exact absurd rfl h
    · next session hSession =>
      split at h
      · exact absurd rfl h
      · next hLives => exact ⟨hToken, session, hSession, Int.not_le.mp hLives⟩

/-- A session that is found stays as it is. -/
theorem SessionManager.validate_of_some {manager : SessionManager} {now : Int} {token : Bytes} {session : Session}
    (h : (manager.validate now token).1 = some session) : (manager.validate now token).2 = manager := by
  rw [validate] at h ⊢
  split
  · rfl
  · next hToken =>
    rw [if_neg hToken] at h
    split
    · rfl
    · next found hFound =>
      rw [hFound] at h
      split
      · next hExpired =>
        simp only [if_pos hExpired] at h
        cases h
      · rfl

end ContainerCP.Auth

/-! `auth::AuthService`: the accounts of the panel, their passwords and their sessions. -/
namespace ContainerCP.Auth

open Storage (AuthUser)

/-- `security::PasswordHasher`. A hash is made from a salt and a password. -/
structure PasswordHasher where
  hash : Bytes → Bytes → Bytes
  verify : Bytes → Bytes → Bool
  isSupportedHash : Bytes → Bool

/-- What the hasher is relied on for: it knows its own hashes, and no two passwords
have the same one. -/
structure PasswordHasher.Lawful (hasher : PasswordHasher) : Prop where
  supported : ∀ salt password, hasher.isSupportedHash (hasher.hash salt password) = true
  verify_hash : ∀ salt password other, hasher.verify other (hasher.hash salt password) = true ↔ other = password

/-- The clock, and what `SecureRandom` gives while a request is handled, if it works. -/
structure Draw where
  now : Int
  salt : Option Bytes
  token : Option Bytes

structure AuthState where
  users : List AuthUser
  sessions : SessionManager
  stored : List AuthUser
  temporaryPasswordFile : Bool

/-- `SessionManager::create`. -/
def SessionManager.create (manager : SessionManager) (ttl now : Int) (token username role : Bytes) : SessionManager :=
  ⟨manager.sessions.insert token ⟨username, role, now, now + ttl⟩⟩

/-- `AuthUserManager::find`. -/
def findUser (users : List AuthUser) (username : Bytes) : Option AuthUser := users.find? (·.username = username)

/-- `authenticate`: the token of a new session, or the empty text. -/
def authenticate (hasher : PasswordHasher) (ttl : Int) (draw : Draw) (username password : Bytes) (state : AuthState) :
    Bytes × AuthState :=
  match findUser state.users username with
  | none => ([], state)
  | some user =>
      if user.enabled = false ∨ hasher.isSupportedHash user.passwordHash = false then ([], state)
      else if hasher.verify password user.passwordHash = false then ([], state)
      else
        match draw.token with
        | none => ([], state)
        | some token =>
            (token, { state with sessions := state.sessions.create ttl draw.now token user.username user.role })

/-- `PasswordHasher::hash`. Without a salt there is no hash. -/
def PasswordHasher.newHash (hasher : PasswordHasher) (draw : Draw) (password : Bytes) : Bytes :=
  match draw.salt with
  | none => []
  | some salt => hasher.hash salt password

/-- The list with the first user of some name changed. -/
def updateUser (username : Bytes) (change : AuthUser → AuthUser) : List AuthUser → List AuthUser
  | [] => []
  | user :: users =>
      if user.username = username then change user :: users else user :: updateUser username change users

def withHash (hash : Bytes) (user : AuthUser) : AuthUser := { user with passwordHash := hash, mustChangePassword := false }

/-- The part of `change_password` behind the look at the session. -/
def setPassword (hasher : PasswordHasher) (draw : Draw) (username oldPassword newPassword : Bytes) (state : AuthState) :
    Bool × AuthState :=
  match findUser state.users username with
  | none => (false, state)
  | some user =>
      if hasher.isSupportedHash user.passwordHash = false then (false, state)
      else if hasher.verify oldPassword user.passwordHash = false then (false, state)
      else if hasher.newHash draw newPassword = [] then (false, state)
      else
        let users := updateUser username (withHash (hasher.newHash draw newPassword)) state.users
        (true, { state with users := users, stored := users, temporaryPasswordFile := false })

/-- `change_password`. -/
def changePassword (hasher : PasswordHasher) (draw : Draw) (token oldPassword newPassword : Bytes) (state : AuthState) :
    Bool × AuthState :=
  let validated := state.sessions.validate draw.now token
  match validated.1 with
  | none => (false, { state with sessions := validated.2 })
  | some session =>
      setPassword hasher draw session.username oldPassword newPassword { state with sessions := validated.2 }

/-! ## The account behind a change -/

theorem findUser_updateUser (username : Bytes) (change : AuthUser → AuthUser)
    (hName : ∀ user, (change user).username = user.username) (users : List AuthUser) :
    findUser (updateUser username change users) username = (findUser users username).map change := by
  induction users with
  | nil => rfl
  | cons user users ih =>
      rw [updateUser, findUser, findUser]
      split
      · next hUser =>
        rw [List.find?_cons_of_pos (by simpa [hName] using hUser), List.find?_cons_of_pos (by simpa using hUser)]
        rfl
      · next hOther =>
        rw [List.find?_cons_of_neg (by simpa using hOther), List.find?_cons_of_neg (by simpa using hOther)]
        exact ih

/-- A change that succeeds leaves the new hash with the account. -/
theorem findUser_of_setPassword {hasher : PasswordHasher} {draw : Draw} {username oldPassword newPassword : Bytes}
    {state after : AuthState} (h : setPassword hasher draw username oldPassword newPassword state = (true, after)) :
    ∃ salt user, draw.salt = some salt ∧ findUser state.users username = some user ∧
      findUser after.users username = some (withHash (hasher.hash salt newPassword) user) := by
  rw [setPassword] at h
  split at h
  · cases h
  · next user hUser =>
    split at h
    · cases h
    · split at h
      · cases h
      · split at h
        · cases h
        · next hHash =>
          obtain rfl := (Prod.mk.inj h).2
          cases hSalt : draw.salt with
          | none => exact absurd (by rw [PasswordHasher.newHash, hSalt]) hHash
          | some salt =>
              have hNew : hasher.newHash draw newPassword = hasher.hash salt newPassword := by
                rw [PasswordHasher.newHash, hSalt]
              have hFind := findUser_updateUser username (withHash (hasher.newHash draw newPassword)) (fun _ => rfl)
                state.users
              rw [hUser, hNew] at hFind
              exact ⟨salt, user, rfl, hUser, by rw [hNew]; exact hFind⟩

/-- With its name an enabled account is entered by its password only. -/
theorem authenticate_ne_nil_iff {hasher : PasswordHasher} (hLawful : hasher.Lawful) {ttl : Int} {draw : Draw}
    {token salt username password other : Bytes} {user : AuthUser} {state : AuthState}
    (hToken : draw.token = some token) (hNonempty : token ≠ [])
    (hUser : findUser state.users username = some (withHash (hasher.hash salt password) user))
    (hEnabled : user.enabled = true) :
    (authenticate hasher ttl draw username other state).1 ≠ [] ↔ other = password := by
  have hSupported := hLawful.supported salt password
  have hVerify := hLawful.verify_hash salt password other
  simp only [authenticate, hUser, withHash, hEnabled, hSupported, hToken, Bool.true_eq_false, or_self, if_false]
  split
  · next hWrong => simp [← hVerify, hWrong]
  · next hRight => simpa [← hVerify, hNonempty] using hRight

end ContainerCP.Auth
