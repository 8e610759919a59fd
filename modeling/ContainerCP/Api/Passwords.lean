import ContainerCP.Api.WebServer
import ContainerCP.Auth.AuthService
import ContainerCP.Text.JsonScan

/-! The handlers of the web server that take a password from the body of a request, and
which password they take. -/
namespace ContainerCP.Api.WebServer

open Auth Json

/-! ## The handlers -/

/-- `send_json` with an error. -/
def failure (statusCode : Nat) (message : String) : Response :=
  { statusCode := statusCode, body := bytes "\x7b\"success\":false,\"error\":\"" ++ bytes message ++ bytes "\"\x7d" }

/-- Both handlers look for two members of the body, and take the text of each up to the
next quote. -/
def twoFields (first second : Bytes) (missing : Response) (raw : Bytes) : Except Response (Bytes × Bytes) :=
  match cutAtText blankLine raw with
  | none => .error (failure 400 "Bad request")
  | some (_, body) =>
      match findMember first body, findMember second body with
      | some firstStart, some secondStart =>
          match readValue firstStart, readValue secondStart with
          | some firstValue, some secondValue => .ok (firstValue, secondValue)
          | _, _ => .error (failure 400 "Bad request")
      | _, _ => .error missing

/-- The user name and the password of a login. -/
def loginFields (raw : Bytes) : Except Response (Bytes × Bytes) :=
  twoFields (bytes "username") (bytes "password") (failure 400 "Missing credentials") raw

/-- The old and the new password of a change. Neither may be empty. -/
def changeFields (raw : Bytes) : Except Response (Bytes × Bytes) :=
  match twoFields (bytes "old_password") (bytes "new_password") (failure 400 "Missing fields") raw with
  | .error response => .error response
  | .ok (oldPassword, newPassword) =>
      if oldPassword = [] ∨ newPassword = [] then .error (failure 400 "Missing fields")
      else .ok (oldPassword, newPassword)

def loginResponse (token username : Bytes) (mustChange : Bool) : Response :=
  { body := bytes "\x7b\"success\":true,\"data\":\x7b\"token\":\"" ++ token ++ bytes "\",\"username\":\"" ++ username ++
      bytes "\",\"must_change_password\":" ++ bytes (if mustChange then "true" else "false") ++ bytes "\x7d\x7d" }

/-- `handle_auth_login`. -/
def handleAuthLogin (hasher : PasswordHasher) (ttl : Int) (draw : Draw) (raw : Bytes) (state : AuthState) :
    Response × AuthState :=
  match loginFields raw with
  | .error response => (response, state)
  | .ok (username, password) =>
      let entered := authenticate hasher ttl draw username password state
      if entered.1 = [] then (failure 401 "Invalid credentials", entered.2)
      else
        let mustChange := ((findUser entered.2.users username).map (·.mustChangePassword)).getD false
        (loginResponse entered.1 username mustChange, entered.2)

/-- `handle_auth_change_password`. -/
def handleAuthChangePassword (hasher : PasswordHasher) (draw : Draw) (raw : Bytes) (state : AuthState) :
    Response × AuthState :=
  let required := requireSession state.sessions draw.now raw
  let state := { state with sessions := required.2 }
  if required.1 = false then
    ({ statusCode := 401, body := bytes "\x7b\"success\":false,\"error\":\"Unauthorized\",\"login_required\":true\x7d" }, state)
  else
    match changeFields raw with
    | .error response => (response, state)
    | .ok (oldPassword, newPassword) =>
        let changed := changePassword hasher draw (extractSessionToken raw) oldPassword newPassword state
        if changed.1 then
          ({ body := bytes "\x7b\"success\":true,\"data\":\x7b\"message\":\"Password changed\"\x7d\x7d" }, changed.2)
        else (failure 400 "Failed to change password", changed.2)

/-! ## The requests of a client -/

/-- The part of a request in front of its body: the first empty line ends it. -/
structure RequestHead where
  text : Bytes
  ends : ¬blankLine <:+: text ++ bytes "\r\n\r"

/-- A login with the body that an encoder makes. -/
def loginRequest (encoder : Encoder) (head : RequestHead) (name password : List Char) : Bytes :=
  head.text ++ (blankLine ++ encoder.object (bytes "username", name) (bytes "password", password))

def changeRequest (encoder : Encoder) (head : RequestHead) (oldPassword newPassword : List Char) : Bytes :=
  head.text ++ (blankLine ++ encoder.object (bytes "old_password", oldPassword) (bytes "new_password", newPassword))

/-- Each handler works with the password that was sent; and once it is set, it is the
only one with which a login succeeds. -/
structure ComparedWhole (encoder : Encoder) (password : List Char) : Prop where
  login : ∀ head name, ∃ username, loginFields (loginRequest encoder head name password) = .ok (username, utf8 password)
  change_old : ∀ head newPassword, password ≠ [] → newPassword ≠ [] →
    ∃ new, changeFields (changeRequest encoder head password newPassword) = .ok (utf8 password, new)
  change_new : ∀ head oldPassword, oldPassword ≠ [] → password ≠ [] →
    ∃ old, changeFields (changeRequest encoder head oldPassword password) = .ok (old, utf8 password)
  decides : ∀ (hasher : PasswordHasher) (ttl : Int) (draw later : Draw) (head laterHead : RequestHead)
    (oldPassword name other : List Char) (state : AuthState) (session : Session) (user : Storage.AuthUser) (token : Bytes),
    hasher.Lawful → encoder.Plain name →
    (state.sessions.validate draw.now (extractSessionToken (changeRequest encoder head oldPassword password))).1 = some session →
    session.username = utf8 name → findUser state.users (utf8 name) = some user → user.enabled = true →
    later.token = some token → token ≠ [] →
    (handleAuthChangePassword hasher draw (changeRequest encoder head oldPassword password) state).1.statusCode = 200 →
    ((handleAuthLogin hasher ttl later (loginRequest encoder laterHead name other)
        (handleAuthChangePassword hasher draw (changeRequest encoder head oldPassword password) state).2).1.statusCode = 200 ↔
      other = password)

/-! ## What the handlers read -/

theorem passes_head (head : RequestHead) (body : Bytes) : Passes blankLine head.text (blankLine ++ body) := by
  have hSuffix : ∀ front : Bytes, ¬blankLine <:+: front ++ bytes "\r\n\r" → Passes blankLine front (blankLine ++ body) := by
    intro front
    induction front with
    | nil => exact fun _ => passes_nil _ _
    | cons c front ih =>
        intro hEnds
        have hHead : ¬blankLine <+: c :: (front ++ (blankLine ++ body)) := by
          intro hPrefix
          have hShort : (c :: (front ++ (blankLine ++ body))) = (c :: (front ++ bytes "\r\n\r")) ++ (newline :: body) := by
            simp [blankLine, bytes, newline]
          rw [hShort] at hPrefix
          refine hEnds (List.IsPrefix.isInfix (List.prefix_of_prefix_length_le hPrefix (List.prefix_append _ _) ?_))
          simp [blankLine, bytes]
        refine (passes_singleton hHead).append (ih fun hInfix => hEnds ?_)
        exact hInfix.trans (List.suffix_cons c _).isInfix
  exact hSuffix head.text head.ends

/-- Both values are read up to their first quote. -/
theorem twoFields_request (encoder : Encoder) (head : RequestHead) (first second : Bytes) (hFirst : IsName first)
    (hSecond : IsName second) (hOther : first ≠ second) (text other : List Char) (missing : Response) :
    twoFields first second missing (head.text ++ (blankLine ++ encoder.object (first, text) (second, other))) =
      .ok (encoder.upToQuote text, encoder.upToQuote other) := by
  have hBody := (passes_head head (encoder.object (first, text) (second, other))).cutAtText_eq (by decide)
  have hText := readValue_encode encoder text (bytes "," ++ (memberStart second ++ (encoder.encode other ++ bytes "\"\x7d")))
  have hRest := readValue_encode encoder other (bytes "\x7d")
  simp only [twoFields, hBody, findMember_first, findMember_second encoder text other hFirst hSecond hOther]
  rw [show bytes "\"," ++ (memberStart second ++ (encoder.encode other ++ bytes "\"\x7d")) =
    quote :: (bytes "," ++ (memberStart second ++ (encoder.encode other ++ bytes "\"\x7d"))) from rfl, hText,
    show bytes "\"\x7d" = quote :: bytes "\x7d" from rfl, hRest]

theorem loginFields_request (encoder : Encoder) (head : RequestHead) (name password : List Char) :
    loginFields (loginRequest encoder head name password) =
      .ok (encoder.upToQuote name, encoder.upToQuote password) :=
  twoFields_request encoder head _ _ (by decide) (by decide) (by decide) name password _

theorem changeFields_request (encoder : Encoder) (head : RequestHead) (oldPassword newPassword : List Char) :
    changeFields (changeRequest encoder head oldPassword newPassword) =
      if encoder.upToQuote oldPassword = [] ∨ encoder.upToQuote newPassword = [] then .error (failure 400 "Missing fields")
      else .ok (encoder.upToQuote oldPassword, encoder.upToQuote newPassword) := by
  have hFields := twoFields_request encoder head (bytes "old_password") (bytes "new_password") (by decide) (by decide)
    (by decide) oldPassword newPassword (failure 400 "Missing fields")
  rw [changeFields, changeRequest, hFields]

theorem changeFields_request_of_ne_nil (encoder : Encoder) (head : RequestHead) {oldPassword newPassword : List Char}
    (hOld : oldPassword ≠ []) (hNew : newPassword ≠ []) :
    changeFields (changeRequest encoder head oldPassword newPassword) =
      .ok (encoder.upToQuote oldPassword, encoder.upToQuote newPassword) := by
  rw [changeFields_request, if_neg]
  exact not_or.mpr ⟨encoder.upToQuote_ne_nil hOld, encoder.upToQuote_ne_nil hNew⟩

theorem statusCode_of_twoFields {first second : Bytes} {missing response : Response} {raw : Bytes}
    (hMissing : missing.statusCode = 400) (h : twoFields first second missing raw = .error response) :
    response.statusCode = 400 := by
  rw [twoFields] at h
  repeat' split at h
  all_goals cases h
  all_goals first | rfl | exact hMissing

theorem statusCode_of_changeFields {response : Response} {raw : Bytes} (h : changeFields raw = .error response) :
    response.statusCode = 400 := by
  rw [changeFields] at h
  split at h
  · next hFields =>
    cases h
    exact statusCode_of_twoFields rfl hFields
  · split at h
    · cases h
      rfl
    · cases h

/-! ## A change and a login -/

/-- What a change that succeeds has done: it has read two passwords, and set the new one
for the user of the session. -/
theorem changed_of_statusCode {hasher : PasswordHasher} {draw : Draw} {raw : Bytes} {state : AuthState} {session : Session}
    (hSession : (state.sessions.validate draw.now (extractSessionToken raw)).1 = some session)
    (h : (handleAuthChangePassword hasher draw raw state).1.statusCode = 200) :
    ∃ oldPassword newPassword, changeFields raw = .ok (oldPassword, newPassword) ∧
      setPassword hasher draw session.username oldPassword newPassword state =
        (true, (handleAuthChangePassword hasher draw raw state).2) := by
  have hManager := SessionManager.validate_of_some hSession
  have hToken := (SessionManager.valid_of_validate (by rw [hSession]; exact Option.some_ne_none _)).1
  have hRequired : requireSession state.sessions draw.now raw = (true, state.sessions) := by
    rw [requireSession]
    simp only [if_neg hToken, hSession, hManager, Option.isSome_some]
  rw [handleAuthChangePassword] at h ⊢
  simp only [hRequired, Bool.true_eq_false, if_false] at h ⊢
  cases hFields : changeFields raw with
  | error response =>
      rw [hFields] at h
      exact absurd h (by simp [statusCode_of_changeFields hFields])
  | ok passwords =>
      obtain ⟨oldPassword, newPassword⟩ := passwords
      refine ⟨oldPassword, newPassword, rfl, ?_⟩
      have hChange : changePassword hasher draw (extractSessionToken raw) oldPassword newPassword state =
          setPassword hasher draw session.username oldPassword newPassword state := by
        simp only [changePassword, hSession, hManager]
      simp only [hFields, hChange] at h ⊢
      cases hSet : setPassword hasher draw session.username oldPassword newPassword state with
      | mk worked after =>
          cases worked with
          | false => simp [hSet, failure] at h
          | true => rfl

theorem statusCode_login {hasher : PasswordHasher} {ttl : Int} {draw : Draw} {raw username password : Bytes}
    (state : AuthState) (h : loginFields raw = .ok (username, password)) :
    (handleAuthLogin hasher ttl draw raw state).1.statusCode = 200 ↔
      (authenticate hasher ttl draw username password state).1 ≠ [] := by
  rw [handleAuthLogin, h]
  simp only
  split
  · next hEmpty => simp [hEmpty, failure]
  · next hToken => simp [hToken, loginResponse]

/-- A login behind a change compares the texts up to the first quotes. -/
theorem login_after_change {encoder : Encoder} {hasher : PasswordHasher} (hLawful : hasher.Lawful) (ttl : Int)
    {draw later : Draw} {head laterHead : RequestHead} {oldPassword password name other : List Char} {state : AuthState}
    {session : Session} {user : Storage.AuthUser} {token : Bytes} (hName : encoder.Plain name)
    (hSession : (state.sessions.validate draw.now
      (extractSessionToken (changeRequest encoder head oldPassword password))).1 = some session)
    (hUsername : session.username = utf8 name) (hUser : findUser state.users (utf8 name) = some user)
    (hEnabled : user.enabled = true) (hToken : later.token = some token) (hNonempty : token ≠ [])
    (h : (handleAuthChangePassword hasher draw (changeRequest encoder head oldPassword password) state).1.statusCode = 200) :
    (handleAuthLogin hasher ttl later (loginRequest encoder laterHead name other)
        (handleAuthChangePassword hasher draw (changeRequest encoder head oldPassword password) state).2).1.statusCode = 200 ↔
      encoder.upToQuote other = encoder.upToQuote password := by
  obtain ⟨old, new, hFields, hSet⟩ := changed_of_statusCode hSession h
  have hNew : new = encoder.upToQuote password := by
    rw [changeFields_request] at hFields
    split at hFields
    · cases hFields
    · exact (Prod.mk.inj (Except.ok.inj hFields)).2.symm
  obtain ⟨salt, found, -, hFound, hAfter⟩ := findUser_of_setPassword hSet
  rw [hUsername, hUser] at hFound
  obtain rfl := Option.some.inj hFound
  rw [statusCode_login _ (loginFields_request encoder laterHead name other), Encoder.upToQuote_of_plain hName, ← hNew]
  rw [hUsername] at hAfter
  exact authenticate_ne_nil_iff hLawful hToken hNonempty hAfter hEnabled

/-! ## Which passwords are compared whole -/

def openHasher : PasswordHasher :=
  ⟨fun _ password => ascii '$' :: password, fun password hash => hash = ascii '$' :: password, fun hash => hash.head? = some (ascii '$')⟩

def adminState : AuthState where
  users := [{ username := bytes "admin", passwordHash := bytes "$first" }]
  sessions := ⟨(∅ : Table Bytes Session).insert (bytes "t") ⟨bytes "admin", bytes "admin", 0, 100⟩⟩
  stored := []
  temporaryPasswordFile := true

def quietHead : RequestHead := ⟨bytes "POST / HTTP/1.1\r\nX-Session-Token: t", by decide +kernel⟩

def changedState : Response × AuthState :=
  handleAuthChangePassword openHasher ⟨1, some [], none⟩ (changeRequest stringify quietHead "first".toList "a\"b".toList) adminState

end ContainerCP.Api.WebServer
