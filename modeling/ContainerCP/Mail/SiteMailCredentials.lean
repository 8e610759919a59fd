import ContainerCP.Mail.DockerMailProvider
import ContainerCP.Text.Decimal
import ContainerCP.Text.LineSearch

/-! `SiteMailCredentials`: the SMTP credentials of the sites' PHP, in lines of `passwd-php` and of
the map `sender_login`. -/
namespace ContainerCP.Mail

structure Credential where
  username : Bytes
  password : Bytes := []
  passwordHash : Bytes := []
  domain : Bytes := []
  deriving DecidableEq

structure OperationResult where
  success : Bool
  message : Bytes
  deriving DecidableEq

/-- The files that can be opened for writing, whether a `passwd-php` that is no file can be made
one, and the commands in the mail container. -/
structure CredentialCalls where
  recreates : Bool := true
  passwdOpens : Bool := true
  loginOpens : Bool := true
  postmap : CommandResult := {}
  reload : CommandResult := {}

def tab : UInt8 := ascii '\t'

def usernameOf (site : UInt64) : Bytes := bytes "site-" ++ decimal site.toNat ++ bytes "@php.containercp.internal"

/-- `random` is the password that is drawn and `hash` what `MailPasswordHasher` makes of it. -/
def generate (random : Option Bytes) (hash : Bytes → Bytes) (site : UInt64) (domain : Bytes) : Credential where
  username := usernameOf site
  password := random.getD []
  passwordHash := hash (random.getD [])
  domain := domain

def passwdPath : Bytes := bytes "/srv/containercp/mail/config/generated/passwd-php"

def loginPath : Bytes := bytes "/srv/containercp/mail/config/generated/sender_login"

/-- What a stream gives on the file; a directory can be opened, but not be read. -/
def contentOf : Option Node → Bytes
  | some (.regular content) => content
  | _ => []

/-- `line.find(username) != npos`. -/
def mentions (username line : Bytes) : Bool := (cutAtText username line).isSome

/-- The lines of a content without those that mention the username. -/
def keptLines (username content : Bytes) : Bytes :=
  unlines ((getlines newline content).filter fun line => !mentions username line)

def passwdHeader : Bytes := bytes "# ContainerCP PHP SMTP credentials\n"

def passwdEntry (credential : Credential) : Bytes :=
  credential.username ++ bytes ":" ++ credential.passwordHash ++ bytes ":65534:65534::/nonexistent::"

/-- The current entry, and the wildcard of the domain. -/
def loginEntries (credential : Credential) : List Bytes :=
  [bytes "wordpress@" ++ credential.domain ++ [tab] ++ credential.username,
    bytes "@" ++ credential.domain ++ [tab] ++ credential.username]

def remove (calls : CredentialCalls) (site : UInt64) (files : MailFiles) : Bool × MailFiles :=
  let username := usernameOf site
  let oldPasswd := contentOf (files .passwdPhp)
  if oldPasswd = [] then (true, files)
  else
    let found := (getlines newline oldPasswd).any (mentions username)
    let files := if found && calls.passwdOpens then Function.update files .passwdPhp (some (.regular (keptLines username oldPasswd))) else files
    let oldLogin := contentOf (files .senderLogin)
    let files := if oldLogin ≠ [] && calls.loginOpens then Function.update files .senderLogin (some (.regular (keptLines username oldLogin))) else files
    (true, files)

/-- The domain of the first line of the map that starts with the username, from what is behind
its last tab, or its first space. -/
def domainFrom (username content : Bytes) : Bytes :=
  match (getlines newline content).find? username.isPrefixOf with
  | none => []
  | some line =>
      match (cutAtLastText [tab] line).or (cutAt (ascii ' ') line) with
      | none => []
      | some (_, value) => ((cutAt (ascii '@') value).map Prod.snd).getD value

def find (site : UInt64) (files : MailFiles) : Option Credential :=
  let username := usernameOf site
  match files .passwdPhp with
  | none => none
  | some node =>
      if (getlines newline (contentOf (some node))).any username.isPrefixOf then
        some { username := username, domain := domainFrom username (contentOf (files .senderLogin)) }
      else none

def apply (calls : CredentialCalls) (credential : Credential) (files : MailFiles) : OperationResult × MailFiles :=
  let files :=
    if files .passwdPhp = some .special && calls.recreates then Function.update files .passwdPhp (some (.regular passwdHeader))
    else files
  if !calls.passwdOpens then (⟨false, bytes "Failed to write PHP credentials file: " ++ passwdPath⟩, files)
  else
    let newPasswd := keptLines credential.username (contentOf (files .passwdPhp)) ++ unlines [passwdEntry credential]
    let files := Function.update files .passwdPhp (some (.regular newPasswd))
    let newLogin := keptLines credential.username (contentOf (files .senderLogin)) ++ unlines (loginEntries credential)
    if !calls.loginOpens then (⟨false, bytes "Failed to open sender_login file: " ++ loginPath⟩, files)
    else
      let files := Function.update files .senderLogin (some (.regular newLogin))
      if calls.postmap.exitCode ≠ 0 then (⟨false, bytes "Failed to regenerate sender_login map: " ++ calls.postmap.err⟩, files)
      else if calls.reload.exitCode ≠ 0 then (⟨false, bytes "Failed to reload Postfix: " ++ calls.reload.err⟩, files)
      else (⟨true, []⟩, files)

/-- The id in a username of the form that `generate` gives, and 0 for any other. -/
def siteOf (username : Bytes) : UInt64 :=
  if 5 < username.length && username.take 5 = bytes "site-" then
    match cutAt (ascii '@') username with
    | none => 0
    | some (before, _) => (stoull (before.drop 5)).getD 0
  else 0

def revoke (calls : CredentialCalls) (credential : Credential) (files : MailFiles) : OperationResult × MailFiles :=
  let (ok, files) := remove calls (siteOf credential.username) files
  (if ok then ⟨true, []⟩ else ⟨false, bytes "Failed to revoke credentials"⟩, files)

/-! ## Usernames -/

theorem mentions_iff {username line : Bytes} : mentions username line = true ↔ username <:+: line := by
  induction line with
  | nil =>
      rw [mentions, cutAtText, List.infix_nil]
      split <;> simp_all
  | cons c rest ih =>
      rw [mentions, cutAtText, List.infix_cons_iff, ← ih, ← List.isPrefixOf_iff_prefix]
      split <;> simp_all [mentions]

theorem usernameOf_split (site : UInt64) :
    usernameOf site = bytes "site-" ++ decimal site.toNat ++ ascii '@' :: bytes "php.containercp.internal" := rfl

theorem notMem_site (site : UInt64) : ascii '@' ∉ bytes "site-" ++ decimal site.toNat := by
  rw [List.mem_append, not_or]
  exact ⟨by decide, not_mem_decimal (by decide)⟩

/-- A credential that was generated is revoked by the removal of its site. -/
theorem siteOf_usernameOf (site : UInt64) : siteOf (usernameOf site) = site := by
  have hCut : cutAt (ascii '@') (usernameOf site) = some (bytes "site-" ++ decimal site.toNat, bytes "php.containercp.internal") := by
    rw [usernameOf_split, cutAt_append (notMem_site site), cutAt, if_pos rfl, Option.map_some, List.append_nil]
  have hTake : (usernameOf site).take 5 = bytes "site-" := by
    rw [usernameOf, List.append_assoc]
    exact List.take_left' (by decide)
  have hDrop : (bytes "site-" ++ decimal site.toNat).drop 5 = decimal site.toNat := List.drop_left' (by decide)
  have hLength : 5 < (usernameOf site).length := by
    have hSuffix : (bytes "@php.containercp.internal").length = 25 := by decide
    rw [usernameOf, List.length_append, hSuffix]
    omega
  rw [siteOf, hTake, hCut]
  simp [hLength, hDrop, stoull_decimal]

end ContainerCP.Mail
