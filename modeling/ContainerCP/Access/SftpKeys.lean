import ContainerCP.Access.SshKeyValidator
import ContainerCP.Text.Lines

/-! Keys for SFTP users: the body of a request, the key that `SftpKeyService` makes of
it, and the `authorized_keys` file that `SshdAuthorizedKeysWriter` renders. -/
namespace ContainerCP.Access

/-! ## Requests -/

/-- The text behind the first occurrence of another. -/
def textBehind (needle : Bytes) : Bytes → Option Bytes
  | [] => if needle = [] then some [] else none
  | c :: rest =>
      if needle.isPrefixOf (c :: rest) then some ((c :: rest).drop needle.length) else textBehind needle rest

def quote : UInt8 := ascii '"'

/-- `extract_string`: what stands between the quotes behind a key. A quote in the
value ends it, escaped or not. -/
def extractString (body : Bytes) (key : String) : Bytes :=
  let tight := textBehind (bytes "\"" ++ bytes key ++ bytes "\":\"") body
  let spaced := textBehind (bytes "\"" ++ bytes key ++ bytes "\": \"") body
  match tight.or spaced with
  | none => []
  | some value => if quote ∈ value then value.takeWhile (· ≠ quote) else []

def isJsonWhitespace (c : UInt8) : Bool :=
  c = ascii ' ' || c = ascii '\t' || c = ascii '\n' || c = ascii '\r'

/-- `extract_bool`: the value, which is false where the key is missing, and whether it
is there. -/
def extractBool (body : Bytes) (key : String) : Option (Bool × Bool) :=
  match textBehind (bytes "\"" ++ bytes key ++ bytes "\":") body with
  | none => some (false, false)
  | some behind =>
      let value := behind.dropWhile isJsonWhitespace
      if (bytes "true").isPrefixOf value then some (true, true)
      else if (bytes "false").isPrefixOf value then some (false, true)
      else none

structure SftpCreateKeyRequest where
  publicKey : Bytes
  comment : Bytes
  enabled : Bool
  enabledPresent : Bool
  deriving DecidableEq

structure SftpError where
  code : String
  details : Bytes
  deriving DecidableEq

/-- The public key, under either spelling of its name. -/
def publicKeyField (body : Bytes) : Bytes :=
  if extractString body "publicKey" = [] then extractString body "public_key" else extractString body "publicKey"

/-- `parse_create_key_body`. Each field is looked for once, so none is found twice. -/
def parseCreateKeyBody (body : Bytes) : Except SftpError SftpCreateKeyRequest :=
  if 65536 < body.length then .error ⟨"sftp_json_invalid", bytes "body too large"⟩
  else if body.head? ≠ some (ascii '\x7b') then .error ⟨"sftp_json_invalid", bytes "not valid JSON"⟩
  else if publicKeyField body = [] then .error ⟨"sftp_key_invalid", bytes "publicKey required"⟩
  else
    match extractBool body "enabled" with
    | none => .error ⟨"sftp_json_invalid", bytes "enabled must be boolean"⟩
    | some (enabled, present) => .ok ⟨publicKeyField body, extractString body "comment", enabled, present⟩

/-! ## Keys -/

structure AccessKey where
  id : UInt64
  accessUserId : UInt64
  keyType : Bytes
  keyData : Bytes
  keyComment : Bytes
  fingerprint : Bytes
  enabled : Bool
  deriving DecidableEq

structure AccessKeyManager where
  keys : List AccessKey := []
  nextId : UInt64 := 1
  deriving DecidableEq

namespace AccessKeyManager

/-- A key with the next id, or zero where the user has the fingerprint already. -/
def create (manager : AccessKeyManager) (key : AccessKey) : UInt64 × AccessKeyManager :=
  if manager.keys.any fun existing =>
      existing.accessUserId = key.accessUserId && existing.fingerprint = key.fingerprint then (0, manager)
  else (manager.nextId, ⟨manager.keys ++ [{ key with id := manager.nextId }], manager.nextId + 1⟩)

def setKeys (keys : List AccessKey) : AccessKeyManager :=
  ⟨keys, keys.foldl (fun next key => if key.id ≥ next then key.id + 1 else next) 1⟩

def listByUser (manager : AccessKeyManager) (accessUserId : UInt64) : List AccessKey :=
  manager.keys.filter (·.accessUserId = accessUserId)

end AccessKeyManager

structure SftpKeyOperationResult where
  id : UInt64
  keyType : Bytes
  fingerprint : Bytes
  comment : Bytes
  enabled : Bool
  publicKey : Bytes
  deriving DecidableEq

/-- How the steps behind the creation of a key go: the save of the keys, and the
write of `authorized_keys` with its message. -/
structure SyncAnswer where
  saved : Bool
  written : Bool
  message : Bytes := []
  deriving DecidableEq

section Service

variable (sha256 : Bytes → Bytes)

/-- The record of a key; a comment of the request replaces the one on the key. -/
def keyOf (accessUserId : UInt64) (validation : SshKeyValidation) (comment : Bytes) (enabled : Bool) : AccessKey where
  id := 0
  accessUserId := accessUserId
  keyType := validation.keyType
  keyData := validation.keyData
  keyComment := if comment = [] then validation.keyComment else comment
  fingerprint := validation.fingerprint
  enabled := enabled

def addValidatedKey (manager : AccessKeyManager) (accessUserId : UInt64) (validation : SshKeyValidation)
    (comment : Bytes) (enabled : Bool) (publicKey : Bytes) (answer : SyncAnswer) :
    Except SftpError SftpKeyOperationResult × AccessKeyManager :=
  if manager.keys.any fun existing =>
      existing.accessUserId = accessUserId && existing.fingerprint = validation.fingerprint then
    (.error ⟨"sftp_key_duplicate", []⟩, manager)
  else
    let key := keyOf accessUserId validation comment enabled
    let created := manager.create key
    let rollback := AccessKeyManager.setKeys manager.keys
    if created.1 = 0 then (.error ⟨"sftp_backend_failure", bytes "key create failed"⟩, created.2)
    else if !answer.saved then (.error ⟨"sftp_backend_failure", bytes "key persistence failed"⟩, rollback)
    else if !answer.written then (.error ⟨"sftp_key_sync_failed", answer.message⟩, rollback)
    else
      (.ok ⟨created.1, key.keyType, key.fingerprint, key.keyComment, key.enabled, publicKey⟩, created.2)

def importKey (manager : AccessKeyManager) (accessUserId : UInt64) (publicKey comment : Bytes) (enabled : Bool)
    (answer : SyncAnswer) : Except SftpError SftpKeyOperationResult × AccessKeyManager :=
  match validate sha256 publicKey with
  | .error error => (.error ⟨"sftp_key_invalid", error⟩, manager)
  | .ok validation => addValidatedKey manager accessUserId validation comment enabled publicKey answer

/-- A request to create a key, with how its steps go. -/
structure Creation where
  accessUserId : UInt64
  body : Bytes
  answer : SyncAnswer
  deriving DecidableEq

/-- The request as the API handles it. -/
def createKey (manager : AccessKeyManager) (creation : Creation) :
    Except SftpError SftpKeyOperationResult × AccessKeyManager :=
  match parseCreateKeyBody creation.body with
  | .error error => (.error error, manager)
  | .ok request =>
      importKey sha256 manager creation.accessUserId request.publicKey request.comment request.enabled creation.answer

/-- The keys after some requests. -/
def afterCreations (creations : List Creation) : AccessKeyManager :=
  creations.foldl (fun manager creation => (createKey sha256 manager creation).2) {}

end Service

/-! ## The file -/

/-- The order of the file, by fingerprint and then by id. -/
def keyLe (a b : AccessKey) : Bool :=
  if a.fingerprint ≠ b.fingerprint then a.fingerprint ≤ b.fingerprint else a.id ≤ b.id

def authorizedLine (key : AccessKey) : Bytes :=
  bytes "restrict " ++ key.keyType ++ bytes " " ++ key.keyData ++
    if key.keyComment = [] then [] else bytes " " ++ key.keyComment

/-- The enabled keys with a fingerprint that was not there before. -/
def firstOfEach : List Bytes → List AccessKey → List AccessKey
  | _, [] => []
  | seen, key :: rest =>
      if !key.enabled ∨ key.fingerprint ∈ seen then firstOfEach seen rest
      else key :: firstOfEach (key.fingerprint :: seen) rest

/-- `render_content`. -/
def renderContent (keys : List AccessKey) : Bytes :=
  (firstOfEach [] (keys.mergeSort keyLe)).flatMap (authorizedLine · ++ [newline])

/-! ## One line for each key -/

theorem firstOfEach_spec (seen : List Bytes) (keys : List AccessKey) :
    (∀ key ∈ firstOfEach seen keys, key ∈ keys ∧ key.enabled = true ∧ key.fingerprint ∉ seen) ∧
      ((firstOfEach seen keys).map AccessKey.fingerprint).Nodup ∧
        ∀ key ∈ keys, key.enabled = true → key.fingerprint ∈ seen ∨
          key.fingerprint ∈ (firstOfEach seen keys).map AccessKey.fingerprint := by
  induction keys generalizing seen with
  | nil => exact ⟨nofun, List.nodup_nil, nofun⟩
  | cons first rest ih =>
      unfold firstOfEach
      split
      · next hSkipped =>
        obtain ⟨hFrom, hNodup, hAll⟩ := ih seen
        refine ⟨fun key hKey => ⟨List.mem_cons_of_mem _ (hFrom key hKey).1, (hFrom key hKey).2⟩, hNodup, ?_⟩
        intro key hKey hEnabled
        obtain rfl | hRest := List.mem_cons.mp hKey
        · exact .inl (hSkipped.resolve_left (by simp [hEnabled]))
        · exact hAll key hRest hEnabled
      · next hTaken =>
        simp only [Bool.not_eq_eq_eq_not, Bool.not_true, not_or, Bool.not_eq_false] at hTaken
        obtain ⟨hFrom, hNodup, hAll⟩ := ih (first.fingerprint :: seen)
        refine ⟨?_, ?_, ?_⟩
        · intro key hKey
          obtain rfl | hRest := List.mem_cons.mp hKey
          · exact ⟨List.mem_cons_self, hTaken⟩
          · obtain ⟨hMem, hEnabled, hNew⟩ := hFrom key hRest
            exact ⟨List.mem_cons_of_mem _ hMem, hEnabled, fun hSeen => hNew (List.mem_cons_of_mem _ hSeen)⟩
        · rw [List.map_cons, List.nodup_cons]
          refine ⟨fun hMem => ?_, hNodup⟩
          obtain ⟨key, hKey, hSame⟩ := List.mem_map.mp hMem
          exact (hFrom key hKey).2.2 (hSame ▸ List.mem_cons_self)
        · intro key hKey hEnabled
          rw [List.map_cons]
          obtain rfl | hRest := List.mem_cons.mp hKey
          · exact .inr List.mem_cons_self
          · obtain hSeen | hLater := hAll key hRest hEnabled
            · obtain hSame | hBefore := List.mem_cons.mp hSeen
              · exact .inr (hSame ▸ List.mem_cons_self)
              · exact .inl hBefore
            · exact .inr (List.mem_cons_of_mem _ hLater)

/-- The file of some keys has one line for each fingerprint that is enabled, and each
of its lines restricts the key on it. -/
def Uninjected (keys : List AccessKey) : Prop :=
  ∃ chosen : List AccessKey, (∀ key ∈ chosen, key ∈ keys ∧ key.enabled = true) ∧
    (chosen.map AccessKey.fingerprint).Nodup ∧
      (∀ key ∈ keys, key.enabled = true → key.fingerprint ∈ chosen.map AccessKey.fingerprint) ∧
        getlines newline (renderContent keys) = chosen.map authorizedLine ∧
          ∀ line ∈ getlines newline (renderContent keys), bytes "restrict " <+: line

/-- A key that takes up one line. -/
def OneLine (key : AccessKey) : Prop := newline ∉ key.keyType ∧ newline ∉ key.keyData ∧ newline ∉ key.keyComment

theorem OneLine.authorizedLine {key : AccessKey} (h : OneLine key) : newline ∉ authorizedLine key := by
  obtain ⟨hType, hData, hComment⟩ := h
  unfold Access.authorizedLine
  have hRestrict : newline ∉ bytes "restrict " := by decide
  have hSpace : newline ∉ bytes " " := by decide
  split
  · simp only [List.mem_append, List.not_mem_nil, or_false, not_or]
    exact ⟨⟨⟨hRestrict, hType⟩, hSpace⟩, hData⟩
  · simp only [List.mem_append, not_or]
    exact ⟨⟨⟨⟨hRestrict, hType⟩, hSpace⟩, hData⟩, hSpace, hComment⟩

theorem uninjected_of_oneLine {keys : List AccessKey} (h : ∀ key ∈ keys, key.enabled = true → OneLine key) :
    Uninjected keys := by
  obtain ⟨hFrom, hNodup, hAll⟩ := firstOfEach_spec [] (keys.mergeSort keyLe)
  have hMem : ∀ key, key ∈ keys.mergeSort keyLe ↔ key ∈ keys := fun key => (List.mergeSort_perm keys keyLe).mem_iff
  have hLines : getlines newline (renderContent keys) =
      (firstOfEach [] (keys.mergeSort keyLe)).map authorizedLine := by
    have hText : renderContent keys =
        ((firstOfEach [] (keys.mergeSort keyLe)).map authorizedLine).flatMap (· ++ [newline]) := by
      rw [List.flatMap_map]
      rfl
    rw [hText]
    apply getlines_flatMap
    intro line hLine
    obtain ⟨key, hKey, rfl⟩ := List.mem_map.mp hLine
    exact (h key ((hMem key).mp (hFrom key hKey).1) (hFrom key hKey).2.1).authorizedLine
  refine ⟨_, fun key hKey => ⟨(hMem key).mp (hFrom key hKey).1, (hFrom key hKey).2.1⟩, hNodup, ?_, hLines, ?_⟩
  · intro key hKey hEnabled
    exact (hAll key ((hMem key).mpr hKey) hEnabled).resolve_left List.not_mem_nil
  · intro line hLine
    rw [hLines] at hLine
    obtain ⟨key, -, rfl⟩ := List.mem_map.mp hLine
    simp only [authorizedLine, List.append_assoc]
    exact List.prefix_append _ _

/-! ## Runs -/

section Runs

variable (sha256 : Bytes → Bytes)

/-- A request for an enabled key that the validator accepts has its comment on one
line. -/
def Careful (creation : Creation) : Prop :=
  extractBool creation.body "enabled" = some (true, true) →
    (validate sha256 (publicKeyField creation.body)).isOk = true →
      newline ∉ extractString creation.body "comment"

theorem extractBool_present {body : Bytes} {key : String} {present : Bool}
    (h : extractBool body key = some (true, present)) : present = true := by
  unfold extractBool at h
  split at h
  · cases h
  dsimp only at h
  split at h
  · injection h with hPair
    injection hPair with _ hPresent
    exact hPresent.symm
  split at h
  · cases h
  · cases h

theorem request_of_parse {body : Bytes} {request : SftpCreateKeyRequest} (h : parseCreateKeyBody body = .ok request) :
    request.publicKey = publicKeyField body ∧ request.comment = extractString body "comment" ∧
      extractBool body "enabled" = some (request.enabled, request.enabledPresent) := by
  unfold parseCreateKeyBody at h
  split at h
  · cases h
  split at h
  · cases h
  split at h
  · cases h
  split at h
  · cases h
  · next enabled present hEnabled =>
    injection h with hRequest
    rw [← hRequest]
    exact ⟨rfl, rfl, hEnabled⟩

/-- What one request can do to the keys: leave them, or add one that the validator
accepts. -/
theorem createKey_keys (manager : AccessKeyManager) (creation : Creation) :
    (createKey sha256 manager creation).2.keys = manager.keys ∨
      ∃ id validation enabled present, validate sha256 (publicKeyField creation.body) = .ok validation ∧
        extractBool creation.body "enabled" = some (enabled, present) ∧
          (createKey sha256 manager creation).2.keys = manager.keys ++
            [{ keyOf creation.accessUserId validation (extractString creation.body "comment") enabled with
              id := id }] := by
  unfold createKey
  split
  · exact .inl rfl
  next request hParse =>
  obtain ⟨hKey, hComment, hEnabled⟩ := request_of_parse hParse
  rw [← hComment, ← hKey]
  unfold importKey
  split
  · exact .inl rfl
  next validation hValidate =>
  unfold addValidatedKey
  split
  · exact .inl rfl
  next hFresh =>
  have hCreate : manager.create (keyOf creation.accessUserId validation request.comment request.enabled) =
      (manager.nextId, ⟨manager.keys ++ [{ keyOf creation.accessUserId validation request.comment request.enabled with
        id := manager.nextId }], manager.nextId + 1⟩) := by
    rw [AccessKeyManager.create, if_neg]
    exact hFresh
  dsimp only
  rw [hCreate]
  split
  · exact .inr ⟨_, _, _, _, hValidate, hEnabled, rfl⟩
  split
  · exact .inl rfl
  split
  · exact .inl rfl
  · exact .inr ⟨_, _, _, _, hValidate, hEnabled, rfl⟩

/-- A careful request leaves every enabled key on one line. -/
theorem oneLine_createKey {manager : AccessKeyManager} {creation : Creation} (hCareful : Careful sha256 creation)
    (h : ∀ key ∈ manager.keys, key.enabled = true → OneLine key) :
    ∀ key ∈ (createKey sha256 manager creation).2.keys, key.enabled = true → OneLine key := by
  obtain hSame | ⟨id, validation, enabled, present, hValidate, hBool, hKeys⟩ := createKey_keys sha256 manager creation
  · rw [hSame]
    exact h
  · rw [hKeys]
    intro key hKey hEnabled
    obtain hOld | hNew := List.mem_append.mp hKey
    · exact h key hOld hEnabled
    · rw [List.mem_singleton.mp hNew] at hEnabled ⊢
      have hTrue : enabled = true := hEnabled
      rw [hTrue] at hBool
      have hComment := hCareful (by rw [hBool, extractBool_present hBool]) (by rw [hValidate]; rfl)
      obtain ⟨hTypeLine, hDataLine, hCommentLine⟩ := newline_not_mem_of_validate hValidate
      refine ⟨hTypeLine, hDataLine, ?_⟩
      show newline ∉ if extractString creation.body "comment" = [] then validation.keyComment
        else extractString creation.body "comment"
      split
      · exact hCommentLine
      · exact hComment

/-- After every run of careful requests the file of each user has one line for each of
the user's enabled fingerprints, and restricts every key. -/
theorem authorizedKeys_uninjected (creations : List Creation) (accessUserId : UInt64)
    (hCareful : ∀ creation ∈ creations, Careful sha256 creation) :
    Uninjected ((afterCreations sha256 creations).listByUser accessUserId) := by
  have hRun : ∀ manager : AccessKeyManager, (∀ key ∈ manager.keys, key.enabled = true → OneLine key) →
      ∀ key ∈ (creations.foldl (fun manager creation => (createKey sha256 manager creation).2) manager).keys,
        key.enabled = true → OneLine key := by
    induction creations with
    | nil => exact fun manager h => h
    | cons creation rest ih =>
        intro manager h
        rw [List.foldl_cons]
        exact ih (fun other hOther => hCareful other (List.mem_cons_of_mem _ hOther)) _
          (oneLine_createKey sha256 (hCareful creation List.mem_cons_self) h)
  apply uninjected_of_oneLine
  intro key hKey
  exact hRun {} nofun key (List.mem_of_mem_filter hKey)

end Runs

/-! ## A comment with a line end -/

/-- The digest of the one key below. -/
def sampleSha256 (blob : Bytes) : Bytes :=
  if blob = base64Decode (bytes "AAAAC3NzaC1lZDI1NTE5AAAAIAABAgMEBQYHCAkKCwwNDg8QERITFBUWFxgZGhscHR4f") then
    [102, 64, 44, 148, 104, 197, 137, 65, 221, 25, 255, 214, 80, 191, 43, 66, 249, 34, 111, 131, 211, 189, 6, 173, 81,
      93, 14, 81, 4, 167, 112, 32]
  else []

/-- A request for an enabled key with a comment. -/
def sampleCreation (comment : Bytes) : Creation where
  accessUserId := 1
  body := bytes "\x7b\"publicKey\":\"ssh-ed25519 AAAAC3NzaC1lZDI1NTE5AAAAIAABAgMEBQYHCAkKCwwNDg8QERITFBUWFxgZGhscHR4f\"," ++
    bytes "\"comment\":\"" ++ comment ++ bytes "\",\"enabled\":true\x7d"
  answer := ⟨true, true, []⟩

def sampleKey (comment : Bytes) : AccessKey where
  id := 1
  accessUserId := 1
  keyType := bytes "ssh-ed25519"
  keyData := bytes "AAAAC3NzaC1lZDI1NTE5AAAAIAABAgMEBQYHCAkKCwwNDg8QERITFBUWFxgZGhscHR4f"
  keyComment := comment
  fingerprint := bytes "SHA256:ZkAslGjFiUHdGf/WUL8rQvkib4PTvQatUV0OUQSncCA"
  enabled := true

/-- The second line of the file is a key without restrictions. -/
theorem not_uninjected_newline_comment :
    ¬∀ (sha256 : Bytes → Bytes) (creations : List Creation) (accessUserId : UInt64),
      Uninjected ((afterCreations sha256 creations).listByUser accessUserId) := by
  intro hAll
  have hKeys : (afterCreations sampleSha256 [sampleCreation (bytes "a\nssh-ed25519 AAAA")]).listByUser 1 =
      [sampleKey (bytes "a\nssh-ed25519 AAAA")] := by
    unfold sampleKey sampleCreation
    repeat rw [bytes_ofList]
    decide +kernel
  obtain ⟨-, -, -, -, -, hRestricted⟩ := hAll sampleSha256 [sampleCreation (bytes "a\nssh-ed25519 AAAA")] 1
  rw [hKeys, renderContent, List.mergeSort_singleton] at hRestricted
  have hLine := hRestricted (bytes "ssh-ed25519 AAAA") (by decide)
  exact absurd hLine (by decide)

theorem authorizedKeys_uninjected_sample :
    Uninjected ((afterCreations sampleSha256 [sampleCreation (bytes "laptop")]).listByUser 1) := by
  refine authorizedKeys_uninjected sampleSha256 _ 1 fun creation hCreation _ _ => ?_
  rw [List.mem_singleton.mp hCreation]
  decide

end ContainerCP.Access
