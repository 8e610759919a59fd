import ContainerCP.Access.GrantEndpoints
import ContainerCP.Text.JsonObject

/-! What the parsers of the request bodies for SFTP take, and what of it is as it should be:
each required field once, no field twice, and a site id that is the number in the body. -/
namespace ContainerCP.SftpApi

open Access (SftpError extractString extractBool textBehind isJsonWhitespace publicKeyField parseCreateKeyBody)
open Json (ObjectText IsNatural)

/-! ## The parsers -/

/-- `FieldTracker`. -/
structure FieldTracker where
  fields : List String := []

/-- `FieldTracker::add`, which fails for a field that has been added. -/
def FieldTracker.add (tracker : FieldTracker) (f : String) : Option FieldTracker :=
  if f ∈ tracker.fields then none else some ⟨tracker.fields ++ [f]⟩

/-- `extract_int`: the value, cut to an `int`, and whether it is there. -/
def extractInt (body : Bytes) (key : String) : Option (Int32 × Bool) :=
  match textBehind (bytes "\"" ++ bytes key ++ bytes "\":") body with
  | none => some (0, false)
  | some behind =>
      let value := behind.dropWhile isJsonWhitespace
      if value = [] then none else (strtol value).map fun v => (Int32.ofInt v, true)

def tooLarge : SftpError := ⟨"sftp_json_invalid", bytes "body too large"⟩

def notJson : SftpError := ⟨"sftp_json_invalid", bytes "not valid JSON"⟩

def notBoolean : SftpError := ⟨"sftp_json_invalid", bytes "enabled must be boolean"⟩

def duplicate (f : String) : SftpError := ⟨"sftp_json_invalid", bytes "duplicate field: " ++ bytes f⟩

structure SftpCreateUserRequest where
  username : Bytes
  enabled : Bool
  enabledPresent : Bool
  deriving DecidableEq

/-- The fields of the other requests, which a new user may not have. -/
def unknownFields : List String := ["permission", "publicKey", "comment", "siteId", "site_id"]

def findUnknown (body : Bytes) : Option String :=
  unknownFields.find? fun known => (textBehind (bytes "\"" ++ bytes known ++ bytes "\":") body).isSome

/-- `parse_create_user_body`. -/
def parseCreateUserBody (body : Bytes) : Except SftpError SftpCreateUserRequest :=
  if 65536 < body.length then .error tooLarge
  else if body.head? ≠ some (ascii '\x7b') then .error notJson
  else
    let tracker : FieldTracker := {}
    let un := extractString body "username"
    if un = [] then .error ⟨"sftp_user_invalid", bytes "username required"⟩
    else
      match tracker.add "username" with
      | none => .error (duplicate "username")
      | some tracker =>
          if 64 < un.length then .error ⟨"sftp_user_invalid", bytes "username too long"⟩
          else
            match extractBool body "enabled" with
            | none => .error notBoolean
            | some (enabled, present) =>
                if present && (tracker.add "enabled").isNone then .error (duplicate "enabled")
                else
                  match findUnknown body with
                  | some known => .error ⟨"sftp_json_invalid", bytes "unknown field: " ++ bytes known⟩
                  | none => .ok ⟨un, enabled, present⟩

structure SftpPatchUserRequest where
  enabled : Bool
  deriving DecidableEq

/-- `parse_patch_user_body`. -/
def parsePatchUserBody (body : Bytes) : Except SftpError SftpPatchUserRequest :=
  if 65536 < body.length then .error tooLarge
  else if body.head? ≠ some (ascii '\x7b') then .error notJson
  else
    let tracker : FieldTracker := {}
    match extractBool body "enabled" with
    | none => .error notBoolean
    | some (enabled, present) =>
        if !present then .error ⟨"sftp_user_invalid", bytes "enabled field required"⟩
        else if (tracker.add "enabled").isNone then .error (duplicate "enabled")
        else .ok ⟨enabled⟩

/-- A permission with its short names written out. -/
def longPermission (perm : Bytes) : Bytes :=
  if perm = bytes "ro" then bytes "read_only" else if perm = bytes "rw" then bytes "read_write" else perm

structure SftpCreateGrantRequest where
  siteId : UInt64
  permission : Bytes
  deriving DecidableEq

/-- `parse_create_grant_body`. -/
def parseCreateGrantBody (body : Bytes) : Except SftpError SftpCreateGrantRequest :=
  if 65536 < body.length then .error tooLarge
  else if body.head? ≠ some (ascii '\x7b') then .error notJson
  else
    let tracker : FieldTracker := {}
    let perm := extractString body "permission"
    if perm = [] then .error ⟨"sftp_grant_invalid", bytes "permission required"⟩
    else
      match tracker.add "permission" with
      | none => .error (duplicate "permission")
      | some tracker =>
          let perm := longPermission perm
          if perm ≠ bytes "read_only" && perm ≠ bytes "read_write" && perm ≠ bytes "deploy" then
            .error ⟨"sftp_grant_invalid", bytes "permission must be ro or rw"⟩
          else
            match extractInt body "siteId" with
            | none => .error ⟨"sftp_json_invalid", bytes "siteId must be integer"⟩
            | some (sid, present) =>
                if !present then .error ⟨"sftp_grant_invalid", bytes "siteId required"⟩
                else if (tracker.add "siteId").isNone then .error (duplicate "siteId")
                -- the `int` is extended with its sign
                else .ok ⟨UInt64.ofInt sid.toInt, perm⟩

/-! ## Forms -/

/-- The bodies that are read: by the parsers, and by the handler of a new grant itself. -/
inductive Form where
  | createUser
  | patchUser
  | createKey
  | generateKey
  | createGrant
  | postGrant
  deriving DecidableEq

/-- If a body is accepted, and the site id that it is taken for, where the form has one. -/
def Form.accept (body : Bytes) : Form → Option (Option UInt64)
  | createUser => (parseCreateUserBody body).toOption.map fun _ => none
  | patchUser => (parsePatchUserBody body).toOption.map fun _ => none
  | createKey => (parseCreateKeyBody body).toOption.map fun _ => none
  | generateKey => (parseGenerateKeyBody body).toOption.map fun _ => none
  | createGrant => (parseCreateGrantBody body).toOption.map fun request => some request.siteId
  | postGrant => (requestedPermission body).bind fun _ => (requestedSite body).map some

/-- The required fields, each by the names that it may have. -/
def Form.required : Form → List (List Bytes)
  | createUser => [[bytes "username"]]
  | patchUser => [[bytes "enabled"]]
  | createKey => [[bytes "publicKey", bytes "public_key"]]
  | generateKey => [[bytes "type"]]
  | createGrant | postGrant => [[bytes "permission"], [bytes "siteId"]]

/-- The form has a site id. -/
def Form.HasSite : Form → Prop
  | createGrant | postGrant => True
  | _ => False

/-- Each required field is there once, and no field twice. -/
structure Form.Complete (form : Form) (body : ObjectText) : Prop where
  required : ∀ names ∈ form.required, (body.fields.countP fun field => field.1 ∈ names) = 1
  distinct : (body.fields.map Prod.fst).Nodup

/-- A site id is a positive decimal number of 64 bits, the one in the body. -/
def Exact (body : ObjectText) (site : UInt64) : Prop :=
  0 < site.toNat ∧ ∃ value, (bytes "siteId", value) ∈ body.fields ∧ IsNatural site.toNat value

/-- What is accepted is as it should be. -/
def Form.Sound (form : Form) (body : ObjectText) : Prop :=
  ∀ id, form.accept body.text = some id → form.Complete body ∧ ∀ site ∈ id, Exact body site

/-! ## What is accepted -/

def IsShort (body : Bytes) : Prop := body.length ≤ 65536 ∧ body.head? = some (ascii '\x7b')

def permissions : List Bytes := [bytes "ro", bytes "rw", bytes "read_only", bytes "read_write", bytes "deploy"]

/-- The number behind the first site id in a text, at the ends of its range where it is out of
that. -/
def siteNumber (body : Bytes) : Option Int := (textBehind (bytes "\"siteId\":") body).bind strtol

/-- The first key or text that a parser looks for has a value that it takes, and nothing that it
turns down is there. -/
def Form.Takes (body : Bytes) : Form → Prop
  | createUser =>
      IsShort body ∧ extractString body "username" ≠ [] ∧ (extractString body "username").length ≤ 64 ∧
        (extractBool body "enabled").isSome ∧ findUnknown body = none
  | patchUser => IsShort body ∧ (extractBool body "enabled").map Prod.snd = some true
  | createKey => IsShort body ∧ publicKeyField body ≠ [] ∧ (extractBool body "enabled").isSome
  | generateKey =>
      IsShort body ∧ extractString body "type" ∈ [bytes "ed25519", bytes "rsa"] ∧
        (extractString body "comment").length ≤ 256 ∧ (extractString body "comment").all (!isControl ·) ∧
        (extractBool body "enabled").isSome ∧ cutAtText (bytes "\"publicKey\":") body = none ∧
        cutAtText (bytes "\"public_key\":") body = none
  | createGrant => IsShort body ∧ extractString body "permission" ∈ permissions ∧ (siteNumber body).isSome
  | postGrant =>
      Api.jsonExtract body (bytes "permission") ∈ permissions ∧
        ∃ number, siteNumber body = some number ∧ 0 < number ∧ 0 < number.bmod (2 ^ 32)

section Numbers

theorem scanNumeral_dropWhile {p : UInt8 → Bool} (h : ∀ c, p c = true → isSpace c = true) (text : Bytes) :
    scanNumeral (text.dropWhile p) = scanNumeral text := by
  induction text with
  | nil => rfl
  | cons c text ih =>
      cases hBlank : p c with
      | false => rw [List.dropWhile_cons_of_neg (by simp [hBlank])]
      | true =>
          have hSpace := h c hBlank
          have hNul : c ≠ 0 := by
            rintro rfl
            exact absurd hSpace (by decide)
          have hTake : ((c :: text).takeWhile (· ≠ 0)).dropWhile isSpace = (text.takeWhile (· ≠ 0)).dropWhile isSpace := by
            rw [List.takeWhile_cons_of_pos (by simpa using hNul), List.dropWhile_cons_of_pos hSpace]
          rw [List.dropWhile_cons_of_pos hBlank, ih, scanNumeral, scanNumeral, hTake]

theorem strtol_dropWhile {p : UInt8 → Bool} (h : ∀ c, p c = true → isSpace c = true) (text : Bytes) :
    strtol (text.dropWhile p) = strtol text := by
  rw [strtol, scanNumeral_dropWhile h, strtol]

theorem isSpace_of_isJsonWhitespace (c : UInt8) (h : isJsonWhitespace c = true) : isSpace c = true := by
  simp only [isJsonWhitespace, Bool.or_eq_true, decide_eq_true_eq] at h
  rcases h with ((rfl | rfl) | rfl) | rfl <;> decide

theorem textBehind_eq (needle text : Bytes) : textBehind needle text = (cutAtText needle text).map Prod.snd := by
  induction text with
  | nil =>
      rw [textBehind, cutAtText]
      split <;> rfl
  | cons c text ih =>
      rw [textBehind, cutAtText]
      split
      · rfl
      · rw [ih, Option.map_map]
        rfl

/-- The blanks in front of a number make no difference. -/
theorem extractInt_siteId (body : Bytes) :
    extractInt body "siteId" =
      match textBehind (bytes "\"siteId\":") body with
      | none => some (0, false)
      | some behind => (strtol behind).map fun v => (Int32.ofInt v, true) := by
  have hKey : bytes "\"" ++ bytes "siteId" ++ bytes "\":" = bytes "\"siteId\":" := rfl
  rw [extractInt, hKey]
  cases textBehind (bytes "\"siteId\":") body with
  | none => rfl
  | some behind =>
      simp only
      split
      · next hEmpty => rw [← strtol_dropWhile isSpace_of_isJsonWhitespace behind, hEmpty]; rfl
      · rw [strtol_dropWhile isSpace_of_isJsonWhitespace]

theorem requestedSite_eq (body : Bytes) :
    requestedSite body = (siteNumber body).bind fun number =>
      if 0 < number ∧ 0 < number.bmod (2 ^ 32) then some (UInt64.ofInt (number.bmod (2 ^ 32))) else none := by
  rw [requestedSite, siteNumber, textBehind_eq]
  cases cutAtText (bytes "\"siteId\":") body with
  | none => rfl
  | some cut =>
      simp only [Option.map_some, Option.bind_some, strtol_dropWhile fun _ h => h]
      cases strtol cut.2 with
      | none => rfl
      | some number =>
          have hSize : Int32.size = 2 ^ 32 := rfl
          simp only [Int32.toInt_ofInt, hSize, Bool.and_eq_true, decide_eq_true_eq, Option.bind_some]
          split
          · next hPositive =>
            have hBound : number.bmod (2 ^ 32) < 2 ^ 64 := by
              rw [Int.bmod_def]
              split <;> omega
            rw [UInt64.ofInt, Int.emod_eq_of_lt (Int.le_of_lt hPositive.2) hBound]
          · rfl

/-- A number that is cut to an `int` and extended again. -/
theorem toNat_extended_iff (number : Int) (n : Nat) :
    (UInt64.ofInt (number.bmod (2 ^ 32))).toNat = n ↔
      (number - n) % 2 ^ 32 = 0 ∧ (n < 2 ^ 31 ∨ 2 ^ 64 - 2 ^ 31 ≤ n ∧ n < 2 ^ 64) := by
  have hNat : (UInt64.ofInt (number.bmod (2 ^ 32))).toNat = (number.bmod (2 ^ 32) % 2 ^ 64).toNat := by
    rw [UInt64.ofInt, UInt64.toNat_ofNat']
    omega
  rw [hNat, Int.bmod_def]
  split <;> omega

end Numbers

section Acceptance

variable {body : Bytes} {id : Option UInt64}

/-- A body passes a check, and is read on. -/
theorem isSome_check {ε α : Type} {c : Prop} [Decidable c] {failure : ε} {result : Except ε α} :
    (if c then .error failure else result).toOption.isSome = true ↔ ¬c ∧ result.toOption.isSome = true := by
  by_cases h : c
  · simp [h, Except.toOption]
  · simp [h]

theorem isSome_ok {ε α : Type} (a : α) : (Except.ok a : Except ε α).toOption.isSome = true := rfl

theorem not_isSome_error {ε α : Type} (failure : ε) : ¬(Except.error failure : Except ε α).toOption.isSome = true :=
  Bool.false_ne_true

theorem isShort_iff : IsShort body ↔ ¬65536 < body.length ∧ ¬body.head? ≠ some (ascii '\x7b') := by
  rw [IsShort, Nat.not_lt, not_not]

/-- A field that is added once is not there twice. -/
theorem FieldTracker.add_of_notMem {tracker : FieldTracker} {f : String} (h : f ∉ tracker.fields) :
    tracker.add f = some ⟨tracker.fields ++ [f]⟩ := if_neg h

theorem accept_none_iff {α : Type} {result : Option α} :
    result.map (fun _ => (none : Option UInt64)) = some id ↔ result.isSome = true ∧ id = none := by
  cases result with
  | none => simp
  | some a => simp [eq_comm]

theorem accept_createUser : Form.createUser.accept body = some id ↔ Form.createUser.Takes body ∧ id = none := by
  have hName : ({} : FieldTracker).add "username" = some ⟨["username"]⟩ := FieldTracker.add_of_notMem (by decide)
  have hEnabled : (⟨["username"]⟩ : FieldTracker).add "enabled" = some ⟨["username", "enabled"]⟩ :=
    FieldTracker.add_of_notMem (by decide)
  rw [Form.accept, accept_none_iff, Form.Takes, isShort_iff]
  refine and_congr_left fun _ => ?_
  simp only [parseCreateUserBody, hName, isSome_check, and_assoc]
  cases extractBool body "enabled" with
  | none => simp [not_isSome_error]
  | some value =>
      cases findUnknown body with
      | some known => simp [not_isSome_error, isSome_check]
      | none => simp [isSome_ok, hEnabled]

theorem accept_patchUser : Form.patchUser.accept body = some id ↔ Form.patchUser.Takes body ∧ id = none := by
  have hEnabled : ({} : FieldTracker).add "enabled" = some ⟨["enabled"]⟩ := FieldTracker.add_of_notMem (by decide)
  rw [Form.accept, accept_none_iff, Form.Takes, isShort_iff]
  refine and_congr_left fun _ => ?_
  simp only [parsePatchUserBody, isSome_check, and_assoc]
  cases extractBool body "enabled" with
  | none => simp [not_isSome_error]
  | some value => simp [isSome_ok, isSome_check, hEnabled]

theorem accept_createKey : Form.createKey.accept body = some id ↔ Form.createKey.Takes body ∧ id = none := by
  rw [Form.accept, accept_none_iff, Form.Takes, isShort_iff]
  refine and_congr_left fun _ => ?_
  simp only [parseCreateKeyBody, isSome_check, and_assoc]
  cases extractBool body "enabled" with
  | none => simp [not_isSome_error]
  | some value => simp [isSome_ok]

theorem accept_generateKey : Form.generateKey.accept body = some id ↔ Form.generateKey.Takes body ∧ id = none := by
  have hType : ∀ (type : Bytes) (rest : Prop),
      (¬type = [] ∧ ¬(decide (type ≠ bytes "ed25519") && decide (type ≠ bytes "rsa")) = true ∧ rest) ↔
        type ∈ [bytes "ed25519", bytes "rsa"] ∧ rest := by
    intro type rest
    rw [← and_assoc]
    refine and_congr_left fun _ => ?_
    constructor
    · rintro ⟨-, hOther⟩
      simpa [or_iff_not_imp_left] using hOther
    · intro hMem
      simp only [List.mem_cons, List.not_mem_nil, or_false] at hMem
      rcases hMem with rfl | rfl <;> decide
  rw [Form.accept, accept_none_iff, Form.Takes, isShort_iff]
  refine and_congr_left fun _ => ?_
  simp only [parseGenerateKeyBody, isSome_check, and_assoc, hType]
  cases extractBool body "enabled" with
  | none => simp [not_isSome_error]
  | some value => simp [isSome_ok, isSome_check]

/-- The permissions that stay one of the three when their short names are written out. -/
theorem mem_permissions_iff (perm : Bytes) :
    perm ∈ permissions ↔
      longPermission perm = bytes "read_only" ∨ longPermission perm = bytes "read_write" ∨ longPermission perm = bytes "deploy" := by
  rw [longPermission, permissions]
  split
  · next h => subst h; decide
  · split
    · next h => subst h; decide
    · next hShort hShort' => simp [hShort, hShort']

theorem map_check {ε α β : Type} {c : Prop} [Decidable c] {failure : ε} {result : Except ε α} {f : α → β} {b : β} :
    (if c then .error failure else result).toOption.map f = some b ↔ ¬c ∧ result.toOption.map f = some b := by
  by_cases h : c
  · simp [h, Except.toOption]
  · simp [h]

theorem accept_createGrant :
    Form.createGrant.accept body = some id ↔
      Form.createGrant.Takes body ∧ ∃ number, siteNumber body = some number ∧ id = some (UInt64.ofInt (number.bmod (2 ^ 32))) := by
  have hPermission : ({} : FieldTracker).add "permission" = some ⟨["permission"]⟩ := FieldTracker.add_of_notMem (by decide)
  have hSite : (⟨["permission"]⟩ : FieldTracker).add "siteId" = some ⟨["permission", "siteId"]⟩ :=
    FieldTracker.add_of_notMem (by decide)
  have hPerm : ∀ (perm : Bytes) (rest : Prop),
      (¬perm = [] ∧ ¬(decide (longPermission perm ≠ bytes "read_only") && decide (longPermission perm ≠ bytes "read_write") &&
          decide (longPermission perm ≠ bytes "deploy")) = true ∧ rest) ↔ perm ∈ permissions ∧ rest := by
    intro perm rest
    have hEmpty : [] ∉ permissions := by decide
    rw [← and_assoc]
    refine and_congr_left fun _ => ?_
    constructor
    · rintro ⟨-, hOther⟩
      rw [mem_permissions_iff]
      simpa [or_iff_not_imp_left, and_imp] using hOther
    · intro hMem
      refine ⟨fun hNil => hEmpty (hNil ▸ hMem), ?_⟩
      rw [mem_permissions_iff] at hMem
      rcases hMem with h | h | h <;> simp [h]
  have hSize : Int32.size = 2 ^ 32 := rfl
  rw [Form.accept, Form.Takes, isShort_iff, siteNumber]
  simp only [parseCreateGrantBody, hPermission, extractInt_siteId, map_check, hPerm, and_assoc]
  cases textBehind (bytes "\"siteId\":") body with
  | none => simp [Except.toOption]
  | some behind =>
      cases hNumber : strtol behind with
      | none => simp [hNumber, Except.toOption]
      | some number => simp [hNumber, hSite, hSize, Except.toOption, eq_comm]

theorem accept_postGrant :
    Form.postGrant.accept body = some id ↔
      Form.postGrant.Takes body ∧ ∃ number, siteNumber body = some number ∧ id = some (UInt64.ofInt (number.bmod (2 ^ 32))) := by
  have hPermission : (requestedPermission body).isSome = true ↔ Api.jsonExtract body (bytes "permission") ∈ permissions := by
    have hRequested : requestedPermission body =
        if (decide (longPermission (Api.jsonExtract body (bytes "permission")) = bytes "read_only") ||
            decide (longPermission (Api.jsonExtract body (bytes "permission")) = bytes "read_write") ||
            decide (longPermission (Api.jsonExtract body (bytes "permission")) = bytes "deploy")) = true then
          some (longPermission (Api.jsonExtract body (bytes "permission")))
        else none := rfl
    rw [hRequested, Option.isSome_ite, mem_permissions_iff]
    simp only [Bool.or_eq_true, decide_eq_true_eq, or_assoc]
  rw [Form.accept, Form.Takes, requestedSite_eq, ← hPermission]
  cases requestedPermission body with
  | none => simp
  | some permission =>
      cases siteNumber body with
      | none => simp
      | some number =>
          by_cases hPositive : 0 < number ∧ 0 < number.bmod (2 ^ 32)
          · simp only [Option.bind_some, if_pos hPositive, Option.map_some, Option.isSome_some, true_and, Option.some.injEq,
              exists_eq_left', and_iff_right hPositive]
            exact eq_comm
          · simp only [Option.bind_some, Option.map_none, Option.isSome_some, true_and, Option.some.injEq, exists_eq_left',
              reduceCtorEq, hPositive, if_false, false_and]

end Acceptance

/-! ## Sound bodies -/

/-- The site id in a body is a positive decimal number, and an `int` or one of the greatest of
64 bits; the number that is found first differs from it by a multiple of `2 ^ 32`. -/
def SiteFits (body : ObjectText) : Prop :=
  ∃ n value number, 0 < n ∧ (bytes "siteId", value) ∈ body.fields ∧ IsNatural n value ∧ siteNumber body.text = some number ∧
    (number - n) % 2 ^ 32 = 0 ∧ (n < 2 ^ 31 ∨ 2 ^ 64 - 2 ^ 31 ≤ n ∧ n < 2 ^ 64)

theorem exact_iff {body : ObjectText} {number : Int} (hNumber : siteNumber body.text = some number) :
    Exact body (UInt64.ofInt (number.bmod (2 ^ 32))) ↔ SiteFits body := by
  constructor
  · rintro ⟨hPositive, value, hField, hNatural⟩
    obtain ⟨hSame, hRange⟩ := (toNat_extended_iff number _).mp rfl
    exact ⟨_, value, number, hPositive, hField, hNatural, hNumber, hSame, hRange⟩
  · rintro ⟨n, value, found, hPositive, hField, hNatural, hFound, hSame, hRange⟩
    obtain rfl := Option.some.inj (hNumber.symm.trans hFound)
    have hNat := (toNat_extended_iff number n).mpr ⟨hSame, hRange⟩
    exact ⟨by rw [hNat]; exact hPositive, value, hField, by rw [hNat]; exact hNatural⟩

theorem sound_of_accept {form : Form} {body : ObjectText} {taken : Prop}
    (h : ∀ id, form.accept body.text = some id ↔ taken ∧ id = none) : form.Sound body ↔ (taken → form.Complete body) := by
  constructor
  · exact fun hSound hTaken => (hSound none ((h none).mpr ⟨hTaken, rfl⟩)).1
  · rintro hComplete id hAccept
    obtain ⟨hTaken, rfl⟩ := (h id).mp hAccept
    exact ⟨hComplete hTaken, fun _ hSite => absurd hSite (Option.not_mem_none _)⟩

theorem sound_of_acceptSite {form : Form} {body : ObjectText} {taken : Prop} (hNumber : taken → ∃ number, siteNumber body.text = some number)
    (h : ∀ id, form.accept body.text = some id ↔
      taken ∧ ∃ number, siteNumber body.text = some number ∧ id = some (UInt64.ofInt (number.bmod (2 ^ 32)))) :
    form.Sound body ↔ (taken → form.Complete body ∧ SiteFits body) := by
  constructor
  · intro hSound hTaken
    obtain ⟨number, hSome⟩ := hNumber hTaken
    obtain ⟨hComplete, hExact⟩ := hSound _ ((h _).mpr ⟨hTaken, number, hSome, rfl⟩)
    exact ⟨hComplete, (exact_iff hSome).mp (hExact _ rfl)⟩
  · rintro hFits id hAccept
    obtain ⟨hTaken, number, hSome, rfl⟩ := (h id).mp hAccept
    obtain ⟨hComplete, hSite⟩ := hFits hTaken
    refine ⟨hComplete, ?_⟩
    rintro site ⟨⟩
    exact (exact_iff hSome).mpr hSite

/-- What is accepted is as it should be if each body that passes the checks has its fields once,
and its site id fits. -/
theorem form_sound_iff (form : Form) (body : ObjectText) :
    form.Sound body ↔ (form.Takes body.text → form.Complete body ∧ (form.HasSite → SiteFits body)) := by
  cases form with
  | createUser =>
      have hSound : Form.createUser.Sound body ↔ _ := sound_of_accept fun id => accept_createUser
      simpa [Form.HasSite] using hSound
  | patchUser =>
      have hSound : Form.patchUser.Sound body ↔ _ := sound_of_accept fun id => accept_patchUser
      simpa [Form.HasSite] using hSound
  | createKey =>
      have hSound : Form.createKey.Sound body ↔ _ := sound_of_accept fun id => accept_createKey
      simpa [Form.HasSite] using hSound
  | generateKey =>
      have hSound : Form.generateKey.Sound body ↔ _ := sound_of_accept fun id => accept_generateKey
      simpa [Form.HasSite] using hSound
  | createGrant =>
      have hSound : Form.createGrant.Sound body ↔ _ :=
        sound_of_acceptSite (fun hTaken => Option.isSome_iff_exists.mp hTaken.2.2) fun id => accept_createGrant
      simpa [Form.HasSite] using hSound
  | postGrant =>
      have hSound : Form.postGrant.Sound body ↔ _ :=
        sound_of_acceptSite (fun hTaken => hTaken.2.imp fun _ h => h.1) fun id => accept_postGrant
      simpa [Form.HasSite] using hSound

theorem isPlain_string {name s : Bytes} (hName : ∀ c ∈ name, ¬Json.Special c ∧ 32 ≤ c) (hText : ∀ c ∈ s, ¬Json.Special c ∧ 32 ≤ c) :
    Json.IsPlain (name, Json.quote :: (s ++ [Json.quote])) := ⟨hName, Json.extent_plain hText⟩

/-- A site id of more than 32 bits. -/
def wrappedBody : ObjectText :=
  .compact (bytes "permission", bytes "\"rw\"") [(bytes "siteId", bytes "4294967297")] (by
    have hNatural : IsNatural 4294967297 (bytes "4294967297") := ⟨by decide, by decide, by decide, by decide⟩
    have hSite : Json.IsPlain (bytes "siteId", bytes "4294967297") :=
      ⟨by decide, fun rest => .number rest (Json.isNumber_natural hNatural)⟩
    exact List.forall_mem_cons.mpr
      ⟨isPlain_string (s := bytes "rw") (by decide) (by decide), List.forall_mem_singleton.mpr hSite⟩)

/-- A name that is there twice. -/
def repeatedBody : ObjectText :=
  .compact (bytes "username", bytes "\"u\"") [(bytes "username", bytes "\"v\"")] (List.forall_mem_cons.mpr
    ⟨isPlain_string (s := bytes "u") (by decide) (by decide),
      List.forall_mem_singleton.mpr (isPlain_string (s := bytes "v") (by decide) (by decide))⟩)

/-- A grant of another site, and a user with two names. -/
theorem form_sound_wrapped :
    ¬Form.createGrant.Sound wrappedBody ∧ ¬Form.postGrant.Sound wrappedBody ∧ ¬Form.createUser.Sound repeatedBody := by
  have hOther : ¬Exact wrappedBody 1 := by
    rintro ⟨-, value, hField, hNatural⟩
    obtain rfl : value = bytes "4294967297" := by
      have hFields : wrappedBody.fields = [(bytes "permission", bytes "\"rw\""), (bytes "siteId", bytes "4294967297")] := rfl
      have hName : bytes "siteId" ≠ bytes "permission" := by decide
      simpa [hFields, hName] using hField
    exact absurd hNatural.value (by decide)
  refine ⟨fun hSound => ?_, fun hSound => ?_, fun hSound => ?_⟩
  · exact hOther ((hSound (some 1) (by decide)).2 1 rfl)
  · exact hOther ((hSound (some 1) (by decide)).2 1 rfl)
  · exact absurd (hSound none (by decide)).1.distinct (by decide)

end ContainerCP.SftpApi
