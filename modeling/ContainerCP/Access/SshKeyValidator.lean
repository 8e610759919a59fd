import ContainerCP.Text.Decimal

/-! `SshKeyValidator`: one line with a public key, taken apart and checked. The hash
of OpenSSL is a parameter. -/
namespace ContainerCP.Access

/-- `std::iscntrl`. -/
def isControl (c : UInt8) : Bool := c < 32 || c = 127

def isBlank (c : UInt8) : Bool := c = ascii ' ' || c = ascii '\t'

def supportedAlgorithms : List Bytes :=
  ["ssh-ed25519", "ecdsa-sha2-nistp256", "ecdsa-sha2-nistp384", "ecdsa-sha2-nistp521", "ssh-rsa"].map bytes

def isValidBase64Char (c : UInt8) : Bool :=
  isAlnum c || c = ascii '+' || c = ascii '/' || c = ascii '='

/-! ## Base64 -/

/-- The table of the decoder; nothing stands for 255. -/
def base64Value (c : UInt8) : Option Nat :=
  if 65 ≤ c ∧ c ≤ 90 then some (c.toNat - 65)
  else if 97 ≤ c ∧ c ≤ 122 then some (c.toNat - 71)
  else if 48 ≤ c ∧ c ≤ 57 then some (c.toNat + 4)
  else if c = ascii '+' then some 62
  else if c = ascii '/' then some 63
  else none

/-- Groups of four; a group that is not complete makes the whole text nothing. -/
def decodeGroups : List Nat → Option Bytes
  | [] => some []
  | a :: b :: c :: d :: rest =>
      (decodeGroups rest).map
        ([UInt8.ofNat (a <<< 2 ||| b >>> 4), UInt8.ofNat (b <<< 4 ||| c >>> 2), UInt8.ofNat (c <<< 6 ||| d)] ++ ·)
  | _ :: _ => none

/-- `base64_decode`. The padding is skipped like every byte that is not in the table. -/
def base64Decode (encoded : Bytes) : Bytes := (decodeGroups (encoded.filterMap base64Value)).getD []

def base64Chars : Bytes := bytes "ABCDEFGHIJKLMNOPQRSTUVWXYZabcdefghijklmnopqrstuvwxyz0123456789+/"

/-- The characters of the bits collected so far: `value` has `bits` of them that are
not written yet. There are never enough for a third character. -/
def drain (value bits : Nat) : Bytes × Nat :=
  let character (shift : Nat) := base64Chars.getD ((value >>> shift) % 64) 0
  if bits < 6 then ([], bits)
  else if bits < 12 then ([character (bits - 6)], bits - 6)
  else ([character (bits - 6), character (bits - 12)], bits - 12)

/-- The loop of `fingerprint`, which writes no padding. -/
def encodeBits : Nat → Nat → Bytes → Bytes
  | value, bits, [] => if bits = 0 then [] else [base64Chars.getD ((value <<< (6 - bits)) % 64) 0]
  | value, bits, c :: rest =>
      let value := value * 256 + c.toNat
      let drained := drain value (bits + 8)
      drained.1 ++ encodeBits value drained.2 rest

section Validation

variable (sha256 : Bytes → Bytes)

def fingerprint (decoded : Bytes) : Bytes := bytes "SHA256:" ++ encodeBits 0 0 (sha256 decoded)

/-! ## The blob -/

/-- A number of four bytes, and the bytes behind it; short input gives zero. -/
def readUInt32 : Bytes → Nat × Bytes
  | a :: b :: c :: d :: rest => (((a.toNat * 256 + b.toNat) * 256 + c.toNat) * 256 + d.toNat, rest)
  | short => (0, short)

def readString (blob : Bytes) : Bytes × Bytes :=
  let (length, rest) := readUInt32 blob
  if rest.length < length then ([], rest) else (rest.take length, rest.drop length)

/-- What is wrong with a key blob, or nothing. -/
def keyBlobError (keyType blob : Bytes) : Option Bytes :=
  let (embedded, rest) := readString blob
  let (first, behind) := readString rest
  let (second, last) := readString behind
  if embedded = [] then some (bytes "malformed key blob: cannot read key type")
  else if embedded ≠ keyType then
    some (bytes "key type mismatch: expected " ++ keyType ++ bytes ", blob contains " ++ embedded)
  else if keyType = bytes "ssh-ed25519" then
    if first.length = 32 ∧ behind = [] then none else some (bytes "invalid ed25519 key: expected 32-byte public key")
  else if keyType = bytes "ssh-rsa" then
    if first ≠ [] ∧ second ≠ [] ∧ last = [] ∧ 256 ≤ second.length then none
    else some (bytes "invalid RSA key: key too short (minimum 2048 bits)")
  else if (bytes "ecdsa-sha2-").isPrefixOf keyType then
    if first ≠ [] ∧ second ≠ [] ∧ last = [] then none
    else some (bytes "invalid ECDSA key: malformed curve or point data")
  else none

/-! ## The line -/

structure SshKeyValidation where
  keyType : Bytes
  keyData : Bytes
  keyComment : Bytes
  fingerprint : Bytes
  deriving DecidableEq

/-- `SshKeyValidator::validate`, with the text of the error. -/
def validate (line : Bytes) : Except Bytes SshKeyValidation :=
  if line = [] then .error (bytes "empty input")
  else if 8192 < line.length then .error (bytes "input too long")
  else
    match line.find? fun c => c = 0 || isControl c && !isBlank c with
    | some c => .error (if c = 0 then bytes "embedded NUL byte" else bytes "control characters not allowed")
    | none =>
        let text := line.dropWhile isBlank
        let algorithm := text.takeWhile (!isBlank ·)
        let behind := (text.dropWhile (!isBlank ·)).dropWhile isBlank
        let blob := behind.takeWhile (!isBlank ·)
        let comment := (behind.dropWhile (!isBlank ·)).dropWhile isBlank
        if text = [] then .error (bytes "whitespace-only input")
        else if algorithm ∉ supportedAlgorithms then .error (bytes "unsupported key algorithm: " ++ algorithm)
        else if behind = [] then .error (bytes "missing key data after algorithm")
        else if !blob.all isValidBase64Char then .error (bytes "invalid base64 character in key data")
        else if base64Decode blob = [] then .error (bytes "base64 decoding failed")
        else
          match keyBlobError algorithm (base64Decode blob) with
          | some error => .error error
          | none =>
              if 256 < comment.length then .error (bytes "key comment too long (max 256 chars)")
              else if comment.any isControl then .error (bytes "control characters in comment")
              else .ok ⟨algorithm, blob, comment, fingerprint sha256 (base64Decode blob)⟩

/-! ## What is accepted -/

variable {sha256} {line : Bytes} {validation : SshKeyValidation}

theorem newline_not_mem_of_isBase64 {blob : Bytes} (h : blob.all isValidBase64Char = true) : ascii '\n' ∉ blob := by
  intro hMem
  exact absurd (List.all_eq_true.mp h _ hMem) (by decide)

theorem newline_not_mem_of_supported {algorithm : Bytes} (h : algorithm ∈ supportedAlgorithms) :
    ascii '\n' ∉ algorithm := by
  revert algorithm
  decide

/-- No field of an accepted key has a line end in it. -/
theorem newline_not_mem_of_validate (h : validate sha256 line = .ok validation) :
    ascii '\n' ∉ validation.keyType ∧ ascii '\n' ∉ validation.keyData ∧ ascii '\n' ∉ validation.keyComment := by
  unfold validate at h
  split at h
  · cases h
  split at h
  · cases h
  split at h
  · cases h
  dsimp only at h
  split at h
  · cases h
  split at h
  · cases h
  next hAlgorithm =>
  split at h
  · cases h
  split at h
  · cases h
  next hBlob =>
  split at h
  · cases h
  split at h
  · cases h
  split at h
  · cases h
  split at h
  · cases h
  next hComment =>
  injection h with hFields
  subst hFields
  refine ⟨newline_not_mem_of_supported (not_not.mp hAlgorithm), newline_not_mem_of_isBase64 (by simpa using hBlob), ?_⟩
  intro hMem
  exact hComment (List.any_eq_true.mpr ⟨_, hMem, by decide⟩)

end Validation

end ContainerCP.Access
