import ContainerCP.Text.Decimal
import ContainerCP.Text.Json

/-! The activation state, which the migration writes and the next start reads: the
texts that may stand in it, how they are escaped, and the parser. -/
namespace ContainerCP.Storage

open Json (quote backslash)

/-! ## `LegacyArchive`: texts -/

/-- `%04X` of the `int` that a `char` becomes. The type is signed, so that a byte above
127 is a negative number. -/
def hex4 (c : UInt8) : Bytes :=
  let number := if c < 128 then c.toNat else 2 ^ 32 - 256 + c.toNat
  let digits := (Nat.toDigits 16 number).map fun digit => ascii digit.toUpper
  List.replicate (4 - digits.length) (ascii '0') ++ digits

/-- The escape of one `char`. All below 32 get the long one, of which a buffer of eight
bytes keeps seven. -/
def jsonEscapeByte (c : UInt8) : Bytes :=
  if c = quote then bytes "\\\""
  else if c = backslash then bytes "\\\\"
  else if c = ascii '\n' then bytes "\\n"
  else if c = ascii '\r' then bytes "\\r"
  else if c = ascii '\t' then bytes "\\t"
  else if c < 32 || 128 ≤ c then (bytes "\\u" ++ hex4 c).take 7
  else [c]

/-- `json_escape`. -/
def jsonEscape (text : Bytes) : Bytes := text.flatMap jsonEscapeByte

/-- `valid_migration_id`. -/
def validMigrationId (id : Bytes) : Bool :=
  id.length = 36 &&
    (List.range 36).all (fun i =>
      let c := id.getD i 0
      if i = 8 || i = 13 || i = 18 || i = 23 then c = ascii '-' else isDigit c || (97 ≤ c && c ≤ 102)) &&
    id.getD 14 0 = ascii '4' && (bytes "89ab").contains (id.getD 19 0)

/-- The number of two digits at a place. -/
def twoDigitsAt (text : Bytes) (i : Nat) : Nat := ((text.getD i 0).toNat - 48) * 10 + ((text.getD (i + 1) 0).toNat - 48)

/-- `valid_timestamp`. -/
def validTimestamp (text : Bytes) : Bool :=
  text.length = 16 &&
    (List.range 16).all (fun i =>
      let c := text.getD i 0
      if i = 8 then c = ascii 'T' else if i = 15 then c = ascii 'Z' else isDigit c) &&
    (1 ≤ twoDigitsAt text 4 && twoDigitsAt text 4 ≤ 12) && (1 ≤ twoDigitsAt text 6 && twoDigitsAt text 6 ≤ 31) &&
    twoDigitsAt text 9 ≤ 23 && twoDigitsAt text 11 ≤ 59 && twoDigitsAt text 13 ≤ 59

/-- The text behind one number at least. -/
def skipNumber : Bytes → Option Bytes
  | [] => none
  | c :: rest => if isDigit c then some (rest.dropWhile isDigit) else none

def skipByte (byte : UInt8) : Bytes → Option Bytes
  | [] => none
  | c :: rest => if c = byte then some rest else none

def isSuffixChar (c : UInt8) : Bool := isAlnum c || c = ascii '.' || c = ascii '-'

/-- `safe_version`: `v<num>.<num>.<num>[-suffix]`. -/
def safeVersion (version : Bytes) : Bool :=
  let behind := ((((skipByte (ascii 'v') version).bind skipNumber).bind (skipByte (ascii '.'))).bind skipNumber).bind
    (skipByte (ascii '.')) |>.bind skipNumber
  match behind with
  | none => false
  | some [] => true
  | some (c :: suffix) => c = ascii '-' && suffix ≠ [] && suffix.all isSuffixChar

/-! ## `ActivationStateParser` -/

structure ActivationState where
  stateVersion : Int := 0
  schemaVersion : Int := 0
  activeBackend : Bytes := []
  migrationId : Bytes := []
  databasePath : Bytes := []
  archivePath : Bytes := []
  sourceVersion : Bytes := []
  targetVersion : Bytes := []
  activationTimestamp : Bytes := []
  verificationResult : Bytes := []
  deriving DecidableEq

namespace ActivationState

/-- The next byte; the end of the text looks like a zero. -/
def peek (text : Bytes) : UInt8 := text.headD 0

def isWs (c : UInt8) : Bool := c = ascii ' ' || c = ascii '\t' || c = ascii '\n' || c = ascii '\r'

def skipWs (text : Bytes) : Bytes := text.dropWhile isWs

def hexValue (c : UInt8) : Option Nat :=
  if isDigit c then some (c.toNat - 48)
  else if 97 ≤ c && c ≤ 102 then some (c.toNat - 97 + 10)
  else if 65 ≤ c && c ≤ 70 then some (c.toNat - 65 + 10)
  else none

/-- The UTF-8 form of a code point of four hexadecimal digits. -/
def encodeUnit (cp : Nat) : Bytes :=
  if cp ≤ 0x7F then [UInt8.ofNat cp]
  else if cp ≤ 0x7FF then [UInt8.ofNat (0xC0 ||| (cp >>> 6)), UInt8.ofNat (0x80 ||| (cp &&& 0x3F))]
  else
    [UInt8.ofNat (0xE0 ||| (cp >>> 12)), UInt8.ofNat (0x80 ||| ((cp >>> 6) &&& 0x3F)),
      UInt8.ofNat (0x80 ||| (cp &&& 0x3F))]

/-- The four digits of a `\u`. A surrogate is refused. -/
def readUnit : Bytes → Option (Bytes × Bytes)
  | a :: b :: c :: d :: rest =>
      match hexValue a, hexValue b, hexValue c, hexValue d with
      | some a, some b, some c, some d =>
          let cp := ((a * 16 + b) * 16 + c) * 16 + d
          if 0xD800 ≤ cp && cp ≤ 0xDFFF then none else some (encodeUnit cp, rest)
      | _, _, _, _ => none
  | _ => none

/-- What a backslash starts. -/
def readEscape : Bytes → Option (Bytes × Bytes)
  | [] => none
  | c :: rest =>
      if c = quote || c = backslash || c = ascii '/' then some ([c], rest)
      else if c = ascii 'b' then some ([8], rest)
      else if c = ascii 'f' then some ([12], rest)
      else if c = ascii 'n' then some ([10], rest)
      else if c = ascii 'r' then some ([13], rest)
      else if c = ascii 't' then some ([9], rest)
      else if c = ascii 'u' then readUnit rest
      else none

/-- The loop of `parse_string`. Every turn takes a byte at least. -/
def readString : Nat → Bytes → Bytes → Option (Bytes × Bytes)
  | 0, _, _ => none
  | _ + 1, _, [] => none
  | fuel + 1, out, c :: rest =>
      if c = quote then some (out, rest)
      else if c = 0 then none
      else if c = backslash then
        match readEscape rest with
        | none => none
        | some (decoded, rest) => readString fuel (out ++ decoded) rest
      else if c < 32 then none
      else readString fuel (out ++ [c]) rest

def parseString : Bytes → Option (Bytes × Bytes)
  | [] => none
  | c :: rest => if c = quote then readString (rest.length + 1) [] rest else none

def parseRequiredString (text : Bytes) : Option (Bytes × Bytes) :=
  match parseString text with
  | none => none
  | some (out, rest) => if out = [] || out.any (· < 32) then none else some (out, rest)

/-- The loop of `parse_int`, which stops before a value above the limit. -/
def readDigits (limit : Nat) : Nat → Bytes → Option (Nat × Bytes)
  | value, [] => some (value, [])
  | value, c :: rest =>
      if isDigit c then
        if limit / 10 < value || limit < value * 10 + (c.toNat - 48) then none
        else readDigits limit (value * 10 + (c.toNat - 48)) rest
      else some (value, c :: rest)

def parseInt (text : Bytes) : Option (Int × Bytes) :=
  let negative := peek text = ascii '-'
  let digits := if negative then text.tail else text
  let limit := if negative then 2 ^ 63 else 2 ^ 63 - 1
  if !isDigit (peek digits) then none
  else
    match if peek digits = ascii '0' then some (0, digits.tail) else readDigits limit 0 digits with
    | none => none
    | some (value, rest) =>
        if isDigit (peek rest) then none else some (if negative then -(value : Int) else value, rest)

def intMember (text : Bytes) (valid : Int → Bool) (set : Int → ActivationState) : Option (ActivationState × Bytes) :=
  match parseInt text with
  | none => none
  | some (value, rest) => if valid value then some (set value, rest) else none

def stringMember (text : Bytes) (valid : Bytes → Bool) (set : Bytes → ActivationState) :
    Option (ActivationState × Bytes) :=
  match parseRequiredString text with
  | none => none
  | some (value, rest) => if valid value then some (set value, rest) else none

/-- The value of a member. -/
def parseMember (key : Bytes) (state : ActivationState) (text : Bytes) : Option (ActivationState × Bytes) :=
  if key = bytes "state_version" then intMember text (· = 1) fun value => { state with stateVersion := value }
  else if key = bytes "schema_version" then intMember text (1 ≤ ·) fun value => { state with schemaVersion := value }
  else if key = bytes "active_backend" then
    stringMember text (· = bytes "sqlite") fun value => { state with activeBackend := value }
  else if key = bytes "migration_id" then
    stringMember text (fun _ => true) fun value => { state with migrationId := value }
  else if key = bytes "database_path" then
    stringMember text (fun _ => true) fun value => { state with databasePath := value }
  else if key = bytes "archive_path" then
    stringMember text (fun _ => true) fun value => { state with archivePath := value }
  else if key = bytes "source_version" then
    stringMember text safeVersion fun value => { state with sourceVersion := value }
  else if key = bytes "target_version" then
    stringMember text safeVersion fun value => { state with targetVersion := value }
  else if key = bytes "activation_timestamp" then
    stringMember text validTimestamp fun value => { state with activationTimestamp := value }
  else if key = bytes "verification_result" then
    stringMember text (· = bytes "success") fun value => { state with verificationResult := value }
  else none

/-- The comma in front of every member but the first. -/
def separator (text : Bytes) : Option Bytes :=
  if peek text ≠ ascii ',' then none
  else
    let text := skipWs text.tail
    if peek text = ascii '\x7d' then none else some text

/-- The loop of `parse`. Every turn takes a byte at least. -/
def parseMembers : Nat → Bool → List Bytes → ActivationState → Bytes → Option (List Bytes × ActivationState × Bytes)
  | 0, _, _, _, _ => none
  | fuel + 1, first, seen, state, text =>
      let text := skipWs text
      if peek text = ascii '\x7d' then some (seen, state, text.tail)
      else
        match if first then some text else separator text with
        | none => none
        | some text =>
            match parseString text with
            | none => none
            | some (key, rest) =>
                if key ∈ seen then none
                else
                  match skipByte (ascii ':') (skipWs rest) with
                  | none => none
                  | some rest =>
                      match parseMember key state (skipWs rest) with
                      | none => none
                      | some (state, rest) => parseMembers fuel false (key :: seen) state rest

/-- `kRequired`. -/
def required : List Bytes :=
  [bytes "state_version", bytes "active_backend", bytes "migration_id", bytes "database_path", bytes "archive_path",
    bytes "source_version", bytes "target_version", bytes "activation_timestamp", bytes "schema_version",
    bytes "verification_result"]

/-- `parse_activation_state`. -/
def parse (content : Bytes) : Option ActivationState :=
  match skipByte (ascii '\x7b') (skipWs content) with
  | none => none
  | some rest =>
      match parseMembers (rest.length + 1) true [] {} rest with
      | none => none
      | some (seen, state, rest) =>
          if peek (skipWs rest) ≠ 0 then none
          else if seen.length = required.length && required.all (seen.contains ·) then some state
          else none

end ActivationState

end ContainerCP.Storage
