import ContainerCP.Text.Decimal

/-! The metadata of a certificate, and the JSON text that `CertificateStore` keeps of
it. -/
namespace ContainerCP.Ssl

structure Metadata where
  version : Int32 := 1
  siteId : UInt64 := 0
  providerId : Bytes := []
  certificateType : Bytes := bytes "pem"
  status : Bytes := bytes "http_only"
  domains : List Bytes := []
  issuedAt : Bytes := []
  expiresAt : Bytes := []
  renewAfter : Bytes := []
  httpsEnabled : Bool := false
  redirectEnabled : Bool := false
  autoRenew : Bool := true
  challengeType : Bytes := []
  lastValidation : Bytes := []
  lastError : Bytes := []
  renewAttempts : Int32 := 0
  fingerprintSha256 : Bytes := []
  serialNumber : Bytes := []
  issuer : Bytes := []
  subject : Bytes := []
  environment : Bytes := []
  createdAt : Bytes := []
  updatedAt : Bytes := []
  deriving DecidableEq

/-! ## Writing -/

def escapeByte (c : UInt8) : Bytes :=
  if c = ascii '"' then bytes "\\\""
  else if c = ascii '\\' then bytes "\\\\"
  else if c = ascii '\n' then bytes "\\n"
  else if c = ascii '\r' then bytes "\\r"
  else if c = ascii '\t' then bytes "\\t"
  else [c]

def escapeJson (text : Bytes) : Bytes := text.flatMap escapeByte

def quoted (text : Bytes) : Bytes := bytes "\"" ++ escapeJson text ++ bytes "\""

/-- One member of the object, on a line of its own. -/
def member (key : String) (value : Bytes) : Bytes := bytes "    \"" ++ bytes key ++ bytes "\": " ++ value

def boolText (value : Bool) : Bytes := if value then bytes "true" else bytes "false"

def metadataToJson (metadata : Metadata) : Bytes :=
  let members :=
    [ member "version" (decimalInt metadata.version.toInt)
    , member "site_id" (quoted (decimal metadata.siteId.toNat))
    , member "provider_id" (quoted metadata.providerId)
    , member "certificate_type" (quoted metadata.certificateType)
    , member "status" (quoted metadata.status)
    , member "domains" (bytes "[" ++ (bytes ", ").intercalate (metadata.domains.map quoted) ++ bytes "]")
    , member "issued_at" (quoted metadata.issuedAt)
    , member "expires_at" (quoted metadata.expiresAt)
    , member "renew_after" (quoted metadata.renewAfter)
    , member "https_enabled" (boolText metadata.httpsEnabled)
    , member "redirect_enabled" (boolText metadata.redirectEnabled)
    , member "auto_renew" (boolText metadata.autoRenew)
    , member "challenge_type" (quoted metadata.challengeType)
    , member "last_validation" (quoted metadata.lastValidation)
    , member "last_error" (quoted metadata.lastError)
    , member "renew_attempts" (decimalInt metadata.renewAttempts.toInt)
    , member "fingerprint_sha256" (quoted metadata.fingerprintSha256)
    , member "serial_number" (quoted metadata.serialNumber)
    , member "issuer" (quoted metadata.issuer)
    , member "subject" (quoted metadata.subject)
    , member "environment" (quoted metadata.environment)
    , member "created_at" (quoted metadata.createdAt)
    , member "updated_at" (quoted metadata.updatedAt) ]
  bytes "\x7b\n" ++ (bytes ",\n").intercalate members ++ bytes "\n\x7d\n"

/-! ## Reading

The reader walks over the text once; a text is what stands in front of it. -/

def isJsonSpace (c : UInt8) : Bool :=
  c = ascii ' ' || c = ascii '\t' || c = ascii '\n' || c = ascii '\r'

def skipWhitespace (text : Bytes) : Bytes := text.dropWhile isJsonSpace

def skipByte (c : UInt8) : Bytes → Bytes
  | [] => []
  | d :: rest => if d = c then rest else d :: rest

def unescaped (c : UInt8) : UInt8 :=
  if c = ascii 'n' then ascii '\n'
  else if c = ascii 'r' then ascii '\r'
  else if c = ascii 't' then ascii '\t'
  else c

/-- The rest of a string behind its opening quote, and what is behind the string. -/
def scanString : Bytes → Bytes × Bytes
  | [] => ([], [])
  | c :: rest =>
      if c = ascii '"' then ([], rest)
      else if c = ascii '\\' then
        match rest with
        | [] => ([], [])
        | d :: rest => (unescaped d :: (scanString rest).1, (scanString rest).2)
      else (c :: (scanString rest).1, (scanString rest).2)

def parseJsonString (text : Bytes) : Bytes × Bytes :=
  match skipWhitespace text with
  | [] => ([], [])
  | c :: rest => if c = ascii '"' then scanString rest else ([], c :: rest)

/-- The text of an array up to its closing bracket, brackets inside strings counted
like the others. -/
def scanArray : Int → Bytes → Bytes × Bytes
  | _, [] => ([], [])
  | depth, c :: rest =>
      let depth := if c = ascii '[' then depth + 1 else if c = ascii ']' then depth - 1 else depth
      if depth = 0 then ([c], rest) else (c :: (scanArray depth rest).1, (scanArray depth rest).2)

def isBare (c : UInt8) : Bool :=
  !(c = ascii ',' || c = ascii ']' || c = ascii '\x7d' || isJsonSpace c)

def parseJsonValue (text : Bytes) : Bytes × Bytes :=
  match skipWhitespace text with
  | [] => ([], [])
  | c :: rest =>
      if c = ascii '"' then parseJsonString (c :: rest)
      else if c = ascii '[' then scanArray 0 (c :: rest)
      else ((c :: rest).takeWhile isBare, (c :: rest).dropWhile isBare)

/-- The loop over the domains. Nothing stands for a loop that does not end within the
fuel. -/
def scanDomains : Nat → Bytes → Option (List Bytes × Bytes)
  | 0, _ => none
  | fuel + 1, text =>
      match skipWhitespace text with
      | [] => some ([], [])
      | c :: rest =>
          if c = ascii ']' then some ([], c :: rest)
          else
            let domain := parseJsonString (c :: rest)
            match scanDomains fuel (skipByte (ascii ',') (skipWhitespace domain.2)) with
            | none => none
            | some (domains, rest) => some (if domain.1 = [] then domains else domain.1 :: domains, rest)

def parseDomains (fuel : Nat) (text : Bytes) : Option (List Bytes × Bytes) :=
  match skipWhitespace text with
  | [] => some ([], [])
  | c :: rest =>
      if c = ascii '[' then (scanDomains fuel rest).map fun scanned => (scanned.1, skipByte (ascii ']') scanned.2)
      else some ([], c :: rest)

/-- One member read: the metadata and the text behind it, or the text of an exception. -/
abbrev Step := Except Bytes (Metadata × Bytes)

def setText (text : Bytes) (set : Bytes → Metadata) : Option Step :=
  some (.ok (set (parseJsonString text).1, (parseJsonString text).2))

def setFlag (text : Bytes) (set : Bool → Metadata) : Option Step :=
  some (.ok (set ((parseJsonValue text).1 = bytes "true"), (parseJsonValue text).2))

def setNumber {α : Type} (text : Bytes) (name : String) (read : Bytes → Option α) (set : α → Metadata) :
    Option Step :=
  match read (parseJsonValue text).1 with
  | none => some (.error (bytes name))
  | some n => some (.ok (set n, (parseJsonValue text).2))

/-- What the member with a key sets, from the text behind its colon. -/
def setMember (fuel : Nat) (key text : Bytes) (metadata : Metadata) : Option Step :=
  if key = bytes "version" then setNumber text "stoi" stoi fun n => { metadata with version := n }
  else if key = bytes "site_id" then setNumber text "stoull" stoull fun n => { metadata with siteId := n }
  else if key = bytes "provider_id" then setText text fun t => { metadata with providerId := t }
  else if key = bytes "certificate_type" then setText text fun t => { metadata with certificateType := t }
  else if key = bytes "status" then setText text fun t => { metadata with status := t }
  else if key = bytes "domains" then
    (parseDomains fuel text).map fun parsed =>
      .ok ({ metadata with domains := metadata.domains ++ parsed.1 }, parsed.2)
  else if key = bytes "issued_at" then setText text fun t => { metadata with issuedAt := t }
  else if key = bytes "expires_at" then setText text fun t => { metadata with expiresAt := t }
  else if key = bytes "renew_after" then setText text fun t => { metadata with renewAfter := t }
  else if key = bytes "https_enabled" then setFlag text fun b => { metadata with httpsEnabled := b }
  else if key = bytes "redirect_enabled" then setFlag text fun b => { metadata with redirectEnabled := b }
  else if key = bytes "auto_renew" then setFlag text fun b => { metadata with autoRenew := b }
  else if key = bytes "challenge_type" then setText text fun t => { metadata with challengeType := t }
  else if key = bytes "last_validation" then setText text fun t => { metadata with lastValidation := t }
  else if key = bytes "last_error" then setText text fun t => { metadata with lastError := t }
  else if key = bytes "renew_attempts" then setNumber text "stoi" stoi fun n => { metadata with renewAttempts := n }
  else if key = bytes "fingerprint_sha256" then setText text fun t => { metadata with fingerprintSha256 := t }
  else if key = bytes "serial_number" then setText text fun t => { metadata with serialNumber := t }
  else if key = bytes "issuer" then setText text fun t => { metadata with issuer := t }
  else if key = bytes "subject" then setText text fun t => { metadata with subject := t }
  else if key = bytes "environment" then setText text fun t => { metadata with environment := t }
  else if key = bytes "created_at" then setText text fun t => { metadata with createdAt := t }
  else if key = bytes "updated_at" then setText text fun t => { metadata with updatedAt := t }
  else some (.ok (metadata, (parseJsonValue text).2))

def knownKeys : List Bytes :=
  ["version", "site_id", "provider_id", "certificate_type", "status", "domains", "issued_at", "expires_at",
    "renew_after", "https_enabled", "redirect_enabled", "auto_renew", "challenge_type", "last_validation",
    "last_error", "renew_attempts", "fingerprint_sha256", "serial_number", "issuer", "subject", "environment",
    "created_at", "updated_at"].map bytes

/-- The loop over the members; it also tells whether there was one that it knows. -/
def readMembers : Nat → Bytes → Metadata → Bool → Option (Except Bytes (Metadata × Bool))
  | 0, _, _, _ => none
  | fuel + 1, text, metadata, parsedAny =>
      match skipWhitespace text with
      | [] => some (.ok (metadata, parsedAny))
      | c :: rest =>
          if c = ascii '\x7d' then some (.ok (metadata, parsedAny))
          else
            let key := parseJsonString (c :: rest)
            let behind := skipByte (ascii ':') (skipWhitespace key.2)
            let step := if key.1 = [] then some (.ok (metadata, (parseJsonValue behind).2))
              else setMember fuel key.1 behind metadata
            match step with
            | none => none
            | some (.error what) => some (.error what)
            | some (.ok (metadata, rest)) =>
                readMembers fuel (skipByte (ascii ',') (skipWhitespace rest)) metadata
                  (parsedAny || knownKeys.contains key.1)

/-- `metadata_from_json`. -/
def metadataFromJson (fuel : Nat) (json : Bytes) : Option (Except Bytes Metadata) :=
  match skipWhitespace json with
  | [] => some (.ok {})
  | c :: rest =>
      if c ≠ ascii '\x7b' then some (.ok {})
      else
        (readMembers fuel rest {} false).map fun result =>
          result.map fun (metadata, parsedAny) =>
            if !parsedAny && json.length > 2 then { metadata with version := 0 } else metadata

end ContainerCP.Ssl
