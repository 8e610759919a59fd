import ContainerCP.Wordpress.ConfigUpdater

/-! `WordPressConfigDetector`: what the inspection of a `wp-config.php` reports about one
database constant, in `parse_field`, and of all of them, in `inspect_content`. -/
namespace ContainerCP.Wordpress

inductive WordPressCredentialSource where
  | unknown
  | missing
  | directConstant
  | environmentVariable
  | serverVariable
  | variableReference
  | includedFile
  | expression
  | functionCall
  | mixed
  | unsupported
  deriving DecidableEq

inductive WordPressCredentialMutability where
  | unknown
  | mutableDirectConstant
  | readOnly
  | unsupported
  | ambiguous
  deriving DecidableEq

inductive WordPressCredentialValueState where
  | unknown
  | missing
  | present
  | redacted
  | unsupported
  | ambiguous
  deriving DecidableEq

structure ParsedField where
  found : Bool := false
  duplicate : Bool := false
  conditional : Bool := false
  source : WordPressCredentialSource := .missing
  mutability : WordPressCredentialMutability := .unknown
  state : WordPressCredentialValueState := .missing
  value : Bytes := []
  deriving DecidableEq

/-- `has_identifier_at` on the suffix that starts at the position, with the
byte before it. -/
def hasIdentifierAt (prev : Option UInt8) (suffix identifier : Bytes) : Bool :=
  identifier.isPrefixOf suffix && !(prev.any isIdentifierChar) &&
    !((suffix.drop identifier.length).head?.any isIdentifierChar)

def containsIdentifierFrom (identifier : Bytes) : Option UInt8 → Bytes → Bool
  | _, [] => false
  | prev, c :: rest =>
      hasIdentifierAt prev (c :: rest) identifier || containsIdentifierFrom identifier (some c) rest

def containsIdentifier (expr identifier : Bytes) : Bool := containsIdentifierFrom identifier none expr

/-- `std::string::find` for a needle that is not empty. -/
def containsText (needle : Bytes) : Bytes → Bool
  | [] => needle.isEmpty
  | c :: rest => needle.isPrefixOf (c :: rest) || containsText needle rest

def containsAnyOperator (expr : Bytes) : Bool := expr.any fun c => (bytes ".+-*/?:").contains c

def classifyExpression (expr : Bytes) : WordPressCredentialSource :=
  let value := trim expr
  if value.isEmpty then .missing
  else if containsIdentifier value (bytes "getenv") || containsText (bytes "$_ENV") value then
    .environmentVariable
  else if containsText (bytes "$_SERVER") value then .serverVariable
  else if containsIdentifier value (bytes "include") ||
      containsIdentifier value (bytes "include_once") ||
      containsIdentifier value (bytes "require") ||
      containsIdentifier value (bytes "require_once") then .includedFile
  else if value.contains (ascii '$') then .variableReference
  else if containsAnyOperator value then .expression
  else
    match value with
    | c :: rest => if rest.contains (ascii '(') && isAlpha c then .functionCall else .unsupported
    | [] => .unsupported

/-- One round of the loop of `parse_field`, for a call that defines the field. -/
def ParsedField.record (result : ParsedField) (conditional : Bool) (valueArg : PhpArgumentSpan) :
    ParsedField :=
  let result :=
    { result with
      duplicate := result.duplicate || result.found, found := true,
      conditional := result.conditional || conditional }
  match parsePhpStringLiteral valueArg.text with
  | some literal =>
      { result with
        source := .directConstant, mutability := .mutableDirectConstant, state := .present,
        value := literal }
  | none =>
      { result with
        source := classifyExpression valueArg.text, mutability := .unsupported,
        state := .unsupported, value := [] }

def parseField (calls : List PhpDefineCall) (fieldName : Bytes) : ParsedField :=
  calls.foldl (fun result call =>
    match valueArgument fieldName call with
    | some valueArg => result.record call.conditional valueArg
    | none => result) {}

/-- What the detector reports for a credential that an update may replace. -/
def ParsedField.updatable (field : ParsedField) : Prop :=
  field.found = true ∧ field.duplicate = false ∧ field.conditional = false ∧
    field.source = .directConstant

instance (field : ParsedField) : Decidable field.updatable := by
  unfold ParsedField.updatable; infer_instance

/-! ## The four constants together -/

inductive WordPressCredentialStatus where
  | complete
  | configMissing
  | credentialsMissing
  | ambiguous
  | unsupported
  deriving DecidableEq

structure WordPressCredentialValue where
  source : WordPressCredentialSource := .missing
  state : WordPressCredentialValueState := .missing
  value : Bytes := []
  deriving DecidableEq

structure WordPressConfigInspection where
  status : WordPressCredentialStatus
  dbName : WordPressCredentialValue := {}
  dbUser : WordPressCredentialValue := {}
  dbPassword : WordPressCredentialValue := {}
  dbHost : WordPressCredentialValue := {}
  deriving DecidableEq

/-- `to_credential_value`, without secrets. -/
def toCredentialValue (field : ParsedField) (sensitive : Bool) : WordPressCredentialValue :=
  if field.state = .present then
    if sensitive then ⟨field.source, .redacted, []⟩ else ⟨field.source, field.state, field.value⟩
  else ⟨field.source, field.state, []⟩

/-- The status of an inspection that found fields. -/
def credentialStatus (dbName dbUser dbPassword dbHost : ParsedField) : WordPressCredentialStatus :=
  let fields := [dbName, dbUser, dbPassword, dbHost]
  if !fields.any (·.found) then .credentialsMissing
  else if fields.any (·.duplicate) || fields.any (·.conditional) then .ambiguous
  else if fields.any (fun field => field.found && field.source ≠ .directConstant) then .unsupported
  else if !(dbName.found && dbUser.found && dbPassword.found) then .credentialsMissing
  else .complete

/-- `inspect_content`. -/
def inspectContent (content : Bytes) : WordPressConfigInspection :=
  if trim content = [] then { status := .configMissing }
  else
    let calls := findPhpDefineCalls content
    let dbName := parseField calls (bytes "DB_NAME")
    let dbUser := parseField calls (bytes "DB_USER")
    let dbPassword := parseField calls (bytes "DB_PASSWORD")
    let dbHost := parseField calls (bytes "DB_HOST")
    { status := credentialStatus dbName dbUser dbPassword dbHost
      dbName := toCredentialValue dbName false
      dbUser := toCredentialValue dbUser false
      dbPassword := toCredentialValue dbPassword true
      dbHost := toCredentialValue dbHost false }

end ContainerCP.Wordpress
