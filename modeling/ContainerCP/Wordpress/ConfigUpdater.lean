import ContainerCP.Wordpress.PhpDefineScanner

/-! `WordPressConfigUpdater::render_update`: find the one literal that holds a
database credential and write another value in its place, in the quote style
that is already there. -/
namespace ContainerCP.Wordpress

inductive WordPressConfigUpdateField where
  | dbName
  | dbUser
  | dbPassword
  | dbHost
  deriving DecidableEq

def wordpressUpdateFieldName : WordPressConfigUpdateField → Bytes
  | .dbName => bytes "DB_NAME"
  | .dbUser => bytes "DB_USER"
  | .dbPassword => bytes "DB_PASSWORD"
  | .dbHost => bytes "DB_HOST"

theorem wordpressUpdateFieldName_injective : Function.Injective wordpressUpdateFieldName := by
  intro first second h
  cases first <;> cases second <;> first | rfl | exact absurd h (by decide)

structure ReplacementSpan where
  valueStart : Nat
  valueEnd : Nat
  quote : UInt8
  conditional : Bool
  deriving DecidableEq

/-- The two arguments of a call that defines the constant `name`: the name's
and the value's. -/
def definesConstant (name : Bytes) (args : List PhpArgumentSpan) : Option PhpArgumentSpan :=
  match args with
  | nameArg :: valueArg :: _ =>
      if parsePhpStringLiteral nameArg.text = some name then some valueArg else none
  | _ => none

/-- The value argument of a scanned call that defines the constant `name`. -/
def valueArgument (name : Bytes) (call : PhpDefineCall) : Option PhpArgumentSpan :=
  definesConstant name (splitPhpTopLevelArguments call.body call.bodyStart)

def findTargetSpans (content targetName : Bytes) : List ReplacementSpan :=
  (findPhpDefineCalls content).filterMap fun call =>
    (valueArgument targetName call).map fun valueArg =>
      match phpLiteralValueSpan valueArg with
      | some span => ⟨span.valueStart, span.valueEnd, span.quote, call.conditional⟩
      | none => ⟨0, 0, ascii '\'', call.conditional⟩

/-- One byte of `encode_php_literal_value` inside single quotes. -/
def encodeSingle (c : UInt8) : Option Bytes :=
  if c = ascii '\\' ∨ c = ascii '\'' then some [ascii '\\', c]
  else if c = ascii '\n' ∨ c = ascii '\r' ∨ c = ascii '\t' then some [c]
  else if c < 0x20 ∨ c = 0x7f then none
  else some [c]

def upperHexDigit (n : UInt8) : UInt8 := if n < 10 then 48 + n else 55 + n

/-- One byte of `encode_php_literal_value` inside double quotes. -/
def encodeDouble (c : UInt8) : Bytes :=
  if c = ascii '\\' then bytes "\\\\"
  else if c = ascii '"' then bytes "\\\""
  else if c = ascii '$' then bytes "\\$"
  else if c = ascii '\n' then bytes "\\n"
  else if c = ascii '\r' then bytes "\\r"
  else if c = ascii '\t' then bytes "\\t"
  else if c = 0 then bytes "\\0"
  else if c < 0x20 ∨ c = 0x7f then bytes "\\x" ++ [upperHexDigit (c / 16), upperHexDigit (c % 16)]
  else [c]

def encodePhpLiteralValue (value : Bytes) (quote : UInt8) : Option Bytes :=
  if quote = ascii '\'' then (value.mapM encodeSingle).map List.flatten
  else some (value.flatMap encodeDouble)

/-- What `render_update` returns: the new content, or the code and the message
of the failure. -/
inductive WordPressConfigUpdateResult where
  | ok (content : Bytes)
  | failure (code message : Bytes)
  deriving DecidableEq

def WordPressConfigUpdateResult.success : WordPressConfigUpdateResult → Bool
  | .ok _ => true
  | .failure _ _ => false

def WordPressConfigUpdateResult.code : WordPressConfigUpdateResult → Bytes
  | .ok _ => bytes "ok"
  | .failure code _ => code

def WordPressConfigUpdateResult.message : WordPressConfigUpdateResult → Bytes
  | .ok _ => bytes "WordPress credential rendered"
  | .failure _ message => message

def renderUpdate (content : Bytes) (field : WordPressConfigUpdateField) (newValue : Bytes) :
    WordPressConfigUpdateResult :=
  let targetName := wordpressUpdateFieldName field
  match findTargetSpans content targetName with
  | [] => .failure (bytes "unsupported_credential_source")
      (targetName ++ bytes " is missing or is not a direct string literal")
  | [span] =>
      if span.conditional then
        .failure (bytes "ambiguous_credential_source")
          (targetName ++ bytes " must not be defined inside a conditional block")
      else if span.valueStart = 0 ∧ span.valueEnd = 0 then
        .failure (bytes "unsupported_credential_source")
          (targetName ++ bytes " is not a direct string literal")
      else
        match encodePhpLiteralValue newValue span.quote with
        | none => .failure (bytes "unsupported_credential_value")
            (targetName ++ bytes " value cannot be safely represented in existing PHP quote style")
        | some encoded =>
            .ok (content.take span.valueStart ++ encoded ++ content.drop span.valueEnd)
  | _ => .failure (bytes "ambiguous_credential_source")
      (targetName ++ bytes " must be defined exactly once")

end ContainerCP.Wordpress
