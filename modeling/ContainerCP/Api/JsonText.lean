import ContainerCP.Text.Streams

/-! The API's own handling of JSON: values looked up by their key in the text of a body. -/
namespace ContainerCP.Api

def quoteMark : UInt8 := ascii '"'

def backslash : UInt8 := ascii '\\'

/-- The character that an escape stands for. Any other stands for itself. -/
def escaped (c : UInt8) : UInt8 :=
  if c = ascii 'b' then 8
  else if c = ascii 'f' then 12
  else if c = ascii 'n' then 10
  else if c = ascii 'r' then 13
  else if c = ascii 't' then 9
  else c

/-- The loop of `json_extract` behind an opening quote. -/
def unquote : Bytes → Bytes
  | [] => []
  | [c] => if c = quoteMark then [] else [c]
  | c :: next :: rest =>
      if c = quoteMark then []
      else if c = backslash then escaped next :: unquote rest
      else c :: unquote (next :: rest)

def jsonKey (key : Bytes) : Bytes := bytes "\"" ++ key ++ bytes "\":"

/-- `json_has_key`. -/
def jsonHasKey (json key : Bytes) : Bool := (cutAtText (jsonKey key) json).isSome

/-- `json_extract`: a string, or the text up to a comma or a closing brace. -/
def jsonExtract (json key : Bytes) : Bytes :=
  match cutAtText (jsonKey key) json with
  | none => []
  | some (_, behind) =>
      match behind.dropWhile isSpace with
      | [] => []
      | c :: rest =>
          if c = quoteMark then unquote rest
          else ((c :: rest).takeWhile fun d => d ≠ ascii ',' && d ≠ ascii '\x7d').rdropWhile isSpace

end ContainerCP.Api
