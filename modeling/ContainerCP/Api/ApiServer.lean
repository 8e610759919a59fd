import ContainerCP.Api.Request

/-! `ApiServer::parse_request`: what the API makes of the bytes on its socket. -/
namespace ContainerCP.Api.ApiServer

/-! ## Hexadecimal numbers -/

def hexDigitValue (c : UInt8) : Option Nat :=
  if isDigit c then some (c.toNat - 48)
  else if 65 ≤ c ∧ c ≤ 70 then some (c.toNat - 55)
  else if 97 ≤ c ∧ c ≤ 102 then some (c.toNat - 87)
  else none

/-- Without the mark `0x`, which has to have a digit behind it. -/
def dropHexMark : Bytes → Bytes
  | zero :: mark :: c :: rest =>
      if zero = ascii '0' ∧ (mark = ascii 'x' ∨ mark = ascii 'X') ∧ (hexDigitValue c).isSome then c :: rest
      else zero :: mark :: c :: rest
  | text => text

/-- The scan of `strtol` with base 16. -/
def scanHex (text : Bytes) : Option Numeral :=
  let signed := splitSign ((text.takeWhile (· ≠ 0)).dropWhile isSpace)
  let digits := (dropHexMark signed.2).takeWhile fun c => (hexDigitValue c).isSome
  if digits.isEmpty then none
  else some ⟨signed.1, digits.foldl (fun n c => 16 * n + (hexDigitValue c).getD 0) 0,
    (dropHexMark signed.2).drop digits.length⟩

/-- `std::stoi` with base 16. Nothing stands for the exception. -/
def stoiHex (text : Bytes) : Option Int32 :=
  match scanHex text with
  | none => none
  | some numeral =>
      if Int32.minValue.toInt ≤ numeral.value ∧ numeral.value ≤ Int32.maxValue.toInt then
        some (Int32.ofInt numeral.value)
      else none

/-- `url_decode`. The two characters may be anything that `strtol` reads to its end,
a sign and a digit too. -/
def urlDecode : Bytes → Bytes
  | c :: high :: low :: rest =>
      if c = ascii '%' then
        match scanHex [high, low] with
        | some ⟨negative, magnitude, []⟩ =>
            (if negative then -UInt8.ofNat magnitude else UInt8.ofNat magnitude) :: urlDecode rest
        | _ => c :: urlDecode (high :: low :: rest)
      else c :: urlDecode (high :: low :: rest)
  | c :: rest => c :: urlDecode rest
  | [] => []

/-! ## The body -/

/-- Where `parse_request` does not give a request: an exception leaves it, a chunk does
not fit in its buffer, or the body takes bytes of the buffer that nothing was read to. -/
inductive ParseFailure where
  | thrown
  | overrun
  | indeterminate
  deriving DecidableEq

/-- `content_length` after the loop over the headers: the last one counts, and each has
to be a number. -/
def contentLength : List (Bytes × Bytes) → Int → Except ParseFailure Int
  | [], length => .ok length
  | (key, value) :: headers, length =>
      if key = bytes "Content-Length" then
        match stoi value with
        | none => .error .thrown
        | some declared => contentLength headers declared.toInt
      else contentLength headers length

def chunkBufferSize : Int := 8192

/-- The loop over the chunks. Each line takes a byte of the stream at least. -/
def chunkedBody : Nat → Bytes → Bytes → Except ParseFailure Bytes
  | 0, _, body => .ok body
  | fuel + 1, stream, body =>
      match getline newline stream with
      | none => .ok body
      | some (line, rest) =>
          if dropReturn line = [] then chunkedBody fuel rest body
          else
            match stoiHex (dropReturn line) with
            | none => .error .thrown
            | some size =>
                if size = 0 then .ok body
                -- as an unsigned length this is more than a string can have
                else if size.toInt < 0 then .error .thrown
                else if chunkBufferSize < size.toInt then .error .overrun
                else if rest.length < size.toInt.toNat then .error .indeterminate
                else chunkedBody fuel (rest.drop (size.toInt.toNat + 2)) (body ++ rest.take size.toInt.toNat)

/-- The body that is as long as its header says, or shorter where less has arrived. -/
def plainBody (raw : Bytes) (length : Int) : Bytes :=
  match cutAtText blankLine raw with
  | none => []
  | some (_, rest) => if 0 < length ∧ length ≤ maxRequestBodyBytes then rest.take length.toNat else []

/-! ## The request -/

/-- The part of `parse_request` behind the reads. -/
def parseText (raw : Bytes) : Except ParseFailure Request :=
  match getline newline raw with
  | none => .ok {}
  | some (line, stream) => do
      let first := RequestLine.parse line
      let block := headerBlock stream.length stream
      let headers := block.1.filterMap splitHeader
      let request : Request :=
        { method := first.method
          path := pathOf first.target
          query := queryOf urlDecode first.target
          headers := collect headers }
      let length ← contentLength headers 0
      if headers.contains (bytes "Transfer-Encoding", bytes "chunked") then
        let body ← chunkedBody block.2.length block.2 []
        return { request with body := body }
      else return { request with body := plainBody raw length }

def bufferSize : Nat := 24576

/-- `parse_request`. -/
def parseRequest (socket : Socket) : Except ParseFailure Request :=
  match (receive bufferSize socket).1 with
  | none => .ok {}
  | some raw => parseText raw

/-- The method and the path are those of the first line, whatever follows. -/
theorem parseText_line {raw line stream : Bytes} {request : Request} (hLine : getline newline raw = some (line, stream))
    (h : parseText raw = .ok request) :
    request.method = (RequestLine.parse line).method ∧ request.path = pathOf (RequestLine.parse line).target := by
  rw [parseText, hLine] at h
  simp only at h
  cases hLength : contentLength ((headerBlock stream.length stream).1.filterMap splitHeader) 0 with
  | error failure =>
      rw [hLength] at h
      exact absurd h nofun
  | ok length =>
      simp only [hLength, bind, Except.bind] at h
      split at h
      · split at h
        · exact absurd h nofun
        · obtain rfl := Except.ok.inj h
          exact ⟨rfl, rfl⟩
      · obtain rfl := Except.ok.inj h
        exact ⟨rfl, rfl⟩

end ContainerCP.Api.ApiServer
