import ContainerCP.Data.Table
import ContainerCP.Text.Decimal
import ContainerCP.Text.Streams

/-! HTTP requests, as far as both servers read them with the same code: from the
socket, and from the text; and the parts of an answer. -/
namespace ContainerCP.Api

structure Request where
  method : Bytes := []
  path : Bytes := []
  body : Bytes := []
  query : Table Bytes Bytes := ∅
  headers : Table Bytes Bytes := ∅

structure Response where
  statusCode : Nat := 200
  body : Bytes := []
  contentType : Bytes := bytes "application/json"
  deriving DecidableEq

/-- `req.method` and `req.path` as `>>` takes them from the request line. The
path still has its query. -/
structure RequestLine where
  method : Bytes
  target : Bytes
  deriving DecidableEq

def RequestLine.parse (line : Bytes) : RequestLine := ⟨(word line).1, (word (word line).2).1⟩

/-! ## Headers -/

/-- The line without the carriage return at its end. -/
def dropReturn (line : Bytes) : Bytes := if line.getLast? = some (ascii '\r') then line.dropLast else line

/-- The lines up to the first empty one, without their carriage returns, and what is
left of the stream behind it. Every line takes a byte of the stream at least, so the
length of the stream is enough fuel. -/
def headerBlock : Nat → Bytes → List Bytes × Bytes
  | 0, stream => ([], stream)
  | fuel + 1, stream =>
      match getline newline stream with
      | none => ([], stream)
      | some (line, rest) =>
          if dropReturn line = [] then ([], rest)
          else (dropReturn line :: (headerBlock fuel rest).1, (headerBlock fuel rest).2)

def headerLines (stream : Bytes) : List Bytes := (headerBlock stream.length stream).1

/-- A header's name and its value, without one space in front of the value. -/
def splitHeader (line : Bytes) : Option (Bytes × Bytes) :=
  (cutAt (ascii ':') line).map fun cut =>
    (cut.1, if cut.2.head? = some (ascii ' ') then cut.2.tail else cut.2)

/-- The table that the assignments make one after the other. -/
def collect (pairs : List (Bytes × Bytes)) : Table Bytes Bytes :=
  pairs.foldl (fun table pair => table.insert pair.1 pair.2) ∅

/-! ## The path and its query -/

def pathOf (target : Bytes) : Bytes := ((cutAt (ascii '?') target).map Prod.fst).getD target

/-- The parameters behind the question mark. The two servers differ in how they
decode a name and a value. -/
def queryOf (decode : Bytes → Bytes) (target : Bytes) : Table Bytes Bytes :=
  match cutAt (ascii '?') target with
  | none => ∅
  | some (_, parameters) =>
      collect ((getlines (ascii '&') parameters).filterMap fun parameter =>
        (cutAt (ascii '=') parameter).map fun cut => (decode cut.1, decode cut.2))

/-! ## Reading from the socket -/

/-- What the peer sends: the pieces that arrive one after the other. An empty piece
is the end of the connection, or an error. -/
abbrev Socket := List Bytes

/-- `read` into a buffer of some size. -/
def read (size : Nat) : Socket → Bytes × Socket
  | [] => ([], [])
  | piece :: pieces =>
      if piece.length ≤ size then (piece, pieces) else (piece.take size, piece.drop size :: pieces)

/-- The loop that reads until a text has some length. Each read gives a byte at least,
so as many reads as there are bytes missing are enough. -/
def readUpTo (size wanted : Nat) : Nat → Bytes → Socket → Bytes × Socket
  | 0, raw, socket => (raw, socket)
  | fuel + 1, raw, socket =>
      if raw.length < wanted then
        let more := read size socket
        if more.1 = [] then (raw, more.2) else readUpTo size wanted fuel (raw ++ more.1) more.2
      else (raw, socket)

def blankLine : Bytes := bytes "\r\n\r\n"

/-- The number behind the first `Content-Length:` of the header, or 0. -/
def expectedLength (header : Bytes) : Int :=
  match cutAtText (bytes "Content-Length:") header with
  | none => 0
  | some (_, rest) =>
      let value := rest.dropWhile (· = ascii ' ')
      (((stoi (((cutAtText (bytes "\r\n") value).map Prod.fst).getD value)).map Int32.toInt).getD 0)

/-- Both servers limit the body that they wait for to this many bytes. -/
def maxRequestBodyBytes : Int := 6 * 1024 * 1024

/-- A first read into a buffer, and further ones for the body that the header
announces. Without a first byte there is no request. -/
def receive (bufferSize : Nat) (socket : Socket) : Option Bytes × Socket :=
  let (raw, socket) := read (bufferSize - 1) socket
  if raw = [] then (none, socket)
  else
    match cutAtText blankLine raw with
    | none => (some raw, socket)
    | some (header, _) =>
        let expected := expectedLength header
        if 0 < expected ∧ expected ≤ maxRequestBodyBytes then
          let wanted := header.length + 4 + expected.toNat
          let all := readUpTo bufferSize wanted (wanted - raw.length) raw socket
          (some all.1, all.2)
        else (some raw, socket)

theorem read_append (size : Nat) (socket : Socket) :
    (read size socket).1 ++ (read size socket).2.flatten = socket.flatten := by
  cases socket with
  | nil => rfl
  | cons piece pieces =>
      rw [read]
      split
      · simp
      · simp [← List.append_assoc]

theorem readUpTo_append (size wanted fuel : Nat) (raw : Bytes) (socket : Socket) :
    ∃ more behind, (readUpTo size wanted fuel raw socket).1 = raw ++ more ∧ more ++ behind = socket.flatten := by
  induction fuel generalizing raw socket with
  | zero => exact ⟨[], socket.flatten, by simp [readUpTo], rfl⟩
  | succ fuel ih =>
      rw [readUpTo]
      split
      · have hRead := read_append size socket
        by_cases hEnd : (read size socket).1 = []
        · exact ⟨[], socket.flatten, by simp [hEnd], rfl⟩
        · obtain ⟨more, behind, hMore, hRest⟩ := ih (raw ++ (read size socket).1) (read size socket).2
          refine ⟨(read size socket).1 ++ more, behind, ?_, ?_⟩
          · simp only [if_neg hEnd]
            rw [hMore, List.append_assoc]
          · rw [List.append_assoc, hRest, hRead]
      · exact ⟨[], socket.flatten, by simp, rfl⟩

/-- What a server has received is what it got from its first read, and perhaps more of
what was sent. -/
theorem receive_eq_append {bufferSize : Nat} {socket : Socket} {raw : Bytes}
    (h : (receive bufferSize socket).1 = some raw) :
    ∃ more behind, raw = (read (bufferSize - 1) socket).1 ++ more ∧ raw ++ behind = socket.flatten := by
  have hFirst := read_append (bufferSize - 1) socket
  have hOnly : raw = (read (bufferSize - 1) socket).1 →
      ∃ more behind, raw = (read (bufferSize - 1) socket).1 ++ more ∧ raw ++ behind = socket.flatten := by
    rintro rfl
    exact ⟨[], _, (List.append_nil _).symm, hFirst⟩
  simp only [receive] at h
  split at h
  · exact absurd h nofun
  · split at h
    · exact hOnly (Option.some.inj h).symm
    · next header _ _ =>
      split at h
      · obtain rfl := Option.some.inj h
        obtain ⟨more, behind, hMore, hRest⟩ := readUpTo_append bufferSize (header.length + 4 + (expectedLength header).toNat)
          (header.length + 4 + (expectedLength header).toNat - (read (bufferSize - 1) socket).1.length)
          (read (bufferSize - 1) socket).1 (read (bufferSize - 1) socket).2
        refine ⟨more, behind, hMore, ?_⟩
        rw [hMore, List.append_assoc, hRest, hFirst]
      · exact hOnly (Option.some.inj h).symm

/-! ## The request line -/

/-- A text that starts with a method, one space and a target has these for its
request line. -/
theorem parse_getline {method target rest : Bytes} (hMethod : IsWord method) (hTarget : IsWord target)
    (hRest : StartsBlank rest) :
    ∃ line behind, getline newline (method ++ ascii ' ' :: (target ++ rest)) = some (line, behind) ∧
      RequestLine.parse line = ⟨method, target⟩ := by
  obtain ⟨line, behind, hLine, hFirst, hSecond⟩ := getline_words hMethod hTarget hRest
  refine ⟨line, behind, hLine, ?_⟩
  rw [RequestLine.parse, hSecond, hFirst]

end ContainerCP.Api
