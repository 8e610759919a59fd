import ContainerCP.Text.Lines

/-! `CommandProtocol`: a command of the client and its arguments in one line, and
the answer of the daemon. -/
namespace ContainerCP.Daemon

structure Command where
  name : Bytes := []
  args : List Bytes := []
  deriving DecidableEq

namespace Command

def encode (c : Command) : Bytes := c.args.foldl (fun result arg => result ++ (bytes "|" ++ arg)) c.name

/-- The first piece of the line is the name. -/
def decode (line : Bytes) : Command :=
  match getlines pipe line with
  | [] => {}
  | name :: args => ⟨name, args⟩

def success (message : Bytes) : Bytes := bytes "SUCCESS|" ++ message

def error (message : Bytes) : Bytes := bytes "ERROR|" ++ message

def isSuccess (response : Bytes) : Bool := response.take 7 == bytes "SUCCESS"

/-- What stands behind the first separator, or the whole answer without one. -/
def message (response : Bytes) : Bytes :=
  match response.dropWhile (· ≠ pipe) with
  | [] => response
  | _ :: text => text

/-! ## Commands -/

theorem encode_eq_intercalate (c : Command) : c.encode = [pipe].intercalate (c.name :: c.args) := by
  obtain ⟨name, args⟩ := c
  induction args generalizing name with
  | nil => simp [encode, List.intercalate]
  | cons arg rest ih =>
      have hStep : encode ⟨name, arg :: rest⟩ = encode ⟨name ++ (bytes "|" ++ arg), rest⟩ := rfl
      have hPipe : bytes "|" = [pipe] := rfl
      rw [hStep, ih, hPipe]
      cases rest <;> simp [List.intercalate]

/-- What arrives: the name and the arguments without an empty last one. -/
theorem getlines_encode {c : Command} (h : ∀ piece ∈ c.name :: c.args, pipe ∉ piece) :
    getlines pipe c.encode = dropEmptyLast (c.name :: c.args) := by
  rw [encode_eq_intercalate, getlines_intercalate (List.cons_ne_nil _ _) h]

theorem decode_encode {c : Command} (hLast : c.args.getLast? ≠ some [])
    (h : ∀ piece ∈ c.name :: c.args, pipe ∉ piece) : decode c.encode = c := by
  obtain ⟨name, args⟩ := c
  rw [decode, getlines_encode h]
  rcases List.eq_nil_or_concat args with rfl | ⟨front, last, rfl⟩
  · cases name <;> rfl
  · have hNe : last ≠ [] := by simpa using hLast
    rw [List.concat_eq_append, ← List.cons_append, dropEmptyLast_concat _ hNe]
    rfl

/-- An empty last argument does not arrive. -/
theorem decode_encode_concat_nil {name : Bytes} {args : List Bytes}
    (h : ∀ piece ∈ name :: (args ++ [[]]), pipe ∉ piece) :
    decode (encode ⟨name, args ++ [[]]⟩) = ⟨name, args⟩ := by
  rw [decode, getlines_encode h, ← List.cons_append, dropEmptyLast_concat_nil]

/-- A command whose texts have no separator arrives as it was sent exactly when its
last argument, if it has arguments, is not empty. -/
theorem decode_encode_iff {c : Command} (h : ∀ piece ∈ c.name :: c.args, pipe ∉ piece) :
    decode c.encode = c ↔ c.args.getLast? ≠ some [] := by
  refine ⟨fun hSame hLast => ?_, fun hLast => decode_encode hLast h⟩
  obtain ⟨name, args⟩ := c
  obtain ⟨front, rfl⟩ := List.getLast?_eq_some_iff.mp hLast
  rw [decode_encode_concat_nil h] at hSame
  have hLength := congrArg (fun command => command.args.length) hSame
  simp at hLength

theorem decode_encode_iff_siteShow :
    decode (encode ⟨bytes "site-show", [[], bytes "shop.example"]⟩) = ⟨bytes "site-show", [[], bytes "shop.example"]⟩ ↔
      [[], bytes "shop.example"].getLast? ≠ some [] :=
  @decode_encode_iff ⟨bytes "site-show", [[], bytes "shop.example"]⟩ (by decide)

/-- A command with one empty argument arrives with none. -/
theorem decode_encode_lost : decode (encode ⟨bytes "site-show", [[]]⟩) = ⟨bytes "site-show", []⟩ := by
  decide

/-! ## Answers -/

theorem message_append {status text : Bytes} (h : pipe ∉ status) : message (status ++ pipe :: text) = text := by
  have hAll : ∀ c ∈ status, decide (c ≠ pipe) = true := fun c hc => decide_eq_true fun hPipe => h (hPipe ▸ hc)
  rw [message, List.dropWhile_append_of_pos hAll, List.dropWhile_cons_of_neg (by simp)]

/-- The client reads the text that the daemon answers, and which answer it is. -/
theorem message_success (text : Bytes) : message (success text) = text ∧ isSuccess (success text) = true :=
  ⟨@message_append (bytes "SUCCESS") text (by decide), rfl⟩

theorem message_error (text : Bytes) : message (error text) = text ∧ isSuccess (error text) = false :=
  ⟨@message_append (bytes "ERROR") text (by decide), rfl⟩

end Command

end ContainerCP.Daemon
