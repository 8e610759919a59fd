import ContainerCP.Text.Bytes

/-! Texts with names in double braces. To replace one name after the other, each of them
everywhere, comes to putting all values in at once. -/
namespace ContainerCP.Placeholders

def openBrace : UInt8 := ascii '\x7b'

def closeBrace : UInt8 := ascii '\x7d'

/-! ## Replacing -/

/-- Put `value` for every `found`, from left to right. The next `skip` bytes belong to what
was found last. -/
def replaceFrom (found value : Bytes) : Nat → Bytes → Bytes
  | _, [] => []
  | skip + 1, _ :: rest => replaceFrom found value skip rest
  | 0, c :: rest =>
      if found.isPrefixOf (c :: rest) then value ++ replaceFrom found value (found.length - 1) rest
      else c :: replaceFrom found value 0 rest

def replaceAll (found value text : Bytes) : Bytes := replaceFrom found value 0 text

/-- A text without a pair of open braces, also together with what may follow. -/
structure Plain (text : Bytes) : Prop where
  noPair : ¬[openBrace, openBrace] <:+: text
  last : text.getLast? ≠ some openBrace

theorem Plain.tail {c : UInt8} {rest : Bytes} (h : Plain (c :: rest)) : Plain rest where
  noPair := fun hPair => h.noPair (List.infix_cons hPair)
  last := by
    intro hLast
    refine h.last ?_
    rw [List.getLast?_cons, hLast]
    rfl

theorem plain_of_notMem {text : Bytes} (h : openBrace ∉ text) : Plain text where
  noPair := fun hPair => h (hPair.subset List.mem_cons_self)
  last := fun hLast => h (List.mem_of_getLast? hLast)

section Replace

variable {found value : Bytes}

theorem replaceFrom_skip (passed rest : Bytes) :
    replaceFrom found value passed.length (passed ++ rest) = replaceFrom found value 0 rest := by
  induction passed with
  | nil => rfl
  | cons c passed ih => exact ih

theorem replaceAll_found (hFound : found ≠ []) (rest : Bytes) :
    replaceAll found value (found ++ rest) = value ++ replaceAll found value rest := by
  obtain ⟨c, tail, rfl⟩ := List.exists_cons_of_ne_nil hFound
  have hPrefix : (c :: tail).isPrefixOf (c :: (tail ++ rest)) = true :=
    List.isPrefixOf_iff_prefix.mpr (List.prefix_append (c :: tail) rest)
  rw [replaceAll, List.cons_append, replaceFrom, if_pos hPrefix, List.length_cons, Nat.add_sub_cancel, replaceFrom_skip]
  rfl

theorem replaceAll_cons {c : UInt8} {rest : Bytes} (h : ¬found <+: c :: rest) :
    replaceAll found value (c :: rest) = c :: replaceAll found value rest := by
  rw [replaceAll, replaceFrom, if_neg (fun hPrefix => h (List.isPrefixOf_iff_prefix.mp hPrefix))]
  rfl

/-- Nothing that starts with two open braces is found in a plain text. -/
theorem replaceAll_plain {text : Bytes} (hPlain : Plain text) (tail rest : Bytes) :
    replaceAll (openBrace :: openBrace :: tail) value (text ++ rest) =
      text ++ replaceAll (openBrace :: openBrace :: tail) value rest := by
  induction text with
  | nil => rfl
  | cons c text ih =>
      have hNot : ¬openBrace :: openBrace :: tail <+: c :: (text ++ rest) := by
        intro hPrefix
        obtain ⟨rfl, hBehind⟩ := List.cons_prefix_cons.mp hPrefix
        cases text with
        | nil => exact hPlain.last rfl
        | cons d text =>
            obtain ⟨rfl, -⟩ := List.cons_prefix_cons.mp hBehind
            exact hPlain.noPair (List.prefix_append [openBrace, openBrace] text).isInfix
      rw [List.cons_append, replaceAll_cons hNot, ih hPlain.tail, List.cons_append]

end Replace

/-! ## Placeholders -/

def placeholder (name : Bytes) : Bytes := openBrace :: openBrace :: (name ++ [closeBrace, closeBrace])

/-- A name without braces. -/
def IsKeyName (name : Bytes) : Prop := openBrace ∉ name ∧ closeBrace ∉ name

theorem name_eq_of_placeholder {name other rest : Bytes} (hName : IsKeyName name) (hOther : IsKeyName other)
    (h : placeholder name <+: placeholder other ++ rest) : name = other := by
  obtain ⟨-, h⟩ := List.cons_prefix_cons.mp h
  obtain ⟨-, h⟩ := List.cons_prefix_cons.mp h
  obtain ⟨behind, hSame⟩ := h
  have hFront : ∀ {front : Bytes}, IsKeyName front → ∀ back : Bytes,
      (front ++ closeBrace :: back).takeWhile (· ≠ closeBrace) = front := by
    intro front hFront back
    rw [List.takeWhile_append_of_pos]
    · simp
    · exact fun c hc => decide_eq_true fun hClose => hFront.2 (hClose ▸ hc)
  have hFirst := hFront hName (closeBrace :: behind)
  have hSecond := hFront hOther (closeBrace :: rest)
  rw [← hFirst, ← hSecond]
  congr 1
  simpa using hSame

/-- Another placeholder is passed over. -/
theorem replaceAll_other {name other : Bytes} (hName : IsKeyName name) (hOther : IsKeyName other) (hNe : name ≠ other)
    (value rest : Bytes) :
    replaceAll (placeholder name) value (placeholder other ++ rest) =
      placeholder other ++ replaceAll (placeholder name) value rest := by
  have hClosed : openBrace ∉ other ++ [closeBrace, closeBrace] := by
    rw [List.mem_append, not_or]
    exact ⟨hOther.1, by decide⟩
  have hFirst : ¬placeholder name <+: placeholder other ++ rest := fun h => hNe (name_eq_of_placeholder hName hOther h)
  have hSecond : ¬placeholder name <+: openBrace :: (other ++ [closeBrace, closeBrace] ++ rest) := by
    intro h
    obtain ⟨-, h⟩ := List.cons_prefix_cons.mp h
    cases other with
    | nil => exact absurd (List.cons_prefix_cons.mp h).1 (by decide)
    | cons c other => exact hOther.1 ((List.cons_prefix_cons.mp h).1 ▸ List.mem_cons_self)
  have hOpen : placeholder other ++ rest = openBrace :: openBrace :: (other ++ [closeBrace, closeBrace] ++ rest) := rfl
  rw [hOpen] at hFirst ⊢
  rw [replaceAll_cons hFirst, replaceAll_cons hSecond]
  exact congrArg _ (congrArg _ (replaceAll_plain (plain_of_notMem hClosed) _ rest))

/-! ## Templates -/

inductive Piece (Key : Type) where
  | text (content : Bytes)
  | hole (key : Key)

variable {Key : Type}

def Piece.print (name : Key → Bytes) : Piece Key → Bytes
  | .text content => content
  | .hole key => placeholder (name key)

/-- The text of a template. -/
def printPieces (name : Key → Bytes) (template : List (Piece Key)) : Bytes := template.flatMap (Piece.print name)

/-- What a piece stands for. -/
def Piece.meaning (value : Key → Bytes) : Piece Key → Bytes
  | .text content => content
  | .hole key => value key

def Piece.Plain : Piece Key → Prop
  | .text content => Placeholders.Plain content
  | .hole _ => True

/-- The names of the keys are told apart, and are free of braces. -/
structure KeyNames (name : Key → Bytes) : Prop where
  isName : ∀ key, IsKeyName (name key)
  injective : Function.Injective name

/-- Replace the placeholders of the keys, one key after the other. -/
def replaceEach (name value : Key → Bytes) (keys : List Key) (text : Bytes) : Bytes :=
  keys.foldl (fun text key => replaceAll (placeholder (name key)) (value key) text) text

variable [DecidableEq Key]

def Piece.fill (value : Key → Bytes) (keys : List Key) : Piece Key → Piece Key
  | .text content => .text content
  | .hole key => if key ∈ keys then .text (value key) else .hole key

variable {name value : Key → Bytes}

theorem replaceAll_printPieces (hNames : KeyNames name) {template : List (Piece Key)}
    (hPlain : ∀ piece ∈ template, piece.Plain) (key : Key) :
    replaceAll (placeholder (name key)) (value key) (printPieces name template) =
      printPieces name (template.map (Piece.fill value [key])) := by
  induction template with
  | nil => rfl
  | cons piece template ih =>
      obtain ⟨hPiece, hPlain⟩ := List.forall_mem_cons.mp hPlain
      have hRest := ih hPlain
      unfold printPieces at hRest ⊢
      rw [List.map_cons, List.flatMap_cons, List.flatMap_cons, ← hRest]
      cases piece with
      | text content =>
          have hContent : Placeholders.Plain content := hPiece
          exact replaceAll_plain hContent _ _
      | hole other =>
          by_cases hSame : other = key
          · subst hSame
            rw [Piece.fill, if_pos (List.mem_singleton.mpr rfl)]
            exact replaceAll_found (List.cons_ne_nil _ _) _
          · rw [Piece.fill, if_neg (fun h => hSame (List.mem_singleton.mp h))]
            exact replaceAll_other (hNames.isName key) (hNames.isName other)
              (fun hName => hSame (hNames.injective hName).symm) _ _

theorem Piece.fill_cons (key : Key) (keys : List Key) (piece : Piece Key) :
    (piece.fill value [key]).fill value keys = piece.fill value (key :: keys) := by
  cases piece with
  | text content => rfl
  | hole other =>
      by_cases hSame : other = key
      · simp [fill, hSame]
      · simp [fill, hSame]

theorem Piece.Plain.fill {piece : Piece Key} (h : piece.Plain) (hValues : ∀ key, Placeholders.Plain (value key))
    (keys : List Key) : (piece.fill value keys).Plain := by
  cases piece with
  | text content => exact h
  | hole key =>
      rw [Piece.fill]
      by_cases hKey : key ∈ keys
      · rw [if_pos hKey]
        exact hValues key
      · rw [if_neg hKey]
        trivial

/-- Replacing the keys one after the other fills them all in. -/
theorem replaceEach_printPieces (hNames : KeyNames name) (hValues : ∀ key, Plain (value key)) (keys : List Key)
    {template : List (Piece Key)} (hPlain : ∀ piece ∈ template, piece.Plain) :
    replaceEach name value keys (printPieces name template) = printPieces name (template.map (Piece.fill value keys)) := by
  induction keys generalizing template with
  | nil =>
      have hSame : Piece.fill value ([] : List Key) = id := by
        funext piece
        cases piece with
        | text content => rfl
        | hole key => rw [Piece.fill, if_neg List.not_mem_nil, id]
      rw [hSame, List.map_id]
      rfl
  | cons key keys ih =>
      have hFilled : ∀ piece ∈ template.map (Piece.fill value [key]), piece.Plain :=
        List.forall_mem_map.mpr fun piece hPiece => (hPlain piece hPiece).fill hValues [key]
      rw [replaceEach, List.foldl_cons, replaceAll_printPieces hNames hPlain key]
      rw [← replaceEach, ih hFilled, List.map_map]
      congr 1
      exact List.map_congr_left fun piece _ => Piece.fill_cons key keys piece

/-- With all keys, that is the meaning of the template. -/
theorem replaceEach_eq_meaning (hNames : KeyNames name) (hValues : ∀ key, Plain (value key)) {keys : List Key}
    (hKeys : ∀ key, key ∈ keys) {template : List (Piece Key)} (hPlain : ∀ piece ∈ template, piece.Plain) :
    replaceEach name value keys (printPieces name template) = template.flatMap (Piece.meaning value) := by
  rw [replaceEach_printPieces hNames hValues keys hPlain, printPieces, List.flatMap_map]
  refine List.flatMap_congr fun piece _ => ?_
  cases piece with
  | text content => rfl
  | hole key => simp [Piece.fill, hKeys key, Piece.print, Piece.meaning]

end ContainerCP.Placeholders
