import ContainerCP.Text.JsonScan

/-! A member of a compact JSON object found by a search for its key between quotes, in front
of a colon. -/
namespace ContainerCP.Json

/-- What may stand between the quotes of a string: a quote or a backslash only in an escape. -/
inductive Escaped : Bytes → Prop
  | nil : Escaped []
  | plain {c : UInt8} {rest : Bytes} (h : ¬Special c) (hRest : Escaped rest) : Escaped (c :: rest)
  | escape {c : UInt8} {rest : Bytes} (hRest : Escaped rest) : Escaped (backslash :: c :: rest)

theorem Escaped.append {front back : Bytes} (hFront : Escaped front) (hBack : Escaped back) : Escaped (front ++ back) := by
  induction hFront with
  | nil => exact hBack
  | plain h _ ih => exact .plain h ih
  | escape _ ih => exact .escape ih

theorem escaped_of_plain {text : Bytes} (h : ∀ c ∈ text, ¬Special c) : Escaped text := by
  induction text with
  | nil => exact .nil
  | cons c text ih => exact .plain (h c List.mem_cons_self) (ih fun d hMem => h d (List.mem_cons_of_mem _ hMem))

theorem escaped_flatMap {α : Type} {f : α → Bytes} {items : List α} (h : ∀ a ∈ items, Escaped (f a)) :
    Escaped (items.flatMap f) := by
  induction items with
  | nil => exact .nil
  | cons a items ih =>
      rw [List.flatMap_cons]
      exact (h a List.mem_cons_self).append (ih fun b hMem => h b (List.mem_cons_of_mem _ hMem))

/-- What an encoder writes for a text. -/
theorem Encoder.escaped (encoder : Encoder) (text : List Char) : Escaped (encoder.encode text) := by
  refine escaped_flatMap fun c _ => ?_
  have hWrites := encoder.writes c
  generalize encoder.write c = written at hWrites
  cases hWrites with
  | plain hPlain =>
      refine escaped_of_plain fun byte hByte => not_special_of_mem_utf8EncodeChar ?_ ?_ hByte
      · exact fun hEq => hPlain (.inl hEq)
      · exact fun hEq => hPlain (.inr (.inl hEq))
  | short letter hLetter => exact .escape .nil
  | unicode letter hLetter =>
      refine escaped_flatMap fun unit _ => .escape (escaped_of_plain ?_)
      have hDigit : ∀ digit < 16, ¬Special (hexDigit letter digit) := by
        rcases hLetter with rfl | rfl <;> decide
      simp only [List.mem_cons, List.not_mem_nil, or_false, forall_eq_or_imp, forall_eq]
      exact ⟨hDigit _ (Nat.mod_lt _ (by decide)), hDigit _ (Nat.mod_lt _ (by decide)), hDigit _ (Nat.mod_lt _ (by decide)),
        hDigit _ (Nat.mod_lt _ (by decide))⟩

/-! ## The object -/

/-- A key that is looked for. What stands between two quotes of an object and is no string is
none: a comma, a colon, or a colon with a value and a comma behind it. -/
structure IsKey (key : Bytes) : Prop where
  plain : ∀ c ∈ key, ¬Special c
  comma : key ≠ bytes ","
  colon : key.head? = some (ascii ':') → key ≠ bytes ":" ∧ key.getLast? ≠ some (ascii ',')

def keyPattern (key : Bytes) : Bytes := quote :: (key ++ bytes "\":")

/-- A member, by the texts of its key and of its value. -/
def memberText (member : Bytes × Bytes) : Bytes := keyPattern member.1 ++ member.2

/-- The object from behind one of its members. -/
def tailText (members : List (Bytes × Bytes)) : Bytes := members.flatMap (ascii ',' :: memberText ·) ++ bytes "\x7d"

def objectText : List (Bytes × Bytes) → Bytes
  | [] => bytes "\x7b\x7d"
  | member :: more => ascii '\x7b' :: (memberText member ++ tailText more)

/-- What a search finds behind a key. -/
def behindKey (key : Bytes) : List (Bytes × Bytes) → Option Bytes
  | [] => none
  | member :: more => if member.1 = key then some (member.2 ++ tailText more) else behindKey key more

/-- What stands behind a value. -/
def Follows (rest : Bytes) : Prop := rest = bytes "\x7d" ∨ ∃ more, rest = ascii ',' :: quote :: more

/-- The search for a key finds nothing in a value, nor in the quote and the colon in front of it. -/
def Skips (key value : Bytes) : Prop := ∀ rest, Follows rest → Passes (keyPattern key) (quote :: ascii ':' :: value) rest

theorem follows_tailText (members : List (Bytes × Bytes)) : Follows (tailText members) := by
  cases members with
  | nil => exact .inl rfl
  | cons member more => exact .inr ⟨_, rfl⟩

section Search

variable {key body rest : Bytes}

/-- A key is found at a quote if the text up to the next quote of the text itself is that key,
and a colon follows. -/
theorem keyPattern_isPrefix (hKey : ∀ c ∈ key, ¬Special c) (hBody : Escaped body) :
    keyPattern key <+: quote :: (body ++ quote :: rest) ↔ body = key ∧ rest.head? = some (ascii ':') := by
  have hQuote : Special quote := .inl rfl
  have hBackslash : Special backslash := .inr rfl
  rw [keyPattern, List.cons_prefix_cons, and_iff_right rfl]
  induction hBody generalizing key with
  | nil =>
      cases key with
      | nil =>
          rw [List.nil_append, List.nil_append, show bytes "\":" = quote :: [ascii ':'] from rfl, List.cons_prefix_cons]
          cases rest <;> simp [eq_comm]
      | cons d key =>
          have hOther : d ≠ quote := fun hEq => hKey d List.mem_cons_self (hEq ▸ hQuote)
          simp [List.cons_prefix_cons, hOther]
  | @plain c body hPlain _ ih =>
      cases key with
      | nil =>
          have hOther : quote ≠ c := fun hEq => hPlain (hEq ▸ hQuote)
          rw [List.nil_append, List.cons_append, show bytes "\":" = quote :: [ascii ':'] from rfl, List.cons_prefix_cons]
          simp [hOther]
      | cons d key =>
          have hTail := ih fun e hMem => hKey e (List.mem_cons_of_mem _ hMem)
          rw [List.cons_append, List.cons_append, List.cons_prefix_cons, List.cons.injEq, and_assoc, @eq_comm _ c d]
          exact and_congr_right fun _ => hTail
  | @escape c body _ ih =>
      cases key with
      | nil =>
          rw [List.nil_append, List.cons_append, show bytes "\":" = quote :: [ascii ':'] from rfl, List.cons_prefix_cons]
          have hOther : quote ≠ backslash := by decide
          simp [hOther]
      | cons d key =>
          have hOther : d ≠ backslash := fun hEq => hKey d List.mem_cons_self (hEq ▸ hBackslash)
          simp [List.cons_prefix_cons, hOther, hOther.symm]

theorem passes_other {c : UInt8} (h : c ≠ quote) : Passes (keyPattern key) [c] rest :=
  passes_singleton fun hPrefix => h (List.cons_prefix_cons.mp hPrefix).1.symm

/-- A key is found in a string at its escaped quotes only. -/
theorem passes_escaped (hBody : Escaped body)
    (h : ∀ front back, Escaped back → body = front ++ backslash :: quote :: back → ¬keyPattern key <+: quote :: (back ++ rest)) :
    Passes (keyPattern key) body rest := by
  induction hBody with
  | nil => exact passes_nil _ _
  | @plain c body hPlain hRest ih =>
      have hOther : c ≠ quote := fun hEq => hPlain (.inl hEq)
      exact (passes_other hOther).append (ih fun front back hBack hEq => h (c :: front) back hBack (by rw [hEq]; rfl))
  | @escape c body hRest ih =>
      have hTail := ih fun front back hBack hEq => h (backslash :: c :: front) back hBack (by rw [hEq]; rfl)
      have hHead : Passes (keyPattern key) [c] (body ++ rest) := by
        by_cases hQuote : c = quote
        · subst hQuote
          exact passes_singleton (h [] body hRest rfl)
        · exact passes_other hQuote
      have hBackslash : backslash ≠ quote := by decide
      exact (passes_other hBackslash).append (hHead.append hTail)

theorem passes_bare (h : quote ∉ body) : Passes (keyPattern key) body rest := by
  rw [Passes, keyPattern, cutAtText_append h]

/-- A value that is passed is skipped, if the key is not found at the quote in front of it. -/
theorem skips_of_passes {value : Bytes} (hValue : ∀ rest, Follows rest → Passes (keyPattern key) value rest)
    (hClose : ∀ rest, Follows rest → ¬keyPattern key <+: quote :: ascii ':' :: (value ++ rest)) : Skips key value := by
  intro rest hRest
  have hColon : ascii ':' ≠ quote := by decide
  have hQuote : Passes (keyPattern key) [quote] ([ascii ':'] ++ value ++ rest) := passes_singleton (hClose rest hRest)
  exact hQuote.append ((passes_other hColon).append (hValue rest hRest))

/-- A key that starts with a colon goes on with more. -/
theorem IsKey.exists_of_colon (hKey : IsKey key) {more : Bytes} (h : keyPattern key <+: quote :: ascii ':' :: more) :
    ∃ c key', key = ascii ':' :: c :: key' ∧ c :: key' ++ bytes "\":" <+: more := by
  have hHead := (List.cons_prefix_cons.mp h).2
  cases key with
  | nil => exact absurd (List.cons_prefix_cons.mp (show quote :: [ascii ':'] <+: _ from hHead)).1 (by decide)
  | cons colon key =>
      rw [List.cons_append, List.cons_prefix_cons] at hHead
      obtain ⟨rfl, hMore⟩ := hHead
      cases key with
      | nil => exact absurd rfl (hKey.colon rfl).1
      | cons c key' => exact ⟨c, key', rfl, hMore⟩

theorem Follows.head?_ne_colon (h : Follows rest) : rest.head? ≠ some (ascii ':') := by
  rcases h with rfl | ⟨more, rfl⟩
  · decide
  · exact fun hEq => absurd (Option.some.inj hEq) (by decide)

/-- No key is found in front of punctuation that it does not have. -/
theorem not_isPrefix_punctuation {c : UInt8} (hQuote : c ≠ quote) (hKey : c ∉ key) :
    ¬keyPattern key <+: quote :: c :: rest := by
  intro hPrefix
  have hHead := (List.cons_prefix_cons.mp hPrefix).2
  cases hCase : key with
  | nil =>
      rw [hCase] at hHead
      exact hQuote (List.cons_prefix_cons.mp (show quote :: [ascii ':'] <+: _ from hHead)).1.symm
  | cons d more =>
      rw [hCase, List.cons_append, List.cons_prefix_cons] at hHead
      exact hKey (by rw [hCase, hHead.1]; exact List.mem_cons_self)

/-- A key is found in a string at its last quote only. -/
theorem passes_string (hKey : ∀ c ∈ key, ¬Special c) (hBody : Escaped body) (hRest : rest.head? ≠ some (ascii ':'))
    (hEnd : ¬keyPattern key <+: quote :: rest) : Passes (keyPattern key) (quote :: (body ++ [quote])) rest := by
  have hInside : ∀ back, Escaped back → ¬keyPattern key <+: quote :: (back ++ quote :: rest) := fun back hBack hPrefix =>
    hRest ((keyPattern_isPrefix hKey hBack).mp hPrefix).2
  have hOpen : Passes (keyPattern key) [quote] ((body ++ [quote]) ++ rest) := by
    refine passes_singleton ?_
    rw [List.append_assoc]
    exact hInside body hBody
  have hText : Passes (keyPattern key) body ([quote] ++ rest) :=
    passes_escaped hBody fun front back hBack _ => hInside back hBack
  exact hOpen.append (hText.append (passes_singleton hEnd))

theorem skips_string (hKey : IsKey key) (hBody : Escaped body) : Skips key (quote :: (body ++ [quote])) := by
  refine skips_of_passes (fun rest hRest => ?_) fun rest _ hPrefix => ?_
  swap
  · obtain ⟨c, key', rfl, hMore⟩ := hKey.exists_of_colon hPrefix
    exact hKey.plain c (by simp) (.inl (List.cons_prefix_cons.mp hMore).1)
  refine passes_string hKey.plain hBody hRest.head?_ne_colon ?_
  rcases hRest with rfl | ⟨more, rfl⟩
  · intro hPrefix
    have hLength := hPrefix.length_le
    simp [keyPattern, bytes] at hLength
  · intro hPrefix
    have hComma : Escaped (bytes ",") := escaped_of_plain (by decide)
    have hBody : keyPattern key <+: quote :: (bytes "," ++ quote :: more) := hPrefix
    exact hKey.comma ((keyPattern_isPrefix hKey.plain hComma).mp hBody).1.symm

/-- A value without quotes. -/
theorem skips_bare (hKey : IsKey key) (h : quote ∉ body) : Skips key body := by
  refine skips_of_passes (fun _ _ => passes_bare h) fun rest hRest hPrefix => ?_
  obtain ⟨c, key', rfl, tail, hMore⟩ := hKey.exists_of_colon hPrefix
  have hPlain : quote ∉ c :: key' := fun hMem => hKey.plain quote (List.mem_cons_of_mem _ hMem) (.inl rfl)
  have hText : c :: key' ++ quote :: (ascii ':' :: tail) = body ++ rest := by simpa [bytes, quote] using hMore
  rcases hRest with rfl | ⟨more, rfl⟩
  · have hMem : quote ∈ body ++ bytes "\x7d" := by
      rw [← hText]
      exact List.mem_append_right _ List.mem_cons_self
    exact (List.mem_append.mp hMem).elim h (by decide)
  · have hComma : quote ∉ body ++ [ascii ','] := by simpa using ⟨h, by decide⟩
    have hFull : c :: key' ++ quote :: (ascii ':' :: tail) = (body ++ [ascii ',']) ++ quote :: more := by simpa using hText
    have hFront : ∀ {front : Bytes} (behind : Bytes), quote ∉ front →
        (front ++ quote :: behind).takeWhile (· ≠ quote) = front := fun behind hFront => by
      rw [List.takeWhile_append_of_pos fun d hMem => by simpa using ne_of_mem_of_not_mem hMem hFront,
        List.takeWhile_cons_of_neg (by simp), List.append_nil]
    have hSame : c :: key' = body ++ [ascii ','] := by
      rw [← hFront (ascii ':' :: tail) hPlain, hFull, hFront more hComma]
    refine (hKey.colon rfl).2 ?_
    rw [hSame, ← List.cons_append, List.getLast?_concat]

/-- A row of strings, for a key without the punctuation of a row. -/
theorem skips_row {bodies : List Bytes} (hKey : ∀ c ∈ key, ¬Special c) (hColon : ascii ':' ∉ key)
    (hComma : ascii ',' ∉ key) (hBracket : ascii ']' ∉ key)
    (hBodies : ∀ body ∈ bodies, Escaped body) :
    Skips key (ascii '[' :: ((bytes ",").intercalate (bodies.map fun body => quote :: (body ++ [quote])) ++ bytes "]")) := by
  refine skips_of_passes ?_ fun _ _ => not_isPrefix_punctuation (by decide) hColon
  have hString : ∀ {body : Bytes} {c : UInt8} (rest : Bytes), Escaped body → c ∉ key → c ≠ quote → c ≠ ascii ':' →
      Passes (keyPattern key) (quote :: (body ++ [quote])) (c :: rest) := fun rest hBody hOut hQuote hColon =>
    passes_string hKey hBody (fun hHead => hColon (Option.some.inj hHead)) (not_isPrefix_punctuation hQuote hOut)
  intro rest _
  have hRow : Passes (keyPattern key) ((bytes ",").intercalate (bodies.map fun body => quote :: (body ++ [quote])))
      (ascii ']' :: rest) := by
    induction bodies with
    | nil => exact passes_nil _ _
    | cons body bodies ih =>
        obtain ⟨hBody, hMore⟩ := List.forall_mem_cons.mp hBodies
        cases bodies with
        | nil =>
            rw [List.map_singleton, List.intercalate_singleton]
            exact hString rest hBody hBracket (by decide) (by decide)
        | cons next bodies =>
            rw [List.map_cons, List.map_cons, List.intercalate_cons_cons, List.append_assoc]
            refine (hString _ hBody hComma (by decide) (by decide)).append ?_
            exact (passes_other (by decide)).append (ih hMore)
  exact (passes_other (by decide)).append (hRow.append (passes_other (by decide)))

/-- A member with another key, where that does not end with an escaped quote and the key. -/
theorem passes_memberText {name value : Bytes} (hKey : IsKey key) (hName : Escaped name) (hOther : name ≠ key)
    (hEnd : ¬(backslash :: quote :: key) <:+ name) (hValue : Skips key value) (hRest : Follows rest) :
    Passes (keyPattern key) (memberText (name, value)) rest := by
  have hOpen : ¬keyPattern key <+: quote :: (name ++ quote :: (ascii ':' :: (value ++ rest))) := fun hPrefix =>
    hOther ((keyPattern_isPrefix hKey.plain hName).mp hPrefix).1
  have hInside : ∀ front back, Escaped back → name = front ++ backslash :: quote :: back →
      ¬keyPattern key <+: quote :: (back ++ quote :: (ascii ':' :: (value ++ rest))) := by
    intro front back hBack hSplit hPrefix
    obtain ⟨rfl, -⟩ := (keyPattern_isPrefix hKey.plain hBack).mp hPrefix
    exact hEnd ⟨front, hSplit.symm⟩
  have hText : memberText (name, value) = [quote] ++ (name ++ quote :: ascii ':' :: value) := by
    simp [memberText, keyPattern, show bytes "\":" = [quote, ascii ':'] from rfl]
  rw [hText]
  refine (passes_singleton ?_).append ((passes_escaped hName ?_).append (hValue rest hRest))
  · simpa using hOpen
  · simpa using hInside

/-- The search in the members, from behind any text without a quote. -/
theorem cutAtText_memberText {name value : Bytes} {more : List (Bytes × Bytes)} (hKey : IsKey key) {front : Bytes}
    (hFront : quote ∉ front) (hName : Escaped name) (hEnd : ¬(backslash :: quote :: key) <:+ name) (hValue : Skips key value)
    (hMore : (cutAtText (keyPattern key) (tailText more)).map Prod.snd = behindKey key more) :
    (cutAtText (keyPattern key) (front ++ (memberText (name, value) ++ tailText more))).map Prod.snd =
      behindKey key ((name, value) :: more) := by
  rw [behindKey]
  split
  · next hSame =>
    subst hSame
    have hFound := (show Passes (keyPattern name) front (keyPattern name ++ (value ++ tailText more)) from ?_).cutAtText_eq
      (by simp [keyPattern])
    · rw [memberText, List.append_assoc, hFound]
      rfl
    · rw [Passes, keyPattern, List.cons_append, cutAtText_append hFront]
  · next hOther =>
    have hPasses := passes_memberText hKey hName hOther hEnd hValue (follows_tailText more)
    rw [keyPattern, cutAtText_append hFront, ← keyPattern, Option.map_map, hPasses, Option.map_map, ← hMore]
    rfl

theorem behindKey_of_mem {members : List (Bytes × Bytes)} {value : Bytes} (hNames : (members.map Prod.fst).Nodup)
    (h : (key, value) ∈ members) : ∃ more, behindKey key members = some (value ++ tailText more) := by
  induction members with
  | nil => exact absurd h List.not_mem_nil
  | cons member members ih =>
      rw [List.map_cons, List.nodup_cons] at hNames
      rw [behindKey]
      rcases List.mem_cons.mp h with rfl | hMore
      · exact ⟨members, if_pos rfl⟩
      · have hOther : member.1 ≠ key := by
          rintro rfl
          exact hNames.1 (List.mem_map.mpr ⟨_, hMore, rfl⟩)
        rw [if_neg hOther]
        exact ih hNames.2 hMore

/-- The search finds the first member with the key. -/
theorem cutAtText_objectText (hKey : IsKey key) {members : List (Bytes × Bytes)}
    (h : ∀ member ∈ members, Escaped member.1 ∧ ¬(backslash :: quote :: key) <:+ member.1 ∧ Skips key member.2) :
    (cutAtText (keyPattern key) (objectText members)).map Prod.snd = behindKey key members := by
  have hTail : ∀ more : List (Bytes × Bytes),
      (∀ member ∈ more, Escaped member.1 ∧ ¬(backslash :: quote :: key) <:+ member.1 ∧ Skips key member.2) →
        (cutAtText (keyPattern key) (tailText more)).map Prod.snd = behindKey key more := by
    intro more hMore
    induction more with
    | nil =>
        have hEnd : cutAtText (keyPattern key) (tailText []) = none :=
          cutAtText_eq_none (c := quote) List.mem_cons_self (by decide)
        rw [hEnd]
        rfl
    | cons member more ih =>
        obtain ⟨⟨hName, hEnd, hValue⟩, hRest⟩ := List.forall_mem_cons.mp hMore
        have hText : tailText (member :: more) = [ascii ','] ++ (memberText member ++ tailText more) := by
          simp [tailText]
        rw [hText]
        exact cutAtText_memberText hKey (by decide) hName hEnd hValue (ih hRest)
  cases members with
  | nil =>
      have hEnd : cutAtText (keyPattern key) (objectText []) = none :=
        cutAtText_eq_none (c := quote) List.mem_cons_self (by decide)
      rw [hEnd]
      rfl
  | cons member more =>
      obtain ⟨⟨hName, hEnd, hValue⟩, hRest⟩ := List.forall_mem_cons.mp h
      exact cutAtText_memberText hKey (show quote ∉ [ascii '\x7b'] by decide) hName hEnd hValue (hTail more hRest)

end Search

end ContainerCP.Json
