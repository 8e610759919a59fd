import ContainerCP.Control.Walk
import ContainerCP.Ssl.CertificateMetadata

/-! Whether the reader of the metadata of a certificate comes to its end: the places where its
two loops start a round, and the ones where they stand still. -/
namespace ContainerCP.Ssl

/-- The text in front of the reader where a loop starts a round. -/
inductive LoopPlace where
  | member (text : Bytes)
  | domain (text : Bytes)
  deriving DecidableEq

/-- The next member, behind the text of one. -/
def nextMember (text : Bytes) : LoopPlace := .member (skipByte (ascii ',') (skipWhitespace text))

/-- The members that are read with `parse_json_string`. -/
def textKeys : List Bytes :=
  ["provider_id", "certificate_type", "status", "issued_at", "expires_at", "renew_after", "challenge_type",
    "last_validation", "last_error", "fingerprint_sha256", "serial_number", "issuer", "subject", "environment",
    "created_at", "updated_at"].map bytes

/-- The text behind the value of a member with a key, where no exception is thrown. -/
def behindValue (key text : Bytes) : Option Bytes :=
  let value := parseJsonValue text
  if key = bytes "version" ∨ key = bytes "renew_attempts" then (stoi value.1).map fun _ => value.2
  else if key = bytes "site_id" then (stoull value.1).map fun _ => value.2
  else if key ∈ textKeys then some (parseJsonString text).2
  else some value.2

/-- The place behind the value of a member, from the text behind its colon. -/
def nextBehind (key text : Bytes) : Option LoopPlace :=
  if key = bytes "domains" then
    match skipWhitespace text with
    | [] => some (nextMember [])
    | c :: rest => if c = ascii '[' then some (.domain rest) else some (nextMember (c :: rest))
  else (behindValue key text).map nextMember

/-- The place of the next round, where there is one. -/
def LoopPlace.next : LoopPlace → Option LoopPlace
  | .member text =>
      match skipWhitespace text with
      | [] => none
      | c :: rest =>
          if c = ascii '\x7d' then none
          else
            let key := parseJsonString (c :: rest)
            nextBehind key.1 (skipByte (ascii ':') (skipWhitespace key.2))
  | .domain text =>
      match skipWhitespace text with
      | [] => some (nextMember [])
      | c :: rest =>
          if c = ascii ']' then some (nextMember rest)
          else some (.domain (skipByte (ascii ',') (skipWhitespace (parseJsonString (c :: rest)).2)))

/-- A loop stands still before a closing bracket where a member should start, and before a byte
that starts no domain where one should start. -/
def LoopPlace.Stands : LoopPlace → Prop
  | .member text => text.head? = some (ascii ']')
  | .domain text =>
      ∃ c ∈ text.head?, isJsonSpace c = false ∧ c ≠ ascii '"' ∧ c ≠ ascii ',' ∧ c ≠ ascii ']'

def LoopPlace.size : LoopPlace → Nat
  | .member text => 2 * text.length
  | .domain text => 2 * text.length + 1

section Lengths

theorem length_skipWhitespace_le (text : Bytes) : (skipWhitespace text).length ≤ text.length :=
  (List.dropWhile_suffix _).length_le

theorem length_skipByte_le (c : UInt8) (text : Bytes) : (skipByte c text).length ≤ text.length := by
  cases text with
  | nil => rfl
  | cons d rest =>
      rw [skipByte]
      split <;> simp

theorem length_scanString_le (text : Bytes) : (scanString text).2.length ≤ text.length := by
  fun_induction scanString text with
  | case1 => rfl
  | case2 => simp
  | case3 => simp
  | case4 => simp; omega
  | case5 => simp; omega

theorem parseJsonString_quote (rest : Bytes) : parseJsonString (ascii '"' :: rest) = scanString rest := rfl

theorem length_parseJsonString_le (text : Bytes) : (parseJsonString text).2.length ≤ text.length := by
  have hSkip := length_skipWhitespace_le text
  rw [parseJsonString]
  split
  · simp
  · next c rest hText =>
    rw [hText, List.length_cons] at hSkip
    split
    · have hScan := length_scanString_le rest
      omega
    · simpa using hSkip

theorem length_scanArray_le (depth : Int) (text : Bytes) : (scanArray depth text).2.length ≤ text.length - 1 := by
  fun_induction scanArray depth text with
  | case1 => simp
  | case2 => simp
  | case3 => simp; omega

theorem length_parseJsonValue_le (text : Bytes) : (parseJsonValue text).2.length ≤ text.length := by
  have hSkip := length_skipWhitespace_le text
  rw [parseJsonValue]
  split
  · simp
  · next c rest hText =>
    rw [hText] at hSkip
    split
    · exact (length_parseJsonString_le _).trans hSkip
    · split
      · exact (length_scanArray_le _ _).trans ((Nat.sub_le _ _).trans hSkip)
      · exact (List.dropWhile_suffix _).length_le.trans hSkip

end Lengths

/-! ## What a round takes -/

section Rounds

section Next

variable {text rest : Bytes} {c : UInt8}

theorem next_member_nil (hText : skipWhitespace text = []) : (LoopPlace.member text).next = none := by
  rw [LoopPlace.next, hText]

theorem next_member_close (hText : skipWhitespace text = c :: rest) (hBrace : c = ascii '\x7d') :
    (LoopPlace.member text).next = none := by
  rw [LoopPlace.next, hText]
  simp only [if_pos hBrace]

theorem next_member_key (hText : skipWhitespace text = c :: rest) (hBrace : c ≠ ascii '\x7d') :
    (LoopPlace.member text).next =
      nextBehind (parseJsonString (c :: rest)).1 (skipByte (ascii ':') (skipWhitespace (parseJsonString (c :: rest)).2)) := by
  rw [LoopPlace.next, hText]
  simp only [if_neg hBrace]

theorem next_domain_nil (hText : skipWhitespace text = []) : (LoopPlace.domain text).next = some (nextMember []) := by
  rw [LoopPlace.next, hText]

theorem next_domain_close (hText : skipWhitespace text = c :: rest) (hBracket : c = ascii ']') :
    (LoopPlace.domain text).next = some (nextMember rest) := by
  rw [LoopPlace.next, hText]
  simp only [if_pos hBracket]

theorem next_domain_other (hText : skipWhitespace text = c :: rest) (hBracket : c ≠ ascii ']') :
    (LoopPlace.domain text).next = some (.domain (skipByte (ascii ',') (skipWhitespace (parseJsonString (c :: rest)).2))) := by
  rw [LoopPlace.next, hText]
  simp only [if_neg hBracket]

end Next

/-- What a member sets, as far as the text goes. -/
def Takes (rest : Option Bytes) (step : Option Step) : Prop :=
  ∃ result, step = some result ∧ (result.map Prod.snd).toOption = rest

theorem takes_setText (text : Bytes) (set : Bytes → Metadata) : Takes (some (parseJsonString text).2) (setText text set) :=
  ⟨_, rfl, rfl⟩

theorem takes_setFlag (text : Bytes) (set : Bool → Metadata) : Takes (some (parseJsonValue text).2) (setFlag text set) :=
  ⟨_, rfl, rfl⟩

theorem takes_setNumber {α : Type} (text : Bytes) (name : String) (read : Bytes → Option α) (set : α → Metadata) :
    Takes ((read (parseJsonValue text).1).map fun _ => (parseJsonValue text).2) (setNumber text name read set) := by
  rw [setNumber]
  cases read (parseJsonValue text).1 <;> exact ⟨_, rfl, rfl⟩

theorem takes_setMember {key : Bytes} (hKey : key ≠ bytes "domains") (fuel : Nat) (text : Bytes) (metadata : Metadata) :
    Takes (behindValue key text) (setMember fuel key text metadata) := by
  rw [setMember]
  refine iteInduction (fun h => h ▸ takes_setNumber text "stoi" stoi _) fun hVersion => ?_
  refine iteInduction (fun h => h ▸ takes_setNumber text "stoull" stoull _) fun hSite => ?_
  iterate 3 refine iteInduction (fun h => h ▸ takes_setText text _) fun _ => ?_
  refine iteInduction (fun h => absurd h hKey) fun _ => ?_
  iterate 3 refine iteInduction (fun h => h ▸ takes_setText text _) fun _ => ?_
  iterate 3 refine iteInduction (fun h => h ▸ takes_setFlag text _) fun _ => ?_
  iterate 3 refine iteInduction (fun h => h ▸ takes_setText text _) fun _ => ?_
  refine iteInduction (fun h => h ▸ takes_setNumber text "stoi" stoi _) fun _ => ?_
  iterate 7 refine iteInduction (fun h => h ▸ takes_setText text _) fun _ => ?_
  have hValue : behindValue key text = some (parseJsonValue text).2 := by
    simp only [behindValue, textKeys, List.map_cons, List.map_nil, List.mem_cons, List.not_mem_nil, or_self, if_false, *]
  exact ⟨_, rfl, hValue.symm⟩

theorem length_behindValue_le {key text rest : Bytes} (h : behindValue key text = some rest) : rest.length ≤ text.length := by
  have hValue := length_parseJsonValue_le text
  have hString := length_parseJsonString_le text
  rw [behindValue] at h
  split at h
  · obtain ⟨-, -, rfl⟩ := Option.map_eq_some_iff.mp h
    exact hValue
  · split at h
    · obtain ⟨-, -, rfl⟩ := Option.map_eq_some_iff.mp h
      exact hValue
    · split at h
      · obtain rfl := Option.some.inj h
        exact hString
      · obtain rfl := Option.some.inj h
        exact hValue

theorem length_nextMember_le (text : Bytes) : (nextMember text).size ≤ 2 * text.length := by
  have hSkip := length_skipWhitespace_le text
  have hComma := length_skipByte_le (ascii ',') (skipWhitespace text)
  rw [nextMember, LoopPlace.size]
  omega

theorem size_nextBehind_le {key text : Bytes} {p : LoopPlace} (h : nextBehind key text = some p) : p.size ≤ 2 * text.length := by
  have hList := length_skipWhitespace_le text
  rw [nextBehind] at h
  split at h
  · split at h
    · obtain rfl := Option.some.inj h
      exact (length_nextMember_le []).trans (Nat.zero_le _)
    · next c rest hText =>
      rw [hText, List.length_cons] at hList
      split at h
      · obtain rfl := Option.some.inj h
        simp only [LoopPlace.size]
        omega
      · obtain rfl := Option.some.inj h
        have hNext := length_nextMember_le (c :: rest)
        rw [List.length_cons] at hNext
        omega
  · obtain ⟨behind, hBehind, rfl⟩ := Option.map_eq_some_iff.mp h
    have hValue := length_behindValue_le hBehind
    have hNext := length_nextMember_le behind
    omega

theorem head_skipWhitespace {text rest : Bytes} {c : UInt8} (h : skipWhitespace text = c :: rest) :
    isJsonSpace c = false := by
  have hHead := List.head?_dropWhile_not isJsonSpace text
  rw [← skipWhitespace, h] at hHead
  simpa using hHead

theorem skipWhitespace_cons {c : UInt8} {rest : Bytes} (h : isJsonSpace c = false) : skipWhitespace (c :: rest) = c :: rest := by
  rw [skipWhitespace, List.dropWhile_cons_of_neg (by simp [h])]

/-- A text with white space in front is longer than what is behind that. -/
theorem eq_or_lt_of_skipWhitespace {text behind : Bytes} (h : skipWhitespace text = behind) :
    text = behind ∨ behind.length < text.length := by
  have hSuffix : behind <:+ text := h ▸ List.dropWhile_suffix _
  rcases Nat.lt_or_ge behind.length text.length with hLess | hSame
  · exact .inr hLess
  · exact .inl (hSuffix.eq_of_length_le hSame).symm

theorem parseJsonString_other {c : UInt8} {rest : Bytes} (hSpace : isJsonSpace c = false) (hQuote : c ≠ ascii '"') :
    parseJsonString (c :: rest) = ([], c :: rest) := by
  rw [parseJsonString, skipWhitespace_cons hSpace]
  simp [hQuote]

/-- A value starts with any byte but four. -/
theorem length_parseJsonValue_lt {c : UInt8} {rest : Bytes} (hSpace : isJsonSpace c = false)
    (hBare : c ≠ ascii ',' ∧ c ≠ ascii ']' ∧ c ≠ ascii '\x7d') : (parseJsonValue (c :: rest)).2.length ≤ rest.length := by
  rw [parseJsonValue, skipWhitespace_cons hSpace]
  simp only
  split
  · next hQuote =>
    rw [hQuote, parseJsonString_quote]
    exact length_scanString_le rest
  · split
    · exact length_scanArray_le _ _
    · have hTaken : isBare c = true := by simp [isBare, hBare, hSpace]
      rw [List.dropWhile_cons_of_pos hTaken]
      exact (List.dropWhile_suffix _).length_le

/-- Where a member starts with neither a quote nor a brace, its round is over behind one value. -/
theorem next_member_other {text rest : Bytes} {c : UInt8} (hText : skipWhitespace text = c :: rest) (hBrace : c ≠ ascii '\x7d')
    (hQuote : c ≠ ascii '"') :
    (LoopPlace.member text).next = some (nextMember (parseJsonValue (skipByte (ascii ':') (c :: rest))).2) := by
  have hSpace := head_skipWhitespace hText
  have hKey : ([] : Bytes) ≠ bytes "domains" := by decide
  have hValue : ∀ behind, behindValue [] behind = some (parseJsonValue behind).2 := fun _ => rfl
  rw [next_member_key hText hBrace, parseJsonString_other hSpace hQuote]
  simp only [nextBehind, if_neg hKey, skipWhitespace_cons hSpace, hValue, Option.map_some]

/-- A round takes something, or the loop stands still. -/
theorem LoopPlace.next_cases {p q : LoopPlace} (h : p.next = some q) : q = p ∧ p.Stands ∨ q.size < p.size := by
  cases p with
  | member text =>
      cases hText : skipWhitespace text with
      | nil => simp [LoopPlace.next, hText] at h
      | cons c rest =>
          have hSpace := head_skipWhitespace hText
          have hLength := length_skipWhitespace_le text
          rw [hText, List.length_cons] at hLength
          by_cases hBrace : c = ascii '\x7d'
          · simp [LoopPlace.next, hText, hBrace] at h
          · by_cases hQuote : c = ascii '"'
            · right
              subst hQuote
              have hScan := length_scanString_le rest
              have hBehind := length_skipByte_le (ascii ':') (skipWhitespace (scanString rest).2)
              have hSkip := length_skipWhitespace_le (scanString rest).2
              rw [LoopPlace.next, hText] at h
              simp only [if_neg hBrace, parseJsonString_quote] at h
              have hNext := size_nextBehind_le h
              simp only [LoopPlace.size] at hNext ⊢
              omega
            · rw [next_member_other hText hBrace hQuote] at h
              obtain rfl := Option.some.inj h
              by_cases hBracket : c = ascii ']'
              · subst hBracket
                have hSelf : nextMember (parseJsonValue (skipByte (ascii ':') (ascii ']' :: rest))).2 = .member (ascii ']' :: rest) := rfl
                rw [hSelf]
                rcases eq_or_lt_of_skipWhitespace hText with rfl | hLess
                · exact .inl ⟨rfl, rfl⟩
                · right
                  simp only [LoopPlace.size]
                  omega
              · right
                have hTaken : (nextMember (parseJsonValue (skipByte (ascii ':') (c :: rest))).2).size ≤ 2 * rest.length := by
                  by_cases hColon : c = ascii ':'
                  · have hRest : skipByte (ascii ':') (c :: rest) = rest := by rw [skipByte, if_pos hColon]
                    rw [hRest]
                    have hValue := length_parseJsonValue_le rest
                    have hNext := length_nextMember_le (parseJsonValue rest).2
                    omega
                  · have hSame : skipByte (ascii ':') (c :: rest) = c :: rest := by rw [skipByte, if_neg hColon]
                    rw [hSame]
                    by_cases hComma : c = ascii ','
                    · subst hComma
                      exact le_of_eq rfl
                    · have hValue : (parseJsonValue (c :: rest)).2.length ≤ rest.length :=
                        length_parseJsonValue_lt hSpace ⟨hComma, hBracket, hBrace⟩
                      have hNext := length_nextMember_le (parseJsonValue (c :: rest)).2
                      omega
                simp only [LoopPlace.size] at hTaken ⊢
                omega
  | domain text =>
      rw [LoopPlace.next] at h
      cases hText : skipWhitespace text with
      | nil =>
          rw [hText] at h
          obtain rfl := Option.some.inj h
          right
          have hNext := length_nextMember_le []
          simp only [List.length_nil, LoopPlace.size] at hNext ⊢
          omega
      | cons c rest =>
          have hSpace := head_skipWhitespace hText
          have hLength := length_skipWhitespace_le text
          rw [hText, List.length_cons] at hLength
          rw [hText] at h
          simp only at h
          split at h
          · obtain rfl := Option.some.inj h
            right
            have hNext := length_nextMember_le rest
            simp only [LoopPlace.size] at hNext ⊢
            omega
          · next hBracket =>
            obtain rfl := Option.some.inj h
            by_cases hQuote : c = ascii '"'
            · subst hQuote
              rw [parseJsonString_quote]
              right
              have hScan := length_scanString_le rest
              have hSkip := length_skipWhitespace_le (scanString rest).2
              have hComma := length_skipByte_le (ascii ',') (skipWhitespace (scanString rest).2)
              simp only [LoopPlace.size]
              omega
            · rw [parseJsonString_other hSpace hQuote, skipWhitespace_cons hSpace]
              by_cases hComma : c = ascii ','
              · rw [skipByte, if_pos hComma]
                right
                simp only [LoopPlace.size]
                omega
              · rw [skipByte, if_neg hComma]
                rcases eq_or_lt_of_skipWhitespace hText with rfl | hLess
                · exact .inl ⟨rfl, c, rfl, hSpace, hQuote, hComma, hBracket⟩
                · right
                  simp only [LoopPlace.size]
                  omega

theorem LoopPlace.Stands.next_eq_self {p : LoopPlace} (h : p.Stands) : p.next = some p := by
  cases p with
  | member text =>
      obtain ⟨rest, rfl⟩ : ∃ rest, text = ascii ']' :: rest := by
        cases text with
        | nil => cases h
        | cons c rest => exact ⟨rest, by rw [Option.some.inj h]⟩
      rw [next_member_other (show skipWhitespace (ascii ']' :: rest) = ascii ']' :: rest from rfl) (by decide) (by decide)]
      rfl
  | domain text =>
      obtain ⟨c, hHead, hSpace, hQuote, hComma, hBracket⟩ := h
      cases text with
      | nil => cases hHead
      | cons d rest =>
          obtain rfl : d = c := Option.some.inj hHead
          rw [LoopPlace.next, skipWhitespace_cons hSpace]
          simp only [if_neg hBracket, parseJsonString_other hSpace hQuote, skipWhitespace_cons hSpace, skipByte, if_neg hComma]

end Rounds

/-! ## The two loops -/

section Loops

theorem takes_step {key : Bytes} (hKey : key ≠ bytes "domains") (fuel : Nat) (text : Bytes) (metadata : Metadata) :
    Takes (behindValue key text)
      (if key = [] then some (.ok (metadata, (parseJsonValue text).2)) else setMember fuel key text metadata) := by
  split
  · next hEmpty =>
    subst hEmpty
    exact ⟨_, rfl, rfl⟩
  · exact takes_setMember hKey fuel text metadata

theorem setMember_domains (fuel : Nat) (text : Bytes) (metadata : Metadata) :
    setMember fuel (bytes "domains") text metadata =
      (parseDomains fuel text).map fun parsed =>
        .ok ({ metadata with domains := metadata.domains ++ parsed.1 }, parsed.2) :=
  rfl

/-- Where the loop over the domains ends, the walk goes on with the next member. -/
theorem halts_domain {fuel : Nat} {text rest : Bytes} {domains : List Bytes} (h : scanDomains fuel text = some (domains, rest))
    (hMore : Halts LoopPlace.next (nextMember (skipByte (ascii ']') rest))) : Halts LoopPlace.next (.domain text) := by
  induction fuel generalizing text domains with
  | zero => cases h
  | succ fuel ih =>
      rw [scanDomains] at h
      split at h
      · next hText =>
        obtain ⟨-, rfl⟩ := Prod.mk.inj (Option.some.inj h)
        exact .step (next_domain_nil hText) hMore
      · next c behind hText =>
        split at h
        · next hBracket =>
          obtain ⟨-, rfl⟩ := Prod.mk.inj (Option.some.inj h)
          rw [skipByte, if_pos hBracket] at hMore
          exact .step (next_domain_close hText hBracket) hMore
        · next hBracket =>
          simp only at h
          split at h
          · cases h
          · next more rest' hScan =>
            obtain ⟨-, rfl⟩ := Prod.mk.inj (Option.some.inj h)
            exact .step (next_domain_other hText hBracket) (ih hScan)

/-- A reader that comes to its end within some fuel walks to an end. -/
theorem halts_member {fuel : Nat} {text : Bytes} {metadata : Metadata} {parsedAny : Bool}
    (h : (readMembers fuel text metadata parsedAny).isSome = true) : Halts LoopPlace.next (.member text) := by
  induction fuel generalizing text metadata parsedAny with
  | zero => cases h
  | succ fuel ih =>
      rw [readMembers] at h
      split at h
      · next hText => exact .stop (next_member_nil hText)
      · next c rest hText =>
        split at h
        · next hBrace => exact .stop (next_member_close hText hBrace)
        · next hBrace =>
          have hNext := next_member_key hText hBrace
          simp only at h
          generalize skipByte (ascii ':') (skipWhitespace (parseJsonString (c :: rest)).2) = behind at h hNext
          generalize (parseJsonString (c :: rest)).1 = key at h hNext
          by_cases hKey : key = bytes "domains"
          · subst hKey
            rw [nextBehind, if_pos rfl] at hNext
            rw [if_neg (by decide), setMember_domains, parseDomains] at h
            split at hNext
            · next hBehind =>
              rw [hBehind] at h
              exact .step hNext (ih h)
            · next d more hBehind =>
              rw [hBehind] at h
              simp only at h
              split at hNext
              · next hBracket =>
                rw [if_pos hBracket] at h
                cases hScan : scanDomains fuel more with
                | none =>
                    rw [hScan] at h
                    cases h
                | some scanned =>
                    rw [hScan] at h
                    exact .step hNext (halts_domain hScan (ih h))
              · next hBracket =>
                rw [if_neg hBracket] at h
                exact .step hNext (ih h)
          · obtain ⟨result, hStep, hTakes⟩ := takes_step hKey fuel behind metadata
            rw [nextBehind, if_neg hKey, ← hTakes] at hNext
            rw [hStep] at h
            cases result with
            | error what => exact .stop hNext
            | ok set => exact .step hNext (ih h)

/-- What a walk that halts at a place is for the loops: the reader comes to its end with any
fuel from some on. -/
def Ends : LoopPlace → Prop
  | .member text =>
      ∃ least, ∀ fuel ≥ least, ∀ metadata parsedAny, (readMembers fuel text metadata parsedAny).isSome = true
  | .domain text =>
      ∃ least domains rest, ∀ fuel ≥ least, scanDomains fuel text = some (domains, rest) ∧
        ∀ metadata parsedAny,
          (readMembers fuel (skipByte (ascii ',') (skipWhitespace (skipByte (ascii ']') rest))) metadata parsedAny).isSome = true

theorem nextBehind_domains_ne_none (text : Bytes) : nextBehind (bytes "domains") text ≠ none := by
  rw [nextBehind, if_pos rfl]
  split
  · exact Option.some_ne_none _
  · split <;> exact Option.some_ne_none _

theorem ends_member_stop {text : Bytes} (hStop : (LoopPlace.member text).next = none) : Ends (.member text) := by
  refine ⟨1, fun fuel hFuel metadata parsedAny => ?_⟩
  obtain ⟨fuel, rfl⟩ : ∃ n, fuel = n + 1 := ⟨fuel - 1, by omega⟩
  rw [readMembers]
  split
  · rfl
  · next c rest hText =>
    split
    · rfl
    · next hBrace =>
      rw [next_member_key hText hBrace] at hStop
      simp only
      generalize skipByte (ascii ':') (skipWhitespace (parseJsonString (c :: rest)).2) = behind at hStop
      generalize (parseJsonString (c :: rest)).1 = key at hStop
      by_cases hKey : key = bytes "domains"
      · exact absurd (hKey ▸ hStop) (nextBehind_domains_ne_none behind)
      · obtain ⟨result, hTaken, hTakes⟩ := takes_step hKey fuel behind metadata
        rw [nextBehind, if_neg hKey, ← hTakes] at hStop
        rw [hTaken]
        cases result with
        | error what => rfl
        | ok set => cases hStop

/-- A round behind its key and the colon. -/
def readRound (fuel : Nat) (key behind : Bytes) (metadata : Metadata) (parsedAny : Bool) :
    Option (Except Bytes (Metadata × Bool)) :=
  match if key = [] then some (.ok (metadata, (parseJsonValue behind).2)) else setMember fuel key behind metadata with
  | none => none
  | some (.error what) => some (.error what)
  | some (.ok (metadata, rest)) =>
      readMembers fuel (skipByte (ascii ',') (skipWhitespace rest)) metadata (parsedAny || knownKeys.contains key)

theorem ends_readRound {key behind : Bytes} {q : LoopPlace} (hStep : nextBehind key behind = some q) (ih : Ends q) :
    ∃ least, ∀ fuel ≥ least, ∀ metadata parsedAny, (readRound fuel key behind metadata parsedAny).isSome = true := by
  by_cases hKey : key = bytes "domains"
  · subst hKey
    have hMember : ∀ fuel metadata, (if bytes "domains" = [] then some (.ok (metadata, (parseJsonValue behind).2))
        else setMember fuel (bytes "domains") behind metadata) = _ := fun fuel metadata =>
      (if_neg (by decide)).trans (setMember_domains fuel behind metadata)
    rw [nextBehind, if_pos rfl] at hStep
    simp only [readRound, hMember, parseDomains]
    cases hBehind : skipWhitespace behind with
    | nil =>
      simp only [hBehind] at hStep
      obtain rfl := Option.some.inj hStep
      obtain ⟨least, hLeast⟩ := ih
      exact ⟨least, fun fuel hFuel metadata parsedAny => hLeast fuel hFuel _ _⟩
    | cons d more =>
      simp only [hBehind] at hStep
      split at hStep
      · next hBracket =>
        obtain rfl := Option.some.inj hStep
        obtain ⟨least, domains, rest, hLeast⟩ := ih
        refine ⟨least, fun fuel hFuel metadata parsedAny => ?_⟩
        simp only [if_pos hBracket, (hLeast fuel hFuel).1]
        exact (hLeast fuel hFuel).2 _ _
      · next hBracket =>
        obtain rfl := Option.some.inj hStep
        obtain ⟨least, hLeast⟩ := ih
        refine ⟨least, fun fuel hFuel metadata parsedAny => ?_⟩
        simp only [if_neg hBracket]
        exact hLeast fuel hFuel _ _
  · rw [nextBehind, if_neg hKey] at hStep
    obtain ⟨rest, hBehind, rfl⟩ := Option.map_eq_some_iff.mp hStep
    obtain ⟨least, hLeast⟩ := ih
    refine ⟨least, fun fuel hFuel metadata parsedAny => ?_⟩
    obtain ⟨result, hTaken, hTakes⟩ := takes_step hKey fuel behind metadata
    rw [hBehind] at hTakes
    rw [readRound, hTaken]
    cases result with
    | error what => rfl
    | ok set =>
        obtain rfl := Option.some.inj hTakes
        exact hLeast fuel hFuel _ _

theorem ends_member_step {text : Bytes} {q : LoopPlace} (hStep : (LoopPlace.member text).next = some q) (ih : Ends q) :
    Ends (.member text) := by
  cases hText : skipWhitespace text with
  | nil => cases (next_member_nil hText).symm.trans hStep
  | cons c rest =>
      by_cases hBrace : c = ascii '\x7d'
      · cases (next_member_close hText hBrace).symm.trans hStep
      · rw [next_member_key hText hBrace] at hStep
        have hRound : ∀ fuel metadata parsedAny, readMembers (fuel + 1) text metadata parsedAny =
            readRound fuel (parseJsonString (c :: rest)).1 (skipByte (ascii ':') (skipWhitespace (parseJsonString (c :: rest)).2))
              metadata parsedAny := by
          intro fuel metadata parsedAny
          rw [readMembers, hText]
          simp only [if_neg hBrace]
          rfl
        generalize skipByte (ascii ':') (skipWhitespace (parseJsonString (c :: rest)).2) = behind at hStep hRound
        generalize (parseJsonString (c :: rest)).1 = key at hStep hRound
        obtain ⟨least, hLeast⟩ := ends_readRound hStep ih
        refine ⟨least + 1, fun fuel hFuel metadata parsedAny => ?_⟩
        obtain ⟨fuel, rfl⟩ : ∃ n, fuel = n + 1 := ⟨fuel - 1, by omega⟩
        rw [hRound]
        exact hLeast fuel (by omega) metadata parsedAny

theorem ends_domain_step {text : Bytes} {q : LoopPlace} (hStep : (LoopPlace.domain text).next = some q) (ih : Ends q) :
    Ends (.domain text) := by
  cases hText : skipWhitespace text with
  | nil =>
      rw [next_domain_nil hText] at hStep
      obtain rfl := Option.some.inj hStep
      obtain ⟨least, hLeast⟩ := ih
      refine ⟨least + 1, [], [], fun fuel hFuel => ?_⟩
      obtain ⟨fuel, rfl⟩ : ∃ n, fuel = n + 1 := ⟨fuel - 1, by omega⟩
      exact ⟨by rw [scanDomains, hText], hLeast (fuel + 1) (by omega)⟩
  | cons c rest =>
      by_cases hBracket : c = ascii ']'
      · rw [next_domain_close hText hBracket] at hStep
        obtain rfl := Option.some.inj hStep
        obtain ⟨least, hLeast⟩ := ih
        refine ⟨least + 1, [], c :: rest, fun fuel hFuel => ?_⟩
        obtain ⟨fuel, rfl⟩ : ∃ n, fuel = n + 1 := ⟨fuel - 1, by omega⟩
        refine ⟨by rw [scanDomains, hText]; simp only [if_pos hBracket], ?_⟩
        rw [skipByte, if_pos hBracket]
        exact hLeast (fuel + 1) (by omega)
      · rw [next_domain_other hText hBracket] at hStep
        obtain rfl := Option.some.inj hStep
        obtain ⟨least, domains, behind, hLeast⟩ := ih
        refine ⟨least + 1, if (parseJsonString (c :: rest)).1 = [] then domains else (parseJsonString (c :: rest)).1 :: domains, behind,
          fun fuel hFuel => ?_⟩
        obtain ⟨fuel, rfl⟩ : ∃ n, fuel = n + 1 := ⟨fuel - 1, by omega⟩
        refine ⟨?_, (hLeast (fuel + 1) (by omega)).2⟩
        rw [scanDomains, hText]
        simp only [if_neg hBracket, (hLeast fuel (by omega)).1]

theorem ends_of_halts {p : LoopPlace} (h : Halts LoopPlace.next p) : Ends p := by
  induction h with
  | @stop p hStop =>
      cases p with
      | member text => exact ends_member_stop hStop
      | domain text =>
          cases hText : skipWhitespace text with
          | nil => cases (next_domain_nil hText).symm.trans hStop
          | cons c rest =>
              by_cases hBracket : c = ascii ']'
              · cases (next_domain_close hText hBracket).symm.trans hStop
              · cases (next_domain_other hText hBracket).symm.trans hStop
  | @step p q hStep _ ih =>
      cases p with
      | member text => exact ends_member_step hStep ih
      | domain text => exact ends_domain_step hStep ih

end Loops

theorem metadataFromJson_isSome_iff (json : Bytes) :
    (∃ fuel, (metadataFromJson fuel json).isSome = true) ↔
      ∀ inside, skipWhitespace json = ascii '\x7b' :: inside → Halts LoopPlace.next (.member inside) := by
  cases hText : skipWhitespace json with
  | nil => simp [metadataFromJson, hText]
  | cons c rest =>
      by_cases hBrace : c = ascii '\x7b'
      · simp only [metadataFromJson, hText, hBrace, ne_eq, not_true_eq_false, if_false, Option.isSome_map, List.cons.injEq, true_and,
          forall_eq']
        constructor
        · exact fun ⟨fuel, hEnds⟩ => halts_member hEnds
        · intro hHalts
          obtain ⟨least, hLeast⟩ := ends_of_halts hHalts
          exact ⟨least, hLeast least le_rfl _ _⟩
      · simp [metadataFromJson, hText, hBrace]

/-- The text of the metadata is read to an end if neither loop ever stands still. -/
theorem metadataFromJson_ends_iff (json : Bytes) :
    (∃ fuel, (metadataFromJson fuel json).isSome = true) ↔
      ∀ inside, skipWhitespace json = ascii '\x7b' :: inside → ∀ place, Reaches LoopPlace.next (.member inside) place → ¬place.Stands := by
  have hSize : ∀ p q, LoopPlace.next p = some q → q = p ∨ q.size < p.size := fun p q h => (LoopPlace.next_cases h).imp_left And.left
  rw [metadataFromJson_isSome_iff]
  refine forall₂_congr fun inside _ => ?_
  rw [halts_iff hSize]
  refine forall₂_congr fun place _ => not_congr ⟨fun hStill => ?_, LoopPlace.Stands.next_eq_self⟩
  exact ((LoopPlace.next_cases hStill).resolve_right (lt_irrefl _)).2

/-- A closing bracket in the place of the first member. -/
theorem metadataFromJson_bracket : ¬∃ fuel, (metadataFromJson fuel (bytes "\x7b]")).isSome = true := by
  rw [metadataFromJson_isSome_iff]
  exact fun h => (h (bytes "]") rfl).ne_some_self rfl

end ContainerCP.Ssl
