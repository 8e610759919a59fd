import ContainerCP.Text.Lines
import ContainerCP.Ssl.MetadataWalk

/-! The reader of the metadata of a certificate undoes its writer: member by member, with one
entry for the text that is written and for what the reader sets from it. -/
namespace ContainerCP.Ssl

/-! ## Strings -/

theorem scanString_quote (rest : Bytes) : scanString (ascii '"' :: rest) = ([], rest) := by
  rw [scanString.eq_def]
  rfl

theorem scanString_escape (d : UInt8) (rest : Bytes) :
    scanString (ascii '\\' :: d :: rest) = (unescaped d :: (scanString rest).1, (scanString rest).2) := by
  rw [scanString.eq_def]
  rfl

theorem scanString_plain {c : UInt8} (hQuote : c ≠ ascii '"') (hEscape : c ≠ ascii '\\') (rest : Bytes) :
    scanString (c :: rest) = (c :: (scanString rest).1, (scanString rest).2) := by
  rw [scanString.eq_def]
  simp only [if_neg hQuote, if_neg hEscape]

theorem scanString_escapeByte (c : UInt8) (rest : Bytes) :
    scanString (escapeByte c ++ rest) = (c :: (scanString rest).1, (scanString rest).2) := by
  by_cases h : c ∈ [ascii '"', ascii '\\', ascii '\n', ascii '\r', ascii '\t']
  · simp only [List.mem_cons, List.not_mem_nil, or_false] at h
    rcases h with rfl | rfl | rfl | rfl | rfl
    · exact scanString_escape (ascii '"') rest
    · exact scanString_escape (ascii '\\') rest
    · exact scanString_escape (ascii 'n') rest
    · exact scanString_escape (ascii 'r') rest
    · exact scanString_escape (ascii 't') rest
  · simp only [List.mem_cons, List.not_mem_nil, or_false, not_or] at h
    obtain ⟨hQuote, hEscape, hLine, hReturn, hTab⟩ := h
    rw [escapeByte, if_neg hQuote, if_neg hEscape, if_neg hLine, if_neg hReturn, if_neg hTab, List.singleton_append,
      scanString_plain hQuote hEscape]

/-- The scan takes an escaped text up to its quote. -/
theorem scanString_escapeJson (text rest : Bytes) : scanString (escapeJson text ++ ascii '"' :: rest) = (text, rest) := by
  induction text with
  | nil => exact scanString_quote rest
  | cons c text ih =>
      have hSplit : escapeJson (c :: text) = escapeByte c ++ escapeJson text := List.flatMap_cons
      rw [hSplit, List.append_assoc, scanString_escapeByte, ih]

theorem quoted_append (text rest : Bytes) : quoted text ++ rest = ascii '"' :: (escapeJson text ++ ascii '"' :: rest) := by
  have hQuote : bytes "\"" = [ascii '"'] := rfl
  rw [quoted, hQuote]
  simp only [List.append_assoc, List.cons_append, List.nil_append]

theorem parseJsonString_quoted (text rest : Bytes) : parseJsonString (ascii ' ' :: (quoted text ++ rest)) = (text, rest) := by
  rw [quoted_append]
  exact scanString_escapeJson text rest

theorem parseJsonValue_quoted (text rest : Bytes) : parseJsonValue (ascii ' ' :: (quoted text ++ rest)) = (text, rest) := by
  rw [quoted_append]
  exact scanString_escapeJson text rest

/-! ## Bare values -/

/-- What follows a value: a comma, or the end of the line. -/
def EndsValue (rest : Bytes) : Prop := ∃ c ∈ rest.head?, isBare c = false

/-- A value without quotes is taken up to its end. -/
theorem parseJsonValue_bare {value rest : Bytes} {c : UInt8} (hHead : value.head? = some c) (hQuote : c ≠ ascii '"')
    (hBracket : c ≠ ascii '[') (hBare : ∀ d ∈ value, isBare d = true) (hRest : EndsValue rest) :
    parseJsonValue (ascii ' ' :: (value ++ rest)) = (value, rest) := by
  obtain ⟨more, rfl⟩ := List.head?_eq_some_iff.mp hHead
  obtain ⟨e, hE, hEnd⟩ := hRest
  obtain ⟨behind, rfl⟩ := List.head?_eq_some_iff.mp (Option.mem_def.mp hE)
  have hSpace : isJsonSpace c = false := by
    have hHere := hBare c List.mem_cons_self
    cases hSpace : isJsonSpace c with
    | false => rfl
    | true => simp [isBare, hSpace] at hHere
  have hSkip : skipWhitespace (ascii ' ' :: (c :: more ++ e :: behind)) = c :: (more ++ e :: behind) :=
    skipWhitespace_cons hSpace
  have hTake : (c :: (more ++ e :: behind)).takeWhile isBare = c :: more := by
    rw [← List.cons_append, List.takeWhile_append_of_pos hBare, List.takeWhile_cons_of_neg (by simp [hEnd]), List.append_nil]
  have hDrop : (c :: (more ++ e :: behind)).dropWhile isBare = e :: behind := by
    rw [← List.cons_append, List.dropWhile_append_of_pos hBare, List.dropWhile_cons_of_neg (by simp [hEnd])]
  rw [parseJsonValue, hSkip]
  simp only [if_neg hQuote, if_neg hBracket, hTake, hDrop]

theorem isBare_of_isDigit {d : UInt8} (h : isDigit d = true) : isBare d = true ∧ d ≠ ascii '"' ∧ d ≠ ascii '[' := by
  have hNot : d ∉ [ascii ',', ascii ']', ascii '\x7d', ascii ' ', ascii '\t', ascii '\n', ascii '\r', ascii '"', ascii '['] := by
    intro hMem
    have hTable : ∀ e ∈ [ascii ',', ascii ']', ascii '\x7d', ascii ' ', ascii '\t', ascii '\n', ascii '\r', ascii '"', ascii '['],
        isDigit e = false := by decide
    rw [hTable d hMem] at h
    cases h
  simp only [List.mem_cons, List.not_mem_nil, or_false, not_or] at hNot
  simp [isBare, isJsonSpace, hNot]

theorem parseJsonValue_decimalInt (n : Int) {rest : Bytes} (hRest : EndsValue rest) :
    parseJsonValue (ascii ' ' :: (decimalInt n ++ rest)) = (decimalInt n, rest) := by
  have hByte : ∀ d ∈ decimalInt n, isBare d = true ∧ d ≠ ascii '"' ∧ d ≠ ascii '[' := by
    intro d hd
    by_cases hSign : d = ascii '-'
    · rw [hSign]
      decide
    · cases hDigit : isDigit d with
      | true => exact isBare_of_isDigit hDigit
      | false => exact absurd hd (not_mem_decimalInt hDigit hSign)
  obtain ⟨c, more, hText⟩ := List.exists_cons_of_ne_nil (decimalInt_ne_nil n)
  obtain ⟨-, hQuote, hBracket⟩ := hByte c (hText ▸ List.mem_cons_self)
  exact parseJsonValue_bare (by rw [hText]; rfl) hQuote hBracket (fun d hd => (hByte d hd).1) hRest

theorem parseJsonValue_boolText (value : Bool) {rest : Bytes} (hRest : EndsValue rest) :
    parseJsonValue (ascii ' ' :: (boolText value ++ rest)) = (boolText value, rest) := by
  cases value with
  | true => exact parseJsonValue_bare rfl (by decide) (by decide) (by decide) hRest
  | false => exact parseJsonValue_bare rfl (by decide) (by decide) (by decide) hRest

/-! ## Domains -/

theorem skipWhitespace_space (text : Bytes) : skipWhitespace (ascii ' ' :: text) = skipWhitespace text := rfl

/-- The text behind the comma of a row of domains. -/
def domainsBehind : List Bytes → Bytes
  | [] => []
  | domain :: domains => bytes ", " ++ quoted domain ++ domainsBehind domains

theorem intercalate_domains (domain : Bytes) (domains : List Bytes) :
    (bytes ", ").intercalate ((domain :: domains).map quoted) = quoted domain ++ domainsBehind domains := by
  induction domains generalizing domain with
  | nil => simp [domainsBehind, List.intercalate]
  | cons next domains ih =>
      rw [List.map_cons, List.map_cons, List.intercalate_cons_cons, ← List.map_cons, ih, domainsBehind]
      simp only [List.append_assoc]

theorem scanDomains_close {fuel : Nat} (hFuel : 0 < fuel) (rest : Bytes) :
    scanDomains fuel (ascii ']' :: rest) = some ([], ascii ']' :: rest) := by
  obtain ⟨fuel, rfl⟩ : ∃ n, fuel = n + 1 := ⟨fuel - 1, by omega⟩
  rw [scanDomains, skipWhitespace_cons (by decide)]
  rfl

/-- A round takes one domain. -/
theorem scanDomains_round {domain : Bytes} (h : domain ≠ []) (fuel : Nat) (behind : Bytes) :
    scanDomains (fuel + 1) (ascii ' ' :: (quoted domain ++ behind)) =
      (scanDomains fuel (skipByte (ascii ',') (skipWhitespace behind))).map fun scanned => (domain :: scanned.1, scanned.2) := by
  have hSkip : skipWhitespace (ascii ' ' :: (quoted domain ++ behind)) =
      ascii '"' :: (escapeJson domain ++ ascii '"' :: behind) := by
    rw [quoted_append]
    rfl
  have hString : parseJsonString (ascii '"' :: (escapeJson domain ++ ascii '"' :: behind)) = (domain, behind) :=
    scanString_escapeJson domain behind
  rw [scanDomains, hSkip]
  simp only [hString, if_neg (show ascii '"' ≠ ascii ']' by decide), if_neg h]
  cases scanDomains fuel (skipByte (ascii ',') (skipWhitespace behind)) <;> rfl

/-- The loop takes each domain that is not empty, up to the closing bracket. -/
theorem scanDomains_quoted {domain : Bytes} {domains : List Bytes} (h : ∀ d ∈ domain :: domains, d ≠ []) (rest : Bytes) {fuel : Nat}
    (hFuel : domains.length + 1 < fuel) :
    scanDomains fuel (ascii ' ' :: (quoted domain ++ (domainsBehind domains ++ ascii ']' :: rest))) =
      some (domain :: domains, ascii ']' :: rest) := by
  induction domains generalizing domain fuel with
  | nil =>
      obtain ⟨fuel, rfl⟩ : ∃ n, fuel = n + 1 := ⟨fuel - 1, by omega⟩
      have hBehind : skipByte (ascii ',') (skipWhitespace (domainsBehind [] ++ ascii ']' :: rest)) = ascii ']' :: rest := rfl
      rw [scanDomains_round (h domain List.mem_cons_self), hBehind, scanDomains_close (by rw [List.length_nil] at hFuel; omega)]
      rfl
  | cons next domains ih =>
      obtain ⟨fuel, rfl⟩ : ∃ n, fuel = n + 1 := ⟨fuel - 1, by omega⟩
      have hBehind : skipByte (ascii ',') (skipWhitespace (domainsBehind (next :: domains) ++ ascii ']' :: rest)) =
          ascii ' ' :: (quoted next ++ (domainsBehind domains ++ ascii ']' :: rest)) := by
        rw [domainsBehind, List.append_assoc, List.append_assoc]
        rfl
      have hLength : domains.length + 1 < fuel := by
        rw [List.length_cons] at hFuel
        omega
      rw [scanDomains_round (h domain List.mem_cons_self), hBehind, ih (fun d hd => h d (List.mem_cons_of_mem _ hd)) hLength]
      rfl

theorem parseDomains_quoted {domains : List Bytes} (h : ∀ d ∈ domains, d ≠ []) (rest : Bytes) {fuel : Nat}
    (hFuel : domains.length < fuel) :
    parseDomains fuel (ascii ' ' :: (bytes "[" ++ (bytes ", ").intercalate (domains.map quoted) ++ bytes "]" ++ rest)) =
      some (domains, rest) := by
  have hOpen : bytes "[" = [ascii '['] := rfl
  have hClose : bytes "]" = [ascii ']'] := rfl
  rw [hOpen, hClose]
  simp only [List.append_assoc, List.cons_append, List.nil_append]
  cases domains with
  | nil =>
      rw [parseDomains, skipWhitespace_space, skipWhitespace_cons (by decide)]
      simp only [if_true]
      rw [show (bytes ", ").intercalate (List.map quoted []) ++ ascii ']' :: rest = ascii ']' :: rest from rfl,
        scanDomains_close (by omega)]
      rfl
  | cons domain domains =>
      have hSpace (text : Bytes) : scanDomains fuel text = scanDomains fuel (ascii ' ' :: text) := by
        cases fuel with
        | zero => rfl
        | succ fuel => rw [scanDomains, scanDomains, skipWhitespace_space]
      rw [parseDomains, skipWhitespace_space, skipWhitespace_cons (by decide)]
      simp only [if_true]
      rw [intercalate_domains, hSpace, List.append_assoc, scanDomains_quoted h rest (by simpa using hFuel)]
      rfl

/-! ## Members -/

/-- A member as it is written, and what the reader sets from it. -/
structure Entry where
  key : String
  value : Bytes
  set : Metadata → Metadata

def Entry.text (entry : Entry) : Bytes := member entry.key entry.value

/-- The reader knows the key, and sets the entry's value from the text of it. -/
structure Entry.IsRead (entry : Entry) : Prop where
  known : bytes entry.key ∈ knownKeys
  reads : ∃ least, ∀ fuel ≥ least, ∀ old rest, EndsValue rest →
    setMember fuel (bytes entry.key) (ascii ' ' :: (entry.value ++ rest)) old = some (.ok (entry.set old, rest))

theorem isRead_text {key : String} (set : Metadata → Bytes → Metadata) (hKnown : bytes key ∈ knownKeys)
    (hSet : ∀ fuel text old, setMember fuel (bytes key) text old = setText text (set old)) (value : Bytes) :
    Entry.IsRead ⟨key, quoted value, fun old => set old value⟩ := by
  refine ⟨hKnown, 0, fun fuel _ old rest _ => ?_⟩
  rw [hSet, setText, parseJsonString_quoted]

theorem isRead_flag {key : String} (set : Metadata → Bool → Metadata) (hKnown : bytes key ∈ knownKeys)
    (hSet : ∀ fuel text old, setMember fuel (bytes key) text old = setFlag text (set old)) (value : Bool) :
    Entry.IsRead ⟨key, boolText value, fun old => set old value⟩ := by
  refine ⟨hKnown, 0, fun fuel _ old rest hRest => ?_⟩
  have hValue : decide (boolText value = bytes "true") = value := by
    cases value with
    | true => decide
    | false => decide
  rw [hSet, setFlag, parseJsonValue_boolText value hRest, hValue]

theorem isRead_int {key : String} (set : Metadata → Int32 → Metadata) (hKnown : bytes key ∈ knownKeys)
    (hSet : ∀ fuel text old, setMember fuel (bytes key) text old = setNumber text "stoi" stoi (set old)) (value : Int32) :
    Entry.IsRead ⟨key, decimalInt value.toInt, fun old => set old value⟩ := by
  refine ⟨hKnown, 0, fun fuel _ old rest hRest => ?_⟩
  rw [hSet, setNumber, parseJsonValue_decimalInt _ hRest]
  simp only [stoi_decimalInt]

theorem isRead_siteId (value : UInt64) :
    Entry.IsRead ⟨"site_id", quoted (decimal value.toNat), fun old => { old with siteId := value }⟩ := by
  refine ⟨show bytes "site_id" ∈ knownKeys by decide, 0, fun fuel _ old rest _ => ?_⟩
  have hSet (text : Bytes) : setMember fuel (bytes "site_id") text old =
      setNumber text "stoull" stoull fun n => { old with siteId := n } := rfl
  rw [hSet, setNumber, parseJsonValue_quoted]
  simp only [stoull_decimal]

theorem isRead_domains {domains : List Bytes} (h : ∀ d ∈ domains, d ≠ []) :
    Entry.IsRead ⟨"domains", bytes "[" ++ (bytes ", ").intercalate (domains.map quoted) ++ bytes "]",
      fun old => { old with domains := old.domains ++ domains }⟩ := by
  refine ⟨show bytes "domains" ∈ knownKeys by decide, domains.length + 1, fun fuel hFuel old rest _ => ?_⟩
  rw [setMember_domains, parseDomains_quoted h rest (by omega)]
  rfl

/-! ## The object -/

theorem knownKeys_plain : ∀ key ∈ knownKeys, escapeJson key = key ∧ key ≠ [] := by decide

/-- A round of the loop over the members reads one of them. -/
theorem readMembers_round {entry : Entry} (h : entry.IsRead) :
    ∃ least, ∀ fuel ≥ least, ∀ old parsedAny rest, EndsValue rest →
      readMembers (fuel + 1) (newline :: (entry.text ++ rest)) old parsedAny =
        readMembers fuel (skipByte (ascii ',') (skipWhitespace rest)) (entry.set old) true := by
  obtain ⟨hKnown, least, hReads⟩ := h
  obtain ⟨hPlain, hNe⟩ := knownKeys_plain _ hKnown
  refine ⟨least, fun fuel hFuel old parsedAny rest hRest => ?_⟩
  have hText : skipWhitespace (newline :: (entry.text ++ rest)) =
      ascii '"' :: (escapeJson (bytes entry.key) ++ ascii '"' :: (ascii ':' :: ascii ' ' :: (entry.value ++ rest))) := by
    have hOpen : bytes "    \"" = [ascii ' ', ascii ' ', ascii ' ', ascii ' ', ascii '"'] := rfl
    have hClose : bytes "\": " = [ascii '"', ascii ':', ascii ' '] := rfl
    rw [hPlain, Entry.text, member, hOpen, hClose]
    simp only [List.append_assoc, List.cons_append, List.nil_append]
    rfl
  have hKey : parseJsonString
      (ascii '"' :: (escapeJson (bytes entry.key) ++ ascii '"' :: (ascii ':' :: ascii ' ' :: (entry.value ++ rest)))) =
        (bytes entry.key, ascii ':' :: ascii ' ' :: (entry.value ++ rest)) := scanString_escapeJson _ _
  have hColon : skipByte (ascii ':') (skipWhitespace (ascii ':' :: ascii ' ' :: (entry.value ++ rest))) =
      ascii ' ' :: (entry.value ++ rest) := rfl
  rw [readMembers, hText]
  simp only [if_neg (show ascii '"' ≠ ascii '\x7d' by decide), hKey, hColon, if_neg hNe, hReads fuel hFuel old rest hRest,
    List.contains_iff_mem.mpr hKnown, Bool.or_true]

/-- The members behind the first one. -/
def entriesBehind : List Entry → Bytes
  | [] => []
  | entry :: entries => ascii ',' :: newline :: (entry.text ++ entriesBehind entries)

theorem intercalate_entries (entry : Entry) (entries : List Entry) :
    (bytes ",\n").intercalate ((entry :: entries).map Entry.text) = entry.text ++ entriesBehind entries := by
  have hComma : bytes ",\n" = [ascii ',', newline] := rfl
  induction entries generalizing entry with
  | nil => simp [entriesBehind, List.intercalate]
  | cons next entries ih =>
      rw [List.map_cons, List.map_cons, List.intercalate_cons_cons, ← List.map_cons, ih, entriesBehind, hComma]
      simp only [List.append_assoc, List.cons_append, List.nil_append]

theorem endsValue_behind (entries : List Entry) : EndsValue (entriesBehind entries ++ bytes "\n\x7d\n") := by
  cases entries with
  | nil => exact ⟨newline, rfl, by decide⟩
  | cons entry entries => exact ⟨ascii ',', rfl, by decide⟩

/-- The loop sets what the entries say, one after the other. -/
theorem readMembers_entries {entry : Entry} {entries : List Entry} (h : ∀ e ∈ entry :: entries, e.IsRead) :
    ∃ least, ∀ fuel ≥ least, ∀ old parsedAny,
      readMembers fuel (newline :: (entry.text ++ (entriesBehind entries ++ bytes "\n\x7d\n"))) old parsedAny =
        some (.ok ((entry :: entries).foldl (fun metadata e => e.set metadata) old, true)) := by
  induction entries generalizing entry with
  | nil =>
      obtain ⟨least, hRound⟩ := readMembers_round (h entry List.mem_cons_self)
      refine ⟨least + 2, fun fuel hFuel old parsedAny => ?_⟩
      obtain ⟨fuel, rfl⟩ : ∃ n, fuel = n + 2 := ⟨fuel - 2, by omega⟩
      have hBehind : skipByte (ascii ',') (skipWhitespace (entriesBehind [] ++ bytes "\n\x7d\n")) = [ascii '\x7d', newline] := rfl
      rw [hRound (fuel + 1) (by omega) old parsedAny _ (endsValue_behind []), hBehind, readMembers, skipWhitespace_cons (by decide)]
      rfl
  | cons next entries ih =>
      obtain ⟨least, hRound⟩ := readMembers_round (h entry List.mem_cons_self)
      obtain ⟨leastMore, hMore⟩ := ih fun e he => h e (List.mem_cons_of_mem _ he)
      refine ⟨max least leastMore + 1, fun fuel hFuel old parsedAny => ?_⟩
      obtain ⟨fuel, rfl⟩ : ∃ n, fuel = n + 1 := ⟨fuel - 1, by omega⟩
      have hBehind : skipByte (ascii ',') (skipWhitespace (entriesBehind (next :: entries) ++ bytes "\n\x7d\n")) =
          newline :: (next.text ++ (entriesBehind entries ++ bytes "\n\x7d\n")) := by
        rw [entriesBehind, List.cons_append, List.cons_append, List.append_assoc]
        rfl
      rw [hRound fuel (by omega) old parsedAny _ (endsValue_behind _), hBehind, hMore fuel (by omega)]
      rfl

/-- The members of some metadata, with what the reader is to set from each. -/
def entriesOf (m : Metadata) : List Entry :=
  [⟨"version", decimalInt m.version.toInt, fun old => { old with version := m.version }⟩,
    ⟨"site_id", quoted (decimal m.siteId.toNat), fun old => { old with siteId := m.siteId }⟩,
    ⟨"provider_id", quoted m.providerId, fun old => { old with providerId := m.providerId }⟩,
    ⟨"certificate_type", quoted m.certificateType, fun old => { old with certificateType := m.certificateType }⟩,
    ⟨"status", quoted m.status, fun old => { old with status := m.status }⟩,
    ⟨"domains", bytes "[" ++ (bytes ", ").intercalate (m.domains.map quoted) ++ bytes "]",
      fun old => { old with domains := old.domains ++ m.domains }⟩,
    ⟨"issued_at", quoted m.issuedAt, fun old => { old with issuedAt := m.issuedAt }⟩,
    ⟨"expires_at", quoted m.expiresAt, fun old => { old with expiresAt := m.expiresAt }⟩,
    ⟨"renew_after", quoted m.renewAfter, fun old => { old with renewAfter := m.renewAfter }⟩,
    ⟨"https_enabled", boolText m.httpsEnabled, fun old => { old with httpsEnabled := m.httpsEnabled }⟩,
    ⟨"redirect_enabled", boolText m.redirectEnabled, fun old => { old with redirectEnabled := m.redirectEnabled }⟩,
    ⟨"auto_renew", boolText m.autoRenew, fun old => { old with autoRenew := m.autoRenew }⟩,
    ⟨"challenge_type", quoted m.challengeType, fun old => { old with challengeType := m.challengeType }⟩,
    ⟨"last_validation", quoted m.lastValidation, fun old => { old with lastValidation := m.lastValidation }⟩,
    ⟨"last_error", quoted m.lastError, fun old => { old with lastError := m.lastError }⟩,
    ⟨"renew_attempts", decimalInt m.renewAttempts.toInt, fun old => { old with renewAttempts := m.renewAttempts }⟩,
    ⟨"fingerprint_sha256", quoted m.fingerprintSha256, fun old => { old with fingerprintSha256 := m.fingerprintSha256 }⟩,
    ⟨"serial_number", quoted m.serialNumber, fun old => { old with serialNumber := m.serialNumber }⟩,
    ⟨"issuer", quoted m.issuer, fun old => { old with issuer := m.issuer }⟩,
    ⟨"subject", quoted m.subject, fun old => { old with subject := m.subject }⟩,
    ⟨"environment", quoted m.environment, fun old => { old with environment := m.environment }⟩,
    ⟨"created_at", quoted m.createdAt, fun old => { old with createdAt := m.createdAt }⟩,
    ⟨"updated_at", quoted m.updatedAt, fun old => { old with updatedAt := m.updatedAt }⟩]

/-- The members set every field. -/
theorem foldl_entriesOf (m : Metadata) : (entriesOf m).foldl (fun old entry => entry.set old) {} = m := rfl

theorem isRead_entriesOf {m : Metadata} (h : ∀ d ∈ m.domains, d ≠ []) : ∀ entry ∈ entriesOf m, entry.IsRead := by
  simp only [entriesOf, List.forall_mem_cons]
  refine ⟨isRead_int (fun old v => { old with version := v }) (by decide) (fun _ _ _ => rfl) _, isRead_siteId _,
    isRead_text (fun old v => { old with providerId := v }) (by decide) (fun _ _ _ => rfl) _,
    isRead_text (fun old v => { old with certificateType := v }) (by decide) (fun _ _ _ => rfl) _,
    isRead_text (fun old v => { old with status := v }) (by decide) (fun _ _ _ => rfl) _, isRead_domains h,
    isRead_text (fun old v => { old with issuedAt := v }) (by decide) (fun _ _ _ => rfl) _,
    isRead_text (fun old v => { old with expiresAt := v }) (by decide) (fun _ _ _ => rfl) _,
    isRead_text (fun old v => { old with renewAfter := v }) (by decide) (fun _ _ _ => rfl) _,
    isRead_flag (fun old v => { old with httpsEnabled := v }) (by decide) (fun _ _ _ => rfl) _,
    isRead_flag (fun old v => { old with redirectEnabled := v }) (by decide) (fun _ _ _ => rfl) _,
    isRead_flag (fun old v => { old with autoRenew := v }) (by decide) (fun _ _ _ => rfl) _,
    isRead_text (fun old v => { old with challengeType := v }) (by decide) (fun _ _ _ => rfl) _,
    isRead_text (fun old v => { old with lastValidation := v }) (by decide) (fun _ _ _ => rfl) _,
    isRead_text (fun old v => { old with lastError := v }) (by decide) (fun _ _ _ => rfl) _,
    isRead_int (fun old v => { old with renewAttempts := v }) (by decide) (fun _ _ _ => rfl) _,
    isRead_text (fun old v => { old with fingerprintSha256 := v }) (by decide) (fun _ _ _ => rfl) _,
    isRead_text (fun old v => { old with serialNumber := v }) (by decide) (fun _ _ _ => rfl) _,
    isRead_text (fun old v => { old with issuer := v }) (by decide) (fun _ _ _ => rfl) _,
    isRead_text (fun old v => { old with subject := v }) (by decide) (fun _ _ _ => rfl) _,
    isRead_text (fun old v => { old with environment := v }) (by decide) (fun _ _ _ => rfl) _,
    isRead_text (fun old v => { old with createdAt := v }) (by decide) (fun _ _ _ => rfl) _,
    isRead_text (fun old v => { old with updatedAt := v }) (by decide) (fun _ _ _ => rfl) _, by simp⟩

/-- What is written for some metadata is read back as that metadata, unless one of the domains is
an empty text. -/
theorem metadataFromJson_metadataToJson (m : Metadata) (h : ∀ domain ∈ m.domains, domain ≠ []) :
    ∃ least, ∀ fuel ≥ least, metadataFromJson fuel (metadataToJson m) = some (.ok m) := by
  obtain ⟨entry, entries, hEntries⟩ := List.exists_cons_of_ne_nil (show entriesOf m ≠ [] from List.cons_ne_nil _ _)
  obtain ⟨least, hReads⟩ := @readMembers_entries entry entries (hEntries ▸ isRead_entriesOf h)
  refine ⟨least, fun fuel hFuel => ?_⟩
  have hText : metadataToJson m =
      ascii '\x7b' :: newline :: (entry.text ++ (entriesBehind entries ++ bytes "\n\x7d\n")) := by
    have hOpen : bytes "\x7b\n" = [ascii '\x7b', newline] := rfl
    have hMembers : metadataToJson m =
        bytes "\x7b\n" ++ (bytes ",\n").intercalate ((entriesOf m).map Entry.text) ++ bytes "\n\x7d\n" := rfl
    rw [hMembers, hEntries, intercalate_entries, hOpen]
    simp only [List.append_assoc, List.cons_append, List.nil_append]
  have hFields : (entry :: entries).foldl (fun old e => e.set old) {} = m := hEntries ▸ foldl_entriesOf m
  rw [metadataFromJson, hText, skipWhitespace_cons (by decide)]
  simp only [ne_eq, not_true_eq_false, if_false, hReads fuel hFuel, hFields, Option.map_some]
  rfl

/-- A domain that is not empty, with a text in another field that has to be escaped. -/
theorem metadataFromJson_metadataToJson_example :
    (∀ domain ∈ [bytes "example.org"], domain ≠ []) ∧ ∃ least, ∀ fuel ≥ least,
      metadataFromJson fuel (metadataToJson { domains := [bytes "example.org"], lastError := bytes "no \"A\" record\n" }) =
        some (.ok { domains := [bytes "example.org"], lastError := bytes "no \"A\" record\n" }) :=
  have hDomains : ∀ domain ∈ [bytes "example.org"], domain ≠ [] := by
    rintro domain hMem
    rw [List.mem_singleton.mp hMem]
    exact List.cons_ne_nil _ _
  ⟨hDomains, metadataFromJson_metadataToJson { domains := [bytes "example.org"], lastError := bytes "no \"A\" record\n" } hDomains⟩

end ContainerCP.Ssl
