import ContainerCP.Database.LifecycleService
import ContainerCP.Text.Decimal
import ContainerCP.Text.OptionFile

/-! How `MariaDBCredentialProvider` hands a password and a statement over to the client inside the
container: a script there cuts one bundle into an option file and the statement, and the client
reads the password from that file. -/
namespace ContainerCP.CredentialTransport

open OptionFile
open DatabaseLifecycle (passwordByte passwordSupported)

/-! ## Writing -/

def kMaxTransportValueLength : Nat := 256

def identityByte (c : UInt8) : Bool :=
  isAlnum c || [ascii '_', ascii '-', ascii '.', ascii '@', ascii '%', ascii ':', ascii '$'].contains c

def isSafeMariadbIdentityValue (value : Bytes) : Bool :=
  value ≠ [] && value.length ≤ kMaxTransportValueLength && value.all identityByte

def isSupportedMariadbPasswordValue (value : Bytes) : Bool :=
  value.length ≤ kMaxTransportValueLength && value.all passwordByte

def optionFileEscapeByte (c : UInt8) : Bytes :=
  if c = 8 then bytes "\\b"
  else if c = ascii '\t' then bytes "\\t"
  else if c = ascii '\n' then bytes "\\n"
  else if c = ascii '\r' then bytes "\\r"
  else if c = ascii ' ' then bytes "\\s"
  else if c = ascii '\\' then bytes "\\\\"
  else [c]

/-- `mariadb_option_file_escape`, and `option_file_escape` of `MariaDBProvider`. -/
def optionFileEscape (value : Bytes) : Bytes := value.flatMap optionFileEscapeByte

/-- The text of an option file, with the values as they are written in it. -/
def clientFile (user password host : Bytes) : Bytes :=
  bytes "[client]\nuser=" ++ user ++ bytes "\npassword=" ++ password ++ bytes "\nhost=" ++ host ++ bytes "\n"

/-- `defaults` in `defaults_bundle`. -/
def defaultsFile (user password host : Bytes) : Bytes :=
  clientFile (optionFileEscape user) (optionFileEscape password) (optionFileEscape host)

/-- `mariadb_service_account_option_file`, which takes the name of the user as it is. -/
def mariadbServiceAccountOptionFile (user password host : Bytes) : Bytes :=
  clientFile user (optionFileEscape password) (optionFileEscape host)

def frameMagic : Bytes := bytes "CONTAINERCP-MARIADB-FRAME-V1"

def frameBundle (defaults sql : Bytes) : Bytes :=
  frameMagic ++ bytes "\n" ++ decimal defaults.length ++ bytes "\n" ++ decimal sql.length ++ bytes "\n" ++ defaults ++ sql

def defaultsBundle (user password host sql : Bytes) : Bytes := frameBundle (defaultsFile user password host) sql

/-- The bundle that `execute_sql` writes, where it takes the values. -/
def transportBundle (user password host sql : Bytes) : Option Bytes :=
  if isSafeMariadbIdentityValue user && isSupportedMariadbPasswordValue password && isSafeMariadbIdentityValue host then
    some (defaultsBundle user password host sql)
  else none

/-! ## The script -/

/-- A count that the `case` of the script lets pass. -/
def readCount (line : Bytes) : Option Nat := if line ≠ [] ∧ line.all isDigit = true then some (digitsValue line) else none

/-- `build_container_script` up to the call of the client: what is in its two files. -/
def receive (input : Bytes) : Option (Bytes × Bytes) :=
  (cutAt newline input).bind fun (magic, rest) =>
    if magic = frameMagic then
      (cutAt newline rest).bind fun (confLen, rest) =>
        (cutAt newline rest).bind fun (sqlLen, rest) =>
          (readCount confLen).bind fun conf =>
            (readCount sqlLen).map fun sql => (rest.take conf, (rest.drop conf).take sql)
    else none

theorem readCount_decimal (n : Nat) : readCount (decimal n) = some n := by
  have hDigits : (decimal n).all isDigit = true := List.all_eq_true.mpr fun _ hMem => isDigit_of_mem_decimal hMem
  rw [readCount, if_pos ⟨decimal_ne_nil n, hDigits⟩, digitsValue_decimal]

theorem cutAt_line {line : Bytes} (h : newline ∉ line) (rest : Bytes) :
    cutAt newline (line ++ newline :: rest) = some (line, rest) := by
  rw [cutAt_append h, cutAt, if_pos rfl, Option.map_some, List.append_nil]

/-- The script cuts a bundle where it was put together. -/
theorem receive_frameBundle (defaults sql : Bytes) : receive (frameBundle defaults sql) = some (defaults, sql) := by
  have hLine : bytes "\n" = [newline] := rfl
  have hText : frameBundle defaults sql =
      frameMagic ++ newline :: (decimal defaults.length ++ newline :: (decimal sql.length ++ newline :: (defaults ++ sql))) := by
    rw [frameBundle, hLine]
    simp only [List.append_assoc, List.cons_append, List.nil_append]
  have hMagic : newline ∉ frameMagic := by decide
  have hDigits : ∀ n, newline ∉ decimal n := fun n => not_mem_decimal (by decide)
  rw [hText, receive, cutAt_line hMagic]
  simp only [Option.bind_some, if_true, cutAt_line (hDigits _), readCount_decimal, Option.map_some, List.take_left, List.drop_left,
    List.take_length]

/-! ## The option file -/

theorem spelling_optionFileEscapeByte (c : UInt8) : Spelling c (optionFileEscapeByte c) := by
  by_cases h : c ∈ [8, ascii '\t', ascii '\n', ascii '\r', ascii ' ', ascii '\\']
  · simp only [List.mem_cons, List.not_mem_nil, or_false] at h
    rcases h with rfl | rfl | rfl | rfl | rfl | rfl
    · exact .escaped (d := ascii 'b') (by decide)
    · exact .escaped (d := ascii 't') (by decide)
    · exact .escaped (d := ascii 'n') (by decide)
    · exact .escaped (d := ascii 'r') (by decide)
    · exact .escaped (d := ascii 's') (by decide)
    · exact .escaped (d := ascii '\\') (by decide)
  · simp only [List.mem_cons, List.not_mem_nil, or_false, not_or] at h
    obtain ⟨hBack, hTab, hLine, hReturn, hSpace, hEscape⟩ := h
    rw [optionFileEscapeByte, if_neg hBack, if_neg hTab, if_neg hLine, if_neg hReturn, if_neg hSpace, if_neg hEscape]
    exact .raw hEscape

theorem newline_notMem_optionFileEscape (value : Bytes) : newline ∉ optionFileEscape value := by
  intro hMem
  obtain ⟨c, -, hByte⟩ := List.mem_flatMap.mp hMem
  have hSpelled := spelling_optionFileEscapeByte c
  by_cases hC : c = newline
  · have hNot : newline ∉ optionFileEscapeByte newline := by decide
    exact hNot (hC ▸ hByte)
  · generalize optionFileEscapeByte c = piece at hSpelled hByte
    cases hSpelled with
    | raw _ => exact hC (List.mem_singleton.mp hByte).symm
    | @escaped d h =>
        obtain ⟨-, -, -, -, -, hSpace, -⟩ := escapes_spec _ h
        have hEscape : newline ≠ ascii '\\' := by decide
        have hD : newline = d := by simpa [hEscape] using hByte
        rw [← hD] at hSpace
        cases hSpace

theorem length_optionFileEscape_le (value : Bytes) : (optionFileEscape value).length ≤ 2 * value.length := by
  induction value with
  | nil => rfl
  | cons c rest ih =>
      have hPiece : (optionFileEscapeByte c).length ≤ 2 := by
        have hSpelled := spelling_optionFileEscapeByte c
        generalize optionFileEscapeByte c = piece at hSpelled
        cases hSpelled with
        | raw _ => exact Nat.le_succ 1
        | escaped _ => exact le_rfl
      have hSplit : optionFileEscape (c :: rest) = optionFileEscapeByte c ++ optionFileEscape rest := List.flatMap_cons
      rw [hSplit, List.length_append, List.length_cons]
      omega

section File

variable {isBlank : UInt8 → Bool} (hBlank : ∀ c < 128, isBlank c = isSpace c)

def clientLines (user password host : Bytes) : List Bytes :=
  [bytes "[client]", bytes "user" ++ ascii '=' :: user, bytes "password" ++ ascii '=' :: password, bytes "host" ++ ascii '=' :: host]

theorem getlines_clientFile {user password host : Bytes} (hUser : newline ∉ user) (hPassword : newline ∉ password)
    (hHost : newline ∉ host) : getlines newline (clientFile user password host) = clientLines user password host := by
  have hText : clientFile user password host = (clientLines user password host).flatMap (· ++ [newline]) := by
    have hFirst : bytes "[client]\nuser=" = bytes "[client]" ++ newline :: (bytes "user" ++ [ascii '=']) := rfl
    have hSecond : bytes "\npassword=" = newline :: (bytes "password" ++ [ascii '=']) := rfl
    have hThird : bytes "\nhost=" = newline :: (bytes "host" ++ [ascii '=']) := rfl
    have hEnd : bytes "\n" = [newline] := rfl
    rw [clientFile, hFirst, hSecond, hThird, hEnd, clientLines]
    simp only [List.flatMap_cons, List.flatMap_nil, List.append_assoc, List.cons_append, List.nil_append, List.append_nil]
  rw [hText]
  refine getlines_flatMap ?_
  have hNames : newline ∉ bytes "[client]" ∧ newline ∉ bytes "user" ∧ newline ∉ bytes "password" ∧ newline ∉ bytes "host" ∧
      newline ≠ ascii '=' := by decide
  rw [clientLines]
  simp only [List.forall_mem_cons]
  simp only [List.mem_append, List.mem_cons, not_or]
  exact ⟨hNames.1, ⟨hNames.2.1, hNames.2.2.2.2, hUser⟩, ⟨hNames.2.2.1, hNames.2.2.2.2, hPassword⟩,
    ⟨hNames.2.2.2.1, hNames.2.2.2.2, hHost⟩, by simp⟩

include hBlank in
theorem optionLine_named (name : String) (hName : ∀ c ∈ bytes name, isAlnum c = true) (hNe : bytes name ≠ []) (text : Bytes) :
    optionLine isBlank (bytes name ++ ascii '=' :: text) =
      .setting (bytes name) (some (optionValue isBlank (removeEndComment none false text))) :=
  optionLine_setting hBlank hName hNe text

include hBlank in
theorem settings_clientLines (user password host : Bytes) :
    settings isBlank none (clientLines user password host) =
      some [⟨bytes "client", bytes "user", some (optionValue isBlank (removeEndComment none false user))⟩,
        ⟨bytes "client", bytes "password", some (optionValue isBlank (removeEndComment none false password))⟩,
        ⟨bytes "client", bytes "host", some (optionValue isBlank (removeEndComment none false host))⟩] := by
  have hGroup : optionLine isBlank (bytes "[client]") = .group (bytes "client") :=
    @optionLine_group _ hBlank (bytes "client") (by decide)
  have hUser := optionLine_named hBlank "user" (by decide) (by decide) user
  have hPassword := optionLine_named hBlank "password" (by decide) (by decide) password
  have hHost := optionLine_named hBlank "host" (by decide) (by decide) host
  simp only [clientLines, settings, hGroup, hUser, hPassword, hHost, Option.map_some]

/-- What the client takes for its password. -/
def readPassword (isBlank : UInt8 → Bool) (file : Bytes) : Option Bytes := readOption isBlank (bytes "client") (bytes "password") file

include hBlank in
theorem readPassword_clientFile {user password host : Bytes} (hUser : newline ∉ user ∧ user.length ≤ 2048)
    (hPassword : newline ∉ password ∧ password.length ≤ 2048) (hHost : newline ∉ host ∧ host.length ≤ 2048) :
    readPassword isBlank (clientFile user password host) = some (optionValue isBlank (removeEndComment none false password)) := by
  have hLines := getlines_clientFile hUser.1 hPassword.1 hHost.1
  have hLengths : (clientLines user password host).all (·.length ≤ lineLimit) = true := by
    have hGroup : (bytes "[client]").length = 8 := rfl
    have hFirst : (bytes "user").length = 4 := rfl
    have hSecond : (bytes "password").length = 8 := rfl
    have hThird : (bytes "host").length = 4 := rfl
    simp only [clientLines, List.all_cons, List.all_nil, List.length_append, List.length_cons, hGroup, hFirst, hSecond, hThird, lineLimit,
      Bool.and_eq_true, decide_eq_true_eq]
    exact ⟨by omega, by omega, by omega, by omega, trivial⟩
  rw [readPassword, readOption, hLines, if_pos hLengths, settings_clientLines hBlank]
  rfl

/-! ## Passwords -/

/-- A password that the rules of the option file leave as it is: no `#` outside of quotes, no blank
of the reader at an end, which can be one beyond ASCII only, and no quotes around it. -/
structure Transportable (isBlank : UInt8 → Bool) (password : Bytes) : Prop where
  noComment : ¬HasComment none password
  noBlankFirst : ∀ c ∈ password.head?, 128 ≤ c → isBlank c = false
  noBlankLast : ∀ c ∈ password.getLast?, 128 ≤ c → isBlank c = false
  notQuoted : ¬Quoted password

include hBlank in
/-- Of the bytes of a password the writer leaves no blank as it is but one beyond ASCII. -/
theorem rawBlank_eq_false_iff {c : UInt8} (h : passwordByte c = true) :
    rawBlank isBlank optionFileEscapeByte c = false ↔ (128 ≤ c → isBlank c = false) := by
  by_cases hAscii : c < 128
  · refine iff_of_true ?_ fun hBeyond => absurd hAscii (UInt8.not_lt.mpr hBeyond)
    rw [rawBlank, hBlank c hAscii]
    cases hSpace : isSpace c with
    | false => rfl
    | true =>
        have hEscaped : c ∈ [ascii '\t', ascii '\n', ascii '\r', ascii ' '] := by
          simp [passwordByte, isSpace, UInt8.le_iff_toNat_le, UInt8.lt_iff_toNat_lt, ← UInt8.toNat_inj, ascii] at h hSpace ⊢
          omega
        have hTable : ∀ d ∈ [ascii '\t', ascii '\n', ascii '\r', ascii ' '], optionFileEscapeByte d ≠ [d] := by decide
        simpa using hTable c hEscaped
  · have hRaw : optionFileEscapeByte c = [c] := by
      have hTable : ∀ d ∈ [8, ascii '\t', ascii '\n', ascii '\r', ascii ' ', ascii '\\'], d < 128 := by decide
      have hOther : c ∉ [8, ascii '\t', ascii '\n', ascii '\r', ascii ' ', ascii '\\'] := fun hMem => hAscii (hTable c hMem)
      simp only [List.mem_cons, List.not_mem_nil, or_false, not_or] at hOther
      obtain ⟨hBack, hTab, hLine, hReturn, hSpace, hEscape⟩ := hOther
      rw [optionFileEscapeByte, if_neg hBack, if_neg hTab, if_neg hLine, if_neg hReturn, if_neg hSpace, if_neg hEscape]
    rw [rawBlank, hRaw]
    simp [UInt8.not_lt.mp hAscii]

include hBlank in
theorem kept_iff {password : Bytes} (h : password.all passwordByte = true) :
    Kept isBlank optionFileEscapeByte password ↔ Transportable isBlank password := by
  have hByte : ∀ c ∈ password, rawBlank isBlank optionFileEscapeByte c = false ↔ (128 ≤ c → isBlank c = false) :=
    fun c hMem => rawBlank_eq_false_iff hBlank (List.all_eq_true.mp h c hMem)
  have hFirst : ∀ c ∈ password.head?, c ∈ password := fun c hMem => List.mem_of_mem_head? hMem
  have hLast : ∀ c ∈ password.getLast?, c ∈ password := fun c hMem => List.mem_of_mem_getLast? hMem
  constructor
  · rintro ⟨hComment, hFront, hEnd, hQuoted⟩
    exact ⟨hComment, fun c hMem => (hByte c (hFirst c hMem)).mp (hFront c hMem),
      fun c hMem => (hByte c (hLast c hMem)).mp (hEnd c hMem), hQuoted⟩
  · rintro ⟨hComment, hFront, hEnd, hQuoted⟩
    exact ⟨hComment, fun c hMem => (hByte c (hFirst c hMem)).mpr (hFront c hMem),
      fun c hMem => (hByte c (hLast c hMem)).mpr (hEnd c hMem), hQuoted⟩

include hBlank in
/-- The client reads the password that the file was written for if that is one the rules leave. -/
theorem readPassword_eq_iff {user password host : Bytes} (hUser : newline ∉ user ∧ user.length ≤ 2048)
    (hPassword : isSupportedMariadbPasswordValue password = true) (hHost : newline ∉ host ∧ host.length ≤ 2048) :
    readPassword isBlank (clientFile user (optionFileEscape password) host) = some password ↔ Transportable isBlank password := by
  obtain ⟨hShort, hBytes⟩ := Bool.and_eq_true_iff.mp hPassword
  have hText : newline ∉ optionFileEscape password ∧ (optionFileEscape password).length ≤ 2048 := by
    have hLength := length_optionFileEscape_le password
    have hLimit : password.length ≤ 256 := of_decide_eq_true hShort
    exact ⟨newline_notMem_optionFileEscape password, by omega⟩
  rw [readPassword_clientFile hBlank hUser hText hHost, Option.some.injEq, optionFileEscape,
    optionValue_flatMap_eq_iff spelling_optionFileEscapeByte hBlank, kept_iff hBlank hBytes]

include hBlank in
/-- The same for the file of a service account, whose user name is written as it is. -/
theorem readPassword_serviceAccount_iff {user password host : Bytes} (hUser : newline ∉ user ∧ user.length ≤ 2048)
    (hPassword : passwordSupported password = true) (hHost : host.length ≤ 1024) :
    readPassword isBlank (mariadbServiceAccountOptionFile user password host) = some password ↔ Transportable isBlank password := by
  have hSupported : isSupportedMariadbPasswordValue password = true := by
    simp only [passwordSupported, Bool.and_eq_true] at hPassword
    simp only [isSupportedMariadbPasswordValue, kMaxTransportValueLength, Bool.and_eq_true]
    exact ⟨hPassword.1.2, hPassword.2⟩
  have hLength := length_optionFileEscape_le host
  exact readPassword_eq_iff hBlank hUser hSupported ⟨newline_notMem_optionFileEscape host, by omega⟩

end File

/-! ## The bundle -/

/-- A bundle hands over what was put into it: the script cuts it into the option file and the
statement, and the client reads the password from that file. -/
structure HandedOver (isBlank : UInt8 → Bool) (user password host sql bundle : Bytes) : Prop where
  split : receive bundle = some (defaultsFile user password host, sql)
  read : readPassword isBlank (defaultsFile user password host) = some password

theorem transportBundle_eq_some {user password host sql bundle : Bytes} (h : transportBundle user password host sql = some bundle) :
    isSafeMariadbIdentityValue user = true ∧ isSupportedMariadbPasswordValue password = true ∧
      isSafeMariadbIdentityValue host = true ∧ bundle = defaultsBundle user password host sql := by
  rw [transportBundle] at h
  split at h
  · next hTaken =>
    simp only [Bool.and_eq_true] at hTaken
    exact ⟨hTaken.1.1, hTaken.1.2, hTaken.2, (Option.some.inj h).symm⟩
  · cases h

theorem escaped_identity {value : Bytes} (h : isSafeMariadbIdentityValue value = true) :
    newline ∉ optionFileEscape value ∧ (optionFileEscape value).length ≤ 2048 := by
  simp only [isSafeMariadbIdentityValue, kMaxTransportValueLength, Bool.and_eq_true] at h
  have hLimit : value.length ≤ 256 := of_decide_eq_true h.1.2
  have hLength := length_optionFileEscape_le value
  exact ⟨newline_notMem_optionFileEscape value, by omega⟩

/-- A bundle hands over its password if that is one the rules of the option file leave. -/
theorem handedOver_iff {isBlank : UInt8 → Bool} (hBlank : ∀ c < 128, isBlank c = isSpace c) {user password host sql bundle : Bytes}
    (h : transportBundle user password host sql = some bundle) :
    HandedOver isBlank user password host sql bundle ↔ Transportable isBlank password := by
  obtain ⟨hUser, hPassword, hHost, rfl⟩ := transportBundle_eq_some h
  rw [← readPassword_eq_iff hBlank (escaped_identity hUser) hPassword (escaped_identity hHost)]
  exact ⟨HandedOver.read, fun hRead => ⟨receive_frameBundle _ _, hRead⟩⟩

/-- The blanks of the character set that the client reads option files in. -/
def latin1Blank (c : UInt8) : Bool := isSpace c || c = 0xa0

theorem latin1Blank_ascii : ∀ c < 128, latin1Blank c = isSpace c := by
  intro c hAscii
  have hOther : c ≠ 0xa0 := by
    rintro rfl
    exact absurd hAscii (by decide)
  simp [latin1Blank, hOther]

/-- A password with a blank and a backslash. -/
theorem handedOver_iff_sample : (∀ c < 128, latin1Blank c = isSpace c) ∧
    transportBundle (bytes "shop") (bytes "a b\\c") (bytes "localhost") (bytes "SELECT 1;") =
      some (defaultsBundle (bytes "shop") (bytes "a b\\c") (bytes "localhost") (bytes "SELECT 1;")) ∧
    (HandedOver latin1Blank (bytes "shop") (bytes "a b\\c") (bytes "localhost") (bytes "SELECT 1;")
        (defaultsBundle (bytes "shop") (bytes "a b\\c") (bytes "localhost") (bytes "SELECT 1;")) ↔
      Transportable latin1Blank (bytes "a b\\c")) :=
  have hBundle : transportBundle (bytes "shop") (bytes "a b\\c") (bytes "localhost") (bytes "SELECT 1;") =
      some (defaultsBundle (bytes "shop") (bytes "a b\\c") (bytes "localhost") (bytes "SELECT 1;")) := if_pos (by decide)
  ⟨latin1Blank_ascii, hBundle, handedOver_iff latin1Blank_ascii hBundle⟩

/-- The sign of a comment inside a password ends it. -/
theorem not_forall_handedOver : ¬∀ user password host sql bundle : Bytes,
    transportBundle user password host sql = some bundle → HandedOver latin1Blank user password host sql bundle := by
  intro h
  have hTaken := h (bytes "shop") (bytes "abc#def") (bytes "localhost") (bytes "SELECT 1;") _ (if_pos (by decide))
  have hUser : newline ∉ optionFileEscape (bytes "shop") ∧ (optionFileEscape (bytes "shop")).length ≤ 2048 := by decide
  have hPassword : newline ∉ optionFileEscape (bytes "abc#def") ∧ (optionFileEscape (bytes "abc#def")).length ≤ 2048 := by decide
  have hHost : newline ∉ optionFileEscape (bytes "localhost") ∧ (optionFileEscape (bytes "localhost")).length ≤ 2048 := by decide
  have hRead := hTaken.read
  rw [defaultsFile, readPassword_clientFile latin1Blank_ascii hUser hPassword hHost] at hRead
  exact absurd hRead (by decide)

end ContainerCP.CredentialTransport
