import ContainerCP.Text.Decimal
import ContainerCP.Text.Lines
import ContainerCP.Text.Streams
import Mathlib.Data.List.Nodup

/-! `MountInspector`: the lines of `/proc/self/mountinfo`, as the inspector reads
them. What a mount entry is and how the kernel writes it as a line is stated
behind the reader. -/
namespace ContainerCP.Access.MountInspector

inductive MountStatus where
  | ok
  | absent
  | targetMissing
  | permissionDenied
  | inspectionFailed
  | dependencyUnavailable
  deriving DecidableEq

structure MountState where
  mounted : Bool := false
  mountId : UInt64 := 0
  parentId : UInt64 := 0
  device : Bytes := []
  bindRoot : Bytes := []
  target : Bytes := []
  options : Bytes := []
  optionalFields : List Bytes := []
  fstype : Bytes := []
  source : Bytes := []
  superOptions : Bytes := []
  isBind : Bool := false
  status : MountStatus := .absent
  errorDetail : Bytes := []
  deriving DecidableEq

def space : UInt8 := ascii ' '

def backslash : UInt8 := ascii '\\'

/-- The byte that three digits behind a backslash stand for. -/
def escapeValue (digits : Bytes) : Option UInt8 :=
  if digits = bytes "040" then some space
  else if digits = bytes "011" then some (ascii '\t')
  else if digits = bytes "012" then some newline
  else if digits = bytes "134" then some backslash
  else none

/-- The value of the escape that starts at a byte, with the text behind the byte. -/
def escapeAt (c : UInt8) (rest : Bytes) : Option UInt8 :=
  if c = backslash then escapeValue (rest.take 3) else none

/-- The loop of `decode_mountinfo_escape`. The bytes that belong to the last escape
are passed over. -/
def decodeFrom : Nat → Bytes → Bytes
  | _, [] => []
  | skip + 1, _ :: rest => decodeFrom skip rest
  | 0, c :: rest =>
      match escapeAt c rest with
      | some value => value :: decodeFrom 3 rest
      | none => c :: decodeFrom 0 rest

def decodeMountinfoEscape (field : Bytes) : Bytes := decodeFrom 0 field

/-- The loop of `tokenize_mountinfo`. The bytes that belong to the last escape are
copied without a look at them. -/
def tokenizeFrom (cur : Bytes) : Nat → Bytes → List Bytes
  | _, [] => if cur = [] then [] else [cur]
  | skip + 1, c :: rest => tokenizeFrom (cur ++ [c]) skip rest
  | 0, c :: rest =>
      if (escapeAt c rest).isSome then tokenizeFrom (cur ++ [c]) 3 rest
      else if c = space then cur :: tokenizeFrom [] 0 rest
      else tokenizeFrom (cur ++ [c]) 0 rest

def tokenizeMountinfo (line : Bytes) : List Bytes := tokenizeFrom [] 0 line

/-- `strtoull` with base 10: the number, and whether it stopped at the end of the
text. A number that is too large becomes the largest one. -/
def strtoull (text : Bytes) : UInt64 × Bool :=
  match scanNumeral text with
  | none => (0, text.takeWhile (· ≠ 0) = [])
  | some numeral =>
      (if numeral.magnitude < 2 ^ 64 then numeral.toUInt64 else UInt64.ofNat (2 ^ 64 - 1), numeral.rest = [])

/-- The text between the fields before the separator and the ones behind it. -/
def separator : Bytes := bytes " - "

/-- `parse_mountinfo_line`. The fields that are read before an error stay in the
result. -/
def parseMountinfoLine (line targetFilter : Bytes) : MountState :=
  match cutAtText separator line with
  | none => { errorDetail := bytes "missing separator" }
  | some (beforeStr, afterStr) =>
      match tokenizeMountinfo beforeStr with
      | idText :: parentText :: device :: root :: mountPoint :: options :: optionalFields =>
          match tokenizeMountinfo afterStr with
          | fstype :: source :: first :: more =>
              let mountId := strtoull idText
              if !mountId.2 then { mountId := mountId.1, errorDetail := bytes "invalid mount_id" }
              else
                let parentId := strtoull parentText
                let s : MountState := { mountId := mountId.1, parentId := parentId.1 }
                if !parentId.2 then { s with errorDetail := bytes "invalid parent_id" }
                else
                  let bindRoot := decodeMountinfoEscape root
                  let target := decodeMountinfoEscape mountPoint
                  let s := { s with device := device, bindRoot := bindRoot }
                  if targetFilter ≠ [] ∧ target ≠ targetFilter then
                    { s with errorDetail := bytes "target mismatch" }
                  else
                    { s with
                      target := target
                      options := options
                      optionalFields := optionalFields
                      fstype := fstype
                      source := decodeMountinfoEscape source
                      superOptions := [space].intercalate (first :: more)
                      mounted := true
                      isBind := bindRoot ≠ bytes "/"
                      status := .ok }
          | _ => { errorDetail := bytes "too few fields after separator" }
      | _ => { errorDetail := bytes "too few fields before separator" }

def notFound : MountState := { errorDetail := bytes "target not found in mountinfo" }

/-- `parse_mountinfo`: the loop ends at the first line that gives a mount. -/
def parseMountinfo (content target : Bytes) : MountState :=
  match ((getlines newline content).map (parseMountinfoLine · target)).find? (·.status = .ok) with
  | some s => s
  | none => notFound

/-- `enumerate_mountinfo`. -/
def enumerateMountinfo (content rootPrefix : Bytes) : List MountState :=
  ((getlines newline content).map (parseMountinfoLine · [])).filter fun s =>
    s.status = .ok ∧ rootPrefix.isPrefixOf s.target = true

/-! ## Entries as lines -/

/-- What the kernel writes for a byte of a path or a source. -/
def escapeByte (c : UInt8) : Bytes :=
  if c = space then bytes "\\040"
  else if c = ascii '\t' then bytes "\\011"
  else if c = newline then bytes "\\012"
  else if c = backslash then bytes "\\134"
  else [c]

def escape (field : Bytes) : Bytes := field.flatMap escapeByte

/-- A field that is written as it is. -/
def IsField (text : Bytes) : Prop := text ≠ [] ∧ space ∉ text

instance (text : Bytes) : Decidable (IsField text) := inferInstanceAs (Decidable (_ ∧ _))

/-- A mount entry. The root, the mount point and the source are any bytes; the other
fields are such that a line of them can be read at all: they are not empty, only the
super options have spaces in them, and no field before the separator is a lone dash. -/
structure MountEntry where
  mountId : UInt64
  parentId : UInt64
  device : Bytes
  root : Bytes
  mountPoint : Bytes
  options : Bytes
  optionalFields : List Bytes
  fstype : Bytes
  source : Bytes
  superOptions : Bytes
  plain : ∀ field ∈ device :: options :: fstype :: optionalFields, IsField field
  noDash : bytes "-" ∉ device :: options :: optionalFields
  superNe : superOptions ≠ []
  superLast : superOptions.getLast? ≠ some space

def MountEntry.before (e : MountEntry) : List Bytes :=
  decimal e.mountId.toNat :: decimal e.parentId.toNat :: e.device :: escape e.root :: escape e.mountPoint ::
    e.options :: e.optionalFields

def MountEntry.behind (e : MountEntry) : List Bytes := [e.fstype, escape e.source, e.superOptions]

/-- The entry as a line of the table. -/
def MountEntry.line (e : MountEntry) : Bytes :=
  [space].intercalate e.before ++ (separator ++ [space].intercalate e.behind)

/-- What the inspector should say of the entry. -/
def MountEntry.state (e : MountEntry) : MountState where
  mounted := true
  mountId := e.mountId
  parentId := e.parentId
  device := e.device
  bindRoot := e.root
  target := e.mountPoint
  options := e.options
  optionalFields := e.optionalFields
  fstype := e.fstype
  source := e.source
  superOptions := e.superOptions
  isBind := e.root ≠ bytes "/"
  status := .ok

/-! ## Escapes -/

theorem escapeAt_of_ne {c : UInt8} (h : c ≠ backslash) (rest : Bytes) : escapeAt c rest = none := if_neg h

/-- An escape has no space among its digits. -/
theorem space_notMem_of_escapeValue {digits : Bytes} (h : (escapeValue digits).isSome = true) : space ∉ digits := by
  unfold escapeValue at h
  split_ifs at h with h1 h2 h3 h4
  · rw [h1]; decide
  · rw [h2]; decide
  · rw [h3]; decide
  · rw [h4]; decide
  · cases h

theorem space_notMem_of_escapeAt {c : UInt8} {rest : Bytes} (h : (escapeAt c rest).isSome = true) :
    c = backslash ∧ space ∉ rest.take 3 := by
  unfold escapeAt at h
  split_ifs at h with hBackslash
  · exact ⟨hBackslash, space_notMem_of_escapeValue h⟩
  · cases h

theorem decodeFrom_escapeByte (c : UInt8) (rest : Bytes) :
    decodeFrom 0 (escapeByte c ++ rest) = c :: decodeFrom 0 rest := by
  unfold escapeByte
  split_ifs with h1 h2 h3 h4
  · rw [h1]; rfl
  · rw [h2]; rfl
  · rw [h3]; rfl
  · rw [h4]; rfl
  · simp [decodeFrom, escapeAt_of_ne h4]

theorem decodeMountinfoEscape_escape (field : Bytes) : decodeMountinfoEscape (escape field) = field := by
  have hAll : ∀ rest, decodeFrom 0 (escape field ++ rest) = field ++ decodeFrom 0 rest := by
    intro rest
    induction field with
    | nil => rfl
    | cons c field ih =>
        rw [escape, List.flatMap_cons, List.append_assoc, decodeFrom_escapeByte]
        exact congrArg (c :: ·) ih
  simpa [decodeMountinfoEscape, decodeFrom] using hAll []

theorem space_notMem_escape (field : Bytes) : space ∉ escape field := by
  intro hMem
  obtain ⟨c, -, hByte⟩ := List.mem_flatMap.mp hMem
  unfold escapeByte at hByte
  split_ifs at hByte with h1 h2 h3 h4
  · exact absurd hByte (by decide)
  · exact absurd hByte (by decide)
  · exact absurd hByte (by decide)
  · exact absurd hByte (by decide)
  · exact h1 (List.mem_singleton.mp hByte).symm

/-- Only a dash is written as a dash. -/
theorem escape_eq_dash {field : Bytes} (h : escape field = bytes "-") : field = bytes "-" := by
  rw [← decodeMountinfoEscape_escape field, h]
  rfl

/-! ## Fields -/

/-- The escapes have no effect on where a line is cut. -/
theorem tokenizeFrom_eq (text cur : Bytes) (skip : Nat) (h : space ∉ text.take skip) :
    tokenizeFrom cur skip text = dropEmptyLast ((text.splitOn space).modifyHead (cur ++ ·)) := by
  induction text generalizing cur skip with
  | nil =>
      cases cur <;> simp [tokenizeFrom, dropEmptyLast]
  | cons c rest ih =>
      have hCopy : ∀ k, c ≠ space → space ∉ rest.take k →
          tokenizeFrom (cur ++ [c]) k rest =
            dropEmptyLast (((c :: rest).splitOn space).modifyHead (cur ++ ·)) := by
        intro k hOther hSkip
        rw [ih _ k hSkip, List.splitOn_cons_eq_if_modifyHead, if_neg (by simpa using hOther),
          List.modifyHead_modifyHead]
        simp [Function.comp_def]
      cases skip with
      | succ skip =>
          have hNot : ¬(space = c ∨ space ∈ rest.take skip) := by simpa using h
          rw [tokenizeFrom]
          exact hCopy skip (fun hEq => hNot (.inl hEq.symm)) fun hMem => hNot (.inr hMem)
      | zero =>
          rw [tokenizeFrom]
          split_ifs with hEscape hSpace
          · obtain ⟨rfl, hDigits⟩ := space_notMem_of_escapeAt hEscape
            exact hCopy 3 (by decide) hDigits
          · have hHead : ((rest.splitOn space).modifyHead fun piece => [] ++ piece) = rest.splitOn space := by
              cases rest.splitOn space <;> rfl
            rw [ih [] 0 (by simp), hHead, List.splitOn_cons_eq_if_modifyHead, if_pos (by simpa using hSpace),
              List.modifyHead_cons, List.append_nil, dropEmptyLast_cons _ (List.splitOn_ne_nil _ _)]
          · exact hCopy 0 hSpace (by simp)

theorem tokenizeMountinfo_eq (line : Bytes) : tokenizeMountinfo line = getlines space line := by
  have hHead : ((line.splitOn space).modifyHead fun piece => [] ++ piece) = line.splitOn space := by
    cases line.splitOn space <;> rfl
  rw [tokenizeMountinfo, tokenizeFrom_eq line [] 0 (by simp), hHead, getlines]

/-- Between two spaces a dash is a field of its own. -/
theorem eq_dash_of_front {field tail : Bytes} (hSpace : space ∉ field)
    (h : [ascii '-', space] <+: field ++ space :: tail) : field = bytes "-" := by
  cases field with
  | nil => exact absurd (List.cons_prefix_cons.mp h).1 (by decide)
  | cons c rest =>
      obtain ⟨rfl, hRest⟩ := List.cons_prefix_cons.mp h
      cases rest with
      | nil => rfl
      | cons d rest => exact absurd ((List.cons_prefix_cons.mp hRest).1 ▸ by simp) hSpace

/-- The separator is found behind fields of which none is a lone dash. -/
theorem cutAtText_fields {fields : List Bytes} (hNe : fields ≠ [])
    (hFields : ∀ field ∈ fields, space ∉ field ∧ field ≠ bytes "-") (behind : Bytes) :
    cutAtText separator ([space].intercalate fields ++ (separator ++ behind)) =
      some ([space].intercalate fields, behind) := by
  have hSeparator : separator = [space, ascii '-', space] := rfl
  induction fields with
  | nil => exact absurd rfl hNe
  | cons first rest ih =>
      obtain ⟨hSpace, -⟩ := hFields first List.mem_cons_self
      cases rest with
      | nil =>
          have hSelf := @cutAtText_self separator (by decide) behind
          have hJoin : [space].intercalate [first] = first := by simp [List.intercalate]
          rw [hJoin, hSeparator, cutAtText_append hSpace, ← hSeparator, hSelf]
          simp
      | cons second others =>
          obtain ⟨hSecondSpace, hDash⟩ := hFields second (by simp)
          have hRest := ih (List.cons_ne_nil _ _) fun field hField => hFields field (List.mem_cons_of_mem _ hField)
          have hJoin : [space].intercalate (first :: second :: others) =
              first ++ space :: [space].intercalate (second :: others) := by
            simp [List.intercalate]
          -- no separator starts here, as the next field is not a lone dash
          have hNot : ¬separator.isPrefixOf
              (space :: ([space].intercalate (second :: others) ++ (separator ++ behind))) = true := by
            obtain ⟨tail, hTail⟩ : ∃ tail,
                [space].intercalate (second :: others) ++ (separator ++ behind) = second ++ space :: tail := by
              cases others <;> simp [List.intercalate, hSeparator]
            rw [hTail, hSeparator, List.isPrefixOf_iff_prefix, List.cons_prefix_cons]
            exact fun hPrefix => hDash (eq_dash_of_front hSecondSpace hPrefix.2)
          rw [hJoin, List.append_assoc, hSeparator, cutAtText_append hSpace, ← hSeparator, List.cons_append,
            cutAtText, if_neg hNot, hRest]
          simp

/-! ## Reading an entry -/

theorem strtoull_decimal (v : UInt64) : strtoull (decimal v.toNat) = (v, true) := by
  have hBound : v.toNat < 2 ^ 64 := v.toNat_lt
  simp only [strtoull, scanNumeral_decimal, if_pos hBound, Numeral.toUInt64, Bool.false_eq_true, if_false,
    UInt64.ofNat_toNat, decide_true]

theorem MountEntry.before_fields (e : MountEntry) : ∀ field ∈ e.before, space ∉ field := by
  have hDigits : ∀ v : UInt64, space ∉ decimal v.toNat := fun v => not_mem_decimal (by decide)
  intro field hField
  simp only [before, List.mem_cons] at hField
  rcases hField with rfl | rfl | rfl | rfl | rfl | rfl | hOptional
  · exact hDigits _
  · exact hDigits _
  · exact (e.plain _ (by simp)).2
  · exact space_notMem_escape _
  · exact space_notMem_escape _
  · exact (e.plain _ (by simp)).2
  · exact (e.plain _ (by simp [hOptional])).2

theorem MountEntry.before_last (e : MountEntry) : e.before.getLast? ≠ some [] := by
  intro hLast
  have hMem : [] ∈ e.options :: e.optionalFields := by
    apply List.mem_of_getLast?
    simpa [before] using hLast
  rcases List.mem_cons.mp hMem with hOptions | hOptional
  · exact (e.plain e.options (by simp)).1 hOptions.symm
  · exact (e.plain [] (by simp [hOptional])).1 rfl

theorem MountEntry.tokenize_before (e : MountEntry) :
    tokenizeMountinfo ([space].intercalate e.before) = e.before := by
  have hNe : e.before ≠ [] := List.cons_ne_nil _ _
  rw [tokenizeMountinfo_eq, getlines_intercalate hNe e.before_fields, dropEmptyLast, if_neg e.before_last]

/-- The super options come in pieces, which are put together again. -/
theorem MountEntry.tokenize_behind (e : MountEntry) :
    ∃ first more, tokenizeMountinfo ([space].intercalate e.behind) = e.fstype :: escape e.source :: first :: more ∧
      [space].intercalate (first :: more) = e.superOptions := by
  obtain ⟨first, more, hPieces⟩ := List.exists_cons_of_ne_nil (List.splitOn_ne_nil space e.superOptions)
  have hJoined : [space].intercalate (first :: more) = e.superOptions := by
    rw [← hPieces]
    exact List.intercalate_splitOn space
  refine ⟨first, more, ?_, hJoined⟩
  have hText : [space].intercalate e.behind =
      [space].intercalate (e.fstype :: escape e.source :: first :: more) := by
    simp [behind, ← hJoined, List.intercalate]
  have hFields : ∀ field ∈ e.fstype :: escape e.source :: first :: more, space ∉ field := by
    intro field hField
    rcases List.mem_cons.mp hField with rfl | hField
    · exact (e.plain _ (by simp)).2
    rcases List.mem_cons.mp hField with rfl | hField
    · exact space_notMem_escape _
    · rw [← hPieces] at hField
      exact notMem_of_mem_splitOn hField
  have hLast : (e.fstype :: escape e.source :: first :: more).getLast? ≠ some [] := by
    rw [List.getLast?_cons_cons, List.getLast?_cons_cons, ← hPieces]
    exact splitOn_getLast e.superNe e.superLast
  rw [hText, tokenizeMountinfo_eq, getlines_intercalate (List.cons_ne_nil _ _) hFields, dropEmptyLast, if_neg hLast]

/-- What remains of an entry that is not asked for. -/
def MountEntry.mismatch (e : MountEntry) : MountState where
  mountId := e.mountId
  parentId := e.parentId
  device := e.device
  bindRoot := e.root
  errorDetail := bytes "target mismatch"

/-- The reader on the line of an entry with paths that are not a lone dash. -/
theorem parseMountinfoLine_line {e : MountEntry} (hRoot : e.root ≠ bytes "-") (hMount : e.mountPoint ≠ bytes "-")
    (targetFilter : Bytes) :
    parseMountinfoLine e.line targetFilter =
      if targetFilter ≠ [] ∧ e.mountPoint ≠ targetFilter then e.mismatch else e.state := by
  have hDigits : ∀ v : UInt64, decimal v.toNat ≠ bytes "-" := by
    intro v hDash
    have hMem : ascii '-' ∈ decimal v.toNat := by
      rw [hDash]
      decide
    exact not_mem_decimal (by decide) hMem
  have hFields : ∀ field ∈ e.before, space ∉ field ∧ field ≠ bytes "-" := by
    intro field hField
    refine ⟨e.before_fields field hField, fun hDash => ?_⟩
    simp only [MountEntry.before, List.mem_cons] at hField
    have hNoDash := e.noDash
    rw [← hDash] at hNoDash
    rcases hField with rfl | rfl | rfl | rfl | rfl | rfl | hOptional
    · exact hDigits _ hDash
    · exact hDigits _ hDash
    · exact hNoDash (by simp)
    · exact hRoot (escape_eq_dash hDash)
    · exact hMount (escape_eq_dash hDash)
    · exact hNoDash (by simp)
    · exact hNoDash (by simp [hOptional])
  have hCut : cutAtText separator e.line = some ([space].intercalate e.before, [space].intercalate e.behind) :=
    cutAtText_fields (List.cons_ne_nil _ _) hFields _
  obtain ⟨first, more, hBehind, hSuper⟩ := e.tokenize_behind
  have hBefore := e.tokenize_before
  simp only [parseMountinfoLine, hCut, hBefore, hBehind]
  simp only [MountEntry.before, strtoull_decimal, Bool.not_true, Bool.false_eq_true, if_false,
    decodeMountinfoEscape_escape, hSuper]
  rfl

/-- A line of the table is read as the entry that it was written for, if neither of
its two paths is a lone dash: with every field for the filter that asks for its
mount point and for none, and as absent for any other filter. -/
theorem parseMountinfoLine_entry {e : MountEntry} (hRoot : e.root ≠ bytes "-")
    (hMount : e.mountPoint ≠ bytes "-") (targetFilter : Bytes) :
    (targetFilter = e.mountPoint ∨ targetFilter = [] → parseMountinfoLine e.line targetFilter = e.state) ∧
    (targetFilter ≠ e.mountPoint → targetFilter ≠ [] →
      (parseMountinfoLine e.line targetFilter).status = .absent) := by
  rw [parseMountinfoLine_line hRoot hMount]
  constructor
  · rintro (rfl | rfl)
    · exact if_neg fun h => h.2 rfl
    · exact if_neg fun h => h.1 rfl
  · intro hOther hSome
    rw [if_pos ⟨hSome, Ne.symm hOther⟩]
    rfl

/-- An entry whose two paths are given. -/
def sampleEntry (mountId : UInt64) (root mountPoint : Bytes) : MountEntry where
  mountId := mountId
  parentId := 25
  device := bytes "8:1"
  root := root
  mountPoint := mountPoint
  options := bytes "rw"
  optionalFields := [bytes "shared:1"]
  fstype := bytes "ext4"
  source := bytes "/dev/sda 1"
  superOptions := bytes "rw"
  plain := by simp only [List.forall_mem_cons]; exact ⟨by decide, by decide, by decide, by decide, by simp⟩
  noDash := by decide
  superNe := by decide
  superLast := by decide

theorem parseMountinfoLine_entry_sample :
    let e := sampleEntry 36 (bytes "/a b") (bytes "/srv/\\040")
    (bytes "/srv/\\040" = e.mountPoint ∨ bytes "/srv/\\040" = [] →
      parseMountinfoLine e.line (bytes "/srv/\\040") = e.state) ∧
    (bytes "/srv/\\040" ≠ e.mountPoint → bytes "/srv/\\040" ≠ [] →
      (parseMountinfoLine e.line (bytes "/srv/\\040")).status = .absent) :=
  @parseMountinfoLine_entry (sampleEntry 36 (bytes "/a b") (bytes "/srv/\\040")) (by decide) (by decide)
    (bytes "/srv/\\040")

/-- An entry whose root is a lone dash is cut at its root. -/
theorem parseMountinfoLine_dash :
    (parseMountinfoLine (sampleEntry 36 (bytes "-") (bytes "/srv")).line []).status = .absent := by
  decide +kernel

/-! ## Which mount is found -/

/-- The entry of a line is not given to those who ask for another mount point. -/
def Asked (target : Bytes) (s : MountState) : Prop := s.status = .ok → target = [] ∨ s.target = target

instance (target : Bytes) : DecidablePred (Asked target) := fun _ => inferInstanceAs (Decidable (_ → _))

theorem parseMountinfoLine_filter (line target : Bytes) :
    (Asked target (parseMountinfoLine line []) → parseMountinfoLine line target = parseMountinfoLine line []) ∧
    (¬Asked target (parseMountinfoLine line []) → (parseMountinfoLine line target).status = .absent) := by
  unfold Asked
  cases hCut : cutAtText separator line with
  | none => simp [parseMountinfoLine, hCut]
  | some cut =>
      rcases hBefore : tokenizeMountinfo cut.1 with
        _ | ⟨idText, _ | ⟨parentText, _ | ⟨device, _ | ⟨root, _ | ⟨mountPoint, _ | ⟨options, optionalFields⟩⟩⟩⟩⟩⟩
      case cons.cons.cons.cons.cons.cons =>
        rcases hBehind : tokenizeMountinfo cut.2 with _ | ⟨fstype, _ | ⟨source, _ | ⟨first, more⟩⟩⟩
        case cons.cons.cons =>
          by_cases hId : (strtoull idText).2 = true
          · by_cases hParent : (strtoull parentText).2 = true
            · by_cases hOther : target ≠ [] ∧ decodeMountinfoEscape mountPoint ≠ target
              · simp [parseMountinfoLine, hCut, hBefore, hBehind, hId, hParent, hOther]
              · have hSame : target = [] ∨ decodeMountinfoEscape mountPoint = target := by tauto
                simp [parseMountinfoLine, hCut, hBefore, hBehind, hId, hParent, hOther, hSame]
            · simp [parseMountinfoLine, hCut, hBefore, hBehind, hId, hParent]
          · simp [parseMountinfoLine, hCut, hBefore, hBehind, hId]
        all_goals simp [parseMountinfoLine, hCut, hBefore, hBehind]
      all_goals simp [parseMountinfoLine, hCut, hBefore]

/-- The well-formed entries of the table. -/
def entries (content : Bytes) : List MountState :=
  ((getlines newline content).map (parseMountinfoLine · [])).filter (·.status = .ok)

/-- The entries with the mount point, the topmost one last. -/
def mountsAt (content target : Bytes) : List MountState := (entries content).filter (·.target = target)

/-- The loop gives the first entry that the filter lets through. -/
theorem parseMountinfo_eq (content target : Bytes) :
    parseMountinfo content target =
      ((entries content).filter fun s => target = [] ∨ s.target = target).head?.getD notFound := by
  have hLines : ∀ lines : List Bytes,
      (lines.map (parseMountinfoLine · target)).find? (·.status = .ok) =
        (((lines.map (parseMountinfoLine · [])).filter (·.status = .ok)).filter fun s =>
          target = [] ∨ s.target = target).head? := by
    intro lines
    induction lines with
    | nil => rfl
    | cons line rest ih =>
        obtain ⟨hGiven, hMissed⟩ := parseMountinfoLine_filter line target
        rw [List.map_cons, List.map_cons, List.find?_cons, List.filter_cons]
        by_cases hAsked : Asked target (parseMountinfoLine line [])
        · rw [hGiven hAsked]
          by_cases hOk : (parseMountinfoLine line []).status = .ok
          · simp [hOk, hAsked hOk]
          · simp [hOk, ih]
        · have hOther : (parseMountinfoLine line []).status = .ok ∧
              ¬(target = [] ∨ (parseMountinfoLine line []).target = target) := by
            simpa [Asked] using hAsked
          simp [hMissed hAsked, hOther, ih]
  rw [parseMountinfo, hLines, ← entries]
  cases ((entries content).filter fun s => target = [] ∨ s.target = target).head? <;> rfl

/-- The first entry that is found is the last one at the target. Where every entry
has its own mount number and a target is asked for, that is a target without a mount
on top of another. -/
def FirstIsLast (content target : Bytes) : Prop :=
  (if target = [] then entries content else mountsAt content target).head? = (mountsAt content target).getLast?

theorem status_of_mem_entries {content : Bytes} {s : MountState} (h : s ∈ entries content) : s.status = .ok := by
  simpa using (List.mem_filter.mp h).2

/-- What is found is the topmost mount at the target, and nothing exactly when
nothing is mounted there, if and only if the first entry is the last one. -/
theorem parseMountinfo_iff_firstIsLast (content target : Bytes) :
    ((∀ s, (mountsAt content target).getLast? = some s → parseMountinfo content target = s) ∧
      ((parseMountinfo content target).status = .absent ↔ mountsAt content target = [])) ↔
    FirstIsLast content target := by
  have hSearched : ((entries content).filter fun s => target = [] ∨ s.target = target) =
      if target = [] then entries content else mountsAt content target := by
    split_ifs with hTarget <;> simp [hTarget, mountsAt]
  have hFoundOk : ∀ s, ((entries content).filter fun s => target = [] ∨ s.target = target).head? = some s →
      s.status = .ok := fun s hs => status_of_mem_entries (List.mem_filter.mp (List.mem_of_head? hs)).1
  have hTopOk : ∀ s, (mountsAt content target).getLast? = some s → s.status = .ok :=
    fun s hs => status_of_mem_entries (List.mem_filter.mp (List.mem_of_getLast? hs)).1
  rw [FirstIsLast, ← hSearched, parseMountinfo_eq]
  cases hFound : ((entries content).filter fun s => target = [] ∨ s.target = target).head? with
  | none =>
      cases hTop : (mountsAt content target).getLast? with
      | none => simp [notFound, List.getLast?_eq_none_iff.mp hTop]
      | some top =>
          have hNe : mountsAt content target ≠ [] := by
            rintro hNil
            simp [hNil] at hTop
          simp [notFound, hNe]
  | some first =>
      have hFirst := hFoundOk first hFound
      cases hTop : (mountsAt content target).getLast? with
      | none => simp [hFirst, List.getLast?_eq_none_iff.mp hTop]
      | some top =>
          have hNe : mountsAt content target ≠ [] := by
            rintro hNil
            simp [hNil] at hTop
          simp [hFirst, hNe]

/-- Where the mount numbers differ, the topmost mount is found only if it is alone at
its target. -/
theorem firstIsLast_iff_of_nodup {content target : Bytes} (hTarget : target ≠ [])
    (h : ((entries content).map (·.mountId)).Nodup) :
    FirstIsLast content target ↔ (mountsAt content target).length ≤ 1 := by
  have hNodup : (mountsAt content target).Nodup :=
    (List.Nodup.of_map _ h).filter _
  rw [FirstIsLast, if_neg hTarget]
  cases hMounts : mountsAt content target with
  | nil => simp
  | cons first rest =>
      rw [hMounts] at hNodup
      cases rest with
      | nil => simp
      | cons second rest =>
          have hLast : (first :: second :: rest).getLast? ≠ some first := by
            rw [List.getLast?_cons_cons]
            exact fun hSame => (List.nodup_cons.mp hNodup).1 (List.mem_of_getLast? hSame)
          have hOther := Ne.symm hLast
          simpa using hOther

/-- Two mounts on one mount point, the second on top. -/
def stacked : Bytes :=
  [sampleEntry 36 (bytes "/a") (bytes "/srv"), sampleEntry 41 (bytes "/b") (bytes "/srv")].flatMap
    (·.line ++ [newline])

theorem parseMountinfo_stacked :
    mountsAt stacked (bytes "/srv") =
      [(sampleEntry 36 (bytes "/a") (bytes "/srv")).state, (sampleEntry 41 (bytes "/b") (bytes "/srv")).state] ∧
    parseMountinfo stacked (bytes "/srv") = (sampleEntry 36 (bytes "/a") (bytes "/srv")).state := by
  have hLines : getlines newline stacked =
      [(sampleEntry 36 (bytes "/a") (bytes "/srv")).line, (sampleEntry 41 (bytes "/b") (bytes "/srv")).line] := by
    have hPlain : ∀ line ∈ [(sampleEntry 36 (bytes "/a") (bytes "/srv")).line,
        (sampleEntry 41 (bytes "/b") (bytes "/srv")).line], newline ∉ line := by
      simp only [List.forall_mem_cons]
      exact ⟨by decide +kernel, by decide +kernel, by simp⟩
    exact getlines_flatMap hPlain
  have hRead : ∀ (mountId : UInt64) (root : Bytes), root ≠ bytes "-" → ∀ targetFilter,
      parseMountinfoLine (sampleEntry mountId root (bytes "/srv")).line targetFilter =
        if targetFilter ≠ [] ∧ bytes "/srv" ≠ targetFilter then (sampleEntry mountId root (bytes "/srv")).mismatch
        else (sampleEntry mountId root (bytes "/srv")).state :=
    fun mountId root hRoot => @parseMountinfoLine_line (sampleEntry mountId root (bytes "/srv")) hRoot
      (show bytes "/srv" ≠ bytes "-" by decide)
  constructor
  · simp only [mountsAt, entries, hLines, List.map_cons, List.map_nil, hRead 36 (bytes "/a") (by decide),
      hRead 41 (bytes "/b") (by decide)]
    rfl
  · simp only [parseMountinfo, hLines, List.map_cons, List.map_nil, hRead 36 (bytes "/a") (by decide)]
    rfl

end ContainerCP.Access.MountInspector
