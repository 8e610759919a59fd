import ContainerCP.Posix.NameQuoting
import ContainerCP.Text.Decimal
import ContainerCP.Text.LineSearch
import Mathlib.Data.List.DropRight

/-! The check of an archive before it is unpacked, which reads the listing that `tar` prints
of its members, and what it does not see. -/
namespace ContainerCP.Migration

open Posix (parent NameQuoting IsAbsolute HasParent)

/-! ## `validate_inner_tar_verbose` -/

def blank : UInt8 := ascii ' '

def arrow : Bytes := bytes " -> "

/-- The part of a text behind its last blank. -/
def lastWord (text : Bytes) : Bytes := text.rtakeWhile (· ≠ blank)

def trimBlanks (text : Bytes) : Bytes := text.rdropWhile (· = blank)

/-- A path without one slash at its end. -/
def dropSlash (path : Bytes) : Bytes := if path.getLast? = some Posix.slash then path.dropLast else path

/-- The target of a symbolic link that the check refuses, with the kind of the fault. -/
def targetFault (target : Bytes) : Option Bytes :=
  if target = [] then some (bytes "empty target")
  else if target.head? = some Posix.slash then some (bytes "absolute target")
  else if parent ∈ getlines Posix.slash target then some (bytes "parent reference")
  else none

/-- The first letter of the permissions. -/
def lineType (line : Bytes) : UInt8 := if 1 < line.length ∧ line.head? ≠ some blank then line.headD blank else blank

/-- The last word in front of the first arrow. -/
def linePath (line : Bytes) : Bytes :=
  dropSlash (lastWord (match cutAtText arrow line with
    | some (front, _) => trimBlanks front
    | none => line))

/-- What stands behind the first arrow. -/
def lineTarget (line : Bytes) : Bytes :=
  match cutAtText arrow line with
  | some (_, behind) => behind
  | none => []

/-- The error for an entry with this type, path and target. -/
def entryError (line : Bytes) (type : UInt8) (entryPath symlinkTarget : Bytes) : Option Bytes :=
  if type = ascii 'b' ∨ type = ascii 'c' then some (bytes "Archive contains device entry: " ++ line)
  else if type = ascii 'p' then some (bytes "Archive contains FIFO entry: " ++ line)
  else if type = ascii 's' then some (bytes "Archive contains socket entry: " ++ line)
  else if entryPath = [] then none
  else if entryPath.head? = some Posix.slash then some (bytes "Archive contains absolute path: " ++ entryPath)
  else if parent ∈ getlines Posix.slash entryPath then some (bytes "Archive contains parent directory reference: " ++ entryPath)
  else if type = ascii 'l' then
    (targetFault symlinkTarget).map fun fault =>
      bytes "Archive contains symlink with " ++ fault ++ bytes ": " ++ entryPath ++
        (if symlinkTarget = [] then [] else arrow ++ symlinkTarget)
  else none

/-- The error for a line of the listing. Nothing stands for a line that passes. -/
def lineError (line : Bytes) : Option Bytes :=
  if line = [] then none else entryError line (lineType line) (linePath line) (lineTarget line)

/-- `validate_inner_tar_verbose` on what `tar` answers: the error that it adds, if there is one. -/
def validateInnerTarVerbose (exitCode : Int) (out : Bytes) : Option Bytes :=
  if exitCode ≠ 0 then some (bytes "Cannot list archive") else (getlines newline out).findSome? lineError

/-! ## The listing -/

/-- The kinds of members of an archive. A volume header and a continued file have a note
behind the name, and so has a kind that `tar` does not know. -/
inductive MemberType where
  | regular
  | directory
  | contiguous
  | symlink
  | hardLink
  | blockDevice
  | charDevice
  | fifo
  | volumeHeader
  | continued (offset : Nat)
  | unknown (flag : UInt8)
  deriving DecidableEq

/-- The first letter of the permissions. -/
def MemberType.letter : MemberType → UInt8
  | regular => ascii '-'
  | directory => ascii 'd'
  | contiguous => ascii 'C'
  | symlink => ascii 'l'
  | hardLink => ascii 'h'
  | blockDevice => ascii 'b'
  | charDevice => ascii 'c'
  | fifo => ascii 'p'
  | volumeHeader => ascii 'V'
  | continued _ => ascii 'M'
  | unknown _ => ascii '?'

/-- A member of an archive. In front of its name the listing has the permissions, the owner and
the group as they are in the archive, the size, the date and the time in `columns`. -/
structure TarMember where
  type : MemberType
  columns : Bytes
  name : Bytes
  target : Bytes := []

/-- What `tar` shows of the target of a hard link: the part behind the last parent directory,
without slashes in front. -/
def saferNameSuffix (target : Bytes) : Bytes :=
  match ((target.splitOn Posix.slash).rtakeWhile (· ≠ parent)).dropWhile (· = []) with
  | [] => bytes "."
  | parts => [Posix.slash].intercalate parts

namespace TarMember

variable (quoting : NameQuoting) (m : TarMember)

/-- What stands behind the name. -/
def note : Bytes :=
  match m.type with
  | .symlink => arrow ++ quoting.quote m.target
  | .hardLink => bytes " link to " ++ quoting.quote (saferNameSuffix m.target)
  | .volumeHeader => bytes "--Volume Header--"
  | .continued offset => bytes "--Continued at byte " ++ decimal offset ++ bytes "--"
  | .unknown flag => bytes " unknown file type " ++ quoting.quote [flag]
  | _ => []

/-- The name with its note. -/
def shown : Bytes := quoting.quote m.name ++ m.note quoting

/-- What stands in front of the blank before the name. -/
def front : Bytes := m.type.letter :: m.columns

/-- What `tar -tv` prints of a member; a name of the owner may have a line break in it. -/
def line : Bytes := m.front ++ blank :: m.shown quoting

/-- A member is safe to unpack: it is no device and no FIFO, neither its name nor, for a link,
the target leads out of the directory. -/
structure Safe : Prop where
  type : m.type ≠ .blockDevice ∧ m.type ≠ .charDevice ∧ m.type ≠ .fifo
  name : ¬IsAbsolute m.name ∧ ¬HasParent m.name
  target : m.type = .symlink ∨ m.type = .hardLink → ¬IsAbsolute m.target ∧ ¬HasParent m.target

end TarMember

/-- The listing of an archive. -/
def listing (quoting : NameQuoting) (members : List TarMember) : Bytes := unlines (members.map (·.line quoting))

/-! ## What the check sees of a member -/

/-- A line that names a device, a FIFO or a socket, whose last word in front of the first arrow
leads out of the directory, or which is of a symbolic link with such a word and has nothing
behind the arrow, or a text that leads out. -/
def Refused (line : Bytes) : Prop :=
  lineType line ∈ bytes "bcps" ∨ IsAbsolute (linePath line) ∨ HasParent (linePath line) ∨
    lineType line = ascii 'l' ∧ linePath line ≠ [] ∧
      (lineTarget line = [] ∨ IsAbsolute (lineTarget line) ∨ HasParent (lineTarget line))

/-- A line that is printed of the member is refused. -/
def TarMember.Caught (quoting : NameQuoting) (m : TarMember) : Prop :=
  ∃ line ∈ (m.line quoting).splitOn newline, line ≠ [] ∧ Refused line

section Words

/-- An arrow is not found in a text without its head, nor across a blank behind it. -/
theorem cutAtText_arrow {front : Bytes} (h : ascii '>' ∉ front) (rest : Bytes) :
    cutAtText arrow (front ++ blank :: rest) =
      (cutAtText arrow (blank :: rest)).map fun cut => (front ++ cut.1, cut.2) := by
  induction front with
  | nil => simp
  | cons c front ih =>
      have hFront : ascii '>' ∉ front := fun hMem => h (List.mem_cons_of_mem _ hMem)
      have hNot : ¬arrow <+: c :: (front ++ blank :: rest) := by
        intro hPrefix
        obtain ⟨-, hTail⟩ := List.cons_prefix_cons.mp (show blank :: bytes "-> " <+: _ from hPrefix)
        match front with
        | [] => exact absurd (List.cons_prefix_cons.mp (show ascii '-' :: bytes "> " <+: blank :: rest from hTail)).1 (by decide)
        | [d] =>
            have hHead := (List.cons_prefix_cons.mp (show ascii '-' :: bytes "> " <+: _ from hTail)).2
            exact absurd (List.cons_prefix_cons.mp (show ascii '>' :: bytes " " <+: blank :: rest from hHead)).1 (by decide)
        | d :: e :: more =>
            have hHead := (List.cons_prefix_cons.mp (show ascii '-' :: bytes "> " <+: _ from hTail)).2
            have hEq := (List.cons_prefix_cons.mp (show ascii '>' :: bytes " " <+: e :: (more ++ blank :: rest) from hHead)).1
            exact hFront (hEq ▸ List.mem_cons_of_mem _ List.mem_cons_self)
      rw [List.cons_append, cutAtText, if_neg (by simpa using hNot), ih hFront, Option.map_map]
      rfl

theorem lastWord_append_blank (front rest : Bytes) : lastWord (front ++ blank :: rest) = lastWord rest := by
  have hStop : ∀ text behind : Bytes, (text ++ blank :: behind).takeWhile (· ≠ blank) = text.takeWhile (· ≠ blank) := by
    intro text behind
    induction text with
    | nil => simp
    | cons c text ih =>
        rw [List.cons_append, List.takeWhile_cons, List.takeWhile_cons, ih]
  rw [lastWord, lastWord, List.rtakeWhile, List.rtakeWhile, List.reverse_append, List.reverse_cons, List.append_assoc,
    List.singleton_append, hStop]

theorem lastWord_of_notMem {text : Bytes} (h : blank ∉ text) : lastWord text = text := by
  rw [lastWord, List.rtakeWhile_eq_self_iff]
  intro c hMem
  simpa using ne_of_mem_of_not_mem hMem h

/-- The components of a path, a `std::getline` at a time, have the same parents. -/
theorem parent_mem_getlines (path : Bytes) : parent ∈ getlines Posix.slash path ↔ HasParent path := by
  rw [getlines, dropEmptyLast, HasParent]
  split
  · next hLast =>
    obtain ⟨front, hFront⟩ := List.getLast?_eq_some_iff.mp hLast
    rw [hFront, List.dropLast_concat, List.mem_append]
    have hNe : parent ≠ [] := by decide
    simp [hNe]
  · rfl

end Words

/-! ## A line of the listing -/

section Line

/-- An entry passes with a type that may pass, and with a path and a target that do not lead
out, or with no path. -/
theorem entryError_eq_none (line : Bytes) (type : UInt8) (entryPath symlinkTarget : Bytes) :
    entryError line type entryPath symlinkTarget = none ↔
      ¬(type ∈ bytes "bcps" ∨ IsAbsolute entryPath ∨ HasParent entryPath ∨
        type = ascii 'l' ∧ entryPath ≠ [] ∧
          (symlinkTarget = [] ∨ IsAbsolute symlinkTarget ∨ HasParent symlinkTarget)) := by
  have hTarget : targetFault symlinkTarget = none ↔
      ¬(symlinkTarget = [] ∨ IsAbsolute symlinkTarget ∨ HasParent symlinkTarget) := by
    simp only [targetFault, parent_mem_getlines, IsAbsolute]
    split_ifs <;> simp_all
  have hEmpty : ¬IsAbsolute [] ∧ ¬HasParent [] := by decide
  have hTypes : type ∈ bytes "bcps" ↔ type = ascii 'b' ∨ type = ascii 'c' ∨ type = ascii 'p' ∨ type = ascii 's' := by
    rw [show bytes "bcps" = [ascii 'b', ascii 'c', ascii 'p', ascii 's'] from rfl]
    simp
  rw [entryError, hTypes]
  simp only [parent_mem_getlines, IsAbsolute] at *
  split
  · next hDevice =>
    exact iff_of_false (Option.some_ne_none _) (not_not_intro (.inl (hDevice.imp_right .inl)))
  next hDevice =>
  split
  · next hFifo => exact iff_of_false (Option.some_ne_none _) (not_not_intro (.inl (.inr (.inr (.inl hFifo)))))
  next hFifo =>
  split
  · next hSocket => exact iff_of_false (Option.some_ne_none _) (not_not_intro (.inl (.inr (.inr (.inr hSocket)))))
  next hSocket =>
  have hPasses : ¬(type = ascii 'b' ∨ type = ascii 'c' ∨ type = ascii 'p' ∨ type = ascii 's') := by
    rintro (hType | hType | hType | hType)
    · exact hDevice (.inl hType)
    · exact hDevice (.inr hType)
    · exact hFifo hType
    · exact hSocket hType
  rw [or_iff_right hPasses]
  split
  · next hPath =>
    subst hPath
    exact iff_of_true rfl (by simp [hEmpty])
  next hPath =>
  split
  · next hAbsolute => exact iff_of_false (Option.some_ne_none _) (not_not_intro (.inl hAbsolute))
  next hAbsolute =>
  split
  · next hParent => exact iff_of_false (Option.some_ne_none _) (not_not_intro (.inr (.inl hParent)))
  next hParent =>
  rw [or_iff_right hAbsolute, or_iff_right hParent]
  split
  · next hLink => rw [Option.map_eq_none_iff, hTarget, and_iff_right hLink, and_iff_right hPath]
  · next hLink => exact iff_of_true rfl fun h => hLink h.1

theorem lineError_eq_none (line : Bytes) : lineError line = none ↔ ¬(line ≠ [] ∧ Refused line) := by
  rw [lineError, Refused]
  by_cases hNe : line = []
  · simp [hNe]
  · rw [if_neg hNe, entryError_eq_none, and_iff_right hNe]

end Line

/-- A listing passes if no member is caught. -/
theorem validateInnerTarVerbose_listing (quoting : NameQuoting) (members : List TarMember) :
    validateInnerTarVerbose 0 (listing quoting members) = none ↔ ∀ m ∈ members, ¬m.Caught quoting := by
  have hLine : ∀ line : Bytes, line ++ [newline] = (line.splitOn newline).flatMap (· ++ [newline]) := fun line => by
    rw [flatMap_separator_eq newline (List.splitOn_ne_nil _ _), List.intercalate_splitOn]
  have hListing : listing quoting members =
      (members.flatMap fun m => (m.line quoting).splitOn newline).flatMap (· ++ [newline]) := by
    rw [listing, unlines, List.flatMap_map, List.flatMap_assoc]
    exact List.flatMap_congr fun m _ => hLine _
  have hLines : getlines newline (listing quoting members) = members.flatMap fun m => (m.line quoting).splitOn newline := by
    rw [hListing]
    refine getlines_flatMap fun line hMem => ?_
    obtain ⟨m, -, hPrinted⟩ := List.mem_flatMap.mp hMem
    exact notMem_of_mem_splitOn hPrinted
  rw [validateInnerTarVerbose, if_neg (by decide), hLines, List.findSome?_eq_none_iff]
  simp only [List.mem_flatMap, TarMember.Caught, lineError_eq_none]
  grind

/-- The check keeps its promise for an archive if all its members are safe, or if it catches
one of them. -/
theorem screening_iff (quoting : NameQuoting) (members : List TarMember) :
    (validateInnerTarVerbose 0 (listing quoting members) = none → ∀ m ∈ members, m.Safe) ↔
      (∀ m ∈ members, m.Safe) ∨ ∃ m ∈ members, m.Caught quoting := by
  rw [validateInnerTarVerbose_listing]
  constructor
  · intro hKept
    by_cases hCaught : ∃ m ∈ members, m.Caught quoting
    · exact .inr hCaught
    · exact .inl (hKept fun m hMem h => hCaught ⟨m, hMem, h⟩)
  · rintro (hSafe | ⟨m, hMem, hCaught⟩) hPasses
    · exact hSafe
    · exact absurd hCaught (hPasses m hMem)

section Plain

theorem isAbsolute_dropSlash {path : Bytes} (h : path ≠ [Posix.slash]) : IsAbsolute (dropSlash path) ↔ IsAbsolute path := by
  rw [dropSlash]
  split
  · next hLast =>
    obtain ⟨front, rfl⟩ := List.getLast?_eq_some_iff.mp hLast
    rw [List.dropLast_concat, IsAbsolute, IsAbsolute]
    cases front with
    | nil => exact absurd rfl h
    | cons c front => rfl
  · rfl

theorem hasParent_dropSlash (path : Bytes) : HasParent (dropSlash path) ↔ HasParent path := by
  rw [dropSlash]
  split
  · next hLast =>
    obtain ⟨front, rfl⟩ := List.getLast?_eq_some_iff.mp hLast
    have hNe : parent ≠ [] := by decide
    rw [List.dropLast_concat, HasParent, HasParent, List.splitOn_append_cons_self]
    simp [hNe]
  · rfl

namespace TarMember

variable {quoting : NameQuoting} {m : TarMember}

/-- A member of a kind that the listing does not mark behind its name, with names of the owner and
the group that have no line break and no head of an arrow, with a name that has no blank and is
not the root, and for a link with a target and a name that is no arrow itself. -/
structure Plain (quoting : NameQuoting) (m : TarMember) : Prop where
  kind : m.type = .regular ∨ m.type = .directory ∨ m.type = .contiguous ∨ m.type = .symlink
  columns : newline ∉ m.columns ∧ ascii '>' ∉ m.columns
  name : blank ∉ quoting.quote m.name ∧ quoting.quote m.name ≠ [Posix.slash]
  link : m.type = .symlink → m.name ≠ [] ∧ quoting.quote m.name ≠ bytes "->" ∧ m.target ≠ []

theorem letter_spec (type : MemberType) :
    type.letter ≠ blank ∧ type.letter ≠ newline ∧ type.letter ≠ ascii '>' ∧ (type.letter = ascii 'l' ↔ type = .symlink) := by
  cases type <;> simp only [MemberType.letter, reduceCtorEq] <;> decide

theorem lineType_line : lineType (m.line quoting) = m.type.letter := by
  have hHead : (m.line quoting).head? = some m.type.letter := rfl
  have hLength : 1 < (m.line quoting).length := by
    simp only [line, front, List.cons_append, List.length_cons, List.length_append]
    omega
  rw [lineType, if_pos ⟨hLength, by simpa [hHead] using (letter_spec m.type).1⟩]
  rfl

theorem shown_of_plain (h : m.Plain quoting) (hType : m.type ≠ .symlink) : m.shown quoting = quoting.quote m.name := by
  rcases h.kind with hKind | hKind | hKind | hKind
  · simp [shown, note, hKind]
  · simp [shown, note, hKind]
  · simp [shown, note, hKind]
  · exact absurd hKind hType

theorem shown_of_symlink (hType : m.type = .symlink) :
    m.shown quoting = quoting.quote m.name ++ (arrow ++ quoting.quote m.target) := by
  simp [shown, note, hType]

/-- A plain member is one line. -/
theorem lines_of_plain (h : m.Plain quoting) : (m.line quoting).splitOn newline = [m.line quoting] := by
  have hShown : newline ∉ m.shown quoting := by
    by_cases hType : m.type = .symlink
    · rw [shown_of_symlink hType, List.mem_append, List.mem_append, not_or, not_or]
      exact ⟨quoting.newline_notMem _, by decide, quoting.newline_notMem _⟩
    · rw [shown_of_plain h hType]
      exact quoting.newline_notMem _
  refine List.splitOn_eq_singleton ?_
  rw [line, front, List.cons_append, List.mem_cons, List.mem_append, List.mem_cons]
  rintro (hLetter | hColumns | hBlank | hPrinted)
  · exact (letter_spec m.type).2.1 hLetter.symm
  · exact h.columns.1 hColumns
  · exact absurd hBlank (by decide)
  · exact hShown hPrinted

/-- The first arrow of the line of a plain member is looked for behind its columns. -/
theorem cut_line (h : m.Plain quoting) :
    cutAtText arrow (m.line quoting) =
      (cutAtText arrow (blank :: m.shown quoting)).map fun cut => (m.front ++ cut.1, cut.2) := by
  refine cutAtText_arrow ?_ _
  rw [front, List.mem_cons, not_or]
  exact ⟨(letter_spec m.type).2.2.1.symm, h.columns.2⟩

theorem cut_of_symlink (h : m.Plain quoting) (hType : m.type = .symlink) :
    cutAtText arrow (m.line quoting) = some (m.front ++ blank :: quoting.quote m.name, quoting.quote m.target) := by
  have hNot : ¬arrow <+: blank :: m.shown quoting := by
    rintro ⟨behind, hBehind⟩
    have hShown : m.shown quoting = bytes "->" ++ blank :: behind := (List.cons.inj hBehind).2.symm
    rw [shown_of_symlink hType] at hShown
    have hFirst : cutAt blank (quoting.quote m.name ++ blank :: (bytes "-> " ++ quoting.quote m.target)) = _ :=
      cutAt_eq_some.mpr ⟨rfl, h.name.1⟩
    have hSecond : cutAt blank (bytes "->" ++ blank :: behind) = _ := cutAt_eq_some.mpr ⟨rfl, by decide⟩
    rw [show bytes "->" ++ blank :: behind = quoting.quote m.name ++ blank :: (bytes "-> " ++ quoting.quote m.target) from hShown.symm,
      hFirst] at hSecond
    exact (h.link hType).2.1 (Prod.mk.inj (Option.some.inj hSecond)).1
  have hBehind : cutAtText arrow (m.shown quoting) = some (quoting.quote m.name, quoting.quote m.target) := by
    have hFound : cutAtText arrow (arrow ++ quoting.quote m.target) = some ([], quoting.quote m.target) :=
      cutAtText_self (by decide) _
    have hPassed := @cutAtText_append _ (bytes "-> ") _ h.name.1 (arrow ++ quoting.quote m.target)
    rw [shown_of_symlink hType]
    exact hPassed.trans (by rw [show cutAtText (blank :: bytes "-> ") _ = _ from hFound, Option.map_some, List.append_nil])
  rw [cut_line h, cutAtText, if_neg (by simpa using hNot), hBehind]
  rfl

theorem cut_of_plain (h : m.Plain quoting) (hType : m.type ≠ .symlink) : cutAtText arrow (m.line quoting) = none := by
  have hName : cutAtText arrow (quoting.quote m.name) = none := cutAtText_eq_none (c := blank) (by decide) h.name.1
  have hNot : ¬arrow <+: blank :: quoting.quote m.name := by
    rintro ⟨behind, hBehind⟩
    refine h.name.1 ?_
    rw [← (List.cons.inj (show blank :: (bytes "-> " ++ behind) = _ from hBehind)).2]
    exact List.mem_append_left _ (by decide)
  rw [cut_line h, shown_of_plain h hType, cutAtText, if_neg (by simpa using hNot), hName]
  rfl

theorem linePath_of_plain (h : m.Plain quoting) : linePath (m.line quoting) = dropSlash (quoting.quote m.name) := by
  have hWord : lastWord (m.front ++ blank :: quoting.quote m.name) = quoting.quote m.name := by
    rw [lastWord_append_blank, lastWord_of_notMem h.name.1]
  by_cases hType : m.type = .symlink
  · have hNe : quoting.quote m.name ≠ [] := fun hNil => (h.link hType).1 ((quoting.quote_eq_nil _).mp hNil)
    have hTrim : trimBlanks (m.front ++ blank :: quoting.quote m.name) = m.front ++ blank :: quoting.quote m.name := by
      rw [trimBlanks, List.rdropWhile_eq_self_iff]
      intro hLine hBlank
      rw [List.getLast_append_of_ne_nil _ (List.cons_ne_nil _ _), List.getLast_cons hNe] at hBlank
      exact h.name.1 (of_decide_eq_true hBlank ▸ List.getLast_mem hNe)
    rw [linePath, cut_of_symlink h hType]
    simp only [hTrim, hWord]
  · rw [linePath, cut_of_plain h hType]
    simp only [line, shown_of_plain h hType, hWord]

/-- Of the plain members the check catches just those that are not safe. -/
theorem caught_of_plain (h : m.Plain quoting) : m.Caught quoting ↔ ¬m.Safe := by
  have hPath : IsAbsolute (dropSlash (quoting.quote m.name)) ∨ HasParent (dropSlash (quoting.quote m.name)) ↔
      IsAbsolute m.name ∨ HasParent m.name := by
    rw [isAbsolute_dropSlash h.name.2, hasParent_dropSlash, quoting.isAbsolute_quote, quoting.hasParent_quote]
  have hNotLink : m.type ≠ .blockDevice ∧ m.type ≠ .charDevice ∧ m.type ≠ .fifo ∧ m.type ≠ .hardLink := by
    rcases h.kind with hKind | hKind | hKind | hKind <;> simp [hKind]
  have hPasses : m.type.letter ∉ bytes "bcps" := by
    rcases h.kind with hKind | hKind | hKind | hKind <;> rw [hKind] <;> decide
  have hLine : m.line quoting ≠ [] := List.cons_ne_nil _ _
  have hSafe : m.Safe ↔ ¬(IsAbsolute m.name ∨ HasParent m.name) ∧
      (m.type = .symlink → ¬IsAbsolute m.target ∧ ¬HasParent m.target) :=
    ⟨fun hSafe => ⟨not_or.mpr hSafe.name, fun hType => hSafe.target (.inl hType)⟩, fun hSafe =>
      ⟨⟨hNotLink.1, hNotLink.2.1, hNotLink.2.2.1⟩, not_or.mp hSafe.1, fun hType => hSafe.2 (hType.resolve_right hNotLink.2.2.2)⟩⟩
  rw [Caught, lines_of_plain h, hSafe]
  simp only [List.mem_singleton, exists_eq_left, ne_eq, hLine, not_false_eq_true, true_and, Refused, lineType_line,
    linePath_of_plain h, hPasses, false_or, (letter_spec m.type).2.2.2]
  by_cases hType : m.type = .symlink
  · have hName : dropSlash (quoting.quote m.name) ≠ [] := by
      intro hNil
      rw [dropSlash] at hNil
      split at hNil
      · next hLast =>
        obtain ⟨front, hFront⟩ := List.getLast?_eq_some_iff.mp hLast
        rw [hFront, List.dropLast_concat] at hNil
        exact h.name.2 (by rw [hFront, hNil]; rfl)
      · exact (h.link hType).1 ((quoting.quote_eq_nil _).mp hNil)
    have hTarget : lineTarget (m.line quoting) = quoting.quote m.target := by rw [lineTarget, cut_of_symlink h hType]
    have hNe : quoting.quote m.target ≠ [] := fun hNil => (h.link hType).2.2 ((quoting.quote_eq_nil _).mp hNil)
    rw [hTarget, ← or_assoc, hPath]
    simp only [hType, hName, hNe, quoting.isAbsolute_quote, quoting.hasParent_quote, not_false_eq_true, true_and, false_or,
      forall_const]
    rw [← not_or, ← not_or, not_not]
  · rw [← or_assoc, hPath]
    simp only [hType, false_and, or_false, IsEmpty.forall_iff, and_true, not_not]

end TarMember

/-- The check accepts an archive of plain members just where all of them are safe. -/
theorem screening_of_plain {quoting : NameQuoting} {members : List TarMember} (h : ∀ m ∈ members, m.Plain quoting) :
    validateInnerTarVerbose 0 (listing quoting members) = none ↔ ∀ m ∈ members, m.Safe := by
  rw [validateInnerTarVerbose_listing]
  exact forall₂_congr fun m hMem => not_iff_comm.mp (TarMember.caught_of_plain (h m hMem)).symm

/-- A link that leads out of the directory. -/
def leavingLink : TarMember where
  type := .symlink
  columns := bytes "rwxrwxrwx web/web 0 2024-01-01 10:00"
  name := bytes "logs"
  target := bytes "../../etc"

theorem screening_of_plain_link :
    validateInnerTarVerbose 0 (listing Posix.asciiEscapes [leavingLink]) = none ↔ ∀ m ∈ [leavingLink], m.Safe :=
  screening_of_plain fun m hMem => by
    obtain rfl := List.mem_singleton.mp hMem
    exact ⟨by decide, by decide, by decide, by decide⟩

end Plain

/-- A file with a blank in its name. -/
def climbingMember : TarMember where
  type := .regular
  columns := bytes "rw-r--r-- web/web 7 2024-01-01 10:00"
  name := bytes "../evil file"

/-- The check reads the last word of a line as the path, so that a parent directory in front of
a blank is not seen. -/
theorem climbing_accepted :
    validateInnerTarVerbose 0 (listing Posix.asciiEscapes [climbingMember]) = none ∧ ¬climbingMember.Safe := by
  constructor
  · decide
  · exact fun hSafe => hSafe.name.2 (by decide)

end ContainerCP.Migration
