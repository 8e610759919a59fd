import ContainerCP.Posix.Acl
import ContainerCP.Text.Decimal
import ContainerCP.Text.Streams

/-! The reader of `FilesystemPermissionInspector` for the text of `getfacl`, and that
text as `getfacl` writes it for an access control list. -/
namespace ContainerCP.Access.Getfacl
open Posix

/-! ## The reader -/

inductive InspectionStatus where
  | ok
  | pathMissing
  | pathInspectionFailed
  | accessDenied
  | aclToolMissing
  | aclUnsupported
  | aclParseFailed
  | malformedAclOutput
  deriving DecidableEq

/-- What the text says of one group, in the access list or in the default list. -/
structure AclPart where
  present : Bool := false
  group : Bytes := []
  perms : Bytes := []
  effective : Bytes := []
  mask : Bytes := []
  deriving DecidableEq

structure AclState where
  access : AclPart := {}
  default : AclPart := {}
  deriving DecidableEq

/-- The status and the detail of a text that is refused. -/
structure AclFailure where
  status : InspectionStatus
  detail : Bytes
  deriving DecidableEq

inductive AclScope where
  | access
  | default
  deriving DecidableEq

namespace AclScope

def groupPrefix : AclScope → Bytes
  | .access => bytes "group:"
  | .default => bytes "default:group:"

def maskPrefix : AclScope → Bytes
  | .access => bytes "mask:"
  | .default => bytes "default:mask:"

def badGroup : AclScope → Bytes
  | .access => bytes "bad group line "
  | .default => bytes "bad dflt group "

def badPerms : AclScope → Bytes
  | .access => bytes "bad perms line "
  | .default => bytes "bad dflt perms "

def dupGroup : AclScope → Bytes
  | .access => bytes "dup group "
  | .default => bytes "dup dflt group "

def dupMask : AclScope → Bytes
  | .access => bytes "dup mask "
  | .default => bytes "dup dmask "

def badMask : AclScope → Bytes
  | .access => bytes "bad mask "
  | .default => bytes "bad dmask "

def badMaskPerms : AclScope → Bytes
  | .access => bytes "bad mask p "
  | .default => bytes "bad dmask p "

end AclScope

def colon : UInt8 := ascii ':'

def hash : UInt8 := ascii '#'

def dash : UInt8 := ascii '-'

def validAclPerms : Bytes → Bool
  | [r, w, x] => (r == ascii 'r' || r == dash) && (w == ascii 'w' || w == dash) && (x == ascii 'x' || x == dash)
  | _ => false

/-- `s[i]` of a `std::string`: behind the last byte is a NUL, and behind that nothing
may be read. -/
def readAt (s : Bytes) (i : Nat) : Option UInt8 := if i = s.length then some 0 else s[i]?

/-- `effective_acl`. `none` is a read past the end of a text. -/
def effectiveAcl (named mask : Bytes) : Option Bytes :=
  if mask = [] ∨ mask = bytes "rwx" then some named
  else
    [0, 1, 2].mapM fun i => do
      let granted ← readAt named i
      let masked ← readAt mask i
      return if granted = masked ∧ granted ≠ dash then granted else dash

/-- What the loop has seen of a list. -/
structure PartScan where
  part : AclPart := {}
  groupSeen : Bool := false
  maskSeen : Bool := false
  deriving DecidableEq

abbrev AclScan := AclScope → PartScan

def malformed (text : Bytes) (ln : Nat) : AclFailure := ⟨.malformedAclOutput, text ++ decimal ln⟩

/-- The branch for the entry of a group. -/
def readGroup (scope : AclScope) (targetGroup : Bytes) (ln : Nat) (line : Bytes) (s : PartScan) :
    Except AclFailure PartScan :=
  match cutAt colon (line.drop scope.groupPrefix.length) with
  | none => .error (malformed scope.badGroup ln)
  | some (nm, pm) =>
      if !validAclPerms pm then .error (malformed scope.badPerms ln)
      else if nm = targetGroup then
        if s.groupSeen then .error (malformed scope.dupGroup ln)
        else .ok { s with groupSeen := true, part := { s.part with present := true, group := nm, perms := pm } }
      else .ok s

/-- The permissions of a mask line, behind one colon or two. -/
def maskText (scope : AclScope) (line : Bytes) : Bytes :=
  match line.drop scope.maskPrefix.length with
  | [] => []
  | c :: rest => if c = colon then rest else c :: rest

/-- The branch for a mask. -/
def readMask (scope : AclScope) (ln : Nat) (line : Bytes) (s : PartScan) : Except AclFailure PartScan :=
  if s.maskSeen then .error (malformed scope.dupMask ln)
  else if line.length < scope.maskPrefix.length + 3 then .error (malformed scope.badMask ln)
  else if !validAclPerms (maskText scope line) then .error (malformed scope.badMaskPerms ln)
  else .ok { s with maskSeen := true, part := { s.part with mask := maskText scope line } }

def isComment (line : Bytes) : Bool := line.isEmpty || line.head? == some hash

/-- The lines that are taken without a look at them. -/
def isPermitted (line : Bytes) : Bool :=
  (bytes "user:").isPrefixOf line || (bytes "other:").isPrefixOf line ||
    (bytes "default:user:").isPrefixOf line || (bytes "default:other:").isPrefixOf line

def change (scan : AclScan) (scope : AclScope) (s : PartScan) : AclScan :=
  fun other => if other = scope then s else scan other

/-- One round of the loop. -/
def readLine (targetGroup : Bytes) (ln : Nat) (line : Bytes) (scan : AclScan) : Except AclFailure AclScan :=
  if isComment line then .ok scan
  else if (bytes "getfacl:").isPrefixOf line then
    .error ⟨.aclParseFailed, bytes "getfacl error line " ++ decimal ln⟩
  else if (AclScope.groupPrefix .access).isPrefixOf line then
    (readGroup .access targetGroup ln line (scan .access)).map (change scan .access)
  else if (AclScope.groupPrefix .default).isPrefixOf line then
    (readGroup .default targetGroup ln line (scan .default)).map (change scan .default)
  else if (AclScope.maskPrefix .access).isPrefixOf line then
    (readMask .access ln line (scan .access)).map (change scan .access)
  else if (AclScope.maskPrefix .default).isPrefixOf line then
    (readMask .default ln line (scan .default)).map (change scan .default)
  else if isPermitted line then .ok scan
  else .error ⟨.malformedAclOutput, bytes "unknown line " ++ decimal ln ++ bytes ": " ++ line.take 40⟩

def readLines (targetGroup : Bytes) : Nat → List Bytes → AclScan → Except AclFailure AclScan
  | _, [], scan => .ok scan
  | ln, line :: rest, scan =>
      match readLine targetGroup ln line scan with
      | .error failure => .error failure
      | .ok scan => readLines targetGroup (ln + 1) rest scan

/-- The effective permissions at the end of the text. -/
def finish (s : PartScan) : Option AclPart :=
  (effectiveAcl s.part.perms s.part.mask).map fun effective => { s.part with effective := effective }

/-- `parse_getfacl` from an empty state, as its caller has it. What was read before a
failure is dropped, as the caller does. `none` is a read past the end of a text. -/
def parseGetfacl (output targetGroup : Bytes) : Option (Except AclFailure AclState) :=
  if (bytes "getfacl:").isPrefixOf output then
    some (.error ⟨.aclParseFailed, bytes "getfacl error in output"⟩)
  else
    match readLines targetGroup 1 (getlines newline output) fun _ => {} with
    | .error failure => some (.error failure)
    | .ok scan => do
        let access ← finish (scan .access)
        let default ← finish (scan .default)
        return .ok ⟨access, default⟩

/-! ## The text of `getfacl` -/

/-- How `getfacl` shows users, groups and the place of a remark, and the comments in
front of the entries. -/
structure Printing where
  userName : SystemId → Bytes
  groupName : SystemId → Bytes
  /-- The tabs between an entry and its remark. -/
  indent : Bytes → Bytes
  header : List Bytes
  userPlain : ∀ id, newline ∉ userName id
  groupNe : ∀ id, groupName id ≠ []
  groupPlain : ∀ id, colon ∉ groupName id ∧ newline ∉ groupName id
  groupInjective : Function.Injective groupName
  indentPlain : ∀ entry, newline ∉ indent entry
  headerPlain : ∀ line ∈ header, newline ∉ line

def permText (p : Rwx) : Bytes :=
  [if p.getMsbD 0 then ascii 'r' else dash, if p.getMsbD 1 then ascii 'w' else dash,
    if p.getMsbD 2 then ascii 'x' else dash]

/-- What all lines of a list start with. -/
def AclScope.start : AclScope → Bytes
  | .access => []
  | .default => bytes "default:"

/-- An entry that the mask restricts has a remark. -/
def entryLine (print : Printing) (scope : AclScope) (tag name : Bytes) (mask : Option Rwx) (p : Rwx) : Bytes :=
  let entry := scope.start ++ tag ++ (name ++ colon :: permText p)
  match mask with
  | none => entry
  | some m =>
      if p &&& ~~~m = 0 then entry
      else entry ++ (print.indent entry ++ bytes "#effective:" ++ permText (p &&& m))

/-- The lines of a list, in the order of `getfacl`. -/
def aclLines (print : Printing) (scope : AclScope) (acl : Acl) : List Bytes :=
  [scope.start ++ bytes "user:" ++ colon :: permText acl.owner] ++
    acl.users.map (fun entry => entryLine print scope (bytes "user:") (print.userName entry.1) acl.mask entry.2) ++
    [entryLine print scope (bytes "group:") [] acl.mask acl.group] ++
    acl.groups.rows.map
      (fun entry => entryLine print scope (bytes "group:") (print.groupName entry.1) acl.mask entry.2) ++
    acl.mask.toList.map (fun m => scope.start ++ bytes "mask:" ++ colon :: permText m) ++
    [scope.start ++ bytes "other:" ++ colon :: permText acl.other]

def getfaclLines (print : Printing) (access : Acl) (default : Option Acl) : List Bytes :=
  print.header.map (hash :: ·) ++ aclLines print .access access ++
    default.toList.flatMap (aclLines print .default) ++ [[]]

/-- The text of `getfacl` for a file with an access list and, for a directory,
perhaps a default list. -/
def getfaclText (print : Printing) (access : Acl) (default : Option Acl) : Bytes :=
  (getfaclLines print access default).flatMap (· ++ [newline])

def AclScope.listOf (access : Acl) (default : Option Acl) : AclScope → Option Acl
  | .access => some access
  | .default => default

def AclState.part (state : AclState) : AclScope → AclPart
  | .access => state.access
  | .default => state.default

/-! ## Which texts are taken -/

/-- The permissions that a line gives the group. -/
def groupPerms (scope : AclScope) (targetGroup line : Bytes) : Option Bytes :=
  if scope.groupPrefix.isPrefixOf line then
    match cutAt colon (line.drop scope.groupPrefix.length) with
    | none => none
    | some (nm, pm) => if nm = targetGroup then some pm else none
  else none

/-- The mask that a line gives. -/
def maskPerms (scope : AclScope) (line : Bytes) : Option Bytes :=
  if scope.maskPrefix.isPrefixOf line then some (maskText scope line) else none

/-- A group entry of the form `name:rwx`. -/
def ValidGroup (scope : AclScope) (line : Bytes) : Prop :=
  scope.groupPrefix.isPrefixOf line = true ∧
    ∃ nm pm, cutAt colon (line.drop scope.groupPrefix.length) = some (nm, pm) ∧ validAclPerms pm = true

def ValidMask (scope : AclScope) (line : Bytes) : Prop :=
  scope.maskPrefix.isPrefixOf line = true ∧ validAclPerms (maskText scope line) = true

/-- A line that is taken wherever it stands first. -/
def Taken (line : Bytes) : Prop :=
  isComment line = true ∨ (∃ scope, ValidGroup scope line) ∨ (∃ scope, ValidMask scope line) ∨ isPermitted line = true

/-- What a line that is taken does to the scan. -/
def after (targetGroup line : Bytes) (scan : AclScan) : AclScan := fun scope =>
  let s := scan scope
  let entry := groupPerms scope targetGroup line
  let mask := maskPerms scope line
  { groupSeen := s.groupSeen || entry.isSome
    maskSeen := s.maskSeen || mask.isSome
    part := { s.part with
      present := s.part.present || entry.isSome
      group := if entry.isSome then targetGroup else s.part.group
      perms := entry.getD s.part.perms
      mask := mask.getD s.part.mask } }

theorem length_of_validAclPerms {perms : Bytes} (h : validAclPerms perms = true) : perms.length = 3 := by
  unfold validAclPerms at h
  split at h
  · rfl
  · cases h

/-- A line is of one kind only: what a group line is not. -/
theorem groupLine_kind (scope : AclScope) (rest : Bytes) :
    isComment (scope.groupPrefix ++ rest) = false ∧ isPermitted (scope.groupPrefix ++ rest) = false ∧
      (∀ other, maskPerms other (scope.groupPrefix ++ rest) = none) ∧
      ∀ other, other ≠ scope → other.groupPrefix.isPrefixOf (scope.groupPrefix ++ rest) = false := by
  refine ⟨by cases scope <;> rfl, by cases scope <;> rfl, ?_, ?_⟩
  · intro other
    cases scope <;> cases other <;> rfl
  · intro other hOther
    cases scope <;> cases other <;> first | rfl | exact absurd rfl hOther

/-- What a mask line is not. -/
theorem maskLine_kind (scope : AclScope) (rest : Bytes) :
    isComment (scope.maskPrefix ++ rest) = false ∧ isPermitted (scope.maskPrefix ++ rest) = false ∧
      (∀ other : AclScope, other.groupPrefix.isPrefixOf (scope.maskPrefix ++ rest) = false) ∧
      ∀ other, other ≠ scope → other.maskPrefix.isPrefixOf (scope.maskPrefix ++ rest) = false := by
  refine ⟨by cases scope <;> rfl, by cases scope <;> rfl, ?_, ?_⟩
  · intro other
    cases scope <;> cases other <;> rfl
  · intro other hOther
    cases scope <;> cases other <;> first | rfl | exact absurd rfl hOther

theorem readLine_group (scope : AclScope) (targetGroup : Bytes) (ln : Nat) (rest : Bytes) (scan : AclScan) :
    readLine targetGroup ln (scope.groupPrefix ++ rest) scan =
      (readGroup scope targetGroup ln (scope.groupPrefix ++ rest) (scan scope)).map (change scan scope) := by
  cases scope <;> rfl

theorem readLine_mask (scope : AclScope) (targetGroup : Bytes) (ln : Nat) (rest : Bytes) (scan : AclScan) :
    readLine targetGroup ln (scope.maskPrefix ++ rest) scan =
      (readMask scope ln (scope.maskPrefix ++ rest) (scan scope)).map (change scan scope) := by
  cases scope <;> rfl

/-- The same mask twice, or the group twice, is refused. -/
def Fresh (targetGroup line : Bytes) (scan : AclScan) : Prop :=
  ∀ scope, ((groupPerms scope targetGroup line).isSome = true → (scan scope).groupSeen = false) ∧
    ((maskPerms scope line).isSome = true → (scan scope).maskSeen = false)

theorem groupPerms_of_front {scope : AclScope} {line nm pm : Bytes} (h : scope.groupPrefix.isPrefixOf line = true)
    (hCut : cutAt colon (line.drop scope.groupPrefix.length) = some (nm, pm)) (targetGroup : Bytes) :
    groupPerms scope targetGroup line = if nm = targetGroup then some pm else none := by
  simp only [groupPerms, h, if_true, hCut]

theorem groupPerms_eq_none {scope : AclScope} {line : Bytes} (h : scope.groupPrefix.isPrefixOf line = false)
    (targetGroup : Bytes) : groupPerms scope targetGroup line = none := by
  simp [groupPerms, h]

theorem maskPerms_eq_none {scope : AclScope} {line : Bytes} (h : scope.maskPrefix.isPrefixOf line = false) :
    maskPerms scope line = none := by
  simp [maskPerms, h]

theorem taken_group_iff {scope : AclScope} {rest : Bytes} :
    Taken (scope.groupPrefix ++ rest) ↔ ∃ nm pm, cutAt colon rest = some (nm, pm) ∧ validAclPerms pm = true := by
  obtain ⟨hComment, hPermitted, hMask, hOther⟩ := groupLine_kind scope rest
  constructor
  · rintro (h | ⟨other, h⟩ | ⟨other, h, -⟩ | h)
    · rw [hComment] at h
      cases h
    · obtain rfl : other = scope := by
        by_contra hNe
        rw [ValidGroup, hOther other hNe] at h
        cases h.1
      simpa using h.2
    · have hNone := hMask other
      simp [maskPerms, h] at hNone
    · rw [hPermitted] at h
      cases h
  · rintro ⟨nm, pm, hCut, hValid⟩
    exact .inr (.inl ⟨scope, List.isPrefixOf_iff_prefix.mpr (List.prefix_append _ _), nm, pm, by simpa using hCut, hValid⟩)

theorem taken_mask_iff {scope : AclScope} {rest : Bytes} :
    Taken (scope.maskPrefix ++ rest) ↔ validAclPerms (maskText scope (scope.maskPrefix ++ rest)) = true := by
  obtain ⟨hComment, hPermitted, hGroup, hOther⟩ := maskLine_kind scope rest
  constructor
  · rintro (h | ⟨other, h, -⟩ | ⟨other, h⟩ | h)
    · rw [hComment] at h
      cases h
    · rw [hGroup other] at h
      cases h
    · obtain rfl : other = scope := by
        by_contra hNe
        rw [ValidMask, hOther other hNe] at h
        cases h.1
      exact h.2
    · rw [hPermitted] at h
      cases h
  · exact fun h => .inr (.inr (.inl ⟨scope, List.isPrefixOf_iff_prefix.mpr (List.prefix_append _ _), h⟩))

/-- One round over a group line. -/
theorem readLine_group_iff {scope : AclScope} {targetGroup rest : Bytes} {ln : Nat} {scan scan' : AclScan} :
    readLine targetGroup ln (scope.groupPrefix ++ rest) scan = .ok scan' ↔
      Taken (scope.groupPrefix ++ rest) ∧ Fresh targetGroup (scope.groupPrefix ++ rest) scan ∧
        after targetGroup (scope.groupPrefix ++ rest) scan = scan' := by
  obtain ⟨hComment, hPermitted, hMask, hOther⟩ := groupLine_kind scope rest
  have hPrefix : scope.groupPrefix.isPrefixOf (scope.groupPrefix ++ rest) = true :=
    List.isPrefixOf_iff_prefix.mpr (List.prefix_append _ _)
  have hNone : ∀ other, other ≠ scope → groupPerms other targetGroup (scope.groupPrefix ++ rest) = none :=
    fun other hNe => groupPerms_eq_none (hOther other hNe) _
  rw [readLine_group, taken_group_iff, readGroup, List.drop_left]
  cases hCut : cutAt colon rest with
  | none => simp [Except.map]
  | some cut =>
      obtain ⟨nm, pm⟩ := cut
      have hPerms := groupPerms_of_front hPrefix (by simpa using hCut) targetGroup
      have hFresh : Fresh targetGroup (scope.groupPrefix ++ rest) scan ↔
          (nm = targetGroup → (scan scope).groupSeen = false) := by
        constructor
        · exact fun h hName => (h scope).1 (by simp [hPerms, hName])
        · intro h other
          by_cases hSame : other = scope
          · subst hSame
            by_cases hName : nm = targetGroup <;> simp [hPerms, hMask, hName, h]
          · simp [hNone other hSame, hMask]
      have hAfter : after targetGroup (scope.groupPrefix ++ rest) scan = change scan scope
          (if nm = targetGroup then
            { scan scope with
              groupSeen := true, part := { (scan scope).part with present := true, group := nm, perms := pm } }
          else scan scope) := by
        funext other
        by_cases hSame : other = scope
        · subst hSame
          by_cases hName : nm = targetGroup <;> simp [after, change, hPerms, hMask, hName]
        · simp [after, change, hNone other hSame, hMask, hSame]
      rw [hFresh, hAfter]
      cases hValid : validAclPerms pm with
      | false => simp [Except.map, hValid]
      | true =>
          by_cases hName : nm = targetGroup
          · cases hSeen : (scan scope).groupSeen <;> simp [Except.map, hValid, hName]
          · simp [Except.map, hValid, hName]

/-- One round over a mask. -/
theorem readLine_mask_iff {scope : AclScope} {targetGroup rest : Bytes} {ln : Nat} {scan scan' : AclScan} :
    readLine targetGroup ln (scope.maskPrefix ++ rest) scan = .ok scan' ↔
      Taken (scope.maskPrefix ++ rest) ∧ Fresh targetGroup (scope.maskPrefix ++ rest) scan ∧
        after targetGroup (scope.maskPrefix ++ rest) scan = scan' := by
  obtain ⟨hComment, hPermitted, hGroup, hOther⟩ := maskLine_kind scope rest
  have hPrefix : scope.maskPrefix.isPrefixOf (scope.maskPrefix ++ rest) = true :=
    List.isPrefixOf_iff_prefix.mpr (List.prefix_append _ _)
  have hNone : ∀ other, groupPerms other targetGroup (scope.maskPrefix ++ rest) = none :=
    fun other => groupPerms_eq_none (hGroup other) _
  have hMask : maskPerms scope (scope.maskPrefix ++ rest) = some (maskText scope (scope.maskPrefix ++ rest)) :=
    if_pos hPrefix
  have hFresh : Fresh targetGroup (scope.maskPrefix ++ rest) scan ↔ (scan scope).maskSeen = false := by
    constructor
    · exact fun h => (h scope).2 (by simp [hMask])
    · intro h other
      by_cases hSame : other = scope
      · subst hSame
        simp [hNone, h]
      · simp [hNone, maskPerms_eq_none (hOther other hSame)]
  have hAfter : after targetGroup (scope.maskPrefix ++ rest) scan = change scan scope
      { scan scope with
        maskSeen := true, part := { (scan scope).part with mask := maskText scope (scope.maskPrefix ++ rest) } } := by
    funext other
    by_cases hSame : other = scope
    · subst hSame
      simp [after, change, hNone, hMask]
    · simp [after, change, hNone, maskPerms_eq_none (hOther other hSame), hSame]
  -- a text of permissions is long enough
  have hLength : validAclPerms (maskText scope (scope.maskPrefix ++ rest)) = true →
      ¬(scope.maskPrefix ++ rest).length < scope.maskPrefix.length + 3 := by
    intro h
    have hThree := length_of_validAclPerms h
    have hLe : (maskText scope (scope.maskPrefix ++ rest)).length ≤ rest.length := by
      rw [maskText, List.drop_left]
      split
      · simp
      · split_ifs <;> simp
    simp only [List.length_append]
    omega
  rw [readLine_mask, taken_mask_iff, hFresh, hAfter, readMask]
  cases hSeen : (scan scope).maskSeen with
  | true => simp [Except.map]
  | false =>
      cases hValid : validAclPerms (maskText scope (scope.maskPrefix ++ rest)) with
      | false =>
          split_ifs <;> simp [Except.map] at *
      | true =>
          rw [if_neg (hLength hValid)]
          simp [Except.map]

/-- What one round of the loop does. -/
theorem readLine_iff {targetGroup line : Bytes} {ln : Nat} {scan scan' : AclScan} :
    readLine targetGroup ln line scan = .ok scan' ↔
      Taken line ∧ Fresh targetGroup line scan ∧ after targetGroup line scan = scan' := by
  by_cases hGroup : ∃ scope : AclScope, scope.groupPrefix.isPrefixOf line = true
  · obtain ⟨scope, hPrefix⟩ := hGroup
    obtain ⟨rest, rfl⟩ := List.isPrefixOf_iff_prefix.mp hPrefix
    exact readLine_group_iff
  by_cases hMask : ∃ scope : AclScope, scope.maskPrefix.isPrefixOf line = true
  · obtain ⟨scope, hPrefix⟩ := hMask
    obtain ⟨rest, rfl⟩ := List.isPrefixOf_iff_prefix.mp hPrefix
    exact readLine_mask_iff
  simp only [not_exists, Bool.not_eq_true] at hGroup hMask
  have hFresh : Fresh targetGroup line scan := fun scope => by
    simp [groupPerms_eq_none (hGroup scope), maskPerms_eq_none (hMask scope)]
  have hAfter : after targetGroup line scan = scan := by
    funext scope
    simp [after, groupPerms_eq_none (hGroup scope), maskPerms_eq_none (hMask scope)]
  have hTaken : Taken line ↔ isComment line = true ∨ isPermitted line = true := by
    simp [Taken, ValidGroup, ValidMask, hGroup, hMask]
  rw [hAfter, hTaken]
  simp only [readLine, hGroup, hMask, Bool.false_eq_true, if_false]
  by_cases hComment : isComment line = true
  · simp [hComment, hFresh]
  · by_cases hTool : (bytes "getfacl:").isPrefixOf line = true
    · obtain ⟨rest, rfl⟩ := List.isPrefixOf_iff_prefix.mp hTool
      have hPermitted : isPermitted (bytes "getfacl:" ++ rest) = false := rfl
      simp [hComment, hTool, hPermitted]
    · by_cases hPermitted : isPermitted line = true <;> simp [hComment, hTool, hPermitted, hFresh]

/-- The lines that give the group an entry, and those that give a mask, are at most
one each. -/
def Single (targetGroup : Bytes) (lines : List Bytes) (scan : AclScan) : Prop :=
  ∀ scope, (scan scope).groupSeen.toNat + (lines.filterMap (groupPerms scope targetGroup)).length ≤ 1 ∧
    (scan scope).maskSeen.toNat + (lines.filterMap (maskPerms scope)).length ≤ 1

theorem single_cons {targetGroup line : Bytes} {rest : List Bytes} {scan : AclScan} :
    Single targetGroup (line :: rest) scan ↔
      Fresh targetGroup line scan ∧ Single targetGroup rest (after targetGroup line scan) := by
  have hCount : ∀ {seen : Bool} {found : Option Bytes} {others : Nat},
      seen.toNat + (found.toList.length + others) ≤ 1 ↔
        (found.isSome = true → seen = false) ∧ (seen || found.isSome).toNat + others ≤ 1 := by
    intro seen found others
    cases seen <;> cases found <;> simp [Nat.add_comm]
  have hLength : ∀ f : Bytes → Option Bytes,
      ((line :: rest).filterMap f).length = (f line).toList.length + (rest.filterMap f).length := by
    intro f
    cases h : f line <;> simp [h, Nat.add_comm]
  unfold Single Fresh
  rw [← forall_and]
  refine forall_congr' fun scope => ?_
  rw [hLength, hLength, hCount, hCount]
  tauto

/-- The whole loop. -/
theorem readLines_iff {targetGroup : Bytes} {ln : Nat} {lines : List Bytes} {scan scan' : AclScan} :
    readLines targetGroup ln lines scan = .ok scan' ↔
      (∀ line ∈ lines, Taken line) ∧ Single targetGroup lines scan ∧
        lines.foldl (fun scan line => after targetGroup line scan) scan = scan' := by
  induction lines generalizing ln scan with
  | nil => simp [readLines, Single, Bool.toNat_le]
  | cons line rest ih =>
      rw [single_cons, List.forall_mem_cons, List.foldl_cons]
      cases hLine : readLine targetGroup ln line scan with
      | error failure =>
          have hNot : ¬(Taken line ∧ Fresh targetGroup line scan) := by
            intro h
            have hOk := (@readLine_iff targetGroup line ln scan _).mpr ⟨h.1, h.2, rfl⟩
            rw [hLine] at hOk
            cases hOk
          simp only [readLines, hLine, reduceCtorEq, false_iff]
          tauto
      | ok next =>
          obtain ⟨hTaken, hFresh, rfl⟩ := readLine_iff.mp hLine
          simp only [readLines, hLine, ih]
          tauto

/-- What the loop leaves of a list: the permissions of the last entry of the group, and
the last mask. -/
theorem foldl_after (targetGroup : Bytes) (lines : List Bytes) (scan : AclScan) (scope : AclScope) :
    let found := (lines.foldl (fun scan line => after targetGroup line scan) scan scope).part
    found.perms = (lines.filterMap (groupPerms scope targetGroup)).getLast?.getD (scan scope).part.perms ∧
      found.mask = (lines.filterMap (maskPerms scope)).getLast?.getD (scan scope).part.mask := by
  induction lines generalizing scan with
  | nil => exact ⟨rfl, rfl⟩
  | cons line rest ih =>
      have hLast : ∀ (f : Bytes → Option Bytes) (old : Bytes),
          ((line :: rest).filterMap f).getLast?.getD old = (rest.filterMap f).getLast?.getD ((f line).getD old) := by
        intro f old
        cases h : f line with
        | none => simp [h]
        | some value => rw [List.filterMap_cons_some h, List.getLast?_cons, Option.getD_some, Option.getD_some]
      obtain ⟨hPerms, hMask⟩ := ih (after targetGroup line scan)
      simp only [List.foldl_cons, hLast]
      exact ⟨hPerms, hMask⟩

/-! ## Reads past the end -/

theorem validAclPerms_of_groupPerms {scope : AclScope} {targetGroup line perms : Bytes} (hTaken : Taken line)
    (h : groupPerms scope targetGroup line = some perms) : validAclPerms perms = true := by
  by_cases hPrefix : scope.groupPrefix.isPrefixOf line = true
  · obtain ⟨rest, rfl⟩ := List.isPrefixOf_iff_prefix.mp hPrefix
    obtain ⟨nm, pm, hCut, hValid⟩ := taken_group_iff.mp hTaken
    rw [groupPerms_of_front hPrefix (by simpa using hCut)] at h
    split_ifs at h
    obtain rfl := Option.some.inj h
    exact hValid
  · rw [groupPerms_eq_none (Bool.eq_false_iff.mpr hPrefix)] at h
    cases h

theorem validAclPerms_of_maskPerms {scope : AclScope} {line mask : Bytes} (hTaken : Taken line)
    (h : maskPerms scope line = some mask) : validAclPerms mask = true := by
  unfold maskPerms at h
  split_ifs at h with hPrefix
  obtain ⟨rest, rfl⟩ := List.isPrefixOf_iff_prefix.mp hPrefix
  obtain rfl := Option.some.inj h
  exact taken_mask_iff.mp hTaken

theorem exists_of_validAclPerms {perms : Bytes} (h : validAclPerms perms = true) :
    ∃ r w x, perms = [r, w, x] := List.length_eq_three.mp (length_of_validAclPerms h)

/-- Permissions are read up to their third byte, and nothing else is. -/
theorem effectiveAcl_eq_none_iff {named mask : Bytes} (hNamed : named = [] ∨ validAclPerms named = true)
    (hMask : mask = [] ∨ validAclPerms mask = true) :
    effectiveAcl named mask = none ↔ named = [] ∧ mask ≠ [] ∧ mask ≠ bytes "rwx" := by
  unfold effectiveAcl
  split_ifs with hFull
  · simp only [false_iff]
    tauto
  · rw [not_or] at hFull
    obtain ⟨mr, mw, mx, rfl⟩ := exists_of_validAclPerms (hMask.resolve_left hFull.1)
    rcases hNamed with rfl | hNamed
    · simp only [hFull, true_and, iff_true, ne_eq, not_false_eq_true]
      rfl
    · obtain ⟨r, w, x, rfl⟩ := exists_of_validAclPerms hNamed
      simp [readAt]

/-- No line gives the group an entry, and there is a mask that is not the full one. -/
def Gap (targetGroup : Bytes) (lines : List Bytes) (scope : AclScope) : Prop :=
  (∀ line ∈ lines, groupPerms scope targetGroup line = none) ∧
    ∃ line ∈ lines, ∃ mask, maskPerms scope line = some mask ∧ mask ≠ bytes "rwx"

theorem finish_eq_none_iff {s : PartScan} : finish s = none ↔ effectiveAcl s.part.perms s.part.mask = none :=
  Option.map_eq_none_iff

/-- The lines that were taken leave a gap exactly when the permissions cannot be
compared with the mask. -/
theorem finish_eq_none_iff_gap {targetGroup : Bytes} {lines : List Bytes} (hTaken : ∀ line ∈ lines, Taken line)
    (hSingle : Single targetGroup lines fun _ => {}) (scope : AclScope) :
    finish (lines.foldl (fun scan line => after targetGroup line scan) (fun _ => {}) scope) = none ↔
      Gap targetGroup lines scope := by
  have hPerms : (lines.foldl (fun scan line => after targetGroup line scan) (fun _ => {}) scope).part.perms =
      (lines.filterMap (groupPerms scope targetGroup)).getLast?.getD [] :=
    (foldl_after targetGroup lines (fun _ => {}) scope).1
  have hMask : (lines.foldl (fun scan line => after targetGroup line scan) (fun _ => {}) scope).part.mask =
      (lines.filterMap (maskPerms scope)).getLast?.getD [] :=
    (foldl_after targetGroup lines (fun _ => {}) scope).2
  have hEntries : ∀ perms ∈ lines.filterMap (groupPerms scope targetGroup), validAclPerms perms = true := by
    intro perms hMem
    obtain ⟨line, hLine, hSome⟩ := List.mem_filterMap.mp hMem
    exact validAclPerms_of_groupPerms (hTaken line hLine) hSome
  have hMasks : ∀ mask ∈ lines.filterMap (maskPerms scope), validAclPerms mask = true := by
    intro mask hMem
    obtain ⟨line, hLine, hSome⟩ := List.mem_filterMap.mp hMem
    exact validAclPerms_of_maskPerms (hTaken line hLine) hSome
  have hNoEntry : (∀ line ∈ lines, groupPerms scope targetGroup line = none) ↔
      lines.filterMap (groupPerms scope targetGroup) = [] := List.filterMap_eq_nil_iff.symm
  have hSomeMask : (∃ line ∈ lines, ∃ mask, maskPerms scope line = some mask ∧ mask ≠ bytes "rwx") ↔
      ∃ mask ∈ lines.filterMap (maskPerms scope), mask ≠ bytes "rwx" := by
    simp only [List.mem_filterMap]
    tauto
  have hNe : ∀ {perms}, validAclPerms perms = true → perms ≠ [] := by
    rintro _ hValid rfl
    cases hValid
  have hOne : (lines.filterMap (maskPerms scope)).length ≤ 1 := by
    have hBoth := (hSingle scope).2
    omega
  rw [finish_eq_none_iff, hPerms, hMask, Gap, hNoEntry, hSomeMask]
  have hEntryLast : ((lines.filterMap (groupPerms scope targetGroup)).getLast?.getD [] = [] ∨
      validAclPerms ((lines.filterMap (groupPerms scope targetGroup)).getLast?.getD []) = true) ∧
      ((lines.filterMap (groupPerms scope targetGroup)).getLast?.getD [] = [] ↔
        lines.filterMap (groupPerms scope targetGroup) = []) := by
    cases hLast : (lines.filterMap (groupPerms scope targetGroup)).getLast? with
    | none => simp [List.getLast?_eq_none_iff.mp hLast]
    | some perms =>
        have hMem := List.mem_of_getLast? hLast
        have hValid := hEntries perms hMem
        refine ⟨.inr hValid, fun h => absurd h (hNe hValid), fun h => ?_⟩
        rw [h] at hMem
        cases hMem
  rcases hList : lines.filterMap (maskPerms scope) with _ | ⟨mask, _ | ⟨second, rest⟩⟩
  · rw [List.getLast?_nil, Option.getD_none, effectiveAcl_eq_none_iff hEntryLast.1 (.inl rfl)]
    simp
  · rw [hList] at hMasks
    have hValid := hMasks mask List.mem_cons_self
    rw [List.getLast?_singleton, Option.getD_some, effectiveAcl_eq_none_iff hEntryLast.1 (.inr hValid), hEntryLast.2]
    simp [hNe hValid]
  · rw [hList] at hOne
    simp at hOne

/-- The text is taken and one of its lists has a gap. -/
def ReadsPastEnd (output targetGroup : Bytes) : Prop :=
  (bytes "getfacl:").isPrefixOf output = false ∧ (∀ line ∈ getlines newline output, Taken line) ∧
    Single targetGroup (getlines newline output) (fun _ => {}) ∧
    ∃ scope, Gap targetGroup (getlines newline output) scope

theorem parseGetfacl_eq_none_iff (output targetGroup : Bytes) :
    parseGetfacl output targetGroup = none ↔ ReadsPastEnd output targetGroup := by
  unfold ReadsPastEnd
  cases hTool : (bytes "getfacl:").isPrefixOf output with
  | true => simp [parseGetfacl, hTool]
  | false =>
      cases hLines : readLines targetGroup 1 (getlines newline output) fun _ => {} with
      | error failure =>
          have hNot : ¬((∀ line ∈ getlines newline output, Taken line) ∧
              Single targetGroup (getlines newline output) fun _ => {}) := by
            intro h
            have hOk := (@readLines_iff targetGroup 1 (getlines newline output) (fun _ => {}) _).mpr ⟨h.1, h.2, rfl⟩
            rw [hLines] at hOk
            cases hOk
          simp only [parseGetfacl, hTool, hLines, Bool.false_eq_true, if_false, reduceCtorEq, false_iff, true_and]
          tauto
      | ok scan =>
          obtain ⟨hTaken, hSingle, hScan⟩ := readLines_iff.mp hLines
          have hGap := finish_eq_none_iff_gap hTaken hSingle
          have hScopes : (∃ scope, Gap targetGroup (getlines newline output) scope) ↔
              finish (scan .access) = none ∨ finish (scan .default) = none := by
            rw [← hScan, hGap, hGap]
            exact ⟨fun ⟨scope, h⟩ => by cases scope <;> simp [h], fun h => h.elim (⟨_, ·⟩) (⟨_, ·⟩)⟩
          simp only [parseGetfacl, hTool, hLines, Bool.false_eq_true, if_false, hScopes]
          cases finish (scan .access) <;> cases finish (scan .default) <;> simp [hSingle] <;> exact hTaken

/-! ## Reading what was written -/

theorem validAclPerms_permText (p : Rwx) : validAclPerms (permText p) = true := by
  revert p
  decide

theorem newline_notMem_permText (p : Rwx) : newline ∉ permText p := by
  revert p
  decide

/-- The positions of the text are the bits. -/
theorem effectiveAcl_permText (p m : Rwx) : effectiveAcl (permText p) (permText m) = some (permText (p &&& m)) := by
  revert p m
  decide +kernel

theorem permText_eq_full {m : Rwx} : permText m = bytes "rwx" ↔ m = BitVec.allOnes 3 := by
  revert m
  decide

/-- The permissions of an entry line as the reader cuts them off. -/
def shown (print : Printing) (scope : AclScope) (name : Bytes) (mask : Option Rwx) (p : Rwx) : Bytes :=
  let entry := scope.start ++ bytes "group:" ++ (name ++ colon :: permText p)
  match mask with
  | none => permText p
  | some m =>
      if p &&& ~~~m = 0 then permText p
      else permText p ++ (print.indent entry ++ bytes "#effective:" ++ permText (p &&& m))

/-- Whether the mask takes something away. -/
def Clipped (mask : Option Rwx) (p : Rwx) : Prop := ∃ m, mask = some m ∧ p &&& ~~~m ≠ 0

theorem shown_of_not_clipped {print : Printing} {scope : AclScope} {name : Bytes} {mask : Option Rwx} {p : Rwx}
    (h : ¬Clipped mask p) : shown print scope name mask p = permText p := by
  cases mask with
  | none => rfl
  | some m =>
      have hZero : p &&& ~~~m = 0 := by
        by_contra hNe
        exact h ⟨m, rfl, hNe⟩
      simp [shown, hZero]

theorem validAclPerms_shown {print : Printing} {scope : AclScope} {name : Bytes} {mask : Option Rwx} {p : Rwx} :
    validAclPerms (shown print scope name mask p) = true ↔ ¬Clipped mask p := by
  constructor
  · rintro hValid ⟨m, rfl, hNe⟩
    have hRemark : shown print scope name (some m) p = permText p ++
        (print.indent (scope.start ++ bytes "group:" ++ (name ++ colon :: permText p)) ++ bytes "#effective:" ++
          permText (p &&& m)) := if_neg hNe
    have hLength := length_of_validAclPerms hValid
    have hThree : ∀ q, (permText q).length = 3 := fun _ => rfl
    rw [hRemark, List.length_append, List.length_append, hThree, hThree] at hLength
    omega
  · intro h
    rw [shown_of_not_clipped h]
    exact validAclPerms_permText p

theorem entryLine_group (print : Printing) (scope : AclScope) (name : Bytes) (mask : Option Rwx) (p : Rwx) :
    entryLine print scope (bytes "group:") name mask p =
      scope.groupPrefix ++ (name ++ colon :: shown print scope name mask p) := by
  have hPrefix : scope.start ++ bytes "group:" = scope.groupPrefix := by cases scope <;> rfl
  rw [← hPrefix]
  cases mask with
  | none => rfl
  | some m =>
      simp only [entryLine, shown]
      split_ifs <;> simp

/-- What the reader makes of a group line. -/
theorem group_read {print : Printing} {scope : AclScope} {name : Bytes} (hName : colon ∉ name) (mask : Option Rwx)
    (p : Rwx) :
    (Taken (entryLine print scope (bytes "group:") name mask p) ↔ ¬Clipped mask p) ∧
    (∀ other, maskPerms other (entryLine print scope (bytes "group:") name mask p) = none) ∧
    ∀ other targetGroup, groupPerms other targetGroup (entryLine print scope (bytes "group:") name mask p) =
      if other = scope ∧ name = targetGroup then some (shown print scope name mask p) else none := by
  have hCut : cutAt colon (name ++ colon :: shown print scope name mask p) =
      some (name, shown print scope name mask p) := cutAt_eq_some.mpr ⟨rfl, hName⟩
  rw [entryLine_group]
  obtain ⟨-, -, hMask, hOther⟩ := groupLine_kind scope (name ++ colon :: shown print scope name mask p)
  refine ⟨?_, hMask, fun other targetGroup => ?_⟩
  · rw [taken_group_iff, ← @validAclPerms_shown print scope name mask p, hCut]
    simp
  · by_cases hSame : other = scope
    · subst hSame
      rw [groupPerms_of_front (List.isPrefixOf_iff_prefix.mpr (List.prefix_append _ _)) (by simpa using hCut)]
      simp
    · rw [groupPerms_eq_none (hOther other hSame), if_neg fun h => hSame h.1]

/-- What the reader makes of a mask. -/
theorem mask_read (scope : AclScope) (m : Rwx) :
    Taken (scope.start ++ bytes "mask:" ++ colon :: permText m) ∧
    (∀ other targetGroup, groupPerms other targetGroup (scope.start ++ bytes "mask:" ++ colon :: permText m) = none) ∧
    ∀ other, maskPerms other (scope.start ++ bytes "mask:" ++ colon :: permText m) =
      if other = scope then some (permText m) else none := by
  have hPrefix : scope.start ++ bytes "mask:" = scope.maskPrefix := by cases scope <;> rfl
  have hText : maskText scope (scope.maskPrefix ++ colon :: permText m) = permText m := by
    rw [maskText, List.drop_left]
    exact if_pos rfl
  rw [hPrefix]
  obtain ⟨-, -, hGroup, hOther⟩ := maskLine_kind scope (colon :: permText m)
  refine ⟨?_, fun other targetGroup => groupPerms_eq_none (hGroup other) _, fun other => ?_⟩
  · rw [taken_mask_iff, hText]
    exact validAclPerms_permText m
  · by_cases hSame : other = scope
    · subst hSame
      rw [maskPerms, if_pos (List.isPrefixOf_iff_prefix.mpr (List.prefix_append _ _)), hText, if_pos rfl]
    · rw [maskPerms_eq_none (hOther other hSame), if_neg hSame]

/-- A line that the reader passes over. -/
def Passed (line : Bytes) : Prop :=
  Taken line ∧ (∀ scope targetGroup, groupPerms scope targetGroup line = none) ∧ ∀ scope, maskPerms scope line = none

theorem passed_comment {line : Bytes} (h : isComment line = true) : Passed line := by
  refine ⟨.inl h, fun scope targetGroup => groupPerms_eq_none ?_ _, fun scope => maskPerms_eq_none ?_⟩ <;>
  · cases line with
    | nil => cases scope <;> rfl
    | cons c rest =>
        obtain rfl : c = hash := by simpa [isComment] using h
        cases scope <;> rfl

theorem passed_user (scope : AclScope) (rest : Bytes) : Passed (scope.start ++ bytes "user:" ++ rest) := by
  refine ⟨.inr (.inr (.inr ?_)), fun other _ => groupPerms_eq_none ?_ _, fun other => maskPerms_eq_none ?_⟩ <;>
    cases scope <;> (try cases other) <;> rfl

theorem passed_other (scope : AclScope) (rest : Bytes) : Passed (scope.start ++ bytes "other:" ++ rest) := by
  refine ⟨.inr (.inr (.inr ?_)), fun other _ => groupPerms_eq_none ?_ _, fun other => maskPerms_eq_none ?_⟩ <;>
    cases scope <;> (try cases other) <;> rfl

theorem passed_userLine (print : Printing) (scope : AclScope) (name : Bytes) (mask : Option Rwx) (p : Rwx) :
    Passed (entryLine print scope (bytes "user:") name mask p) := by
  unfold entryLine
  cases mask with
  | none => exact passed_user scope _
  | some m =>
      dsimp only
      split_ifs
      · exact passed_user scope _
      · rw [List.append_assoc]
        exact passed_user scope _

theorem clipsGroup_eq_false_iff (acl : Acl) :
    acl.clipsGroup = false ↔ ∀ p ∈ acl.group :: acl.groups.rows.map Prod.snd, ¬Clipped acl.mask p := by
  unfold Acl.clipsGroup Clipped
  cases acl.mask with
  | none => simp
  | some m => simp only [List.any_eq_false, decide_eq_true_eq, Option.some.injEq, exists_eq_left']

section Lists

variable (print : Printing) (scope : AclScope) (acl : Acl)

/-- The list is taken exactly when no group entry has a remark. -/
theorem aclLines_taken : (∀ line ∈ aclLines print scope acl, Taken line) ↔ acl.clipsGroup = false := by
  have hOwner := (@group_read print scope [] List.not_mem_nil acl.mask acl.group).1
  have hNamed := fun entry : SystemId × Rwx =>
    (@group_read print scope (print.groupName entry.1) (print.groupPlain entry.1).1 acl.mask entry.2).1
  have hUsers := fun entry : SystemId × Rwx =>
    (passed_userLine print scope (print.userName entry.1) acl.mask entry.2).1
  rw [clipsGroup_eq_false_iff]
  simp only [aclLines, List.forall_mem_append, List.forall_mem_map, List.forall_mem_singleton, List.forall_mem_cons,
    hOwner, hNamed, hUsers, (mask_read scope _).1, (passed_user scope _).1, (passed_other scope _).1]
  tauto

/-- A row with a key of its own is found once. -/
theorem filterMap_find {f : SystemId × Rwx → Bytes} (gid : SystemId) :
    acl.groups.rows.filterMap (fun entry => if entry.1 = gid then some (f entry) else none) =
      ((acl.groups.find gid).map f).toList := by
  obtain ⟨rows, hNodup⟩ := acl.groups
  show rows.filterMap _ = ((rows.find? fun row => row.1 = gid).map f).toList
  induction rows with
  | nil => rfl
  | cons first rest ih =>
      obtain ⟨hNew, hRest⟩ := List.nodup_cons.mp hNodup
      by_cases hFirst : first.1 = gid
      · have hNone : rest.filterMap (fun entry => if entry.1 = gid then some (f entry) else none) = [] := by
          rw [List.filterMap_eq_nil_iff]
          intro entry hEntry
          rw [if_neg]
          rintro rfl
          exact hNew (hFirst ▸ List.mem_map_of_mem hEntry)
        simp [hFirst, hNone]
      · simp [hFirst, ih hRest]

/-- The entry of a group is found once. -/
theorem aclLines_group (other : AclScope) (gid : SystemId) :
    (aclLines print scope acl).filterMap (groupPerms other (print.groupName gid)) =
      if other = scope then
        ((acl.groups.find gid).map fun entry => shown print scope (print.groupName gid) acl.mask entry.2).toList
      else [] := by
  have hOwner : groupPerms other (print.groupName gid) (entryLine print scope (bytes "group:") [] acl.mask acl.group) =
      none := by
    rw [(@group_read print scope [] List.not_mem_nil acl.mask acl.group).2.2]
    exact if_neg fun h => print.groupNe gid h.2.symm
  have hUsers : ∀ entry : SystemId × Rwx, groupPerms other (print.groupName gid)
      (entryLine print scope (bytes "user:") (print.userName entry.1) acl.mask entry.2) = none :=
    fun entry => (passed_userLine print scope (print.userName entry.1) acl.mask entry.2).2.1 other _
  have hNamed : ∀ entry : SystemId × Rwx, groupPerms other (print.groupName gid)
      (entryLine print scope (bytes "group:") (print.groupName entry.1) acl.mask entry.2) =
        if other = scope then
          if entry.1 = gid then some (shown print scope (print.groupName gid) acl.mask entry.2) else none
        else none := by
    intro entry
    rw [(@group_read print scope (print.groupName entry.1) (print.groupPlain entry.1).1 acl.mask entry.2).2.2]
    by_cases hGid : entry.1 = gid
    · simp [hGid]
    · simp [hGid, print.groupInjective.eq_iff]
  simp only [aclLines, List.filterMap_append, List.filterMap_map, Function.comp_def, hUsers, hNamed,
    (mask_read scope _).2.1, List.filterMap_cons, hOwner, (passed_user scope _).2.1, (passed_other scope _).2.1,
    List.filterMap_nil, List.nil_append, List.append_nil, List.filterMap_none]
  split_ifs
  · exact filterMap_find acl gid
  · exact List.filterMap_none _

theorem aclLines_mask (other : AclScope) :
    (aclLines print scope acl).filterMap (maskPerms other) =
      if other = scope then acl.mask.toList.map permText else [] := by
  have hOwner := (@group_read print scope [] List.not_mem_nil acl.mask acl.group).2.1 other
  have hUsers := fun entry : SystemId × Rwx =>
    (passed_userLine print scope (print.userName entry.1) acl.mask entry.2).2.2 other
  have hNamed := fun entry : SystemId × Rwx =>
    (@group_read print scope (print.groupName entry.1) (print.groupPlain entry.1).1 acl.mask entry.2).2.1 other
  simp only [aclLines, List.filterMap_append, List.filterMap_map, Function.comp_def, hUsers, hNamed,
    (mask_read scope _).2.2, List.filterMap_cons, hOwner, (passed_user scope _).2.2, (passed_other scope _).2.2,
    List.filterMap_nil, List.nil_append, List.append_nil, List.filterMap_none]
  split_ifs
  · exact congrFun List.filterMap_eq_map _
  · exact List.filterMap_none _

end Lists

section Text

variable (print : Printing) (access : Acl) (default : Option Acl)

theorem newline_notMem_entryLine (scope : AclScope) {tag name : Bytes} (hTag : newline ∉ tag) (hName : newline ∉ name)
    (mask : Option Rwx) (p : Rwx) : newline ∉ entryLine print scope tag name mask p := by
  have hStart : newline ∉ scope.start := by cases scope <;> decide
  have hColon : newline ≠ colon := by decide
  have hRemark : newline ∉ bytes "#effective:" := by decide
  have hEntry : newline ∉ scope.start ++ tag ++ (name ++ colon :: permText p) := by
    simp [hStart, hTag, hName, hColon, newline_notMem_permText]
  unfold entryLine
  cases mask with
  | none => exact hEntry
  | some m =>
      dsimp only
      split_ifs
      · exact hEntry
      · intro hMem
        rcases List.mem_append.mp hMem with h | h
        · exact hEntry h
        · simp [print.indentPlain, hRemark, newline_notMem_permText] at h

theorem aclLines_plain (scope : AclScope) (acl : Acl) : ∀ line ∈ aclLines print scope acl, newline ∉ line := by
  have hStart : newline ∉ scope.start := by cases scope <;> decide
  have hColon : newline ≠ colon := by decide
  have hTags : newline ∉ bytes "user:" ∧ newline ∉ bytes "group:" ∧ newline ∉ bytes "mask:" ∧ newline ∉ bytes "other:" := by
    decide
  simp only [aclLines, List.forall_mem_append, List.forall_mem_map, List.forall_mem_singleton]
  refine ⟨⟨⟨⟨⟨?_, ?_⟩, ?_⟩, ?_⟩, ?_⟩, ?_⟩
  · simp [hStart, hColon, hTags, newline_notMem_permText]
  · exact fun entry _ => newline_notMem_entryLine print scope hTags.1 (print.userPlain _) _ _
  · exact newline_notMem_entryLine print scope hTags.2.1 List.not_mem_nil _ _
  · exact fun entry _ => newline_notMem_entryLine print scope hTags.2.1 (print.groupPlain _).2 _ _
  · intro m _
    simp [hStart, hColon, hTags, newline_notMem_permText]
  · simp [hStart, hColon, hTags, newline_notMem_permText]

theorem getfaclLines_plain : ∀ line ∈ getfaclLines print access default, newline ∉ line := by
  have hHeader : ∀ text ∈ print.header, newline ∉ hash :: text := by
    intro text hText hMem
    rcases List.mem_cons.mp hMem with hHash | hMem
    · exact absurd hHash (by decide)
    · exact print.headerPlain text hText hMem
  simp only [getfaclLines, List.forall_mem_append, List.forall_mem_map, List.forall_mem_singleton, List.mem_flatMap]
  refine ⟨⟨⟨hHeader, aclLines_plain print .access access⟩, ?_⟩, List.not_mem_nil⟩
  rintro line ⟨acl, -, hLine⟩
  exact aclLines_plain print .default acl line hLine

theorem getlines_getfaclText : getlines newline (getfaclText print access default) = getfaclLines print access default :=
  getlines_flatMap (getfaclLines_plain print access default)

theorem passed_header : ∀ line ∈ print.header.map (hash :: ·), Passed line := by
  intro line hLine
  obtain ⟨text, -, rfl⟩ := List.mem_map.mp hLine
  exact passed_comment rfl

/-- The text is taken exactly when no group entry of its lists has a remark. -/
theorem getfaclLines_taken :
    (∀ line ∈ getfaclLines print access default, Taken line) ↔
      ∀ scope acl, AclScope.listOf access default scope = some acl → acl.clipsGroup = false := by
  have hBlank : Taken [] := .inl rfl
  have hHeader : ∀ line ∈ print.header.map (hash :: ·), Taken line := fun line hLine => (passed_header print line hLine).1
  have hLines : (∀ line ∈ getfaclLines print access default, Taken line) ↔
      (∀ line ∈ aclLines print .access access, Taken line) ∧
        ∀ acl ∈ default, ∀ line ∈ aclLines print .default acl, Taken line := by
    simp only [getfaclLines, List.forall_mem_append, List.forall_mem_singleton, hBlank, and_true, iff_true_intro hHeader,
      true_and]
    cases default <;> simp
  rw [hLines, aclLines_taken]
  simp only [aclLines_taken]
  constructor
  · rintro ⟨hAccess, hDefault⟩ (_ | _) acl hList
    · obtain rfl := Option.some.inj hList
      exact hAccess
    · exact hDefault acl hList
  · exact fun h => ⟨h .access access rfl, fun acl hAcl => h .default acl hAcl⟩

/-- What the text says of the group and the mask in each of the lists. -/
theorem getfaclLines_found (scope : AclScope) (gid : SystemId) :
    (getfaclLines print access default).filterMap (groupPerms scope (print.groupName gid)) =
        ((AclScope.listOf access default scope).bind fun acl =>
          (acl.groups.find gid).map fun entry => shown print scope (print.groupName gid) acl.mask entry.2).toList ∧
      (getfaclLines print access default).filterMap (maskPerms scope) =
        ((AclScope.listOf access default scope).bind fun acl => acl.mask.map permText).toList := by
  have hHeader : ∀ (f : Bytes → Option Bytes), (∀ line, Passed line → f line = none) →
      (print.header.map (hash :: ·)).filterMap f = [] ∧ f [] = none := by
    intro f hPassed
    refine ⟨List.filterMap_eq_nil_iff.mpr fun line hLine => hPassed line (passed_header print line hLine), ?_⟩
    exact hPassed [] (passed_comment rfl)
  have hGroups := hHeader (groupPerms scope (print.groupName gid)) fun line h => h.2.1 _ _
  have hMasks := hHeader (maskPerms scope) fun line h => h.2.2 _
  cases scope <;> cases default <;>
    simp [getfaclLines, List.filterMap_append, hGroups, hMasks, aclLines_group, aclLines_mask, AclScope.listOf,
      ← Option.toList_map]

theorem getfaclText_start : (bytes "getfacl:").isPrefixOf (getfaclText print access default) = false := by
  unfold getfaclText getfaclLines
  cases print.header <;> rfl

/-- The loop over the text ends without an error exactly when no entry has a remark. -/
theorem readLines_getfaclText (gid : SystemId) {scan : AclScan} :
    readLines (print.groupName gid) 1 (getlines newline (getfaclText print access default)) (fun _ => {}) = .ok scan ↔
      (∀ scope acl, AclScope.listOf access default scope = some acl → acl.clipsGroup = false) ∧
        (getfaclLines print access default).foldl (fun scan line => after (print.groupName gid) line scan) (fun _ => {}) =
          scan := by
  have hSingle : Single (print.groupName gid) (getfaclLines print access default) fun _ => {} := by
    intro scope
    obtain ⟨hGroups, hMasks⟩ := getfaclLines_found print access default scope gid
    rw [hGroups, hMasks]
    have hLe : ∀ found : Option Bytes, found.toList.length ≤ 1 := by
      intro found
      cases found <;> simp
    simp only [Bool.toNat_false, Nat.zero_add]
    exact ⟨hLe _, hLe _⟩
  rw [getlines_getfaclText, readLines_iff, getfaclLines_taken]
  simp only [hSingle, true_and]

/-- The entry of a group in one of the lists. -/
def entryOf (scope : AclScope) (gid : SystemId) : Option Rwx :=
  (AclScope.listOf access default scope).bind fun acl => (acl.groups.find gid).map Prod.snd

def maskOf (scope : AclScope) : Option Rwx := (AclScope.listOf access default scope).bind Acl.mask

/-- Without remarks the loop leaves the entry of the group and the mask. -/
theorem foldl_getfaclLines (gid : SystemId) (scope : AclScope)
    (h : ∀ scope acl, AclScope.listOf access default scope = some acl → acl.clipsGroup = false) :
    let found := ((getfaclLines print access default).foldl
      (fun scan line => after (print.groupName gid) line scan) (fun _ => {}) scope).part
    found.perms = ((entryOf access default scope gid).map permText).getD [] ∧
      found.mask = ((maskOf access default scope).map permText).getD [] := by
  obtain ⟨hGroups, hMasks⟩ := getfaclLines_found print access default scope gid
  obtain ⟨hPerms, hMask⟩ := foldl_after (print.groupName gid) (getfaclLines print access default) (fun _ => {}) scope
  have hLast : ∀ found : Option Bytes, found.toList.getLast? = found := by
    intro found
    cases found <;> rfl
  rw [hGroups, hLast] at hPerms
  rw [hMasks, hLast] at hMask
  refine ⟨hPerms.trans ?_, hMask.trans ?_⟩
  · unfold entryOf
    cases hList : AclScope.listOf access default scope with
    | none => rfl
    | some acl =>
        simp only [Option.bind_some]
        cases hFind : acl.groups.find gid with
        | none => rfl
        | some entry =>
            have hEntry := (clipsGroup_eq_false_iff acl).mp (h scope acl hList) entry.2
              (List.mem_cons_of_mem _ (List.mem_map_of_mem (Rows.mem_of_find hFind)))
            simp only [Option.map_some, Option.getD_some]
            exact shown_of_not_clipped hEntry
  · unfold maskOf
    cases AclScope.listOf access default scope <;> rfl

/-- The effective permissions of an entry are those that the mask leaves. -/
theorem effectiveAcl_entry (p : Rwx) (mask : Option Rwx) :
    effectiveAcl (permText p) ((mask.map permText).getD []) = some (permText (p &&& mask.getD (BitVec.allOnes 3))) := by
  cases mask with
  | none =>
      rw [Option.getD_none, BitVec.and_allOnes]
      rfl
  | some m => exact effectiveAcl_permText p m

theorem effectiveAcl_noEntry (mask : Option Rwx) :
    effectiveAcl [] ((mask.map permText).getD []) = none ↔ mask ≠ none ∧ mask ≠ some (BitVec.allOnes 3) := by
  cases mask with
  | none => simp [effectiveAcl]
  | some m =>
      have hNe : permText m ≠ [] := List.cons_ne_nil _ _
      rw [Option.map_some, Option.getD_some, effectiveAcl_eq_none_iff (.inl rfl) (.inr (validAclPerms_permText m))]
      simp [hNe, permText_eq_full]

/-- What the state says of the entry of a group in each list is what the mask leaves. -/
def Effective (gid : SystemId) (state : AclState) : Prop :=
  ∀ scope p, entryOf access default scope gid = some p →
    (state.part scope).effective = permText (p &&& (maskOf access default scope).getD (BitVec.allOnes 3))

/-- No group entry has a remark, and the group has an entry in each list with a mask
that restricts. -/
def Readable (gid : SystemId) : Prop :=
  ∀ scope acl, AclScope.listOf access default scope = some acl →
    acl.clipsGroup = false ∧ (acl.groups.find gid ≠ none ∨ acl.mask = none ∨ acl.mask = some (BitVec.allOnes 3))

theorem readable_iff (gid : SystemId) :
    Readable access default gid ↔
      (∀ scope acl, AclScope.listOf access default scope = some acl → acl.clipsGroup = false) ∧
        ∀ scope, ¬(entryOf access default scope gid = none ∧ maskOf access default scope ≠ none ∧
          maskOf access default scope ≠ some (BitVec.allOnes 3)) := by
  have hScope : ∀ scope, (∀ acl, AclScope.listOf access default scope = some acl →
      acl.groups.find gid ≠ none ∨ acl.mask = none ∨ acl.mask = some (BitVec.allOnes 3)) ↔
        ¬(entryOf access default scope gid = none ∧ maskOf access default scope ≠ none ∧
          maskOf access default scope ≠ some (BitVec.allOnes 3)) := by
    intro scope
    unfold entryOf maskOf
    cases AclScope.listOf access default scope with
    | none => simp
    | some acl =>
        simp only [Option.some.injEq, forall_eq', Option.bind_some, Option.map_eq_none_iff]
        tauto
  constructor
  · exact fun h => ⟨fun scope acl hList => (h scope acl hList).1,
      fun scope => (hScope scope).mp fun acl hList => (h scope acl hList).2⟩
  · exact fun h scope acl hList => ⟨h.1 scope acl hList, (hScope scope).mpr (h.2 scope) acl hList⟩

/-- The end of the text for one of the lists. -/
theorem finish_getfacl (gid : SystemId) (scope : AclScope)
    (h : ∀ scope acl, AclScope.listOf access default scope = some acl → acl.clipsGroup = false) :
    let s := (getfaclLines print access default).foldl
      (fun scan line => after (print.groupName gid) line scan) (fun _ => {}) scope
    (finish s = none ↔ entryOf access default scope gid = none ∧ maskOf access default scope ≠ none ∧
      maskOf access default scope ≠ some (BitVec.allOnes 3)) ∧
    ∀ part, finish s = some part → ∀ p, entryOf access default scope gid = some p →
      part.effective = permText (p &&& (maskOf access default scope).getD (BitVec.allOnes 3)) := by
  intro s
  obtain ⟨hPerms, hMask⟩ := foldl_getfaclLines print access default gid scope h
  unfold finish
  rw [hPerms, hMask]
  cases entryOf access default scope gid with
  | none => simp [effectiveAcl_noEntry]
  | some p =>
      rw [Option.map_some, Option.getD_some, effectiveAcl_entry]
      refine ⟨by simp, fun part hPart p' hEntry => ?_⟩
      obtain rfl := Option.some.inj hEntry
      obtain rfl := Option.some.inj hPart
      rfl

theorem parseGetfacl_getfaclText_iff (gid : SystemId) :
    (∃ state, parseGetfacl (getfaclText print access default) (print.groupName gid) = some (.ok state) ∧
      Effective access default gid state) ↔ Readable access default gid := by
  rw [readable_iff]
  by_cases hClear : ∀ scope acl, AclScope.listOf access default scope = some acl → acl.clipsGroup = false
  · obtain ⟨hAccess, hAccessEffective⟩ := finish_getfacl print access default gid .access hClear
    obtain ⟨hDefault, hDefaultEffective⟩ := finish_getfacl print access default gid .default hClear
    have hLines := (readLines_getfaclText print access default gid).mpr ⟨hClear, rfl⟩
    have hScopes : (∀ scope, ¬(entryOf access default scope gid = none ∧ maskOf access default scope ≠ none ∧
        maskOf access default scope ≠ some (BitVec.allOnes 3))) ↔
          finish ((getfaclLines print access default).foldl
            (fun scan line => after (print.groupName gid) line scan) (fun _ => {}) .access) ≠ none ∧
          finish ((getfaclLines print access default).foldl
            (fun scan line => after (print.groupName gid) line scan) (fun _ => {}) .default) ≠ none := by
      rw [ne_eq, ne_eq, hAccess, hDefault]
      exact ⟨fun h => ⟨h .access, h .default⟩, fun h scope => by cases scope; exacts [h.1, h.2]⟩
    rw [hScopes]
    simp only [parseGetfacl, getfaclText_start, hLines, Bool.false_eq_true, if_false, Effective]
    revert hAccessEffective hDefaultEffective
    generalize finish ((getfaclLines print access default).foldl
      (fun scan line => after (print.groupName gid) line scan) (fun _ => {}) .access) = foundAccess
    generalize finish ((getfaclLines print access default).foldl
      (fun scan line => after (print.groupName gid) line scan) (fun _ => {}) .default) = foundDefault
    intro hAccessEffective hDefaultEffective
    constructor
    · rintro ⟨state, hState, -⟩
      refine ⟨hClear, ?_, ?_⟩
      · rintro rfl
        cases hState
      · rintro rfl
        cases foundAccess <;> cases hState
    · rintro ⟨-, hAccessSome, hDefaultSome⟩
      obtain ⟨accessPart, rfl⟩ := Option.ne_none_iff_exists'.mp hAccessSome
      obtain ⟨defaultPart, rfl⟩ := Option.ne_none_iff_exists'.mp hDefaultSome
      refine ⟨⟨accessPart, defaultPart⟩, rfl, fun scope p hEntry => ?_⟩
      cases scope with
      | access => exact hAccessEffective accessPart rfl p hEntry
      | default => exact hDefaultEffective defaultPart rfl p hEntry
  · have hFailed : ∃ failure, parseGetfacl (getfaclText print access default) (print.groupName gid) =
        some (.error failure) := by
      cases hLines : readLines (print.groupName gid) 1 (getlines newline (getfaclText print access default))
          fun _ => {} with
      | error failure =>
          refine ⟨failure, ?_⟩
          simp only [parseGetfacl, getfaclText_start, hLines, Bool.false_eq_true, if_false]
      | ok scan => exact absurd ((readLines_getfaclText print access default gid).mp hLines).1 hClear
    obtain ⟨failure, hFailed⟩ := hFailed
    constructor
    · rintro ⟨state, hState, -⟩
      rw [hFailed] at hState
      cases Option.some.inj hState
    · exact fun h => absurd h.1 hClear

end Text

/-- The text of `getfacl` is taken, with the entries of a named group as the masks leave
them, exactly for lists that the reader can read; and no text is read past its end but
those with a mask and no entry of the group. -/
theorem parseGetfacl_iff (print : Printing) (access : Acl) (default : Option Acl) (gid : SystemId)
    (output targetGroup : Bytes) :
    ((∃ state, parseGetfacl (getfaclText print access default) (print.groupName gid) = some (.ok state) ∧
      Effective access default gid state) ↔ Readable access default gid) ∧
    (parseGetfacl output targetGroup ≠ none ↔ ¬ReadsPastEnd output targetGroup) :=
  ⟨parseGetfacl_getfaclText_iff print access default gid, not_congr (parseGetfacl_eq_none_iff output targetGroup)⟩

def samplePrinting : Printing where
  userName id := decimal id.toNat
  groupName id := ascii 'g' :: decimal id.toNat
  indent _ := [ascii '\t']
  header := []
  userPlain _ := not_mem_decimal (by decide)
  groupNe _ := List.cons_ne_nil _ _
  groupPlain _ := by
    have hDigits : ∀ {c n}, isDigit c = false → c ∉ decimal n := not_mem_decimal
    exact ⟨by simpa using ⟨by decide, hDigits (by decide)⟩, by simpa using ⟨by decide, hDigits (by decide)⟩⟩
  groupInjective id id' h := BitVec.eq_of_toNat_eq (decimal_injective (List.cons.inj h).2)
  indentPlain _ := by decide
  headerPlain _ h := absurd h List.not_mem_nil

/-- The group 5 may do all, and the mask takes the writing away. -/
def sampleAcl : Acl where
  owner := 7
  users := []
  group := 5
  groups := ⟨[(5, 7)], by decide⟩
  mask := some 5
  other := 5
  masked := fun _ => rfl

/-- The remark of the entry is taken for a part of the permissions, and the text of a
list with a mask but without the group is read past an end. -/
theorem parseGetfacl_sample :
    parseGetfacl (getfaclText samplePrinting sampleAcl none) (samplePrinting.groupName 5) =
        some (.error ⟨.malformedAclOutput, bytes "bad perms line 3"⟩) ∧
      parseGetfacl (bytes "mask::r-x") (samplePrinting.groupName 5) = none := by
  decide +kernel

end ContainerCP.Access.Getfacl
