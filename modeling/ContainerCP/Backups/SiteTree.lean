import ContainerCP.Data.Store
import ContainerCP.Text.Bytes

/-! `copy_site_tree`, which takes the files of a site into a backup and lays those of a
backup over a site. -/
namespace ContainerCP.Backups

/-- What stands at a path: a file, a directory, or something that is not copied. -/
inductive Entry where
  | file (content : Bytes)
  | directory
  | special
  deriving DecidableEq

/-- A directory tree, by the paths below its root. -/
abbrev Tree := Bytes → Option Entry

/-- The content, where there is a file. -/
def fileContent : Option Entry → Option Bytes
  | some (.file content) => some content
  | _ => none

/-- How the calls for one entry go: a copy that fails may leave a part of the file. -/
inductive CopyOutcome where
  | done
  | refused
  | torn (content : Bytes)
  deriving DecidableEq

/-- One entry that the iteration shows, and whether it gets on from there. -/
structure Visit where
  path : Bytes
  entry : Entry
  outcome : CopyOutcome
  advanced : Bool
  deriving DecidableEq

/-- Whether an entry can take the place of what stands there. -/
def fits : Option Entry → Entry → Bool
  | _, .special => false
  | none, _ => true
  | some (.file _), .file _ => true
  | some .directory, .directory => true
  | _, _ => false

/-- The body of the loop, with `dest` as the destination. Where the iteration does not get
on, the loop ends as it does behind the last entry. -/
def copyEntries : List Visit → Tree → Bool × Tree
  | [], dest => (true, dest)
  | visit :: rest, dest =>
      match visit.entry, visit.outcome with
      | .special, _ => (false, dest)
      | _, .refused => (false, dest)
      | .directory, .torn _ => (false, dest)
      | .file _, .torn left =>
          (false, if fits (dest visit.path) (.file left) then Function.update dest visit.path (some (.file left)) else dest)
      | entry, .done =>
          if fits (dest visit.path) entry then
            let dest := Function.update dest visit.path (some entry)
            if visit.advanced then copyEntries rest dest else (true, dest)
          else (false, dest)

/-- How the calls of one copy go: whether the source is a directory and the destination can
be made, whether the iteration opens, and what it shows. -/
structure CopyCalls where
  ready : Bool
  opened : Bool
  visits : List Visit
  deriving DecidableEq

def copySiteTree (calls : CopyCalls) (dest : Tree) : Bool × Tree :=
  if !calls.ready then (false, dest)
  else if !calls.opened then (true, dest)
  else copyEntries calls.visits dest

/-! ## What a copy does -/

/-- The paths that the loop comes to. -/
def visited : List Visit → List Bytes
  | [] => []
  | visit :: rest => visit.path :: if visit.advanced then visited rest else []

def CopyCalls.reached (calls : CopyCalls) : List Bytes := if calls.opened then visited calls.visits else []

/-- The iteration shows the entries of the source. -/
def CopyCalls.Shows (calls : CopyCalls) (source : Tree) : Prop := ∀ visit ∈ calls.visits, source visit.path = some visit.entry

/-- A copy that succeeds lays what the loop comes to over the destination. -/
theorem copyEntries_ok {source : Tree} {visits : List Visit} (hShows : ∀ visit ∈ visits, source visit.path = some visit.entry)
    {dest dest' : Tree} (h : copyEntries visits dest = (true, dest')) :
    dest' = overlay (restrict (visited visits) source) dest ∧
      ∀ path ∈ visited visits, ∀ entry, source path = some entry → fits (dest path) entry = true := by
  induction visits generalizing dest with
  | nil =>
      obtain ⟨-, rfl⟩ := Prod.mk.inj h
      exact ⟨(overlay_within (within_none _)).symm, fun _ hMem => absurd hMem List.not_mem_nil⟩
  | cons visit rest ih =>
      obtain ⟨hSource, hRest⟩ := List.forall_mem_cons.mp hShows
      have hStep : fits (dest visit.path) visit.entry = true ∧
          (if visit.advanced then copyEntries rest (Function.update dest visit.path (some visit.entry))
            else (true, Function.update dest visit.path (some visit.entry))) = (true, dest') := by
        rw [copyEntries] at h
        split at h
        · cases (Prod.mk.inj h).1
        · cases (Prod.mk.inj h).1
        · cases (Prod.mk.inj h).1
        · cases (Prod.mk.inj h).1
        · split at h
          · next hFits => exact ⟨hFits, h⟩
          · cases (Prod.mk.inj h).1
      obtain ⟨hFits, hNext⟩ := hStep
      have hHead : ∀ entry, source visit.path = some entry → fits (dest visit.path) entry = true := by
        intro entry hEntry
        rw [hSource, Option.some_inj] at hEntry
        rwa [← hEntry]
      cases hAdvanced : visit.advanced with
      | false =>
          rw [hAdvanced] at hNext
          obtain ⟨-, rfl⟩ := Prod.mk.inj hNext
          have hVisited : visited (visit :: rest) = [visit.path] := by simp [visited, hAdvanced]
          rw [hVisited, overlay_restrict_cons _ hSource]
          refine ⟨(overlay_within (within_none _)).symm, ?_⟩
          exact List.forall_mem_singleton.mpr hHead
      | true =>
          rw [hAdvanced, if_pos rfl] at hNext
          obtain ⟨rfl, hOthers⟩ := ih hRest hNext
          have hVisited : visited (visit :: rest) = visit.path :: visited rest := by simp [visited, hAdvanced]
          rw [hVisited, overlay_restrict_cons _ hSource]
          refine ⟨rfl, List.forall_mem_cons.mpr ⟨hHead, ?_⟩⟩
          intro path hMem entry hEntry
          by_cases hSame : path = visit.path
          · rw [hSame] at hEntry ⊢
            exact hHead entry hEntry
          · rw [← Function.update_of_ne hSame (some visit.entry) dest]
            exact hOthers path hMem entry hEntry

theorem copySiteTree_ok {source : Tree} {calls : CopyCalls} (hShows : calls.Shows source) {dest dest' : Tree}
    (h : copySiteTree calls dest = (true, dest')) :
    dest' = overlay (restrict calls.reached source) dest ∧
      ∀ path ∈ calls.reached, ∀ entry, source path = some entry → fits (dest path) entry = true := by
  rw [copySiteTree] at h
  cases hReady : calls.ready with
  | false =>
      rw [hReady] at h
      cases (Prod.mk.inj h).1
  | true =>
      rw [hReady] at h
      rw [CopyCalls.reached]
      cases hOpened : calls.opened with
      | false =>
          rw [hOpened] at h
          obtain ⟨-, rfl⟩ := Prod.mk.inj h
          exact ⟨(overlay_within (within_none _)).symm, fun _ hMem => absurd hMem List.not_mem_nil⟩
      | true =>
          rw [hOpened] at h
          exact copyEntries_ok hShows h

theorem mem_visited {visits : List Visit} {path : Bytes} (h : path ∈ visited visits) : ∃ visit ∈ visits, visit.path = path := by
  induction visits with
  | nil => exact absurd h List.not_mem_nil
  | cons visit rest ih =>
      rw [visited, List.mem_cons] at h
      obtain rfl | hRest := h
      · exact ⟨visit, List.mem_cons_self, rfl⟩
      · split at hRest
        · obtain ⟨other, hMem, hPath⟩ := ih hRest
          exact ⟨other, List.mem_cons_of_mem _ hMem, hPath⟩
        · exact absurd hRest List.not_mem_nil

/-- What the loop comes to is there. -/
theorem CopyCalls.Shows.reached {calls : CopyCalls} {source : Tree} (h : calls.Shows source) {path : Bytes}
    (hMem : path ∈ calls.reached) : source path ≠ none := by
  rw [CopyCalls.reached] at hMem
  split at hMem
  · obtain ⟨visit, hVisit, rfl⟩ := mem_visited hMem
    rw [h visit hVisit]
    exact Option.some_ne_none _
  · exact absurd hMem List.not_mem_nil

/-! ## Whether a copy is whole -/

/-- Every file and every directory of a tree is in another one. -/
def Whole (source dest : Tree) : Prop := ∀ path entry, source path = some entry → entry ≠ .special → dest path = some entry

/-- The calls for the entries that the loop comes to work, and each entry can take the place
of what stands there. -/
def Works (dest : Tree) : List Visit → Prop
  | [] => True
  | visit :: rest =>
      visit.outcome = .done ∧ fits (dest visit.path) visit.entry = true ∧ (visit.advanced = true → Works dest rest)

def CopyCalls.Works (calls : CopyCalls) (dest : Tree) : Prop :=
  calls.ready = true ∧ (calls.opened = true → Backups.Works dest calls.visits)

theorem fits_self {before : Option Entry} {entry : Entry} (h : fits before entry = true) : fits (some entry) entry = true := by
  cases entry with
  | file => rfl
  | directory => rfl
  | special => cases before <;> cases h

/-- An entry that has been copied can be copied once more. -/
theorem works_update {source : Tree} {path : Bytes} {entry : Entry} {dest : Tree} (hSource : source path = some entry)
    (hFits : fits (dest path) entry = true) {visits : List Visit}
    (hShows : ∀ visit ∈ visits, source visit.path = some visit.entry) :
    Works (Function.update dest path (some entry)) visits ↔ Works dest visits := by
  induction visits with
  | nil => rfl
  | cons visit rest ih =>
      obtain ⟨hVisit, hRest⟩ := List.forall_mem_cons.mp hShows
      rw [Works, Works, ih hRest]
      by_cases hSame : visit.path = path
      · obtain rfl : entry = visit.entry := Option.some.inj (hSource.symm.trans (hSame ▸ hVisit))
        rw [hSame, Function.update_self, fits_self hFits, hFits]
      · rw [Function.update_of_ne hSame]

theorem copyEntries_fst {source : Tree} {visits : List Visit} (hShows : ∀ visit ∈ visits, source visit.path = some visit.entry)
    (dest : Tree) : (copyEntries visits dest).1 = true ↔ Works dest visits := by
  induction visits generalizing dest with
  | nil => simp [copyEntries, Works]
  | cons visit rest ih =>
      obtain ⟨hVisit, hRest⟩ := List.forall_mem_cons.mp hShows
      rw [Works]
      by_cases hDone : visit.outcome = .done
      · have hStep : copyEntries (visit :: rest) dest =
            if fits (dest visit.path) visit.entry = true then
              if visit.advanced = true then copyEntries rest (Function.update dest visit.path (some visit.entry))
              else (true, Function.update dest visit.path (some visit.entry))
            else (false, dest) := by
          rw [copyEntries, hDone]
          cases visit.entry <;> rfl
        rw [hStep]
        split_ifs with hFits hAdvanced
        · rw [ih hRest, works_update hVisit hFits hRest]
          simp [hDone, hAdvanced, hFits]
        · simp [hDone, hAdvanced, hFits]
        · simp [hFits]
      · have hFails : (copyEntries (visit :: rest) dest).1 = false := by
          rw [copyEntries]
          cases hOutcome : visit.outcome with
          | done => exact absurd hOutcome hDone
          | refused => cases visit.entry <;> rfl
          | torn => cases visit.entry <;> rfl
        simp [hFails, hDone]

theorem copySiteTree_fst {source : Tree} {calls : CopyCalls} (hShows : calls.Shows source) (dest : Tree) :
    (copySiteTree calls dest).1 = true ↔ calls.Works dest := by
  rw [copySiteTree, CopyCalls.Works]
  cases calls.ready with
  | false => simp
  | true =>
      cases calls.opened with
      | false => simp
      | true => simpa using copyEntries_fst hShows dest

/-- A copy that succeeds is whole if the destination had what the iteration did not come to. -/
theorem copySiteTree_whole_iff {source : Tree} {calls : CopyCalls} (hShows : calls.Shows source) (dest : Tree) :
    ((copySiteTree calls dest).1 = true → Whole source (copySiteTree calls dest).2) ↔
      (calls.Works dest → ∀ path entry, source path = some entry → entry ≠ .special → path ∉ calls.reached →
        dest path = some entry) := by
  rw [copySiteTree_fst hShows]
  refine imp_congr_right fun hWorks => ?_
  have hDest : (copySiteTree calls dest).2 = overlay (restrict calls.reached source) dest :=
    (copySiteTree_ok hShows (Prod.ext ((copySiteTree_fst hShows dest).mpr hWorks) rfl)).1
  rw [hDest]
  refine forall₂_congr fun path entry => forall₂_congr fun hEntry _ => ?_
  by_cases hReached : path ∈ calls.reached
  · simp [hReached, overlay_of_some ((restrict_of_mem hReached).trans hEntry)]
  · simp [hReached, overlay_of_none (restrict_of_notMem hReached)]

def twoFiles : Tree := fun path => if path ∈ [bytes "a", bytes "b"] then some (.file (bytes "x")) else none

/-- An iteration over two files, which may get on from the first of them or not. -/
def overTwoFiles (advanced : Bool) : CopyCalls where
  ready := true
  opened := true
  visits := [⟨bytes "a", .file (bytes "x"), .done, advanced⟩, ⟨bytes "b", .file (bytes "x"), .done, true⟩]

theorem copySiteTree_whole_iff_twoFiles :
    (copySiteTree (overTwoFiles true) fun _ => none).1 = true ∧
      Whole twoFiles (copySiteTree (overTwoFiles true) fun _ => none).2 := by
  have hShows : (overTwoFiles true).Shows twoFiles := by
    unfold CopyCalls.Shows
    decide
  have hDone : (copySiteTree (overTwoFiles true) fun _ => none).1 = true := by decide
  refine ⟨hDone, (copySiteTree_whole_iff hShows _).mpr (fun _ path entry hEntry _ hReached => absurd hEntry ?_) hDone⟩
  rw [twoFiles, if_neg (show path ∉ [bytes "a", bytes "b"] from hReached)]
  exact fun h => by cases h

/-- The error of an iteration that does not get on ends the loop as its end does. -/
theorem copySiteTree_cutShort :
    (copySiteTree (overTwoFiles false) fun _ => none).1 = true ∧ twoFiles (bytes "b") = some (.file (bytes "x")) ∧
      (copySiteTree (overTwoFiles false) fun _ => none).2 (bytes "b") = none := by
  decide

end ContainerCP.Backups
