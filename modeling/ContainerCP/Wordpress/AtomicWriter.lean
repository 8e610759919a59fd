import ContainerCP.Wordpress.ConfigFile
import Mathlib.Algebra.GroupWithZero.Nat

/-! `write_atomic_preserving_metadata`: the temporary file beside the configuration, what the
writer leaves at the path whichever call fails, and the calls that all have to work. -/
namespace ContainerCP.Wordpress

open Control Posix

/-! ## The temporary file -/

/-- The tree of the start, with perhaps a file in a place that was free. -/
structure Aside (start : Tree) (place : Path) (tree : Tree) : Prop where
  free : start.lookup place = none
  below : place ≠ []
  agrees : start.AgreesOff (· = place) tree
  leaf : Tree.Leaf (tree.lookup place)

/-- The temporary file is there, with some content and mode. -/
def Temp (start : Tree) (place : Path) (file : File) (tree : Tree) : Prop :=
  Aside start place tree ∧ tree.lookup place = some (.file file)

section Aside

variable {start tree tree' : Tree} {place path : Path} {file : File}

theorem Aside.locate (h : Aside start place tree) (path : Path) : tree.locate path = start.locate path := by
  have hFree : Tree.Leaf (start.lookup place) := by
    rw [h.free]
    exact Tree.leaf_none
  exact Tree.locate_congr h.agrees h.below hFree h.leaf path

/-- Other paths are not touched. -/
theorem Aside.lstat (h : Aside start place tree) (hOther : start.locate path ≠ some place) :
    tree.lstat path = start.lstat path := by
  rw [Tree.lstat, Tree.lstat, h.locate]
  split
  · rfl
  · cases hLocate : start.locate path with
    | none => rfl
    | some found =>
        have hFound : found ≠ place := by
          rintro rfl
          exact hOther hLocate
        exact h.agrees found hFound

theorem Aside.insert (h : Aside start place tree) (file : File) : Temp start place file (tree.insert place (.file file)) := by
  have hLookup : (tree.insert place (.file file)).lookup place = some (.file file) := AList.lookup_insert _
  refine ⟨⟨h.free, h.below, ?_, ?_⟩, hLookup⟩
  · intro p hp
    rw [Tree.agreesOff_insert place (.file file) p hp, h.agrees p hp]
  · rw [hLookup]
    exact Tree.leaf_file file

theorem Aside.erase (h : Aside start place tree) : Aside start place (tree.erase place) where
  free := h.free
  below := h.below
  agrees := fun p hp => by rw [Tree.agreesOff_erase place p hp, h.agrees p hp]
  leaf := by
    rw [AList.lookup_erase]
    exact Tree.leaf_none

variable {temp : Path} {data : Bytes} {mode : Nat}

theorem Temp.append (h : Temp start place file tree) (hTemp : start.locate temp = some place)
    (hAppend : tree.append temp data = .ok tree') : Temp start place ⟨file.content ++ data, file.mode⟩ tree' := by
  rw [Tree.append, Tree.atPlace, h.1.locate, hTemp] at hAppend
  simp only [h.2, Except.ok.injEq] at hAppend
  rw [← hAppend]
  exact h.1.insert _

theorem Temp.chmod (h : Temp start place file tree) (hTemp : start.locate temp = some place)
    (hChmod : tree.chmod temp mode = .ok tree') : Temp start place ⟨file.content, mode⟩ tree' := by
  rw [Tree.chmod, Tree.atPlace, h.1.locate, hTemp] at hChmod
  simp only [h.2, Except.ok.injEq] at hChmod
  rw [← hChmod]
  exact h.1.insert _

theorem Temp.append_ok (h : Temp start place file tree) (hTemp : start.locate temp = some place) (data : Bytes) :
    ∃ tree', tree.append temp data = .ok tree' ∧ Temp start place ⟨file.content ++ data, file.mode⟩ tree' := by
  have hOk : ∃ tree', tree.append temp data = .ok tree' := by
    rw [Tree.append, Tree.atPlace, h.1.locate, hTemp]
    simp only [h.2, Except.ok.injEq, exists_eq']
  exact hOk.imp fun _ hAppend => ⟨hAppend, h.append hTemp hAppend⟩

theorem Temp.chmod_ok (h : Temp start place file tree) (hTemp : start.locate temp = some place) (mode : Nat) :
    ∃ tree', tree.chmod temp mode = .ok tree' ∧ Temp start place ⟨file.content, mode⟩ tree' := by
  have hOk : ∃ tree', tree.chmod temp mode = .ok tree' := by
    rw [Tree.chmod, Tree.atPlace, h.1.locate, hTemp]
    simp only [h.2, Except.ok.injEq, exists_eq']
  exact hOk.imp fun _ hChmod => ⟨hChmod, h.chmod hTemp hChmod⟩

theorem Aside.unlink (h : Aside start place tree) (hTemp : start.locate temp = some place)
    (hUnlink : tree.unlink temp = .ok tree') : Aside start place tree' := by
  rw [Tree.unlink, Tree.atPlace, h.locate, hTemp] at hUnlink
  obtain hNone | ⟨file, hFile⟩ := h.leaf
  · simp [hNone] at hUnlink
  · simp only [hFile, Except.ok.injEq] at hUnlink
    rw [← hUnlink]
    exact h.erase

theorem temp_of_createNew (hTemp : start.locate temp = some place) (hCreate : start.createNew temp mode = .ok tree') :
    Temp start place ⟨[], mode⟩ tree' := by
  rw [Tree.createNew, Tree.atPlace, hTemp] at hCreate
  simp only at hCreate
  split at hCreate
  · cases hCreate
  · next hFree =>
    have hNone : start.lookup place = none := by simpa using hFree
    have hStart : Aside start place start :=
      ⟨hNone, Tree.locate_ne_nil hTemp, fun _ _ => rfl, by rw [hNone]; exact Tree.leaf_none⟩
    rw [← Except.ok.inj hCreate]
    exact hStart.insert _

theorem place_of_regular (h : isRegular (tree.lstat path) = true) :
    ∃ found old, tree.locate path = some found ∧ tree.lookup found = some (.file old) := by
  rw [Tree.lstat] at h
  split at h
  · cases h
  · cases hLocate : tree.locate path with
    | none => simp [hLocate, isRegular] at h
    | some found =>
        rw [hLocate, Option.bind_some] at h
        cases hNode : tree.lookup found with
        | none => simp [hNode, isRegular] at h
        | some node =>
            cases node with
            | file old => exact ⟨found, old, rfl, hNode⟩
            | directory => simp [hNode, isRegular] at h
            | link target => simp [hNode, isRegular] at h

/-- The tree of the start with another file in the place of one. -/
structure Swapped (start : Tree) (found : Path) (file : File) (tree : Tree) : Prop where
  below : found ≠ []
  old : ∃ old, start.lookup found = some (.file old)
  agrees : start.AgreesOff (· = found) tree
  held : tree.lookup found = some (.file file)

section Swapped

variable {found : Path} (h : Swapped start found file tree)
include h

theorem Swapped.locate (path : Path) : tree.locate path = start.locate path :=
  Tree.locate_congr h.agrees h.below (.inr h.old) (.inr ⟨file, h.held⟩) path

theorem Swapped.lstat (hFound : start.locate path = some found) : tree.lstat path = some (.file file) := by
  have hBelow : path ≠ [] := by
    rintro rfl
    cases hFound
  rw [Tree.lstat, if_neg hBelow, h.locate, hFound, Option.bind_some, h.held]

end Swapped

/-- The rename puts the temporary file in the place of the old one. -/
theorem Temp.rename_ok {found : Path} {old : File} (h : Temp start place file tree) (hTemp : start.locate temp = some place)
    (hFound : start.locate path = some found) (hNe : found ≠ place) (hOld : start.lookup found = some (.file old)) :
    ∃ tree', tree.rename temp path = .ok tree' ∧ Swapped start found file tree' := by
  have hHeld : tree.lookup found = some (.file old) := by rw [h.1.agrees found hNe, hOld]
  rw [Tree.rename, Tree.atPlace, h.1.locate, hTemp]
  simp only [Tree.atPlace, h.1.locate, hFound, h.2, hHeld, Option.some.injEq, reduceCtorEq, if_false]
  refine ⟨_, rfl, Tree.locate_ne_nil hFound, ⟨old, hOld⟩, fun p hp => ?_, AList.lookup_insert _⟩
  rw [Tree.agreesOff_insert found (.file file) p hp]
  by_cases hPlace : p = place
  · rw [hPlace, AList.lookup_erase, h.1.free]
  · rw [h.1.erase.agrees p hPlace]

/-- After the rename the path holds the temporary file. -/
theorem Temp.rename (h : Temp start place file tree) (hTemp : start.locate temp = some place)
    (hOther : start.locate path ≠ some place) (hRegular : isRegular (tree.lstat path) = true)
    (hRename : tree.rename temp path = .ok tree') : tree'.lstat path = some (.file file) := by
  rw [h.1.lstat hOther] at hRegular
  obtain ⟨found, old, hFound, hOld⟩ := place_of_regular hRegular
  have hNe : found ≠ place := by
    rintro rfl
    exact hOther hFound
  obtain ⟨swapped, hSwapped, hIs⟩ := h.rename_ok hTemp hFound hNe hOld
  obtain rfl : swapped = tree' := Except.ok.inj (hSwapped.symm.trans hRename)
  exact hIs.lstat hFound

end Aside

/-! ## One replacement -/

section Writer

variable {start : Tree} {place temp : Path} {caller : Caller} {oracle : ReplaceOracle}

/-- Nothing is said about a process that was stopped. -/
abbrev anyExit : Interrupt → Tree → Prop := fun _ _ => True

theorem spec_writeAll (hTemp : start.locate temp = some place) (left round : Nat) (data : Bytes) (file : File) :
    Spec (Temp start place file) (writeAll oracle temp left round data)
      (fun written tree =>
        if written then Temp start place ⟨file.content ++ data, file.mode⟩ tree else Aside start place tree)
      anyExit := by
  induction left generalizing round data file with
  | zero =>
      cases data with
      | nil => exact Spec.pure fun tree h => by simpa [writeAll] using h
      | cons c data => exact Spec.pure fun tree h => h.1
  | succ left ih =>
      cases data with
      | nil => exact Spec.pure fun tree h => by simpa [writeAll] using h
      | cons c data =>
          rw [writeAll]
          refine Spec.branch (fun _ => Spec.pure fun tree h => h.1) fun _ => ?_
          refine Spec.bind (fun written tree => if written
            then Temp start place ⟨file.content ++ (c :: data).take (oracle.taken round), file.mode⟩ tree
            else Aside start place tree) ?_ fun written => ?_
          · exact spec_attempt (fun _ _ => trivial) (fun tree h => h.1) fun tree tree' h hAppend => h.append hTemp hAppend
          · cases written with
            | false => exact Spec.pure fun tree h => h
            | true =>
                have hRest := ih (round + 1) ((c :: data).drop (oracle.taken round))
                  ⟨file.content ++ (c :: data).take (oracle.taken round), file.mode⟩
                simp only [List.append_assoc, List.take_append_drop] at hRest
                exact hRest

/-- What a step leaves that has an error code, or nothing, to say. -/
def Prepared (start : Tree) (place : Path) (file : File) (problem : Option Bytes) (tree : Tree) : Prop :=
  match problem with
  | none => Temp start place file tree
  | some _ => Aside start place tree

theorem spec_prepareTemp (hTemp : start.locate temp = some place) (content : Bytes) (mode opened : Nat) :
    Spec (Temp start place ⟨[], opened⟩) (prepareTemp caller oracle temp content mode)
      (Prepared start place ⟨content, caller.finalMode mode⟩) anyExit := by
  have hChmod : ∀ (verdict : Verdict) (before after : Nat),
      Spec (Temp start place ⟨content, before⟩) (attempt verdict (·.chmod temp after))
        (fun done tree => if done then Temp start place ⟨content, after⟩ tree else Aside start place tree) anyExit := by
    intro verdict before after
    exact spec_attempt (fun _ _ => trivial) (fun tree h => h.1) fun tree tree' h hDone => h.chmod hTemp hDone
  refine Spec.bind _ (spec_writeAll hTemp content.length 0 content ⟨[], opened⟩) fun written => ?_
  cases written with
  | false => exact Spec.pure fun tree h => h
  | true =>
      refine Spec.bind _ (hChmod oracle.chmods opened (caller.chmodMode mode)) fun chmodded => ?_
      cases chmodded with
      | false => exact Spec.pure fun tree h => h
      | true =>
          refine Spec.bind (fun (chowned : Bool) tree => if chowned
            then Temp start place ⟨content, caller.finalMode mode⟩ tree else Aside start place tree) ?_ fun chowned => ?_
          · refine Spec.branch (fun _ => hChmod oracle.chowns _ _) fun hUser => Spec.pure fun tree h => ?_
            simpa [Caller.finalMode, hUser] using h
          · cases chowned with
            | false => exact Spec.pure fun tree h => h
            | true =>
                refine Spec.bind (fun _ => Temp start place ⟨content, caller.finalMode mode⟩) ?_ fun synced => ?_
                · refine spec_attempt_keeps (fun _ _ => trivial) fun tree tree' h hSync => ?_
                  rw [← Except.ok.inj hSync]
                  exact h
                · cases synced with
                  | false => exact Spec.pure fun tree h => h.1
                  | true => exact Spec.pure fun tree h => h

theorem spec_abandon (hTemp : start.locate temp = some place) (code : Bytes) (P : Tree → Prop)
    (hAside : ∀ tree, Aside start place tree → P tree) :
    Spec (Aside start place) (abandon oracle temp code) (fun problem tree => problem = some code ∧ P tree) anyExit := by
  refine Spec.bind (fun _ => Aside start place) ?_ fun _ => Spec.pure fun tree h => ⟨rfl, hAside tree h⟩
  exact spec_attempt_keeps (fun _ _ => trivial) fun tree tree' h hUnlink => h.unlink hTemp hUnlink

/-- The temporary file does not have the name of the configuration. -/
theorem locate_makeTempPath {config : Path} (hTemp : start.locate (makeTempPath oracle config) = some place) :
    start.locate config ≠ some place := by
  intro hConfig
  obtain rfl | ⟨directory, name, rfl⟩ := List.eq_nil_or_concat' config
  · cases hConfig
  · rw [makeTempPath, List.dropLast_concat, List.getLast?_concat, Option.getD_some] at hTemp
    obtain ⟨found, hPlace, hBeside⟩ := Tree.locate_beside hTemp
    have hSame : found ++ [name] = place := Option.some.inj (hBeside.symm.trans hConfig)
    have hNames := List.append_cancel_left (hSame.trans hPlace)
    have hLength := congrArg (fun names : List Name => (names.map List.length).sum) hNames
    simp [bytes] at hLength
    omega

/-- What `write_atomic_preserving_metadata` leaves at the path. -/
def Written (start : Tree) (config : Path) (file : File) (problem : Option Bytes) (tree : Tree) : Prop :=
  match problem with
  | none => tree.lstat config = some (.file file)
  | some _ => tree.lstat config = start.lstat config

theorem spec_writeAtomicPreservingMetadata (caller : Caller) (oracle : ReplaceOracle) (start : Tree) (config : Path)
    (content : Bytes) (mode : Nat) :
    Spec (· = start) (writeAtomicPreservingMetadata caller oracle config content mode)
      (Written start config ⟨content, caller.finalMode mode⟩) anyExit := by
  rw [writeAtomicPreservingMetadata]
  cases hTemp : start.locate (makeTempPath oracle config) with
  | none =>
      -- without a place for the temporary file there is none
      refine Spec.bind (fun opened tree => opened = false ∧ tree = start) ?_ fun opened => ?_
      · refine spec_attempt (fun _ _ => trivial) (fun tree h => ⟨rfl, h⟩) fun tree tree' h hCreate => ?_
        rw [h, Tree.createNew, Tree.atPlace, hTemp] at hCreate
        cases hCreate
      · refine Spec.given (fun tree h => h.1) ?_
        rintro rfl
        exact Spec.pure fun tree h => congrArg (Tree.lstat · config) h.2
  | some place =>
      have hOther := locate_makeTempPath hTemp
      have hAside : ∀ tree, Aside start place tree → tree.lstat config = start.lstat config := fun tree h => h.lstat hOther
      have hAbandon : ∀ code, Spec (Aside start place) (abandon oracle (makeTempPath oracle config) code)
          (Written start config ⟨content, caller.finalMode mode⟩) anyExit := by
        intro code
        refine (spec_abandon hTemp code _ hAside).consequence (fun _ h => h) ?_ fun _ _ h => h
        rintro _ tree ⟨rfl, h⟩
        exact h
      refine Spec.bind (fun opened tree => if opened then Temp start place ⟨[], 0o600⟩ tree else tree = start) ?_
        fun opened => ?_
      · refine spec_attempt (fun _ _ => trivial) (fun tree h => h) fun tree tree' h hCreate => ?_
        rw [h] at hCreate
        exact temp_of_createNew hTemp hCreate
      cases opened with
      | false => exact Spec.pure fun tree h => congrArg (Tree.lstat · config) h
      | true =>
          refine Spec.bind _ (spec_prepareTemp hTemp content mode 0o600) fun problem => ?_
          refine Spec.bind (fun _ => Prepared start place ⟨content, caller.finalMode mode⟩ problem) ?_ fun closed => ?_
          · refine spec_attempt_keeps (fun _ _ => trivial) fun tree tree' h hClose => ?_
            rw [← Except.ok.inj hClose]
            exact h
          cases problem with
          | some code => exact hAbandon code
          | none =>
              cases closed with
              | false => exact (hAbandon _).consequence (fun _ h => h.1) (fun _ _ h => h) fun _ _ h => h
              | true =>
                  refine Spec.bind (fun regular tree => Temp start place ⟨content, caller.finalMode mode⟩ tree ∧
                    (regular = true → isRegular (tree.lstat config) = true)) ?_ fun regular => ?_
                  · exact spec_observe (fun _ _ => trivial) (fun tree h => ⟨h, by simp⟩) fun tree h => ⟨h, id⟩
                  cases regular with
                  | false => exact (hAbandon _).consequence (fun _ h => h.1.1) (fun _ _ h => h) fun _ _ h => h
                  | true =>
                      refine Spec.bind (fun renamed tree => if renamed
                        then tree.lstat config = some (.file ⟨content, caller.finalMode mode⟩)
                        else Aside start place tree) ?_ fun renamed => ?_
                      · exact spec_attempt (fun _ _ => trivial) (fun tree h => h.1.1) fun tree tree' h hRename =>
                          h.1.rename hTemp hOther (h.2 rfl) hRename
                      cases renamed with
                      | false => exact hAbandon _
                      | true => exact Spec.pure fun tree h => h

end Writer

/-! ## Calls that all work -/

section Lands

variable {start : Tree} {place temp : Path} {caller : Caller} {oracle : ReplaceOracle}

/-- From a round on the calls of `write` take so many bytes before one of them fails. -/
def Drains (oracle : ReplaceOracle) (round length : Nat) : Prop :=
  ∃ rounds, length ≤ ((List.range' round rounds).map oracle.taken).sum ∧
    ∀ later ∈ List.range' round rounds, oracle.writes later = .works ∧ 0 < oracle.taken later

theorem drains_iff {round length : Nat} (h : 0 < length) :
    Drains oracle round length ↔
      oracle.writes round = .works ∧ 0 < oracle.taken round ∧ Drains oracle (round + 1) (length - oracle.taken round) := by
  constructor
  · rintro ⟨rounds, hSum, hRounds⟩
    cases rounds with
    | zero => exact absurd hSum (by simpa using h.ne')
    | succ rounds =>
        rw [List.range'_succ] at hSum hRounds
        rw [List.map_cons, List.sum_cons] at hSum
        obtain ⟨⟨hWorks, hTaken⟩, hTail⟩ := List.forall_mem_cons.mp hRounds
        exact ⟨hWorks, hTaken, rounds, by omega, hTail⟩
  · rintro ⟨hWorks, hTaken, rounds, hSum, hRounds⟩
    refine ⟨rounds + 1, ?_, ?_⟩
    · rw [List.range'_succ, List.map_cons, List.sum_cons]
      omega
    · rw [List.range'_succ]
      exact List.forall_mem_cons.mpr ⟨⟨hWorks, hTaken⟩, hRounds⟩

theorem gives_writeAll (hTemp : start.locate temp = some place) {left round : Nat} {data : Bytes} {file : File}
    (hLeft : data.length ≤ left) (h : Drains oracle round data.length) :
    Gives (Temp start place file) (writeAll oracle temp left round data) true
      (Temp start place ⟨file.content ++ data, file.mode⟩) := by
  induction left generalizing round data file with
  | zero =>
      obtain rfl := List.length_eq_zero_iff.mp (Nat.le_zero.mp hLeft)
      exact Gives.pure fun tree hHeld => by simpa using hHeld
  | succ left ih =>
      cases data with
      | nil => exact Gives.pure fun tree hHeld => by simpa using hHeld
      | cons c data =>
          obtain ⟨hWorks, hTaken, hRest⟩ := (drains_iff (Nat.succ_pos _)).mp h
          simp only [writeAll, hTaken.ne', if_false]
          refine Gives.bind _ (gives_attempt hWorks fun tree hHeld => hHeld.append_ok hTemp _) ?_
          have hDrop : ((c :: data).drop (oracle.taken round)).length = (c :: data).length - oracle.taken round :=
            List.length_drop
          have hRounds := @ih (round + 1) ((c :: data).drop (oracle.taken round))
            ⟨file.content ++ (c :: data).take (oracle.taken round), file.mode⟩ (by rw [hDrop]; omega) (by rwa [hDrop])
          rwa [List.append_assoc, List.take_append_drop] at hRounds

theorem drains_of_writeAll {left round : Nat} {data : Bytes} {tree tree' : Tree}
    (h : Returns (writeAll oracle temp left round data) tree true tree') : Drains oracle round data.length := by
  induction left generalizing round data tree with
  | zero =>
      cases data with
      | nil => exact ⟨0, by simp, by simp⟩
      | cons c data => exact absurd (Returns.pure_iff.mp h).1 (by simp)
  | succ left ih =>
      cases data with
      | nil => exact ⟨0, by simp, by simp⟩
      | cons c data =>
          by_cases hTaken : oracle.taken round = 0
          · simp only [writeAll, hTaken, if_true] at h
            exact absurd (Returns.pure_iff.mp h).1 (by simp)
          · simp only [writeAll, hTaken, if_false] at h
            obtain ⟨hWorks, middle, -, hRest⟩ := works_of_guard
              (fun _ _ hFalse => absurd (Returns.pure_iff.mp hFalse).1 (by simp)) h
            have hLater := ih hRest
            rw [List.length_drop] at hLater
            exact (drains_iff (Nat.succ_pos _)).mpr ⟨hWorks, Nat.pos_of_ne_zero hTaken, hLater⟩

/-- The calls of a replacement work: there is a place for the temporary file, it takes the
whole content, and nothing that follows fails. -/
structure Lands (caller : Caller) (oracle : ReplaceOracle) (start : Tree) (config : Path) (content : Bytes) : Prop where
  opens : oracle.opens = .works
  free : ∃ place, start.locate (makeTempPath oracle config) = some place ∧ start.lookup place = none
  drains : Drains oracle 0 content.length
  chmods : oracle.chmods = .works
  chowns : caller = .root → oracle.chowns = .works
  syncs : oracle.syncs = .works
  closes : oracle.closes = .works
  stats : oracle.stats = .works
  renames : oracle.renames = .works

variable {config : Path} {content : Bytes} {mode : Nat}

theorem gives_prepareTemp (h : Lands caller oracle start config content)
    (hTemp : start.locate temp = some place) (opened : Nat) :
    Gives (Temp start place ⟨[], opened⟩) (prepareTemp caller oracle temp content mode) none
      (Temp start place ⟨content, caller.finalMode mode⟩) := by
  refine Gives.bind _ (gives_writeAll hTemp Nat.le.refl h.drains) ?_
  refine Gives.bind _ (gives_attempt h.chmods fun tree hHeld => hHeld.chmod_ok hTemp _) ?_
  have hChown : Gives (Temp start place ⟨content, caller.chmodMode mode⟩) (chownTemp caller oracle temp mode) true
      (Temp start place ⟨content, caller.finalMode mode⟩) := by
    rw [chownTemp]
    split
    · next hRoot => exact gives_attempt (h.chowns hRoot) fun tree hHeld => hHeld.chmod_ok hTemp _
    · next hUser => exact Gives.pure fun tree hHeld => by simpa [Caller.finalMode, hUser] using hHeld
  refine Gives.bind _ hChown ?_
  exact Gives.bind _ (gives_attempt h.syncs fun tree hHeld => ⟨tree, rfl, hHeld⟩) (Gives.pure fun _ hHeld => hHeld)

/-- A replacement whose calls work puts the new file in the place of the old one. -/
theorem gives_writeAtomicPreservingMetadata {found : Path} {old : File} (h : Lands caller oracle start config content)
    (hFound : start.locate config = some found) (hOld : start.lookup found = some (.file old)) (mode : Nat) :
    Gives (· = start) (writeAtomicPreservingMetadata caller oracle config content mode) none
      (Swapped start found ⟨content, caller.finalMode mode⟩) := by
  obtain ⟨place, hTemp, hFree⟩ := h.free
  have hOther := locate_makeTempPath hTemp
  have hNe : found ≠ place := by
    rintro rfl
    exact hOther hFound
  have hBelow : config ≠ [] := by
    rintro rfl
    cases hFound
  have hRegular : ∀ tree, Temp start place ⟨content, caller.finalMode mode⟩ tree → isRegular (tree.lstat config) = true := by
    intro tree hHeld
    rw [hHeld.1.lstat hOther, Tree.lstat, if_neg hBelow, hFound, Option.bind_some, hOld, isRegular]
  refine Gives.bind (Temp start place ⟨[], 0o600⟩) (gives_attempt h.opens ?_) ?_
  · rintro tree rfl
    have hCreate : ∃ tree', tree.createNew (makeTempPath oracle config) 0o600 = .ok tree' := by
      rw [Tree.createNew, Tree.atPlace, hTemp]
      simp [hFree]
    exact hCreate.imp fun _ hOk => ⟨hOk, temp_of_createNew hTemp hOk⟩
  refine Gives.bind _ (gives_prepareTemp h hTemp _) ?_
  refine Gives.bind _ (gives_attempt h.closes fun tree hHeld => ⟨tree, rfl, hHeld⟩) ?_
  refine Gives.bind _ (gives_observe h.stats hRegular) ?_
  exact Gives.bind _ (gives_attempt h.renames fun tree hHeld => hHeld.rename_ok hTemp hFound hNe hOld)
    (Gives.pure fun _ hSwapped => hSwapped)

variable {tree tree' : Tree}

theorem not_returns_code (code : Bytes) : ¬Returns (pure (some code) : Process (Option Bytes)) tree none tree' :=
  fun h => absurd (Returns.pure_iff.mp h).1 (by simp)

theorem not_returns_abandon (code : Bytes) : ¬Returns (abandon oracle temp code) tree none tree' := by
  intro h
  obtain ⟨_, _, _, hCode⟩ := Returns.bind_iff.mp h
  exact not_returns_code code hCode

/-- A temporary file that is ready is one whose calls worked. -/
theorem prepared_of_returns (h : Returns (prepareTemp caller oracle temp content mode) tree none tree') :
    Drains oracle 0 content.length ∧ oracle.chmods = .works ∧ (caller = .root → oracle.chowns = .works) ∧
      oracle.syncs = .works := by
  obtain ⟨written, filled, hWrite, h⟩ := Returns.bind_iff.mp h
  cases written with
  | false => exact absurd h (not_returns_code _)
  | true =>
      obtain ⟨hChmods, moded, -, h⟩ := works_of_guard (fun _ _ => not_returns_code _) h
      obtain ⟨chowned, owned, hChown, h⟩ := Returns.bind_iff.mp h
      cases chowned with
      | false => exact absurd h (not_returns_code _)
      | true =>
          obtain ⟨hSyncs, -⟩ := works_of_guard (fun _ _ => not_returns_code _) h
          refine ⟨drains_of_writeAll hWrite, hChmods, fun hRoot => ?_, hSyncs⟩
          rw [chownTemp, if_pos hRoot] at hChown
          exact (works_of_attempt hChown).1

theorem free_of_createNew (h : tree.createNew temp mode = .ok tree') :
    ∃ place, tree.locate temp = some place ∧ tree.lookup place = none := by
  rw [Tree.createNew, Tree.atPlace] at h
  cases hTemp : tree.locate temp with
  | none => simp [hTemp] at h
  | some place =>
      simp only [hTemp] at h
      split at h
      · cases h
      · next hNone => exact ⟨place, rfl, by simpa using hNone⟩

/-- A replacement that gives no error code is one whose calls work. -/
theorem lands_of_returns (h : Returns (writeAtomicPreservingMetadata caller oracle config content mode) start none tree) :
    Lands caller oracle start config content := by
  obtain ⟨hOpens, made, hCreate, h⟩ := works_of_guard (fun _ _ => not_returns_code _) h
  obtain ⟨problem, prepared, hPrepare, h⟩ := Returns.bind_iff.mp h
  obtain ⟨closed, after, hClose, h⟩ := Returns.bind_iff.mp h
  cases problem with
  | some code => exact absurd h (not_returns_abandon code)
  | none =>
      cases closed with
      | false => exact absurd h (not_returns_abandon _)
      | true =>
          obtain ⟨regular, looked, hLook, h⟩ := Returns.bind_iff.mp h
          cases regular with
          | false => exact absurd h (not_returns_abandon _)
          | true =>
              obtain ⟨hRenames, -⟩ := works_of_guard (fun _ _ => not_returns_abandon _) h
              obtain ⟨hDrains, hChmods, hChowns, hSyncs⟩ := prepared_of_returns hPrepare
              have hStats : oracle.stats = .works := by
                obtain ⟨hWorks, -⟩ | ⟨-, hFalse⟩ := (returns_observe hLook).2
                · exact hWorks
                · cases hFalse
              exact ⟨hOpens, free_of_createNew hCreate, hDrains, hChmods, hChowns, hSyncs, (works_of_attempt hClose).1,
                hStats, hRenames⟩

end Lands

end ContainerCP.Wordpress
