import Mathlib.Data.List.Count
import ContainerCP.Access.BindUnmount

/-! `LocalSftpProvider`: what becomes of the stored mounts when the daemon starts. -/
namespace ContainerCP.LocalSftp

open Posix Control

/-! ## The reconciliation -/

inductive Mark where
  | noted
  | reconciled
  | failure
  deriving DecidableEq

/-- An entry of the diagnostics, and what it counts as. -/
structure StartupNote where
  mark : Mark
  entry : Bytes
  deriving DecidableEq

def ManagedMountState.ident (mount : ManagedMountState) : Bytes :=
  bytes "u" ++ decimal mount.accessUserId ++ bytes "/s" ++ decimal mount.siteId

def ManagedMountState.failed (mount : ManagedMountState) (error : Bytes) : ManagedMountState :=
  { mount with state := .error, lastError := error }

def ManagedMountState.settled (mount : ManagedMountState) : ManagedMountState :=
  { mount with state := .active, lastError := [] }

/-- What is mounted at the target of a record is the bind of its source. -/
def Host.bindPresent (host : Host) (mount : ManagedMountState) : Bool :=
  (host.system.mountAt mount.targetPath).any fun found => isBind found && mountPathsEqual found.root mount.sourcePath

/-- Store a record, and note what was done. -/
def saveNoted (env : Env) (mount : ManagedMountState) (persist : Bytes) (mark : Mark) (entry : Bytes) :
    Sftp (Option StartupNote) := do
  if !(← run env .startup (.saveManagedMount mount)) then return some ⟨.failure, persist ++ mount.ident⟩
  else return some ⟨mark, entry⟩

/-- The branch of a record that is active. -/
def startActive (env : Env) (mount : ManagedMountState) : Sftp (Option StartupNote) := do
  let host ← get
  if (env.siteResolver mount.siteId).isNone then
    return some ⟨.noted, bytes "active:skip:" ++ mount.ident ++ bytes ":site"⟩
  else if host.bindPresent mount then return none
  else if (host.system.mountAt mount.targetPath).isNone then
    match ← bindMountSite env mount.accessUserId mount.siteId with
    | .ok _ =>
        saveNoted env { mount with lastError := [] } (bytes "active:recreate:persist:") .reconciled
          (bytes "active:recreated:" ++ mount.ident)
    | .error message =>
        saveNoted env (mount.failed message) (bytes "active:fail:persist:") .failure
          (bytes "active:fail:" ++ mount.ident ++ bytes ":" ++ message)
  else
    saveNoted env (mount.failed (bytes "foreign mount at target")) (bytes "active:foreign:persist:") .failure
      (bytes "active:foreign:" ++ mount.ident)

/-- The branch of a record that is being removed. -/
def startRemoving (env : Env) (mount : ManagedMountState) : Sftp (Option StartupNote) := do
  match ← unmountSite env .startup mount.accessUserId mount.siteId with
  | .ok _ =>
      if !(← run env .startup (.deleteManagedMount mount.accessUserId mount.siteId)) then
        return some ⟨.failure, bytes "removing:persist:" ++ mount.ident⟩
      else return some ⟨.reconciled, bytes "removing:done:" ++ mount.ident⟩
  | .error message =>
      saveNoted env (mount.failed message) (bytes "removing:fail:persist:") .failure
        (bytes "removing:fail:" ++ mount.ident)

/-- The branch of a record that was being applied. -/
def startApplying (env : Env) (mount : ManagedMountState) : Sftp (Option StartupNote) := do
  let host ← get
  if (env.siteResolver mount.siteId).isNone then
    return some ⟨.noted, bytes "applying:skip:" ++ mount.ident ++ bytes ":site"⟩
  else if host.bindPresent mount then
    saveNoted env mount.settled (bytes "applying:complete:persist:") .reconciled
      (bytes "applying:completed:" ++ mount.ident)
  else if (host.system.mountAt mount.targetPath).isSome then
    if ← command env .startup (.umount mount.targetPath) then
      saveNoted env (mount.failed (bytes "rolled back after crash")) (bytes "applying:rollback:persist:") .failure
        (bytes "applying:rolled_back:" ++ mount.ident)
    else
      let error := env.stderr (.command (.umount mount.targetPath))
      saveNoted env
        (mount.failed (bytes "rollback umount failed: " ++ if error = [] then bytes "command failed" else error))
        (bytes "applying:rollback_fail:persist:") .failure (bytes "applying:rollback_fail:" ++ mount.ident)
  else
    saveNoted env { mount with state := .pending, lastError := bytes "retry after crash" }
      (bytes "applying:retry:persist:") .reconciled (bytes "applying:retry:" ++ mount.ident)

/-- The branch of a record that waits. -/
def startPending (env : Env) (mount : ManagedMountState) : Sftp (Option StartupNote) := do
  if (env.siteResolver mount.siteId).isNone then
    return some ⟨.noted, bytes "pending:skip:" ++ mount.ident ++ bytes ":site"⟩
  else
    match ← bindMountSite env mount.accessUserId mount.siteId with
    | .ok _ =>
        saveNoted env mount.settled (bytes "pending:apply:persist:") .reconciled
          (bytes "pending:applied:" ++ mount.ident)
    | .error message =>
        saveNoted env (mount.failed message) (bytes "pending:fail:persist:") .failure
          (bytes "pending:fail:" ++ mount.ident)

/-- The branch of a record that failed before. -/
def startError (env : Env) (mount : ManagedMountState) : Sftp (Option StartupNote) := do
  if (← get).bindPresent mount then
    saveNoted env mount.settled (bytes "error:recover:persist:") .reconciled (bytes "error:recovered:" ++ mount.ident)
  else return none

/-- One turn of the loop of `reconcile_startup_mounts`. -/
def reconcileStartupMount (env : Env) (mount : ManagedMountState) : Sftp (Option StartupNote) :=
  match mount.state with
  | .active => startActive env mount
  | .removing => startRemoving env mount
  | .applying => startApplying env mount
  | .pending => startPending env mount
  | .error => startError env mount

def reconcileEach (env : Env) : List ManagedMountState → Sftp (List StartupNote)
  | [] => return []
  | mount :: rest => do
      let note ← reconcileStartupMount env mount
      let notes ← reconcileEach env rest
      return note.toList ++ notes

def startupResult (notes : List StartupNote) : OperationResult :=
  let failures := notes.countP fun note => note.mark = .failure
  let reconciled := notes.countP fun note => note.mark = .reconciled
  let diag := (bytes "; ").intercalate (notes.map StartupNote.entry)
  if 0 < failures then
    .error (bytes "reconcile_startup:" ++ decimal failures ++ bytes " failures, " ++ decimal reconciled ++
      bytes " fixed — " ++ diag)
  else
    .ok (bytes "reconcile_startup:" ++ decimal reconciled ++ bytes " fixed" ++
      if 0 < reconciled ∨ diag ≠ [] then bytes " — " ++ diag else [])

/-- `reconcile_startup_mounts`. -/
def reconcileStartupMounts (env : Env) : Sftp OperationResult := do
  let host ← get
  let notes ← reconcileEach env host.managed.rows
  return startupResult notes

/-! ## Turns -/

/-- The turn of a record: the host before and after it, and its note. -/
structure Turn where
  mount : ManagedMountState
  before : Host
  note : Option StartupNote
  after : Host

def turnsOf (env : Env) : List ManagedMountState → Host → List Turn
  | [], _ => []
  | mount :: rest, host =>
      match reconcileStartupMount env mount host with
      | .ok note after => ⟨mount, host, note, after⟩ :: turnsOf env rest after
      | .error _ _ => []

/-- The turns of all records that are stored when the daemon starts, as far as it lives. -/
def startupTurns (env : Env) (host : Host) : List Turn := turnsOf env host.managed.rows host

/-- The line is the bind of a record at its target. -/
def ManagedMountState.owns (mount : ManagedMountState) (line : Mount) : Bool :=
  line.target = mount.targetPath && isBind line && mountPathsEqual line.root mount.sourcePath

/-- Something else is mounted at the target of a record, alone or below or above its bind. -/
def Host.foreignAt (host : Host) (mount : ManagedMountState) : Prop :=
  ∃ line ∈ host.system.mounts, line.target = mount.targetPath ∧ mount.owns line = false

/-- The mount table has a line less after the turn. -/
def Turn.Unmounts (turn : Turn) (line : Mount) : Prop :=
  turn.after.system.mounts.count line < turn.before.system.mounts.count line

/-- Only the bind of the record is unmounted, and what else is at its target is reported. -/
structure Turn.Respects (turn : Turn) : Prop where
  unmounts : ∀ line, turn.Unmounts line → turn.mount.owns line = true
  reports : turn.before.foreignAt turn.mount → turn.note.isSome

variable {env : Env} {phase : Phase} {host host' : Host}

theorem reconcileEach_turns {mounts : List ManagedMountState} {notes : List StartupNote}
    (h : Returns (reconcileEach env mounts) host notes host') : notes = (turnsOf env mounts host).filterMap Turn.note := by
  induction mounts generalizing host host' notes with
  | nil =>
      obtain ⟨rfl, -⟩ := Returns.pure_iff.mp h
      rfl
  | cons mount rest ih =>
      unfold reconcileEach at h
      rw [Returns.bind_iff] at h
      obtain ⟨note, middle, hTurn, h⟩ := h
      rw [Returns.bind_iff] at h
      obtain ⟨others, last, hRest, h⟩ := h
      obtain ⟨rfl, -⟩ := Returns.pure_iff.mp h
      unfold Returns at hTurn
      rw [turnsOf, hTurn, ih hRest]
      cases note with
      | none => rfl
      | some note => rfl

/-- The result is made of the notes of the turns. -/
theorem reconcileStartupMounts_turns {result : OperationResult}
    (h : Returns (reconcileStartupMounts env) host result host') :
    result = startupResult ((startupTurns env host).filterMap Turn.note) := by
  unfold reconcileStartupMounts at h
  rw [Returns.get_bind_iff, Returns.bind_iff] at h
  obtain ⟨notes, middle, hEach, h⟩ := h
  obtain ⟨rfl, -⟩ := Returns.pure_iff.mp h
  rw [reconcileEach_turns hEach]
  rfl

/-! ## What the calls do to the mount table -/

section

variable {α : Type} [DecidableEq α] {p : α → Bool} {list : List α}

/-- The last element with a property is taken out, and no other. -/
theorem count_eraseLast_lt_iff {x : α} (h : list.reverse.find? p = some x) (y : α) :
    (eraseLast p list).count y < list.count y ↔ y = x := by
  obtain ⟨hX, front, back, hList, hFront⟩ := List.find?_eq_some_iff_append.mp h
  have hCount : list.count y = (front ++ x :: back).count y := by rw [← hList, List.count_reverse]
  have hErased : list.reverse.eraseP p = front ++ back := by
    rw [hList, List.eraseP_append_right _ fun z hz => by simpa using hFront z hz, List.eraseP_cons_of_pos hX]
  rw [eraseLast, List.count_reverse, hErased, hCount, List.count_append, List.count_append, List.count_cons]
  by_cases hSame : y = x
  · simp [hSame]
  · simp [hSame, Ne.symm hSame]

end

/-- A call works and is performed, or it leaves the host alone. -/
theorem run_cases {call : Call} {ok : Bool} (h : Returns (run env phase call) host ok host') :
    (ok = true ∧ env.verdict phase call = .works ∧ host.perform env call = some host') ∨
    (ok = false ∧ host' = host ∧ (env.verdict phase call ≠ .works ∨ host.perform env call = none)) := by
  unfold Returns run at h
  cases hVerdict : env.verdict phase call with
  | stops =>
      rw [hVerdict] at h
      cases h
  | fails =>
      rw [hVerdict] at h
      cases h
      exact .inr ⟨rfl, rfl, .inl (by decide)⟩
  | works =>
      rw [hVerdict] at h
      cases hPerform : host.perform env call with
      | none =>
          rw [hPerform] at h
          cases h
          exact .inr ⟨rfl, rfl, .inr rfl⟩
      | some after =>
          rw [hPerform] at h
          cases h
          exact .inl ⟨rfl, rfl, rfl⟩

/-- No line is gone. -/
def Keeps (host host' : Host) : Prop := ∀ line, host.system.mounts.count line ≤ host'.system.mounts.count line

theorem Keeps.of_eq (h : host'.system.mounts = host.system.mounts) : Keeps host host' :=
  fun line => Nat.le_of_eq (by rw [h])

theorem Keeps.of_append {lines : List Mount} (h : host'.system.mounts = host.system.mounts ++ lines) : Keeps host host' := by
  intro line
  rw [h, List.count_append]
  exact Nat.le_add_right _ _

/-- An `umount` of the path works. -/
def Host.unmountable (host : Host) (env : Env) (phase : Phase) (path : Bytes) : Bool :=
  env.verdict phase (.command (.umount path)) = .works &&
    host.system.mounts.any fun line => line.target = env.kernel.realpath path

/-- The last line of the mount table for a path, which is the one that an `umount` takes. -/
def Host.topAt (host : Host) (path : Bytes) : Option Mount :=
  host.system.mounts.reverse.find? fun line => line.target = path

theorem perform_umount (env : Env) (host : Host) (path : Bytes) :
    host.perform env (.command (.umount path)) =
      if host.system.mounts.any fun line => line.target = env.kernel.realpath path then
        some { host with
          system := { host.system with
            mounts := eraseLast (fun line => line.target = env.kernel.realpath path) host.system.mounts } }
      else none := by
  rw [Host.perform, System.execute]
  split <;> rfl

theorem umount_cases {path : Bytes} {ok : Bool} (h : Returns (command env phase (.umount path)) host ok host') :
    (ok = true ∧ host.unmountable env phase path = true ∧
      host'.system.mounts = eraseLast (fun line => line.target = env.kernel.realpath path) host.system.mounts) ∨
    (ok = false ∧ host.unmountable env phase path = false ∧ host' = host) := by
  rw [Host.unmountable]
  obtain ⟨rfl, hVerdict, hPerform⟩ | ⟨rfl, rfl, hVerdict | hPerform⟩ := run_cases h
  · rw [perform_umount] at hPerform
    split at hPerform
    · next hLine =>
        injection hPerform with hHost
        subst hHost
        exact .inl ⟨rfl, by rw [hVerdict, hLine]; rfl, rfl⟩
    · cases hPerform
  · exact .inr ⟨rfl, by rw [decide_eq_false hVerdict]; rfl, rfl⟩
  · rw [perform_umount] at hPerform
    split at hPerform
    · cases hPerform
    · next hLine => exact .inr ⟨rfl, by rw [Bool.eq_false_iff.mpr hLine, Bool.and_false], rfl⟩

theorem mkdirP_mounts {path : Bytes} {ok : Bool} (h : Returns (command env phase (.mkdirP path)) host ok host') :
    host'.system.mounts = host.system.mounts := by
  obtain ⟨-, -, hPerform⟩ | ⟨-, rfl, -⟩ := run_cases h
  · rw [Host.perform, System.execute] at hPerform
    split at hPerform
    · cases hPerform
    · injection hPerform with hHost
      subst hHost
      rfl
  · rfl

theorem mountBind_cases {source target : Bytes} {ok : Bool}
    (h : Returns (command env phase (.mountBind source target)) host ok host') :
    (ok = true ∧ ∃ line : Mount, line.target = env.kernel.realpath target ∧
      host'.system.mounts = host.system.mounts ++ [line]) ∨
    (ok = false ∧ host' = host) := by
  obtain ⟨rfl, -, hPerform⟩ | ⟨rfl, rfl, -⟩ := run_cases h
  · rw [Host.perform, System.execute] at hPerform
    split at hPerform
    · injection hPerform with hHost
      subst hHost
      exact .inl ⟨rfl, _, rfl, rfl⟩
    · cases hPerform
  · exact .inr ⟨rfl, rfl⟩

theorem saveNoted_some {mount : ManagedMountState} {persist entry : Bytes} {mark : Mark} {note : Option StartupNote}
    (h : Returns (saveNoted env mount persist mark entry) host note host') :
    host'.system = host.system ∧ note.isSome = true := by
  unfold saveNoted at h
  rw [Returns.bind_iff] at h
  obtain ⟨ok, middle, hSave, h⟩ := h
  have hSystem : middle.system = host.system := by
    obtain ⟨-, -, hPerform⟩ | ⟨-, rfl, -⟩ := run_cases hSave
    · injection hPerform with hHost
      subst hHost
      rfl
    · rfl
  split at h
  · obtain ⟨rfl, rfl⟩ := Returns.pure_iff.mp h
    exact ⟨hSystem, rfl⟩
  · obtain ⟨rfl, rfl⟩ := Returns.pure_iff.mp h
    exact ⟨hSystem, rfl⟩

/-! ## Bind mounts -/

/-- No target is ever removed, and nothing else is done to the host either. -/
theorem safeRmdir_host {target username domain : Bytes} {createdByUs : Bool} {result : OperationResult}
    (h : Returns (safeRmdir env phase target createdByUs username domain) host result host') : host' = host := by
  unfold safeRmdir at h
  rw [Returns.get_bind_iff] at h
  simp only [inspect_no_directory, Bool.not_false, ite_true] at h
  split at h
  · exact (Returns.pure_iff.mp h).2
  · split at h
    · exact (Returns.pure_iff.mp h).2
    · split at h
      · exact (Returns.pure_iff.mp h).2
      · split at h
        · exact (Returns.pure_iff.mp h).2
        · exact (Returns.pure_iff.mp h).2

theorem undoMkdir_host {target username domain error : Bytes} {dirCreated : Bool} {result : OperationResult}
    (h : Returns (undoMkdir env target dirCreated username domain error) host result host') : host' = host := by
  unfold undoMkdir at h
  split at h
  · rw [Returns.bind_iff] at h
    obtain ⟨removed, middle, hRemoved, h⟩ := h
    obtain ⟨message, rfl⟩ := safeRmdir_refuses hRemoved
    obtain rfl := safeRmdir_host hRemoved
    exact (Returns.pure_iff.mp h).2
  · exact (Returns.pure_iff.mp h).2

/-- What is undone is the line that was just added. -/
theorem undoMount_keeps {target username domain : Bytes} {dirCreated : Bool} {result : OperationResult} {line : Mount}
    {middle : Host} (hLine : line.target = env.kernel.realpath target)
    (hMounts : middle.system.mounts = host.system.mounts ++ [line])
    (h : Returns (undoMount env target dirCreated username domain) middle result host') : Keeps host host' := by
  unfold undoMount at h
  rw [Returns.bind_iff] at h
  obtain ⟨ok, after, hUmount, h⟩ := h
  have hAfter : Keeps host after := by
    obtain ⟨-, -, hErased⟩ | ⟨-, -, rfl⟩ := umount_cases hUmount
    · rw [hMounts] at hErased
      have hBack : eraseLast (fun line => line.target = env.kernel.realpath target) (host.system.mounts ++ [line]) =
          host.system.mounts := by
        apply eraseLast_append
        exact decide_eq_true hLine
      exact .of_eq (hErased.trans hBack)
    · exact .of_append hMounts
  split at h
  · exact (Returns.pure_iff.mp h).2 ▸ hAfter
  · rw [Returns.get_bind_iff] at h
    split at h
    · exact (Returns.pure_iff.mp h).2 ▸ hAfter
    · split at h
      · rw [Returns.bind_iff] at h
        obtain ⟨removed, last, hRemoved, h⟩ := h
        obtain ⟨message, rfl⟩ := safeRmdir_refuses hRemoved
        obtain rfl := safeRmdir_host hRemoved
        exact (Returns.pure_iff.mp h).2 ▸ hAfter
      · exact (Returns.pure_iff.mp h).2 ▸ hAfter

theorem makeMount_keeps {username : Name} {info : SiteInfo} {result : OperationResult}
    (h : Returns (makeMount env username info) host result host') : Keeps host host' := by
  unfold makeMount at h
  rw [Returns.get_bind_iff, Returns.bind_iff] at h
  obtain ⟨made, middle, hMake, h⟩ := h
  have hMiddle := mkdirP_mounts hMake
  split at h
  · exact (Returns.pure_iff.mp h).2 ▸ .of_eq hMiddle
  · rw [Returns.bind_iff] at h
    obtain ⟨mounted, after, hMount, h⟩ := h
    obtain ⟨rfl, line, hLine, hMounts⟩ | ⟨rfl, rfl⟩ := mountBind_cases hMount
    · rw [hMiddle] at hMounts
      rw [if_neg (by decide), Returns.get_bind_iff] at h
      split at h
      · exact undoMount_keeps hLine hMounts h
      · split at h
        · exact undoMount_keeps hLine hMounts h
        · exact (Returns.pure_iff.mp h).2 ▸ .of_append hMounts
    · rw [if_pos (by decide)] at h
      exact undoMkdir_host h ▸ .of_eq hMiddle

theorem bindMountSite_keeps {user site : Nat} {result : OperationResult}
    (h : Returns (bindMountSite env user site) host result host') : Keeps host host' := by
  have hSame : ∀ {result : OperationResult} {value : OperationResult},
      Returns (pure value : Sftp OperationResult) host result host' → Keeps host host' :=
    fun h => .of_eq (by rw [(Returns.pure_iff.mp h).2])
  unfold bindMountSite at h
  rw [Returns.get_bind_iff] at h
  split at h
  · exact hSame h
  · split at h
    · exact hSame h
    · split at h
      · exact hSame h
      · split at h
        · exact makeMount_keeps h
        · split at h
          · exact hSame h
          · split at h
            · exact hSame h
            · exact hSame h

/-! ## Unmounts -/

/-- Where `unmount_site` finds the mount that it expects. -/
def Host.expectedMount (host : Host) (env : Env) (user site : Nat) : Option Bytes :=
  if site = 0 then none
  else
    (host.accounts.resolveUsername user).bind fun username =>
      (env.siteResolver site).bind fun info =>
        let target := env.target username (lastComponent info.root)
        if (host.system.mountAt target).any fun existing => (mountMismatch existing target info.publicDir).isNone then
          some target
        else none

theorem takeMount_cases {username : Name} {info : SiteInfo} {result : OperationResult}
    (h : Returns (takeMount env phase username info) host result host') :
    (host.unmountable env phase (env.target username (lastComponent info.root)) = true ∧
      host'.system.mounts = eraseLast
        (fun line => line.target = env.kernel.realpath (env.target username (lastComponent info.root)))
        host.system.mounts) ∨
    (host.unmountable env phase (env.target username (lastComponent info.root)) = false ∧ host' = host) := by
  unfold takeMount at h
  rw [Returns.bind_iff] at h
  obtain ⟨ok, middle, hUmount, h⟩ := h
  obtain ⟨rfl, hWorks, hErased⟩ | ⟨rfl, hRefused, rfl⟩ := umount_cases hUmount
  · rw [if_neg (by decide), Returns.get_bind_iff] at h
    refine .inl ⟨hWorks, hErased ▸ ?_⟩
    split at h
    · split at h
      · rw [(Returns.pure_iff.mp h).2]
      · rw [(Returns.pure_iff.mp h).2]
    · rw [Returns.bind_iff] at h
      obtain ⟨removed, after, hRemoved, h⟩ := h
      obtain ⟨message, rfl⟩ := safeRmdir_refuses hRemoved
      obtain rfl := safeRmdir_host hRemoved
      rw [(Returns.pure_iff.mp h).2]
  · rw [if_pos (by decide)] at h
    exact .inr ⟨hRefused, (Returns.pure_iff.mp h).2⟩

/-- An unmount takes a line away where it finds what it expects and `umount` works, and
nowhere else. -/
theorem unmountSite_cases {user site : Nat} {result : OperationResult}
    (h : Returns (unmountSite env phase user site) host result host') :
    (∃ target, host.expectedMount env user site = some target ∧ host.unmountable env phase target = true ∧
      host'.system.mounts = eraseLast (fun line => line.target = env.kernel.realpath target) host.system.mounts) ∨
    ((∀ target, host.expectedMount env user site = some target → host.unmountable env phase target = false) ∧
      host' = host) := by
  unfold unmountSite at h
  rw [Returns.get_bind_iff] at h
  unfold Host.expectedMount
  split at h
  · next hPanel =>
      rw [if_pos hPanel]
      exact .inr ⟨by rintro target ⟨⟩, (Returns.pure_iff.mp h).2⟩
  · next hPanel =>
    rw [if_neg hPanel]
    split at h
    · next hName =>
        rw [hName]
        exact .inr ⟨by rintro target ⟨⟩, (Returns.pure_iff.mp h).2⟩
    · next username hName =>
      rw [hName, Option.bind_some]
      split at h
      · next hSite =>
          rw [hSite]
          exact .inr ⟨by rintro target ⟨⟩, (Returns.pure_iff.mp h).2⟩
      · next info hSite =>
        rw [hSite, Option.bind_some]
        dsimp only at h ⊢
        split at h
        · next hMount =>
            rw [hMount]
            exact .inr ⟨by rintro target ⟨⟩, (Returns.pure_iff.mp h).2⟩
        · next existing hMount =>
          rw [hMount, Option.any_some]
          split at h
          · next reason hMismatch =>
              rw [hMismatch]
              exact .inr ⟨by rintro target ⟨⟩, (Returns.pure_iff.mp h).2⟩
          · next hMatch =>
              rw [hMatch]
              obtain ⟨hWorks, hErased⟩ | ⟨hRefused, rfl⟩ := takeMount_cases h
              · exact .inl ⟨_, rfl, hWorks, hErased⟩
              · refine .inr ⟨fun target hTarget => ?_, rfl⟩
                injection hTarget with hTarget
                rw [← hTarget, hRefused]

/-! ## When a turn respects what it finds -/

/-- What unmounts, in the turn of a record, something else than the bind of the record, or
passes over it in silence. -/
def Spoils (env : Env) (mount : ManagedMountState) (host : Host) : Prop :=
  match mount.state with
  | .active => (env.siteResolver mount.siteId).isSome ∧ host.bindPresent mount = true ∧ host.foreignAt mount
  | .applying =>
      (env.siteResolver mount.siteId).isSome ∧ host.bindPresent mount = false ∧
        (host.system.mountAt mount.targetPath).isSome ∧ host.unmountable env .startup mount.targetPath = true ∧
        (host.topAt (env.kernel.realpath mount.targetPath)).all mount.owns = false
  | .removing =>
      ∃ target, host.expectedMount env mount.accessUserId mount.siteId = some target ∧
        host.unmountable env .startup target = true ∧ (host.topAt (env.kernel.realpath target)).all mount.owns = false
  | .error => host.bindPresent mount = false ∧ host.foreignAt mount
  | .pending => False

variable {mount : ManagedMountState} {note : Option StartupNote}

theorem Turn.respects_of_keeps (hKeeps : Keeps host host') (hNote : host.foreignAt mount → note.isSome) :
    Turn.Respects ⟨mount, host, note, host'⟩ where
  unmounts := fun line hLine => absurd hLine (Nat.not_lt.mpr (hKeeps line))
  reports := hNote

/-- A turn that takes the last line of a path and says something is right if that line is the
bind of the record. -/
theorem Turn.respects_of_erased {path : Bytes} (hWorks : host.unmountable env phase path = true)
    (hErased : host'.system.mounts = eraseLast (fun line => line.target = env.kernel.realpath path) host.system.mounts)
    (hNote : note.isSome = true) :
    Turn.Respects ⟨mount, host, note, host'⟩ ↔ (host.topAt (env.kernel.realpath path)).all mount.owns = true := by
  have hSome : (host.topAt (env.kernel.realpath path)).isSome = true := by
    rw [Host.topAt, List.find?_isSome]
    simpa using List.any_eq_true.mp (Bool.and_eq_true_iff.mp hWorks).2
  obtain ⟨line, hLine⟩ := Option.isSome_iff_exists.mp hSome
  have hLost : ∀ other, Turn.Unmounts ⟨mount, host, note, host'⟩ other ↔ other = line := by
    intro other
    rw [Turn.Unmounts, hErased]
    exact count_eraseLast_lt_iff hLine other
  rw [hLine, Option.all_some]
  exact ⟨fun hRespects => hRespects.unmounts line ((hLost line).mpr rfl),
    fun hOwn => ⟨fun other hOther => (hLost other).mp hOther ▸ hOwn, fun _ => hNote⟩⟩

theorem startActive_respects_iff (h : Returns (startActive env mount) host note host') :
    Turn.Respects ⟨mount, host, note, host'⟩ ↔
      ¬((env.siteResolver mount.siteId).isSome ∧ host.bindPresent mount = true ∧ host.foreignAt mount) := by
  unfold startActive at h
  rw [Returns.get_bind_iff] at h
  split at h
  · next hSite =>
      obtain ⟨rfl, rfl⟩ := Returns.pure_iff.mp h
      refine iff_of_true (Turn.respects_of_keeps (.of_eq rfl) fun _ => rfl) fun hSpoils => ?_
      rw [Option.isNone_iff_eq_none.mp hSite] at hSpoils
      cases hSpoils.1
  · next hSite =>
    split at h
    · next hPresent =>
        obtain ⟨rfl, rfl⟩ := Returns.pure_iff.mp h
        have hSome : (env.siteResolver mount.siteId).isSome :=
          Option.isSome_iff_ne_none.mpr fun hNone => hSite (Option.isNone_iff_eq_none.mpr hNone)
        constructor
        · intro hRespects hSpoils
          cases hRespects.reports hSpoils.2.2
        · exact fun hOwn => Turn.respects_of_keeps (.of_eq rfl) fun hForeign => absurd ⟨hSome, hPresent, hForeign⟩ hOwn
    · next hAbsent =>
      refine iff_of_true ?_ fun hSpoils => hAbsent hSpoils.2.1
      split at h
      · rw [Returns.bind_iff] at h
        obtain ⟨bound, middle, hBind, h⟩ := h
        have hMiddle := bindMountSite_keeps hBind
        split at h
        · obtain ⟨hSystem, hNote⟩ := saveNoted_some h
          exact Turn.respects_of_keeps (by rw [Keeps, hSystem]; exact hMiddle) fun _ => hNote
        · obtain ⟨hSystem, hNote⟩ := saveNoted_some h
          exact Turn.respects_of_keeps (by rw [Keeps, hSystem]; exact hMiddle) fun _ => hNote
      · obtain ⟨hSystem, hNote⟩ := saveNoted_some h
        exact Turn.respects_of_keeps (.of_eq (by rw [hSystem])) fun _ => hNote

theorem startPending_respects (h : Returns (startPending env mount) host note host') :
    Turn.Respects ⟨mount, host, note, host'⟩ := by
  unfold startPending at h
  split at h
  · obtain ⟨rfl, rfl⟩ := Returns.pure_iff.mp h
    exact Turn.respects_of_keeps (.of_eq rfl) fun _ => rfl
  · rw [Returns.bind_iff] at h
    obtain ⟨bound, middle, hBind, h⟩ := h
    have hMiddle := bindMountSite_keeps hBind
    split at h
    · obtain ⟨hSystem, hNote⟩ := saveNoted_some h
      exact Turn.respects_of_keeps (by rw [Keeps, hSystem]; exact hMiddle) fun _ => hNote
    · obtain ⟨hSystem, hNote⟩ := saveNoted_some h
      exact Turn.respects_of_keeps (by rw [Keeps, hSystem]; exact hMiddle) fun _ => hNote

theorem startError_respects_iff (h : Returns (startError env mount) host note host') :
    Turn.Respects ⟨mount, host, note, host'⟩ ↔ ¬(host.bindPresent mount = false ∧ host.foreignAt mount) := by
  unfold startError at h
  rw [Returns.get_bind_iff] at h
  split at h
  · next hPresent =>
      obtain ⟨hSystem, hNote⟩ := saveNoted_some h
      refine iff_of_true (Turn.respects_of_keeps (.of_eq (by rw [hSystem])) fun _ => hNote) fun hSpoils => ?_
      rw [hSpoils.1] at hPresent
      cases hPresent
  · next hAbsent =>
      obtain ⟨rfl, rfl⟩ := Returns.pure_iff.mp h
      constructor
      · intro hRespects hSpoils
        cases hRespects.reports hSpoils.2
      · exact fun hOwn => Turn.respects_of_keeps (.of_eq rfl) fun hForeign =>
          absurd ⟨Bool.eq_false_iff.mpr hAbsent, hForeign⟩ hOwn

theorem startApplying_respects_iff (h : Returns (startApplying env mount) host note host') :
    Turn.Respects ⟨mount, host, note, host'⟩ ↔
      ¬((env.siteResolver mount.siteId).isSome ∧ host.bindPresent mount = false ∧
        (host.system.mountAt mount.targetPath).isSome ∧ host.unmountable env .startup mount.targetPath = true ∧
        (host.topAt (env.kernel.realpath mount.targetPath)).all mount.owns = false) := by
  unfold startApplying at h
  rw [Returns.get_bind_iff] at h
  split at h
  · next hSite =>
      obtain ⟨rfl, rfl⟩ := Returns.pure_iff.mp h
      refine iff_of_true (Turn.respects_of_keeps (.of_eq rfl) fun _ => rfl) fun hSpoils => ?_
      rw [Option.isNone_iff_eq_none.mp hSite] at hSpoils
      cases hSpoils.1
  · next hSite =>
    split at h
    · next hPresent =>
        obtain ⟨hSystem, hNote⟩ := saveNoted_some h
        refine iff_of_true (Turn.respects_of_keeps (.of_eq (by rw [hSystem])) fun _ => hNote) fun hSpoils => ?_
        rw [hSpoils.2.1] at hPresent
        cases hPresent
    · next hAbsent =>
      split at h
      · next hFound =>
        rw [Returns.bind_iff] at h
        obtain ⟨ok, middle, hUmount, h⟩ := h
        obtain ⟨rfl, hWorks, hErased⟩ | ⟨rfl, hRefused, rfl⟩ := umount_cases hUmount
        · rw [if_pos rfl] at h
          obtain ⟨hSystem, hNote⟩ := saveNoted_some h
          rw [← hSystem] at hErased
          have hSome : (env.siteResolver mount.siteId).isSome :=
            Option.isSome_iff_ne_none.mpr fun hNone => hSite (Option.isNone_iff_eq_none.mpr hNone)
          rw [Turn.respects_of_erased hWorks hErased hNote]
          simp [hSome, Bool.eq_false_iff.mpr hAbsent, hFound, hWorks]
        · rw [if_neg (by decide)] at h
          obtain ⟨hSystem, hNote⟩ := saveNoted_some h
          refine iff_of_true (Turn.respects_of_keeps (.of_eq (by rw [hSystem])) fun _ => hNote) fun hSpoils => ?_
          rw [hRefused] at hSpoils
          cases hSpoils.2.2.2.1
      · next hFree =>
          obtain ⟨hSystem, hNote⟩ := saveNoted_some h
          exact iff_of_true (Turn.respects_of_keeps (.of_eq (by rw [hSystem])) fun _ => hNote)
            fun hSpoils => hFree hSpoils.2.2.1

theorem startRemoving_noted (h : Returns (startRemoving env mount) host note host') :
    ∃ result middle, Returns (unmountSite env .startup mount.accessUserId mount.siteId) host result middle ∧
      host'.system = middle.system ∧ note.isSome = true := by
  unfold startRemoving at h
  rw [Returns.bind_iff] at h
  obtain ⟨result, middle, hUnmount, h⟩ := h
  refine ⟨result, middle, hUnmount, ?_⟩
  split at h
  · rw [Returns.bind_iff] at h
    obtain ⟨ok, last, hDelete, h⟩ := h
    have hSystem : last.system = middle.system := by
      obtain ⟨-, -, hPerform⟩ | ⟨-, rfl, -⟩ := run_cases hDelete
      · injection hPerform with hHost
        subst hHost
        rfl
      · rfl
    split at h
    · obtain ⟨rfl, rfl⟩ := Returns.pure_iff.mp h
      exact ⟨hSystem, rfl⟩
    · obtain ⟨rfl, rfl⟩ := Returns.pure_iff.mp h
      exact ⟨hSystem, rfl⟩
  · exact saveNoted_some h

theorem startRemoving_respects_iff (h : Returns (startRemoving env mount) host note host') :
    Turn.Respects ⟨mount, host, note, host'⟩ ↔
      ¬∃ target, host.expectedMount env mount.accessUserId mount.siteId = some target ∧
        host.unmountable env .startup target = true ∧
        (host.topAt (env.kernel.realpath target)).all mount.owns = false := by
  obtain ⟨result, middle, hUnmount, hSystem, hNote⟩ := startRemoving_noted h
  obtain ⟨target, hExpected, hWorks, hErased⟩ | ⟨hRefused, rfl⟩ := unmountSite_cases hUnmount
  · rw [← hSystem] at hErased
    rw [Turn.respects_of_erased hWorks hErased hNote]
    simp [hExpected, hWorks]
  · refine iff_of_true (Turn.respects_of_keeps (.of_eq (by rw [hSystem])) fun _ => hNote) ?_
    rintro ⟨target, hExpected, hWorks, -⟩
    rw [hRefused target hExpected] at hWorks
    cases hWorks

theorem turn_respects_iff (h : Returns (reconcileStartupMount env mount) host note host') :
    Turn.Respects ⟨mount, host, note, host'⟩ ↔ ¬Spoils env mount host := by
  unfold reconcileStartupMount at h
  unfold Spoils
  cases hState : mount.state with
  | active =>
      rw [hState] at h
      exact startActive_respects_iff h
  | removing =>
      rw [hState] at h
      exact startRemoving_respects_iff h
  | applying =>
      rw [hState] at h
      exact startApplying_respects_iff h
  | pending =>
      rw [hState] at h
      exact iff_of_true (startPending_respects h) id
  | error =>
      rw [hState] at h
      exact startError_respects_iff h

theorem mem_turnsOf {mounts : List ManagedMountState} {turn : Turn} (h : turn ∈ turnsOf env mounts host) :
    Returns (reconcileStartupMount env turn.mount) turn.before turn.note turn.after := by
  induction mounts generalizing host with
  | nil => cases h
  | cons mount rest ih =>
      rw [turnsOf] at h
      split at h
      · next note after hTurn =>
          obtain rfl | hRest := List.mem_cons.mp h
          · exact hTurn
          · exact ih hRest
      · cases h

/-- What the daemon does at its start with the mounts that it finds is right in every turn
if and only if no turn is one that spoils. -/
theorem startup_respects_iff (env : Env) (host : Host) :
    (∀ turn ∈ startupTurns env host, turn.Respects) ↔
      ∀ turn ∈ startupTurns env host, ¬Spoils env turn.mount turn.before :=
  forall₂_congr fun _ hTurn => turn_respects_iff (mem_turnsOf hTurn)

end ContainerCP.LocalSftp
