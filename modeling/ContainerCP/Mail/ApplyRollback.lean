import ContainerCP.Mail.DockerMailProvider

/-! What a failed `apply_config` leaves of the mail configuration. -/
namespace ContainerCP.Mail

variable (provider : Provider) (calls : ApplyCalls) (domains : List MailDomain) (mailboxes : List Mailbox)
  (aliases : List MailAlias)

/-- Where an apply does not succeed, every file is as it was. -/
def RollsBack (files : MailFiles) : Prop :=
  (applyConfig provider calls domains mailboxes aliases files).1.success = false →
    (applyConfig provider calls domains mailboxes aliases files).2 = files

/-- The rollback brings a file back: the backup has it, and it can be opened again. -/
def Restored (files : MailFiles) (file : MailFile) : Prop :=
  file ∈ backupFiles ∧ readFile (files file) ≠ [] ∧ calls.reopens file = true

/-- The condition: an apply that stops at a file it cannot write has written to none in front
of it anything but what was there; and one that is refused behind all of them has written
nothing new to a file that the rollback does not bring back. -/
def Undoable (files : MailFiles) : Prop :=
  let actions := applyActions provider calls domains mailboxes aliases
  if (actions.find? fun action => action.fails (files action.file)).isSome then
    ∀ action ∈ FileAction.done actions files, action.effect (files action.file) = files action.file
  else
    rejection calls domains aliases ≠ none →
      ∀ action ∈ actions, Restored calls files action.file ∨ action.effect (files action.file) = files action.file

/-! ## The rollback -/

variable {calls} {files : MailFiles}

theorem mem_backupOf {file : MailFile} {content : Bytes} :
    (file, content) ∈ backupOf files ↔ file ∈ backupFiles ∧ content = readFile (files file) ∧ content ≠ [] := by
  simp only [backupOf, List.mem_filter, List.mem_map, Prod.mk.injEq, decide_eq_true_eq]
  constructor
  · rintro ⟨⟨other, hMem, rfl, rfl⟩, hNe⟩
    exact ⟨hMem, rfl, hNe⟩
  · rintro ⟨hMem, rfl, hNe⟩
    exact ⟨⟨file, hMem, rfl, rfl⟩, hNe⟩

/-- What is read and not empty is what is there. -/
theorem regular_of_readFile {node : Option Node} (h : readFile node ≠ []) : node = some (.regular (readFile node)) := by
  match node with
  | none => exact absurd rfl h
  | some .special => exact absurd rfl h
  | some (.regular content) => rfl

/-- A rollback leaves a file as the backup has it, or as it finds it. -/
theorem restore_eq {backup : List (MailFile × Bytes)} {saved : MailFiles}
    (hBackup : ∀ entry ∈ backup, saved entry.1 = some (.regular entry.2)) (written : MailFiles) (file : MailFile) :
    restore calls backup written file =
      if ∃ entry ∈ backup, entry.1 = file ∧ calls.reopens file = true then saved file else written file := by
  induction backup generalizing written with
  | nil => simp [restore]
  | cons entry rest ih =>
      have hRest := ih (fun other hMem => hBackup other (List.mem_cons_of_mem _ hMem))
        (if calls.reopens entry.1 then Function.update written entry.1 (some (.regular entry.2)) else written)
      have hCons : restore calls (entry :: rest) written = restore calls rest
          (if calls.reopens entry.1 then Function.update written entry.1 (some (.regular entry.2)) else written) := rfl
      rw [hCons, hRest]
      by_cases hLater : ∃ other ∈ rest, other.1 = file ∧ calls.reopens file = true
      · obtain ⟨other, hMem, hOther⟩ := hLater
        rw [if_pos ⟨other, hMem, hOther⟩, if_pos ⟨other, List.mem_cons_of_mem _ hMem, hOther⟩]
      · rw [if_neg hLater]
        by_cases hHere : entry.1 = file ∧ calls.reopens file = true
        · obtain ⟨rfl, hOpens⟩ := hHere
          rw [if_pos hOpens, Function.update_self, if_pos ⟨entry, List.mem_cons_self, rfl, hOpens⟩,
            hBackup entry List.mem_cons_self]
        · have hNone : ¬∃ other ∈ entry :: rest, other.1 = file ∧ calls.reopens file = true := by
            rintro ⟨other, hMem, hOther⟩
            rcases List.mem_cons.mp hMem with rfl | hMem
            · exact hHere hOther
            · exact hLater ⟨other, hMem, hOther⟩
          rw [if_neg hNone]
          split
          · next hOpens =>
            refine Function.update_of_ne ?_ _ _
            rintro rfl
            exact hHere ⟨rfl, hOpens⟩
          · rfl

/-- A file behind the rollback. -/
theorem restore_backupOf (written : MailFiles) (file : MailFile) :
    (Restored calls files file → restore calls (backupOf files) written file = files file) ∧
      (¬Restored calls files file → restore calls (backupOf files) written file = written file) := by
  have hSaved : ∀ entry ∈ backupOf files, files entry.1 = some (.regular entry.2) := by
    intro entry hMem
    obtain ⟨-, hContent, hNe⟩ := mem_backupOf.mp hMem
    rw [hContent] at hNe ⊢
    exact regular_of_readFile hNe
  have hIff : (∃ entry ∈ backupOf files, entry.1 = file ∧ calls.reopens file = true) ↔ Restored calls files file := by
    constructor
    · rintro ⟨⟨other, content⟩, hMem, rfl, hOpens⟩
      obtain ⟨hBackup, hContent, hNe⟩ := mem_backupOf.mp hMem
      exact ⟨hBackup, hContent ▸ hNe, hOpens⟩
    · rintro ⟨hBackup, hNe, hOpens⟩
      exact ⟨(file, readFile (files file)), mem_backupOf.mpr ⟨hBackup, rfl, hNe⟩, rfl, hOpens⟩
  rw [restore_eq hSaved]
  exact ⟨fun h => if_pos (hIff.mpr h), fun h => if_neg (hIff.not.mpr h)⟩

/-! ## The ways out -/

variable {provider domains mailboxes aliases}

/-- The three ends of an apply. -/
theorem applyConfig_cases (provider : Provider) (calls : ApplyCalls) (domains : List MailDomain) (mailboxes : List Mailbox)
    (aliases : List MailAlias) (files : MailFiles) :
    let actions := applyActions provider calls domains mailboxes aliases
    let written := (FileAction.run actions files).2
    ((actions.find? fun action => action.fails (files action.file)).isSome = true ∧
        (applyConfig provider calls domains mailboxes aliases files).1.success = false ∧
        (applyConfig provider calls domains mailboxes aliases files).2 = written) ∨
      ((actions.find? fun action => action.fails (files action.file)) = none ∧ rejection calls domains aliases ≠ none ∧
        (applyConfig provider calls domains mailboxes aliases files).1.success = false ∧
        (applyConfig provider calls domains mailboxes aliases files).2 = restore calls (backupOf files) written) ∨
      ((actions.find? fun action => action.fails (files action.file)) = none ∧ rejection calls domains aliases = none ∧
        (applyConfig provider calls domains mailboxes aliases files).1.success = true) := by
  intro actions written
  have hFirst := (FileAction.run_spec (nodup_applyActions provider calls domains mailboxes aliases) files).1
  unfold applyConfig
  dsimp only
  rw [hFirst]
  cases hFind : actions.find? fun action => action.fails (files action.file) with
  | some action => exact .inl ⟨rfl, rfl, rfl⟩
  | none =>
      cases hRejection : rejection calls domains aliases with
      | some refusal => exact .inr (.inl ⟨rfl, Option.some_ne_none _, rfl, rfl⟩)
      | none => exact .inr (.inr ⟨rfl, rfl, rfl⟩)

/-- What the actions leave as it was. -/
theorem run_eq_iff (files : MailFiles) :
    (FileAction.run (applyActions provider calls domains mailboxes aliases) files).2 = files ↔
      ∀ action ∈ FileAction.done (applyActions provider calls domains mailboxes aliases) files,
        action.effect (files action.file) = files action.file := by
  obtain ⟨-, hEffect, hFrame⟩ := FileAction.run_spec (nodup_applyActions provider calls domains mailboxes aliases) files
  constructor
  · intro h action hMem
    rw [← hEffect action hMem, h]
  · intro h
    funext file
    by_cases hDone : file ∈ (FileAction.done (applyActions provider calls domains mailboxes aliases) files).map FileAction.file
    · obtain ⟨action, hMem, rfl⟩ := List.mem_map.mp hDone
      rw [hEffect action hMem, h action hMem]
    · exact hFrame file hDone

theorem restored_run_eq_iff (hNone : ((applyActions provider calls domains mailboxes aliases).find? fun action =>
      action.fails (files action.file)) = none) :
    restore calls (backupOf files) (FileAction.run (applyActions provider calls domains mailboxes aliases) files).2 = files ↔
      ∀ action ∈ applyActions provider calls domains mailboxes aliases,
        Restored calls files action.file ∨ action.effect (files action.file) = files action.file := by
  obtain ⟨-, hEffect, hFrame⟩ := FileAction.run_spec (nodup_applyActions provider calls domains mailboxes aliases) files
  rw [FileAction.done_eq_self hNone] at hEffect hFrame
  constructor
  · intro h action hMem
    by_cases hRestored : Restored calls files action.file
    · exact .inl hRestored
    · have hSame := congrFun h action.file
      rw [(restore_backupOf _ action.file).2 hRestored, hEffect action hMem] at hSame
      exact .inr hSame
  · intro h
    funext file
    by_cases hRestored : Restored calls files file
    · exact (restore_backupOf _ file).1 hRestored
    · rw [(restore_backupOf _ file).2 hRestored]
      by_cases hMem : file ∈ (applyActions provider calls domains mailboxes aliases).map FileAction.file
      · obtain ⟨action, hAction, rfl⟩ := List.mem_map.mp hMem
        rw [hEffect action hAction]
        exact (h action hAction).resolve_left hRestored
      · exact hFrame file hMem

/-- A Postfix that refuses its configuration. -/
def refusedByPostfix : ApplyCalls := { postfixCheck := { exitCode := 1 } }

end ContainerCP.Mail
