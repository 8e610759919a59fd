import ContainerCP.Text.Lines
import ContainerCP.Wordpress.CliService

/-! A container is removed right behind an inspection that shows whose it is, and a success says
that it is gone. -/
namespace ContainerCP.WordPressCli

open Control

structure Identity where
  runner : Bytes
  site : Bytes
  operation : Bytes
  execution : Bytes
  deriving DecidableEq

def Identity.fields (identity : Identity) : List Bytes :=
  [bytes "/" ++ identity.runner, bytes "true", identity.site, identity.operation, identity.execution, identity.runner]

/-- `docker inspect` as it prints the six values of the format. -/
def printed (values : List Bytes) : Bytes := [pipe].intercalate values ++ [newline]

/-- An inspection that found the container of the identity: what was printed, read back at the
bars, and the labels that were printed in full. -/
structure Owns (service : Service) (identity : Identity) (check : Event) : Prop where
  asked : check.request.words = service.dockerExecutable :: inspectWords identity.runner
  answered : check.response.exitCode = 0
  fields : splitPipe check.response.out = identity.fields
  labels : ∀ values, values.length = 6 → check.response.out = printed values → values.map trim = identity.fields

/-- `docker rm` in any form. -/
def Removes (command : Command) : Prop := command.words[1]? = some (bytes "rm")

/-- The removal of the identity's container, right behind its inspection. -/
def Licence (service : Service) (identity : Identity) (before : List Event) (command : Command) : Prop :=
  command.words = service.dockerExecutable :: removeWords identity.runner ∧
    ∃ earlier check, before = earlier ++ [check] ∧ Owns service identity check

/-- A first inspection that gave the identity of a managed runner. -/
structure Found (service : Service) (identity : Identity) (first : Event) : Prop where
  asked : first.request.words = service.dockerExecutable :: inspectWords identity.runner
  managed : ∃ site n, managedFields identity.runner first.response = some (site, identity.operation, identity.execution) ∧
    stoull site = some n ∧ identity.site = decimal n.toNat

/-- The removal of a container that two inspections, one behind the other, found to be a managed
one. -/
def ReconcileLicence (service : Service) (allowed : Bytes → Prop) (before : List Event) (command : Command) : Prop :=
  ∃ identity, allowed identity.runner ∧ kRunnerPrefix <+: identity.runner ∧
    command.words = service.dockerExecutable :: removeWords identity.runner ∧
    ∃ earlier first check, before = earlier ++ [first, check] ∧ Found service identity first ∧ Owns service identity check

/-- A listing of the containers with the name, which is empty. -/
structure ProvesAbsent (service : Service) (identifier : Bytes) (listing : Event) : Prop where
  asked : listing.request.words = service.dockerExecutable :: presenceWords identifier
  answered : listing.response.exitCode = 0
  empty : ∀ line ∈ getlines newline listing.response.out, trim line = []

variable {State : Type}

/-- A view of the containers that a listing which succeeds does not contradict: a container
that is there by its end is among the lines. -/
structure Truthful (docker : Docker State) (service : Service) (live : State → Bytes → Prop) : Prop where
  named : ∀ state identifier, live state identifier → identifier ≠ []
  listed : ∀ state command identifier, command.words = service.dockerExecutable :: presenceWords identifier →
    (docker state command).1.exitCode = 0 → live (docker state command).2 identifier →
    identifier ∈ (getlines newline (docker state command).1.out).map trim

/-- The last command shows that the container is not there, and no container with its name is
there when it is done. -/
def ProvenAbsent (docker : Docker State) (service : Service) (identifier : Bytes) (events : List Event) (state : State) : Prop :=
  (∃ earlier listing, events = earlier ++ [listing] ∧ ProvesAbsent service identifier listing) ∧
    ∀ live, Truthful docker service live → ¬live state identifier

/-- How `run_command` names what it cleans up. -/
def commandIdentity (site : UInt64) (operationName executionId : Bytes) : Identity :=
  ⟨runnerName site executionId, decimal site.toNat, operationName, executionId⟩

/-! ## What an inspection prints -/

theorem trim_concat_newline (value : Bytes) : trim (value ++ [newline]) = trim value := by
  have hSpace : ∀ c ∈ [newline], isSpace c = true := by
    intro c hc
    rw [List.mem_singleton.mp hc]
    rfl
  rw [trim, trim, List.dropWhile_append]
  split
  · rename_i hEmpty
    rw [List.isEmpty_iff.mp hEmpty]
    rfl
  · exact rdropWhile_append_spaces hSpace

/-- Labels that are printed in full and give as many fields as there are labels are read back
without the spaces around them. -/
theorem splitPipe_printed {values : List Bytes} (hNe : values ≠ [])
    (h : (splitPipe (printed values)).length = values.length) : splitPipe (printed values) = values.map trim := by
  obtain ⟨front, last, rfl⟩ := (List.eq_nil_or_concat values).resolve_left hNe
  rw [List.concat_eq_append] at h ⊢
  rw [splitPipe, List.length_map, List.length_append, List.length_singleton] at h
  rw [splitPipe, printed, getlines_of_length (by decide) front last h, List.map_append, List.map_append, List.map_singleton,
    List.map_singleton, trim_concat_newline]

variable {docker : Docker State} {service : Service} {start : State}

theorem owns_of_fields {identity : Identity} {check : Event}
    (hAsked : check.request.words = service.dockerExecutable :: inspectWords identity.runner)
    (hAnswered : check.response.exitCode = 0) (hFields : splitPipe check.response.out = identity.fields) :
    Owns service identity check := by
  refine ⟨hAsked, hAnswered, hFields, ?_⟩
  intro values hLength hPrinted
  have hNe : values ≠ [] := List.ne_nil_of_length_pos (by omega)
  rw [hPrinted] at hFields
  rw [← splitPipe_printed hNe (by rw [hFields, hLength]; rfl), hFields]

/-! ## The procedures -/

theorem not_removes_inspect (runner : Bytes) (timeoutSeconds : Int) (maxOutputBytes : Nat) :
    ¬Removes (dockerCommand service (inspectWords runner) timeoutSeconds maxOutputBytes) := by
  intro h
  exact absurd (Option.some.inj h) (by decide)

theorem not_removes_presence (identifier : Bytes) (timeoutSeconds : Int) (maxOutputBytes : Nat) :
    ¬Removes (dockerCommand service (presenceWords identifier) timeoutSeconds maxOutputBytes) := by
  intro h
  exact absurd (Option.some.inj h) (by decide)

theorem not_removes_runners (timeoutSeconds : Int) (maxOutputBytes : Nat) :
    ¬Removes (dockerCommand service runnersWords timeoutSeconds maxOutputBytes) := by
  intro h
  exact absurd (Option.some.inj h) (by decide)

theorem not_removes_run (context : RuntimeContext) (artifact : Artifact) (site : UInt64) (operationName executionId name : Bytes)
    (arguments : List Bytes) (writable : Bool) (timeoutSeconds : Int) (maxOutputBytes : Nat) :
    ¬Removes (dockerCommand service (runWords context artifact site operationName executionId name arguments writable)
      timeoutSeconds maxOutputBytes) := by
  intro h
  exact absurd (Option.some.inj h) (by decide)

theorem presenceOf_absent {identifier : Bytes} {lines : List Bytes} {exactMatch : Bool}
    (h : (presenceOf identifier exactMatch lines).state = .absent) : exactMatch = false ∧ ∀ line ∈ lines, trim line = [] := by
  induction lines generalizing exactMatch with
  | nil =>
      cases exactMatch with
      | true => cases h
      | false => exact ⟨rfl, fun _ hLine => absurd hLine List.not_mem_nil⟩
  | cons line rest ih =>
      rw [presenceOf] at h
      split at h
      · rename_i hEmpty
        obtain ⟨hMatch, hRest⟩ := ih h
        exact ⟨hMatch, List.forall_mem_cons.mpr ⟨hEmpty, hRest⟩⟩
      · split at h
        · cases h
        · obtain ⟨hMatch, -⟩ := ih h
          cases hMatch

/-- The listing that a verification of absence makes. -/
theorem verifyRunnerAbsent_performs (docker : Docker State) (service : Service) (identifier : Bytes) (start : State) :
    Performs (verifyRunnerAbsent docker service identifier) start fun presence events state =>
      (∀ event ∈ events, ¬Removes event.request) ∧
      (presence.state = .absent → ProvenAbsent docker service identifier events state) := by
  refine Performs.ask_bind fun listed state hListed => ?_
  have hRemoves : ∀ event ∈ [(⟨dockerCommand service (presenceWords identifier) service.cleanupTimeoutSeconds 4096, listed⟩ : Event)],
      ¬Removes event.request := by
    intro event hEvent
    rw [List.mem_singleton.mp hEvent]
    exact not_removes_presence identifier _ _
  refine Performs.ite (fun hFailed => Performs.pure ⟨hRemoves, fun hAbsent => by cases hAbsent⟩)
    fun hAnswered => Performs.pure ⟨hRemoves, fun hAbsent => ?_⟩
  have hEmpty := (presenceOf_absent hAbsent).2
  refine ⟨⟨[], _, rfl, rfl, not_not.mp hAnswered, hEmpty⟩, ?_⟩
  intro live hTruthful hLive
  have hMem := hTruthful.listed start _ identifier rfl (by rw [hListed]; exact not_not.mp hAnswered) (by rw [hListed]; exact hLive)
  rw [hListed] at hMem
  obtain ⟨line, hLine, hTrim⟩ := List.mem_map.mp hMem
  exact hTruthful.named state identifier hLive (by rw [← hTrim, hEmpty line hLine])

theorem ProvenAbsent.append {identifier : Bytes} {events : List Event} {state : State}
    (h : ProvenAbsent docker service identifier events state) (front : List Event) :
    ProvenAbsent docker service identifier (front ++ events) state := by
  obtain ⟨⟨earlier, listing, rfl, hListing⟩, hGone⟩ := h
  exact ⟨⟨front ++ earlier, listing, (List.append_assoc _ _ _).symm, hListing⟩, hGone⟩

theorem cleanupOutcome_success {presence : RunnerPresence} (h : (cleanupOutcome presence).success = true) :
    presence.state = .absent := by
  rw [cleanupOutcome] at h
  split at h
  · cases h
  · cases h
  · assumption

/-- A cleanup removes nothing but the container of its identity, behind its own first command,
which is the inspection of it. -/
theorem cleanupRunner_performs (docker : Docker State) (service : Service) (runner : Bytes) (site : UInt64)
    (operationName executionId : Bytes) (start : State) :
    Performs (cleanupRunner docker service runner site operationName executionId) start fun result events state =>
      Licensed Removes (fun before command => command.words = service.dockerExecutable :: removeWords runner ∧
        ∃ check, before = [check] ∧ Owns service ⟨runner, decimal site.toNat, operationName, executionId⟩ check) events ∧
      (result.success = true → ProvenAbsent docker service runner events state) := by
  refine Performs.ask_bind fun inspected state _ => ?_
  have hInspect : ¬Removes (dockerCommand service (inspectWords runner) service.cleanupTimeoutSeconds 4096) :=
    not_removes_inspect runner _ _
  have hHead : Licensed Removes (fun before command => command.words = service.dockerExecutable :: removeWords runner ∧
      ∃ check, before = [check] ∧ Owns service ⟨runner, decimal site.toNat, operationName, executionId⟩ check)
      [⟨dockerCommand service (inspectWords runner) service.cleanupTimeoutSeconds 4096, inspected⟩] := by
    refine Licensed.of_forall_not fun event hEvent => ?_
    rw [List.mem_singleton.mp hEvent]
    exact hInspect
  have hQuiet : ∀ {events : List Event}, (∀ event ∈ events, ¬Removes event.request) →
      Licensed Removes (fun _ _ => False) events := fun h => Licensed.of_forall_not h
  refine Performs.ite (fun hFailed => ?_) fun hAnswered => Performs.ite (fun hFields => ?_) fun hFields => ?_
  · refine Performs.bind (verifyRunnerAbsent_performs docker service runner state) ?_
    rintro presence events after ⟨hRemoves, -⟩
    have hAll := hHead.append (hQuiet hRemoves) fun _ _ h => h.elim
    refine Performs.ite (fun _ => Performs.pure ⟨?_, fun hSuccess => by cases hSuccess⟩)
      fun _ => Performs.pure ⟨?_, fun hSuccess => by cases hSuccess⟩
    · rwa [List.append_nil]
    · rwa [List.append_nil]
  · refine Performs.ask_bind fun removed later _ => ?_
    have hOwns : Owns service ⟨runner, decimal site.toNat, operationName, executionId⟩
        ⟨dockerCommand service (inspectWords runner) service.cleanupTimeoutSeconds 4096, inspected⟩ :=
      owns_of_fields rfl (not_not.mp hAnswered) hFields
    have hPair := hHead.concat ⟨dockerCommand service (removeWords runner) service.cleanupTimeoutSeconds 4096, removed⟩
      ⟨rfl, _, rfl, hOwns⟩
    refine Performs.ite (fun hFailed => Performs.pure ⟨hPair, fun hSuccess => by cases hSuccess⟩) fun hRemoved => ?_
    refine Performs.bind (verifyRunnerAbsent_performs docker service runner later) ?_
    rintro presence events after ⟨hRemoves, hAbsent⟩
    refine Performs.pure ⟨?_, fun hSuccess => ?_⟩
    · rw [List.append_nil]
      exact hPair.append (hQuiet hRemoves) fun _ _ h => h.elim
    · rw [List.append_nil]
      exact (hAbsent (cleanupOutcome_success hSuccess)).append [_, _]
  · exact Performs.pure ⟨hHead, fun hSuccess => by cases hSuccess⟩

theorem commandOutcome_success {execution : CommandResult} {cleanup : Result}
    (h : (commandOutcome execution cleanup).success = true) : cleanup.success = true ∧ execution.exitCode = 0 := by
  rw [commandOutcome] at h
  dsimp only at h
  split at h
  · cases h
  · rename_i hCleanup
    split at h
    · cases h
    · rename_i hExecution
      exact ⟨by simpa using hCleanup, not_not.mp hExecution⟩

/-- What holds of a command: its runner is removed with a licence only, and a success says that
the runner is gone. -/
def CommandSafe (docker : Docker State) (service : Service) (site : UInt64) (operationName : Bytes) (result : Result)
    (events : List Event) (state : State) : Prop :=
  Licensed Removes (fun before command => ∃ executionId, service.executionId = some executionId ∧
    Licence service (commandIdentity site operationName executionId) before command) events ∧
  (result.success = true → ∃ executionId, service.executionId = some executionId ∧
    ProvenAbsent docker service (runnerName site executionId) events state)

theorem runCommand_performs (docker : Docker State) (service : Service) (site : UInt64) (operationName : Bytes)
    (arguments : List Bytes) (writable : Bool) (start : State) :
    Performs (runCommand docker service site operationName arguments writable) start
      (CommandSafe docker service site operationName) := by
  have hRefused : ∀ code message, Performs (Pure.pure (failure code message) : Dockering State Result) start
      (CommandSafe docker service site operationName) := by
    intro code message
    refine Performs.pure ⟨Licensed.of_forall_not fun _ h => absurd h List.not_mem_nil, fun hSuccess => ?_⟩
    cases hSuccess
  rw [runCommand]
  dsimp only
  refine Performs.ite (fun _ => hRefused _ _) fun _ => Performs.ite (fun _ => hRefused _ _) fun _ =>
    Performs.ite (fun _ => hRefused _ _) fun _ => ?_
  cases hExecution : service.executionId with
  | none => exact hRefused _ _
  | some executionId =>
      refine Performs.ite (fun _ => hRefused _ _) fun _ => Performs.ask_bind fun execution state _ => ?_
      refine Performs.bind (cleanupRunner_performs docker service (runnerName site executionId) site operationName executionId state) ?_
      rintro cleanup events after ⟨hLicensed, hAbsent⟩
      refine Performs.pure ⟨?_, fun hSuccess => ⟨executionId, hExecution, ?_⟩⟩
      · rw [List.append_nil]
        refine Licensed.append (Licensed.of_forall_not (List.forall_mem_singleton.mpr ?_)) hLicensed ?_
        · exact not_removes_run _ _ _ _ _ _ _ _ _ _
        · rintro before command ⟨hWords, check, rfl, hOwns⟩
          exact ⟨executionId, hExecution, hWords, _, check, rfl, hOwns⟩
      · rw [List.append_nil]
        exact (hAbsent (commandOutcome_success hSuccess).1).append [_]

theorem managedFields_eq_some {identifier site operation execution : Bytes} {inspected : CommandResult}
    (h : managedFields identifier inspected = some (site, operation, execution)) :
    inspected.exitCode = 0 ∧ kRunnerPrefix <+: identifier := by
  rw [managedFields] at h
  split at h
  · split at h
    · cases h
    · rename_i name managed site' operation' execution' runner hFields hAccepted
      simp only [Bool.or_eq_true, decide_eq_true_eq, not_or, not_not, Bool.not_eq_true', Bool.not_eq_false] at hAccepted
      obtain ⟨⟨⟨⟨⟨⟨⟨hExit, -⟩, hName⟩, hPrefix⟩, -⟩, -⟩, -⟩, -⟩ := hAccepted
      rw [hName, List.isPrefixOf_iff_prefix] at hPrefix
      exact ⟨hExit, (List.prefix_append_right_inj _).mp hPrefix⟩
  · cases h

/-- What holds of a reconciliation of one runner. -/
def RunnerSafe (docker : Docker State) (service : Service) (identifier : Bytes) (result : Result) (events : List Event)
    (state : State) : Prop :=
  Licensed Removes (ReconcileLicence service (· = identifier)) events ∧
  (result.success = true → ProvenAbsent docker service identifier events state)

theorem reconcileRunner_performs (docker : Docker State) (service : Service) (identifier : Bytes) (start : State) :
    Performs (reconcileRunner docker service identifier) start (RunnerSafe docker service identifier) := by
  refine Performs.ask_bind fun inspected state _ => ?_
  have hHead : ∀ licence : List Event → Command → Prop, Licensed Removes licence
      [⟨dockerCommand service (inspectWords identifier) service.cleanupTimeoutSeconds 4096, inspected⟩] := by
    refine fun licence => Licensed.of_forall_not fun event hEvent => ?_
    rw [List.mem_singleton.mp hEvent]
    exact not_removes_inspect identifier _ _
  have hRefused : ∀ code message, Performs (Pure.pure (failure code message) : Dockering State Result) state
      fun result more last => RunnerSafe docker service identifier result
        (⟨dockerCommand service (inspectWords identifier) service.cleanupTimeoutSeconds 4096, inspected⟩ :: more) last :=
    fun code message => Performs.pure ⟨hHead _, fun hSuccess => by cases hSuccess⟩
  cases hManaged : managedFields identifier inspected with
  | none => exact hRefused _ _
  | some fields =>
      obtain ⟨site, operation, execution⟩ := fields
      obtain ⟨hExit, hPrefix⟩ := managedFields_eq_some hManaged
      dsimp only
      cases hSite : stoull site with
      | none => exact hRefused _ _
      | some n =>
          refine (cleanupRunner_performs docker service identifier n operation execution state).mono ?_
          rintro result events last ⟨hLicensed, hAbsent⟩
          refine ⟨(hHead _).append hLicensed ?_, fun hSuccess => (hAbsent hSuccess).append [_]⟩
          rintro before command ⟨hWords, check, rfl, hOwns⟩
          exact ⟨⟨identifier, decimal n.toNat, operation, execution⟩, rfl, hPrefix, hWords, [], _, check, rfl,
            ⟨rfl, site, n, hManaged, hSite, rfl⟩, hOwns⟩

/-- What holds of a reconciliation of the listed runners. -/
def ListedSafe (service : Service) (lines : List Bytes) (result : Result) (events : List Event) : Prop :=
  Licensed Removes (ReconcileLicence service fun runner => ∃ line ∈ lines, trim line = runner) events ∧
  (result.success = true → ∀ line ∈ lines, trim line ≠ [] → ∃ listing ∈ events, ProvesAbsent service (trim line) listing)

theorem ReconcileLicence.behind {allowed wider : Bytes → Prop} {before : List Event} {command : Command}
    (h : ReconcileLicence service allowed before command) (hWider : ∀ runner, allowed runner → wider runner) (front : List Event) :
    ReconcileLicence service wider (front ++ before) command := by
  obtain ⟨identity, hAllowed, hPrefix, hWords, earlier, first, check, rfl, hFound, hOwns⟩ := h
  exact ⟨identity, hWider _ hAllowed, hPrefix, hWords, front ++ earlier, first, check, (List.append_assoc _ _ _).symm, hFound, hOwns⟩

/-- Line by line. -/
theorem reconcileListed_performs (docker : Docker State) (service : Service) (lines : List Bytes) (start : State) :
    Performs (reconcileListed docker service lines) start fun result events _ => ListedSafe service lines result events := by
  induction lines generalizing start with
  | nil =>
      exact Performs.pure ⟨Licensed.of_forall_not fun _ h => absurd h List.not_mem_nil, fun _ _ h => absurd h List.not_mem_nil⟩
  | cons line rest ih =>
      rw [reconcileListed]
      refine Performs.ite (fun hEmpty => (ih start).mono ?_) fun hNamed => ?_
      · rintro result events state ⟨hLicensed, hAbsent⟩
        refine ⟨hLicensed.mono fun before command h => ?_, fun hSuccess => List.forall_mem_cons.mpr
          ⟨fun hNamed => absurd hEmpty hNamed, hAbsent hSuccess⟩⟩
        exact h.behind (fun runner ⟨other, hOther, hRunner⟩ => ⟨other, List.mem_cons_of_mem _ hOther, hRunner⟩) []
      · refine Performs.bind (reconcileRunner_performs docker service (trim line) start) ?_
        rintro cleanup events state ⟨hLicensed, hAbsent⟩
        have hFirst : Licensed Removes (ReconcileLicence service fun runner => ∃ other ∈ line :: rest, trim other = runner) events :=
          hLicensed.mono fun before command h => h.behind (fun runner hRunner => ⟨line, List.mem_cons_self, hRunner.symm⟩) []
        refine Performs.ite (fun hFailed => Performs.pure ⟨?_, fun hSuccess => ?_⟩) fun hCleaned => (ih state).mono ?_
        · rwa [List.append_nil]
        · rw [hSuccess] at hFailed
          cases hFailed
        · rintro result more last ⟨hMore, hRest⟩
          refine ⟨hFirst.append hMore fun before command h => ?_, fun hSuccess => List.forall_mem_cons.mpr ⟨fun _ => ?_, ?_⟩⟩
          · exact h.behind (fun runner ⟨other, hOther, hRunner⟩ => ⟨other, List.mem_cons_of_mem _ hOther, hRunner⟩) events
          · obtain ⟨⟨earlier, listing, rfl, hListing⟩, -⟩ := hAbsent (by simpa using hCleaned)
            exact ⟨listing, by simp, hListing⟩
          · intro other hOther hNamed
            obtain ⟨listing, hListing, hProves⟩ := hRest hSuccess other hOther hNamed
            exact ⟨listing, List.mem_append_right _ hListing, hProves⟩

/-- The listing of the managed runners, with which a reconciliation of all of them begins. -/
structure ListsRunners (service : Service) (runners : Event) : Prop where
  asked : runners.request.words = service.dockerExecutable :: runnersWords
  answered : runners.response.exitCode = 0

/-- What holds of a reconciliation of all runners: nothing is removed but what the listing
gives, and a success says that each one listed was shown to be gone. -/
def StaleSafe (service : Service) (result : Result) (events : List Event) : Prop :=
  Licensed Removes (fun before command => ∃ runners rest, before = runners :: rest ∧ ListsRunners service runners ∧
    ReconcileLicence service (fun runner => ∃ line ∈ getlines newline runners.response.out, trim line = runner) rest command) events ∧
  (result.success = true → ∃ runners rest, events = runners :: rest ∧ ListsRunners service runners ∧
    ∀ line ∈ getlines newline runners.response.out, trim line ≠ [] → ∃ listing ∈ rest, ProvesAbsent service (trim line) listing)

theorem reconcileStaleRunners_performs (docker : Docker State) (service : Service) (start : State) :
    Performs (reconcileStaleRunners docker service) start fun result events _ => StaleSafe service result events := by
  rw [reconcileStaleRunners]
  refine Performs.ite (fun _ => Performs.pure ⟨Licensed.of_forall_not fun _ h => absurd h List.not_mem_nil, fun hSuccess => ?_⟩)
    fun _ => Performs.ask_bind fun listed state _ => ?_
  · cases hSuccess
  have hHead : ∀ licence : List Event → Command → Prop, Licensed Removes licence
      [⟨dockerCommand service runnersWords service.cleanupTimeoutSeconds 16384, listed⟩] := by
    refine fun licence => Licensed.of_forall_not fun event hEvent => ?_
    rw [List.mem_singleton.mp hEvent]
    exact not_removes_runners _ _
  refine Performs.ite (fun hFailed => Performs.pure ⟨hHead _, fun hSuccess => by cases hSuccess⟩) fun hAnswered => ?_
  refine (reconcileListed_performs docker service (getlines newline listed.out) state).mono ?_
  rintro result events last ⟨hLicensed, hAbsent⟩
  have hLists : ListsRunners service ⟨dockerCommand service runnersWords service.cleanupTimeoutSeconds 16384, listed⟩ :=
    ⟨rfl, not_not.mp hAnswered⟩
  refine ⟨(hHead _).append hLicensed fun before command h => ⟨_, before, rfl, hLists, h⟩, fun hSuccess => ?_⟩
  exact ⟨_, events, rfl, hLists, hAbsent hSuccess⟩

/-- Whatever state Docker is in and whatever it answers: the service removes a container only
right behind an inspection of it that gives the identity that is being cleaned up, and with a
success the runner, or each one that was listed, was shown to be gone. -/
theorem runner_ownership (docker : Docker State) (service : Service) (start : State) :
    (∀ site operationName arguments writable, Performs (runCommand docker service site operationName arguments writable) start
      (CommandSafe docker service site operationName)) ∧
    (∀ identifier, Performs (reconcileRunner docker service identifier) start (RunnerSafe docker service identifier)) ∧
    Performs (reconcileStaleRunners docker service) start (fun result events _ => StaleSafe service result events) :=
  ⟨fun site operationName arguments writable => runCommand_performs docker service site operationName arguments writable start,
    fun identifier => reconcileRunner_performs docker service identifier start,
    reconcileStaleRunners_performs docker service start⟩

end ContainerCP.WordPressCli
