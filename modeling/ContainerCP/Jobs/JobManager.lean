import ContainerCP.Text.Bytes
import Mathlib.Order.Lattice

/-! `JobManager`: the list of the background jobs with their progress. A time is
the text that the clock gives. -/
namespace ContainerCP.Jobs

structure JobStep where
  id : Bytes
  name : Bytes
  started : Bool := false
  completed : Bool := false
  failed : Bool := false
  skipped : Bool := true
  durationMs : UInt64 := 0
  result : Bytes := []
  message : Bytes := []
  errorCode : Bytes := []
  startedAt : Bytes := []
  completedAt : Bytes := []
  deriving DecidableEq

/-- A job as the manager keeps it, `Job` of the source. What a failure leaves for
the cleanup is not among its fields here. -/
structure JobEntry where
  id : UInt64
  type : Bytes
  status : Bytes
  progress : Int32
  steps : List Bytes
  currentStep : Int32
  message : Bytes := []
  createdAt : Bytes
  completedAt : Bytes := []
  stepDetails : List JobStep
  deriving DecidableEq

structure JobManager where
  nextId : UInt64 := 1
  jobs : List JobEntry := []
  deriving DecidableEq

namespace JobManager

def create (manager : JobManager) (now type : Bytes) (steps : List Bytes) : JobManager :=
  { nextId := manager.nextId + 1
    jobs := manager.jobs ++
      [{ id := manager.nextId, type := type, status := bytes "pending", progress := 0, steps := steps
         currentStep := 0, createdAt := now
         stepDetails := steps.map fun name => { id := name, name := name } }] }

/-- `100 / std::max((int)steps.size(), 1)`: the part of the progress that one step
takes. The count is cut to 32 bits. -/
def stepWidth (steps : List Bytes) : Int32 := 100 / max (Int32.ofNat steps.length) 1

/-- The new `current_step` of a running job. `none` is a division by zero. -/
def stepAt (steps : List Bytes) (progress : Int32) : Option Int32 :=
  if stepWidth steps = 0 then none else some (progress / stepWidth steps)

/-- What every update writes into the job. An empty message leaves the old one. -/
def showProgress (job : JobEntry) (status : Bytes) (progress : Int32) (message : Bytes) : JobEntry :=
  { job with
    status := status
    progress := progress
    message := if message = [] then job.message else message }

/-- What `update` writes into the job. -/
def updateJob (job : JobEntry) (now status : Bytes) (progress : Int32) (message : Bytes) : Option JobEntry :=
  let shown := showProgress job status progress message
  if status = bytes "running" then
    (stepAt job.steps progress).map fun step => { shown with currentStep := step }
  else if status = bytes "completed" ∨ status = bytes "failed" then some { shown with completedAt := now }
  else some shown

/-- The loop of `update`: it ends at the first job with the id. -/
def updateJobs (id : UInt64) (change : JobEntry → Option JobEntry) : List JobEntry → Option (List JobEntry)
  | [] => some []
  | job :: rest =>
      if job.id = id then (change job).map (· :: rest)
      else (updateJobs id change rest).map (job :: ·)

def update (manager : JobManager) (now : Bytes) (id : UInt64) (status : Bytes) (progress : Int32)
    (message : Bytes) : Option JobManager :=
  (updateJobs id (fun job => updateJob job now status progress message) manager.jobs).map
    fun jobs => { manager with jobs := jobs }

def find (manager : JobManager) (id : UInt64) : Option JobEntry := manager.jobs.find? (·.id = id)

/-! ## Finding what was updated -/

theorem updateJobs_find {id : UInt64} {change : JobEntry → Option JobEntry} {job : JobEntry}
    (hId : ∀ changed, change job = some changed → changed.id = id) {jobs : List JobEntry}
    (h : jobs.find? (·.id = id) = some job) :
    (updateJobs id change jobs).bind (List.find? (·.id = id)) = change job := by
  induction jobs with
  | nil => cases h
  | cons first rest ih =>
      by_cases hFirst : first.id = id
      · obtain rfl : first = job := by simpa [List.find?_cons, hFirst] using h
        rw [updateJobs, if_pos hFirst]
        cases hChange : change first with
        | none => rfl
        | some changed => simp [hId changed hChange]
      · have hRest : rest.find? (·.id = id) = some job := by simpa [List.find?_cons, hFirst] using h
        rw [updateJobs, if_neg hFirst, ← ih hRest]
        cases updateJobs id change rest <;> simp [hFirst]

theorem updateJob_id {job changed : JobEntry} {now status message : Bytes} {progress : Int32}
    (h : updateJob job now status progress message = some changed) : changed.id = job.id := by
  simp only [updateJob] at h
  split_ifs at h
  · obtain ⟨step, -, rfl⟩ := Option.map_eq_some_iff.mp h
    rfl
  · cases h
    rfl
  · cases h
    rfl

/-- The job that is found after an update is the one found before, updated. -/
theorem update_find {manager : JobManager} {id : UInt64} {job : JobEntry} (h : manager.find id = some job)
    (now status : Bytes) (progress : Int32) (message : Bytes) :
    (manager.update now id status progress message).bind (·.find id) =
      updateJob job now status progress message := by
  have hId : job.id = id := by simpa using List.find?_some h
  have hJobs := @updateJobs_find id (fun job => updateJob job now status progress message) job
    (fun changed hChanged => (updateJob_id hChanged).trans hId) manager.jobs h
  rw [← hJobs, update, Option.bind_map]
  rfl

theorem updateJob_running {job : JobEntry} (now : Bytes) (progress : Int32) (message : Bytes) :
    (updateJob job now (bytes "running") progress message).map (·.currentStep) = stepAt job.steps progress := by
  simp only [updateJob, if_pos, Option.map_map, Function.comp_def, Option.map_id']

/-! ## The two divisions -/

theorem toInt_max_one (count : Int32) : (max count 1).toInt = max count.toInt 1 := by
  have hOne : (1 : Int32).toInt = 1 := rfl
  rw [show max count 1 = if count ≤ 1 then 1 else count from rfl]
  split_ifs with h <;> rw [Int32.le_iff_toInt_le, hOne] at h
  · rw [hOne, max_eq_right h]
  · rw [max_eq_left (by omega)]

/-- A quotient of numbers that are not negative does not wrap. -/
theorem toInt_div {a b : Int32} (ha : 0 ≤ a.toInt) (hb : 0 ≤ b.toInt) : (a / b).toInt = a.toInt / b.toInt := by
  have hLe : a.toInt / b.toInt ≤ a.toInt := Int.ediv_le_self _ ha
  have hNonneg : 0 ≤ a.toInt / b.toInt := Int.ediv_nonneg ha hb
  have hLt : a.toInt < 2 ^ 31 := a.toInt_lt
  rw [Int32.toInt_div, Int.tdiv_eq_ediv_of_nonneg ha]
  exact Int.bmod_eq_of_le (by omega) (by omega)

/-- The count of the steps as the division sees it. -/
def counted (steps : Nat) : Int := max (Int32.ofNat steps).toInt 1

theorem one_le_counted (steps : Nat) : 1 ≤ counted steps := le_max_right _ _

theorem toInt_stepWidth (steps : List Bytes) : (stepWidth steps).toInt = 100 / counted steps.length := by
  have hOne := one_le_counted steps.length
  rw [counted, ← toInt_max_one] at hOne
  rw [stepWidth, toInt_div (by decide) (by omega), toInt_max_one]
  rfl

theorem stepWidth_eq_zero_iff (steps : List Bytes) : stepWidth steps = 0 ↔ 100 < counted steps.length := by
  have hOne := one_le_counted steps.length
  rw [← Int32.toInt_inj, toInt_stepWidth]
  constructor
  · intro hZero
    by_contra hLe
    have hWidth : 1 ≤ 100 / counted steps.length := Int.le_ediv_of_mul_le (by omega) (by omega)
    have : (0 : Int32).toInt = 0 := rfl
    omega
  · exact fun hLt => Int.ediv_eq_zero_of_lt (by decide) hLt

/-- The step of a running job, in whole numbers. -/
theorem stepAt_eq_some_iff {steps : List Bytes} {progress step : Int32} (h : 0 ≤ progress.toInt) :
    stepAt steps progress = some step ↔
      counted steps.length ≤ 100 ∧ step.toInt = progress.toInt / (100 / counted steps.length) := by
  have hOne := one_le_counted steps.length
  have hWidth : 0 ≤ (stepWidth steps).toInt := by
    rw [toInt_stepWidth]
    exact Int.ediv_nonneg (by decide) (by omega)
  rw [stepAt]
  split_ifs with hZero
  · have := (stepWidth_eq_zero_iff steps).mp hZero
    simp
    omega
  · have hLe : counted steps.length ≤ 100 := not_lt.mp fun hLt => hZero ((stepWidth_eq_zero_iff steps).mpr hLt)
    rw [Option.some_inj, ← Int32.toInt_inj, toInt_div h hWidth, toInt_stepWidth]
    exact ⟨fun hStep => ⟨hLe, hStep.symm⟩, fun hStep => hStep.2.symm⟩

/-- The steps are few enough to give each a part of the progress, and the
progress lies in the part of one of them. -/
def StepsFit (steps : Nat) (progress : Int) : Prop :=
  counted steps ≤ 100 ∧ (steps = 0 ∨ progress < steps * (100 / counted steps))

/-- The `current_step` of the job with the id after an update that leaves it
running. -/
def runningStep (manager : JobManager) (now : Bytes) (id : UInt64) (progress : Int32) (message : Bytes) :
    Option Int32 :=
  ((manager.update now id (bytes "running") progress message).bind (·.find id)).map (·.currentStep)

theorem runningStep_eq {manager : JobManager} {id : UInt64} {job : JobEntry} (h : manager.find id = some job)
    (now : Bytes) (progress : Int32) (message : Bytes) :
    manager.runningStep now id progress message = stepAt job.steps progress := by
  rw [runningStep, update_find h, updateJob_running]

/-- An update of a running job with a progress from 0 on divides by no zero and leaves
`current_step` within the steps exactly when the steps fit the progress. More
progress never means an earlier step. -/
theorem runningStep_iff_stepsFit {manager : JobManager} {id : UInt64} {job : JobEntry}
    (hJob : manager.find id = some job) (now message : Bytes) {progress : Int32} (hLow : 0 ≤ progress.toInt) :
    ((∃ step, manager.runningStep now id progress message = some step ∧
        (job.steps ≠ [] → 0 ≤ step.toInt ∧ step.toInt < job.steps.length)) ↔
      StepsFit job.steps.length progress.toInt) ∧
    ∀ later : Int32, progress.toInt ≤ later.toInt → ∀ step step',
      manager.runningStep now id progress message = some step →
      manager.runningStep now id later message = some step' → step.toInt ≤ step'.toInt := by
  have hOne := one_le_counted job.steps.length
  simp only [runningStep_eq hJob, stepAt_eq_some_iff hLow]
  refine ⟨⟨?_, ?_⟩, ?_⟩
  · rintro ⟨step, ⟨hCount, hStep⟩, hRange⟩
    refine ⟨hCount, ?_⟩
    by_cases hSteps : job.steps = []
    · exact .inl (by simp [hSteps])
    · have hWidth : 1 ≤ 100 / counted job.steps.length := Int.le_ediv_of_mul_le (by omega) (by omega)
      have hLt := (hRange hSteps).2
      rw [hStep, Int.ediv_lt_iff_lt_mul (by omega)] at hLt
      exact .inr hLt
  · rintro ⟨hCount, hFit⟩
    have hWidth : 1 ≤ 100 / counted job.steps.length := Int.le_ediv_of_mul_le (by omega) (by omega)
    have hSome : stepAt job.steps progress = some (progress / stepWidth job.steps) :=
      if_neg fun hZero => absurd ((stepWidth_eq_zero_iff _).mp hZero) (not_lt.mpr hCount)
    obtain ⟨-, hStep⟩ := (stepAt_eq_some_iff hLow).mp hSome
    refine ⟨_, ⟨hCount, hStep⟩, fun hSteps => ?_⟩
    have hFit : progress.toInt < job.steps.length * (100 / counted job.steps.length) :=
      hFit.resolve_left fun hNone => hSteps (List.length_eq_zero_iff.mp hNone)
    rw [hStep]
    exact ⟨Int.ediv_nonneg hLow (by omega), (Int.ediv_lt_iff_lt_mul (by omega)).mpr hFit⟩
  · intro later hLater step step' hStep hStep'
    obtain ⟨hCount, hStep⟩ := hStep
    obtain ⟨-, hStep'⟩ := (stepAt_eq_some_iff (hLow.trans hLater)).mp hStep'
    rw [hStep, hStep']
    exact Int.ediv_le_ediv (Int.lt_of_lt_of_le Int.zero_lt_one (Int.le_ediv_of_mul_le (by omega) (by omega))) hLater

/-- The manager with one job of the given steps. -/
def sampleManager (steps : List Bytes) : JobManager := create {} [] (bytes "backup") steps

theorem sampleManager_find (steps : List Bytes) :
    (sampleManager steps).find 1 =
      some { id := 1, type := bytes "backup", status := bytes "pending", progress := 0, steps := steps
             currentStep := 0, createdAt := [], stepDetails := steps.map fun name => { id := name, name := name } } :=
  rfl

theorem runningStep_iff_stepsFit_sample :
    ((∃ step, (sampleManager [[], []]).runningStep [] 1 50 [] = some step ∧
        ([([] : Bytes), []] ≠ [] → 0 ≤ step.toInt ∧ step.toInt < 2)) ↔ StepsFit 2 50) ∧
    ∀ later : Int32, 50 ≤ later.toInt → ∀ step step',
      (sampleManager [[], []]).runningStep [] 1 50 [] = some step →
      (sampleManager [[], []]).runningStep [] 1 later [] = some step' → step.toInt ≤ step'.toInt :=
  @runningStep_iff_stepsFit (sampleManager [[], []]) 1 _ (sampleManager_find _) [] [] 50 (by decide)

/-- At its full progress the only step of a job is passed, and with a hundred and
one steps the first update divides by zero. -/
theorem runningStep_out_of_range :
    (sampleManager [bytes "dump"]).runningStep [] 1 100 [] = some 1 ∧
      (sampleManager (List.replicate 101 (bytes "dump"))).runningStep [] 1 10 [] = none := by
  rw [runningStep_eq (sampleManager_find _), runningStep_eq (sampleManager_find _)]
  simp only [stepAt, stepWidth, List.length_replicate, List.length_singleton]
  decide

end JobManager

end ContainerCP.Jobs
