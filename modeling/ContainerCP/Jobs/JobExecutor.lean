import Mathlib.Data.List.Basic

/-! The executor of background jobs. Submitters, workers and the thread that shuts
the executor down share a queue under one mutex. One step is what a thread does
while it holds the mutex, or one turn of the loops that run without it. How a
waiting worker is woken is left open: the wait may end at any time, and its
condition is checked again. -/
namespace ContainerCP.Jobs

/-- One accepted submission. The ticket tells it from every other one, also from
one with the same job id. -/
structure Job where
  ticket : Nat
  jobId : UInt64
  deriving DecidableEq

/-- Where a worker stands in `worker_loop`. -/
inductive Worker where
  | waiting
  | busy (job : Job)
  | done
  deriving DecidableEq

/-- Where the call of `shutdown` stands: it joins the workers one after another
and then cancels what is left in the queue. -/
inductive Stopper where
  | idle
  | joining (next : Nat)
  | draining
  | returned
  deriving DecidableEq

/-- What happened. `shutdownReturned` says whether the call found the executor
running. -/
inductive JobEvent where
  | accepted (job : Job)
  | rejected (jobId : UInt64)
  | started (job : Job)
  | executed (job : Job)
  | cancelled (job : Job)
  | updated (jobId : UInt64) (status message : String)
  | shutdownReturned (found : Bool)
  deriving DecidableEq

structure JobExecutor where
  workerCount : Nat
  maxQueue : Nat
  running : Bool
  queue : List Job
  workers : List Worker
  stopper : Stopper
  log : List JobEvent

/-- How a task ends. An exception is a standard one with its text, or an unknown one. -/
inductive TaskResult where
  | completed
  | exception (what : String)
  | unknownException
  deriving DecidableEq

/-- The status that `worker_loop` records for a task that threw. -/
def TaskResult.updates (jobId : UInt64) : TaskResult → List JobEvent
  | .completed => []
  | .exception what => [.updated jobId "failed" ("Exception: " ++ what)]
  | .unknownException => [.updated jobId "failed" "Unknown exception"]

/-- Whose turn it is. A worker in a task ends it with the result given. -/
inductive Choice where
  | start
  | submit (jobId : UInt64)
  | work (worker : Nat) (result : TaskResult)
  | shutdown
  deriving DecidableEq

/-- The accepted submissions of a log, in their order. -/
def acceptedIn (log : List JobEvent) : List Job :=
  log.filterMap fun event => if let .accepted job := event then some job else none

/-- The jobs that left the queue, in their order. -/
def leftIn (log : List JobEvent) : List Job :=
  log.filterMap fun event =>
    match event with
    | .started job => some job
    | .cancelled job => some job
    | _ => none

namespace JobExecutor

variable (executor : JobExecutor)

/-- The constructor. -/
def new (workerCount maxQueue : Nat) : JobExecutor := ⟨workerCount, maxQueue, false, [], [], .idle, []⟩

def start : JobExecutor :=
  if executor.running then executor
  else
    { executor with
      running := true
      workers := executor.workers ++ List.replicate executor.workerCount .waiting }

def submit (jobId : UInt64) : JobExecutor :=
  if !executor.running then { executor with log := executor.log ++ [.rejected jobId] }
  else if executor.queue.length ≥ executor.maxQueue then
    { executor with log := executor.log ++ [.updated jobId "failed" "Task queue full", .rejected jobId] }
  else
    let job : Job := ⟨(acceptedIn executor.log).length, jobId⟩
    { executor with
      queue := executor.queue ++ [job]
      log := executor.log ++ [.accepted job] }

/-- One turn of a worker in `worker_loop`. A worker at the wait moves only when its
condition holds. -/
def work (worker : Nat) (result : TaskResult) : JobExecutor :=
  match executor.workers[worker]? with
  | none => executor
  | some .done => executor
  | some (.busy job) =>
      { executor with
        workers := executor.workers.set worker .waiting
        log := executor.log ++ (result.updates job.jobId ++ [.executed job]) }
  | some .waiting =>
      match executor.queue with
      | [] => if executor.running then executor else { executor with workers := executor.workers.set worker .done }
      | job :: rest =>
          { executor with
            queue := rest
            workers := executor.workers.set worker (.busy job)
            log := executor.log ++ [.started job] }

/-- One turn of the call of `shutdown`. It joins a worker only when that is done. -/
def shutdown : JobExecutor :=
  match executor.stopper with
  | .idle =>
      if !executor.running then
        { executor with
          stopper := .returned
          log := executor.log ++ [.shutdownReturned false] }
      else
        { executor with
          running := false
          stopper := .joining 0 }
  | .joining next =>
      match executor.workers[next]? with
      | some worker => if worker = .done then { executor with stopper := .joining (next + 1) } else executor
      | none =>
          { executor with
            workers := []
            stopper := .draining }
  | .draining =>
      match executor.queue with
      | [] =>
          { executor with
            stopper := .returned
            log := executor.log ++ [.shutdownReturned true] }
      | job :: rest =>
          { executor with
            queue := rest
            log := executor.log ++ [.updated job.jobId "cancelled" "Daemon shutting down", .cancelled job] }
  | .returned => executor

def step : Choice → JobExecutor
  | .start => executor.start
  | .submit jobId => executor.submit jobId
  | .work worker result => executor.work worker result
  | .shutdown => executor.shutdown

/-- The executor after the turns of a schedule. -/
def run (schedule : List Choice) : JobExecutor := schedule.foldl step executor

end JobExecutor

end ContainerCP.Jobs
