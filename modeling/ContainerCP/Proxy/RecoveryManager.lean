import ContainerCP.Concurrency.Interleaving
import ContainerCP.Text.Bytes

/-! `RecoveryManager` under every schedule of its check loop, of callers of `recover_now` and of
a shutdown. An exception out of `recover` is caught by neither of its callers and ends the whole
process, so it is no step here. -/
namespace ContainerCP.Recovery

open Concurrency

def maxRetries : Nat := 3

/-- Who calls `recover`. -/
inductive Caller where
  | background
  | manual
  deriving DecidableEq

inductive RecoveryEvent where
  | checked (healthy : Bool)
  | cooldown
  | started (caller : Caller)
  | ended (caller : Caller)
  deriving DecidableEq

/-- The members of the manager, and what has happened, the latest first. `locked` is the mutex
and `checks` counts the health checks. -/
structure RecoveryState where
  running : Bool := true
  locked : Bool := false
  recoveryActive : Bool := false
  failCount : Nat := 0
  lastRecoveryResult : Bytes := []
  checks : Nat := 0
  log : List RecoveryEvent := []
  deriving DecidableEq

/-- One health check and its result. -/
def RecoveryState.check (s : RecoveryState) (healthy : Bool) : RecoveryState :=
  { s with checks := s.checks + 1, log := .checked healthy :: s.log }

/-- What the check loop found out under the lock. -/
inductive Outcome where
  | wait
  | cooldown
  | attempt
  deriving DecidableEq

/-- The steps of `recover`: its three repairs, and the verdict under the lock. -/
inductive RecoverStep where
  | container
  | admin
  | sites
  | lock
  | judge
  | reset
  | unlock
  deriving DecidableEq

/-- Where a thread is: in `check_loop`, in `recover_now`, in `recover` for one of the two, at the
release of the flag behind it, or at a shutdown. -/
inductive RecoveryPc where
  | loopTest
  | loopProbe
  | loopProbed (healthy : Bool)
  | loopReset
  | loopLock
  | loopDecide
  | loopClaim
  | loopCount
  | loopUnlock (outcome : Outcome)
  | loopCooldown
  | loopSleep
  | loopDone
  | nowLock
  | nowDecide
  | nowClaim
  | nowUnlock (acquired : Bool)
  | nowProbe
  | returned (success : Bool) (message : Bytes)
  | recovering (caller : Caller) (step : RecoverStep)
  | clearLock (caller : Caller)
  | clear (caller : Caller)
  | clearUnlock (caller : Caller)
  | stopping
  | stopped
  deriving DecidableEq

namespace RecoveryPc

/-- One step; `health` are the results of the health checks, in their order. -/
def next (health : Nat → Bool) : RecoveryPc → RecoveryState → Option (RecoveryPc × RecoveryState)
  | loopTest, s => if s.running then some (loopProbe, s) else some (loopDone, s)
  | loopProbe, s => some (loopProbed (health s.checks), s.check (health s.checks))
  | loopProbed healthy, s => if !s.running then some (loopDone, s) else if healthy then some (loopReset, s) else some (loopLock, s)
  | loopReset, s => some (loopSleep, { s with failCount := 0 })
  | loopLock, s => if s.locked then none else some (loopDecide, { s with locked := true })
  | loopDecide, s =>
      if s.recoveryActive then some (loopUnlock .wait, s)
      else if s.failCount ≥ maxRetries then some (loopUnlock .cooldown, s)
      else some (loopClaim, s)
  | loopClaim, s => some (loopCount, { s with recoveryActive := true })
  | loopCount, s => some (loopUnlock .attempt, { s with failCount := s.failCount + 1 })
  | loopUnlock .wait, s => some (loopSleep, { s with locked := false })
  | loopUnlock .cooldown, s => some (loopCooldown, { s with locked := false, log := .cooldown :: s.log })
  | loopUnlock .attempt, s =>
      some (recovering .background .container, { s with locked := false, log := .started .background :: s.log })
  | loopCooldown, s => some (loopSleep, { s with failCount := 0 })
  | loopSleep, s => some (loopTest, s)
  | loopDone, _ => none
  | nowLock, s => if s.locked then none else some (nowDecide, { s with locked := true })
  | nowDecide, s => if s.recoveryActive then some (nowUnlock false, s) else some (nowClaim, s)
  | nowClaim, s => some (nowUnlock true, { s with recoveryActive := true })
  | nowUnlock false, s => some (returned false (bytes "Recovery already in progress"), { s with locked := false })
  | nowUnlock true, s => some (recovering .manual .container, { s with locked := false, log := .started .manual :: s.log })
  | nowProbe, s =>
      if health s.checks then some (returned true (bytes "Recovery completed successfully"), s.check true)
      else some (returned false (bytes "Recovery completed but proxy is still unhealthy"), s.check false)
  | returned _ _, _ => none
  | recovering caller .container, s => some (recovering caller .admin, s)
  | recovering caller .admin, s => some (recovering caller .sites, s)
  | recovering caller .sites, s => some (recovering caller .lock, s)
  | recovering caller .lock, s => if s.locked then none else some (recovering caller .judge, { s with locked := true })
  | recovering caller .judge, s =>
      if health s.checks then some (recovering caller .reset, s.check true)
      else some (recovering caller .unlock, { s.check false with lastRecoveryResult := bytes "failed" })
  | recovering caller .reset, s =>
      some (recovering caller .unlock, { s with failCount := 0, lastRecoveryResult := bytes "success" })
  | recovering caller .unlock, s => some (clearLock caller, { s with locked := false, log := .ended caller :: s.log })
  | clearLock caller, s => if s.locked then none else some (clear caller, { s with locked := true })
  | clear caller, s => some (clearUnlock caller, { s with recoveryActive := false })
  | clearUnlock .background, s => some (loopSleep, { s with locked := false })
  | clearUnlock .manual, s => some (nowProbe, { s with locked := false })
  | stopping, s => some (stopped, { s with running := false })
  | stopped, _ => none

/-- Calls of `recover_now` come in, and a shutdown. -/
def isEntry : RecoveryPc → Bool
  | nowLock => true
  | stopping => true
  | _ => false

end RecoveryPc

-- a step is taken apart by the cases of `next`, derived here once for all that is proved of it
attribute [elab_as_elim] RecoveryPc.next.fun_cases_unfolding

def recoveryManager (health : Nat → Bool) : Program RecoveryState RecoveryPc := ⟨RecoveryPc.isEntry, RecoveryPc.next health⟩

/-- The manager behind `start`, with its one check loop. -/
def started : System RecoveryState RecoveryPc := ⟨{}, [.loopTest]⟩

end ContainerCP.Recovery
