import KernelGym.PoolState

/-! The code that the pool runs between two `await`s: the sections under its lock, the ticket and
registry bookkeeping, and `PersistentWorker.shutdown`. Thread starts are left to the caller, which
learns from `topUps` how many threads `_ensure_capacity_locked` starts. -/

namespace KernelGym.WorkerPool

/-- `_MAX_REPLACEMENT_INFRA_FAILURES`. -/
def maxReplacementFailures : Nat := 3

/-! ### Handles -/

namespace Registry

variable (r : Registry)

/-- `_retain_unreaped_worker`. -/
def retain (w : Handle) : Registry :=
  { r with unreaped := if w ∈ r.unreaped then r.unreaped else r.unreaped ++ [w] }

/-- `_release_reaped_worker`. -/
def release (w : Handle) : Registry := { r with unreaped := r.unreaped.filter (· ≠ w) }

/-- `_record_worker_reap_result`. -/
def recordResult (x : Handle × Bool) : Registry := if x.2 then r.release x.1 else r.retain x.1

/-- `_record_reap_results`. -/
def recordResults (results : List (Handle × Bool)) : Registry := results.foldl recordResult r

/-- `PersistentWorker.shutdown`: idempotent once the exit has been proven. -/
def shutdown (w : Handle) (stopped : Bool) : Registry × Bool :=
  if w ∈ r.reaped then (r.release w, true)
  else if stopped then
    ({ r.release w with reaped := w :: r.reaped, dead := w :: r.dead }, true)
  else ({ r.retain w with dead := w :: r.dead }, false)

/-- A constructor that reached READY. -/
def construct : Registry × Handle := ({ r with constructed := r.constructed + 1 }, r.constructed)

/-- A constructor whose handshake failed and whose child was reaped, or was not proven to be. -/
def constructFailed (reapConfirmed : Bool) : Registry :=
  (r.construct.1.shutdown r.constructed reapConfirmed).1

def isAlive (w : Handle) : Bool := w ∉ r.dead

end Registry

namespace Pool

variable (p : Pool)

/-! ### Tickets, health and capacity -/

def registerReplenishmentTicket (g : Nat) : Pool :=
  { p with activeReplenishments := g :: p.activeReplenishments }

def finishReplenishmentTicket (g : Nat) : Pool :=
  { p with activeReplenishments := p.activeReplenishments.erase g }

/-- The condition on which `_wait_for_older_replenishments` keeps waiting. -/
def olderReplenishments (g : Nat) : Bool := p.activeReplenishments.any (· < g)

def recordReapResults (results : List (Handle × Bool)) : Pool :=
  { p with registry := p.registry.recordResults results }

def releaseRecoveryLock : Pool := { p with recoveryLock := false }

end Pool

/-- `_set_health_locked`. -/
def Admission.setHealth (a : Admission) (state : HealthState) : Admission :=
  { a with
    healthState := state
    speculativeDispatchesRemaining :=
      if state = .degradedCheck then a.speculativeDispatchesRemaining else 0 }

/-- Clears the three views of the pool's members. -/
def Roster.clear (r : Roster) : Roster :=
  { r with workers := [], idleWorkers := [], busyWorkers := [] }

namespace Pool

variable (p : Pool)

/-- `_tracked_workers_locked`. -/
def trackedWorkers (extra : List Handle) : List Handle :=
  (p.roster.workers ++ p.roster.idleWorkers ++ p.roster.busyWorkers ++ p.registry.unreaped ++
    extra).eraseDups

/-- How often the loop of `_ensure_capacity_locked` runs: every round adds one pending replacement. -/
def topUps : Nat :=
  if p.admission.closing = false ∧ p.admission.healthState = .healthy then
    p.roster.poolSize -
      (p.roster.workers.length + p.roster.pendingReplacements + p.roster.pendingRetirements)
  else 0

/-- `_ensure_capacity_locked`, with the tickets of the threads it starts. -/
def ensureCapacity : Pool :=
  { p with
    roster := { p.roster with pendingReplacements := p.roster.pendingReplacements + p.topUps }
    activeReplenishments :=
      List.replicate p.topUps p.admission.poolGeneration ++ p.activeReplenishments }

/-! ### Faults -/

/-- The locked part of `_quarantine_unreaped_context`. -/
def quarantineUnreapedContext : Pool :=
  { p with
    roster := { p.roster.clear with pendingReplacements := 0 }
    admission := { p.admission with
      poolGeneration := p.admission.poolGeneration + 1
      hardRecoveryEpoch := p.admission.hardRecoveryEpoch + 1 }.setHealth .quarantined
    unsafeShutdown := true }

/-- The locked part of `_contain_unexpected_hard_recovery_failure`. -/
def containUnexpectedHardRecoveryFailure : Pool :=
  { p with
    roster := { p.roster.clear with pendingReplacements := 0 }
    admission := { p.admission with
      poolGeneration := p.admission.poolGeneration + 1
      hardRecoveryEpoch := p.admission.hardRecoveryEpoch + 1 }.setHealth .quarantined }

/-- The answers of `_begin_context_fault_validation`. -/
inductive ContextFault
  | stale
  | refused
  | validating (g : Nat)
  deriving DecidableEq, Repr

/-- The answer of `_begin_context_fault_validation` for a worker checked out at hard epoch `e`. -/
def contextFaultAnswer (e : Nat) : ContextFault :=
  if e ≠ p.admission.hardRecoveryEpoch then .stale
  else if p.admission.closing ∨ p.admission.healthState ≠ .healthy then .refused
  else .validating (p.admission.poolGeneration + 1)

/-- `_begin_context_fault_validation`. -/
def beginContextFaultValidation : ContextFault → Pool
  | .stale | .refused => p
  | .validating g =>
    { p with
      roster := { p.roster with pendingReplacements := 0 }
      admission := { { p.admission with poolGeneration := g }.setHealth .degradedCheck with
        speculativeDispatchesRemaining := 1 } }

/-- The gate of `_recover_from_device_fault_once`, with its lifecycle ticket. -/
def gateDeviceFault : Pool :=
  { p with
    roster := { p.roster.clear with pendingReplacements := 1 }
    admission := { p.admission with
      poolGeneration := p.admission.poolGeneration + 1
      hardRecoveryEpoch := p.admission.hardRecoveryEpoch + 1 }.setHealth .suspect
  }.registerReplenishmentTicket (p.admission.poolGeneration + 1)

/-- The locked part of the branch of the recovery that found an old worker not proven reaped. -/
def quarantineOldWorkers (g : Nat) : Pool :=
  if g = p.admission.poolGeneration ∧ p.admission.closing = false then
    { p with
      roster := { p.roster with pendingReplacements := 0 }
      admission := p.admission.setHealth .quarantined }
  else p

/-- The recovery of generation `g` still decides about admission. -/
def recoveryCurrent (g : Nat) : Bool :=
  !p.admission.closing && g = p.admission.poolGeneration && p.admission.healthState = .suspect

/-- The last locked part of the recovery, when it is still current. -/
def settleProbe : Option Handle → Pool
  | none =>
    { p with
      roster := { p.roster with pendingReplacements := 0 }
      admission := p.admission.setHealth .quarantined }
  | some v =>
    { p with
      roster := { p.roster with
        pendingReplacements := 0
        workers := p.roster.workers ++ [v]
        idleWorkers := p.roster.idleWorkers ++ [v] }
      admission := { p.admission with consecutiveReplacementFailures := 0 }.setHealth .healthy }

/-! ### Checkout, return and restart -/

def liveOrphans : List Handle :=
  (p.roster.idleWorkers ++ p.roster.busyWorkers).filter fun w =>
    w ∉ p.roster.workers && w ∉ p.roster.retiringWorkerIds && p.registry.isAlive w

def deadBusyWorkerPresent : Bool :=
  (p.trackedWorkers []).any fun w =>
    w ∈ p.roster.busyWorkers && w ∉ p.roster.retiringWorkerIds && !p.registry.isAlive w

def deadWorkers : List Handle :=
  (p.trackedWorkers []).filter fun w =>
    w ∉ p.roster.busyWorkers && w ∉ p.roster.retiringWorkerIds && !p.registry.isAlive w

/-- `_get_idle_worker` raises before it looks at any worker. -/
def admissionBlocked : Bool :=
  p.admission.closing || p.admission.healthState = .suspect ||
    p.admission.healthState = .bootstrapFailed || p.admission.healthState = .quarantined

def mayDispatch : Bool :=
  !p.deadBusyWorkerPresent && (p.admission.healthState = .healthy ||
    (p.admission.healthState = .degradedCheck && 0 < p.admission.speculativeDispatchesRemaining))

/-- The dispatch of `_get_idle_worker`: the first idle worker becomes busy. -/
def dispatch (w : Handle) : Pool :=
  { p with
    roster := { p.roster with
      idleWorkers := p.roster.idleWorkers.tail
      busyWorkers := p.roster.busyWorkers ++ [w] }
    admission := { p.admission with
      speculativeDispatchesRemaining :=
        if p.admission.healthState = .degradedCheck then
          p.admission.speculativeDispatchesRemaining - 1
        else p.admission.speculativeDispatchesRemaining } }

/-- The branch of `_get_idle_worker` that detaches dead workers. -/
def detachDeadWorkers : Pool :=
  { p with
    roster := { p.roster with
      pendingRetirements := p.roster.pendingRetirements + p.deadWorkers.length
      workers := p.roster.workers.filter (· ∉ p.deadWorkers)
      idleWorkers := p.roster.idleWorkers.filter (· ∉ p.deadWorkers)
      busyWorkers := p.roster.busyWorkers.filter (· ∉ p.deadWorkers) }
  }.registerReplenishmentTicket p.admission.poolGeneration

/-- The branch of `_get_idle_worker` that found a live worker outside `workers`. -/
def quarantineTopology : Pool :=
  { p with
    roster := { p.roster.clear with
      pendingRetirements := p.roster.pendingRetirements + (p.trackedWorkers []).length
      pendingReplacements := 0 }
    admission := { p.admission with
      poolGeneration := p.admission.poolGeneration + 1
      hardRecoveryEpoch := p.admission.hardRecoveryEpoch + 1 }.setHealth .quarantined
  }.registerReplenishmentTicket p.admission.poolGeneration

/-- The `finally` of `_reap_detached_workers` after `n` workers, up to its top-up. -/
def settleDetached (t n : Nat) : Pool :=
  { p with
    roster := { p.roster with pendingRetirements := p.roster.pendingRetirements - n }
  }.finishReplenishmentTicket t

/-- `_return_worker`, up to its top-up. -/
def returnWorker (w : Handle) : Pool :=
  { p with
    roster := { p.roster with
      busyWorkers := p.roster.busyWorkers.erase w
      idleWorkers :=
        if w ∈ p.roster.workers ∧ p.registry.isAlive w ∧ w ∉ p.roster.idleWorkers then
          p.roster.idleWorkers ++ [w]
        else p.roster.idleWorkers } }

/-- Whether `_restart_worker` replaces the worker, which it has already removed. -/
def shouldReplenish (validationGeneration : Option Nat) : Bool :=
  match validationGeneration with
  | some g => g = p.admission.poolGeneration && p.admission.healthState = .degradedCheck
  | none => p.admission.healthState = .healthy &&
      p.roster.workers.length + p.roster.pendingReplacements + p.roster.pendingRetirements <
        p.roster.poolSize

/-- `_restart_worker` removes the worker from every list. -/
def removeWorker (w : Handle) : Pool :=
  { p with
    roster := { p.roster with
      workers := p.roster.workers.erase w
      idleWorkers := p.roster.idleWorkers.erase w
      busyWorkers := p.roster.busyWorkers.erase w } }

/-- The rest of the first locked part of `_restart_worker`. -/
def retireWorker (w : Handle) (replenish : Bool) : Pool :=
  { p with
    roster := { p.roster with
      pendingReplacements := p.roster.pendingReplacements + if replenish then 1 else 0
      pendingRetirements := p.roster.pendingRetirements + 1
      retiringWorkerIds := w :: p.roster.retiringWorkerIds }
    registry := p.registry.retain w
  }.registerReplenishmentTicket p.admission.poolGeneration

/-- The first locked part of `_restart_worker`, and the thread to start once `w` is reaped. -/
def restartWorker (w : Handle) (validationGeneration : Option Nat) :
    Pool × Option (Nat × Bool) :=
  let removed := p.removeWorker w
  let replenish := removed.shouldReplenish validationGeneration
  (removed.retireWorker w replenish,
    if replenish then
      some (validationGeneration.getD p.admission.poolGeneration, validationGeneration.isSome)
    else none)

/-- The `finally` of `_restart_worker`. -/
def settleRestart (w : Handle) (t : Nat) : Pool :=
  { p with
    roster := { p.roster with
      pendingRetirements := p.roster.pendingRetirements - 1
      retiringWorkerIds := p.roster.retiringWorkerIds.filter (· ≠ w) }
  }.finishReplenishmentTicket t

/-! ### Replenishment -/

/-- A replenishment of generation `g` no longer concerns the pool. -/
def replenishmentStale (g : Nat) : Bool := p.admission.closing || g ≠ p.admission.poolGeneration

/-- What `_register` does with the worker it was started for. -/
inductive Registration
  | stale
  | added
  | surplus
  deriving DecidableEq, Repr

/-- The state in which a replacement may be registered. -/
def registrableState (validates : Bool) : HealthState :=
  if validates then .degradedCheck else .healthy

def registration (g : Nat) (validates : Bool) : Registration :=
  if p.replenishmentStale g then .stale
  else if p.admission.healthState ≠ registrableState validates then .stale
  else if p.roster.workers.length < p.roster.poolSize then .added
  else .surplus

/-- The locked part of `_register`, up to its top-up. -/
def register (w : Handle) (validates : Bool) : Registration → Pool
  | .stale => p
  | .added =>
    { p with
      roster := { p.roster with
        pendingReplacements := p.roster.pendingReplacements - 1
        workers := p.roster.workers ++ [w]
        idleWorkers := p.roster.idleWorkers ++ [w] }
      registry := p.registry.release w
      admission :=
        let counted := { p.admission with consecutiveReplacementFailures := 0 }
        if validates then counted.setHealth .healthy else counted }
  | .surplus =>
    { p with
      roster := { p.roster with pendingReplacements := p.roster.pendingReplacements - 1 } }

/-- What `_mark_failed` decides about a failed constructor. -/
inductive Failure
  | stale
  | quarantine
  | exhausted
  | retry
  deriving DecidableEq, Repr

def failure (g : Nat) (physical : Bool) : Failure :=
  if p.replenishmentStale g then .stale
  else if physical then .quarantine
  else if maxReplacementFailures ≤ p.admission.consecutiveReplacementFailures + 1 then .exhausted
  else .retry

/-- The first locked part of `_mark_failed`. -/
def markFailed : Failure → Pool
  | .stale => p
  | .quarantine =>
    { p with
      roster := { p.roster.clear with pendingReplacements := 0 }
      admission := { p.admission with
        consecutiveReplacementFailures := p.admission.consecutiveReplacementFailures + 1
        poolGeneration := p.admission.poolGeneration + 1 }.setHealth .quarantined }
  | .exhausted =>
    { p with
      roster := { p.roster with pendingReplacements := 0 }
      admission := { p.admission with
        consecutiveReplacementFailures := p.admission.consecutiveReplacementFailures + 1
        poolGeneration := p.admission.poolGeneration + 1 }.setHealth .bootstrapFailed }
  | .retry =>
    { p with
      admission := { p.admission with
        consecutiveReplacementFailures := p.admission.consecutiveReplacementFailures + 1 } }

/-- The second locked part of `_mark_failed`, after the delay and up to its top-up. -/
def retryCapacity : Pool :=
  { p with
    roster := { p.roster with pendingReplacements := p.roster.pendingReplacements - 1 } }

/-! ### Shutdown -/

/-- The first locked part of `_shutdown_once`. -/
def beginShutdown : Pool :=
  { p with
    roster := { p.roster.clear with pendingReplacements := 0 }
    admission := { p.admission with
      closing := true
      poolGeneration := p.admission.poolGeneration + 1 }
    shutdownTask := .running }

/-- The end of `_shutdown_once`, for the results of all its shutdowns. -/
def endShutdown (stopped : Bool) (results : List (Handle × Bool)) : Pool :=
  let reaped := results.all Prod.snd
  let unsafeReason := p.unsafeShutdown || !stopped || !reaped
  { p.recordReapResults results with
    unsafeShutdown := unsafeReason
    shutdownTask := .finished (stopped && reaped && !unsafeReason) }

end Pool

end KernelGym.WorkerPool
