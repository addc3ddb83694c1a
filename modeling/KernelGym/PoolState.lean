import KernelGym.Library.Runs

/-! The state of one `SubprocessWorkerPool` and of everything that runs on its behalf: the tasks that
use its workers, the threads that build replacements, the recoveries and the shutdown. Code that
waits is kept as an activity, which names the `await` it stands at. -/

namespace KernelGym.WorkerPool

/-- A `PersistentWorker` object, by the order in which the pool constructed it. -/
abbrev Handle := Nat

inductive HealthState
  | healthy
  | degradedCheck
  | suspect
  | bootstrapFailed
  | quarantined
  deriving DecidableEq, Repr

/-- Membership and the accounting of capacity. -/
structure Roster where
  poolSize : Nat
  workers : List Handle
  idleWorkers : List Handle
  busyWorkers : List Handle := []
  pendingReplacements : Nat := 0
  pendingRetirements : Nat := 0
  retiringWorkerIds : List Handle := []
  deriving DecidableEq, Repr

/-- What decides whether the pool may dequeue another task. -/
structure Admission where
  closing : Bool := false
  healthState : HealthState := .healthy
  speculativeDispatchesRemaining : Nat := 0
  poolGeneration : Nat := 0
  hardRecoveryEpoch : Nat := 0
  consecutiveReplacementFailures : Nat := 0
  deriving DecidableEq, Repr

/-- The processes behind the handles, with the handles in `_UNREAPED_WORKER_HANDLES`. A handle in
`reaped` has completed a `shutdown` that proved its process group gone. -/
structure Registry where
  constructed : Nat
  reaped : List Handle := []
  unreaped : List Handle := []
  /-- Handles whose `is_alive` answers false. -/
  dead : List Handle := []
  deriving DecidableEq, Repr

/-- The `_shutdown_task`, with the answer of `_shutdown_once`. -/
inductive ShutdownTask
  | notStarted
  | running
  | finished (safe : Bool)
  deriving DecidableEq, Repr

structure Pool where
  roster : Roster
  admission : Admission := {}
  registry : Registry
  /-- The generation of every open ticket, once for each; `_active_replenishments` counts them. -/
  activeReplenishments : List Nat := []
  /-- `_recovery_lock` is held. -/
  recoveryLock : Bool := false
  /-- `unsafe_shutdown_reason` is not empty. -/
  unsafeShutdown : Bool := false
  shutdownTask : ShutdownTask := .notStarted
  /-- History: for each fresh-context probe, the hard epoch of the fault report that started it. -/
  probes : List Nat := []
  deriving DecidableEq, Repr

/-! ### Activities -/

/-- How `_recover_from_device_fault` and `_restart_worker` leave the task that called them: by
returning, or with an `UnsafeGPUContainmentError`, a `PoolShutdownContainmentError`, or the internal
error that the recovery itself met. -/
inductive Outcome
  | returned
  | unsafeContainment
  | shutdownContainment
  | recoveryError
  deriving DecidableEq, Repr

/-- The `await` at which an activity stands. `w` is the worker that a task checked out, `e` the hard
epoch at its checkout, and `g` or `t` the generation of a ticket. -/
inductive Stage
  | done
  /-- `worker.execute_task` runs in the executor. -/
  | executing (w : Handle) (e : Nat)
  /-- `_begin_context_fault_validation` answered `g`; `_restart_worker` comes next. -/
  | faulted (w : Handle) (e g : Nat)
  /-- `_restart_worker` awaits the reap; then it starts the thread in `next`, a generation and whether
  it validates a context fault. -/
  | recycling (w : Handle) (e t : Nat) (next : Option (Nat × Bool))
  /-- At the `finally` of `_restart_worker`. -/
  | recycled (w : Handle) (e t : Nat) (topUp : Bool) (o : Outcome)
  | toppingUp (w : Handle) (e : Nat)
  /-- `_recover_from_device_fault` awaits the recovery lock. -/
  | reporting (w : Handle) (e : Nat)
  /-- Holds the recovery lock; `_recover_from_device_fault_once` comes next. -/
  | admitted (w : Handle) (e : Nat)
  /-- Awaits the shutdown of the old workers. -/
  | retiring (w : Handle) (e g : Nat)
  | unreapedOld (w : Handle) (e g : Nat)
  /-- Awaits `_wait_for_older_replenishments`. -/
  | draining (w : Handle) (e g : Nat)
  | drained (w : Handle) (e g : Nat)
  /-- The fresh-context validation constructor runs. -/
  | probing (w : Handle) (e g : Nat)
  | probed (w : Handle) (e g : Nat) (v : Option Handle)
  | staleProbe (w : Handle) (e g : Nat) (v : Handle)
  | unsafeRecovery (w : Handle) (e g : Nat)
  /-- At the `except Exception` of the recovery. -/
  | failing (w : Handle) (e g : Nat)
  | containing (w : Handle) (e g : Nat)
  /-- The inner recovery returned; the wrapper looks at the pool once more. -/
  | recovered (w : Handle) (e : Nat)
  /-- `_raise_shutdown_containment_result` awaits the shutdown task. -/
  | awaitingShutdown (w : Handle) (e : Nat)
  /-- `_return_worker` comes next. -/
  | returning (w : Handle) (e : Nat) (o : Outcome)
  /-- `_reap_detached_workers` awaits the shutdown of `n` workers. -/
  | reconciling (t n : Nat)
  | reconciled (t n : Nat)
  /-- A replenishment thread has been started; `v` is `validates_context_fault`. -/
  | replenishing (g : Nat) (v : Bool)
  | awaitingOlder (g : Nat)
  | checked (g : Nat) (v : Bool)
  | constructing (g : Nat) (v : Bool)
  /-- `_register` is scheduled. -/
  | ready (g : Nat) (v : Bool) (w : Handle)
  | staleReplacement (g : Nat) (w : Handle)
  /-- At `_finish_callback` of the registration. -/
  | callbackDone (g : Nat) (w : Handle)
  /-- `_shutdown_retained_callback_worker` runs. -/
  | callbackReap (g : Nat) (w : Handle)
  /-- `_mark_failed` is scheduled. -/
  | failed (g : Nat) (v physical : Bool)
  | containingFailure (g : Nat)
  /-- `_mark_failed` sleeps before it retries. -/
  | retrying (g : Nat)
  | failureDone (g : Nat)
  | shutdownReaping
  | shutdownDraining
  | shutdownDrained (stopped : Bool)
  | shutdownLate (stopped : Bool)
  /-- `_quarantine_unreaped_context` comes next. -/
  | unreaped (extra : Option Handle) (resume : Stage)
  | quarantining (resume : Stage)
  deriving DecidableEq, Repr

/-- The `shutdown` calls an activity awaits, and the results that have come back. -/
structure Reap where
  todo : List Handle := []
  results : List (Handle × Bool) := []
  deriving DecidableEq, Repr

/-- Waiting for the shutdown of all of `ws`. -/
def Reap.of (ws : List Handle) : Reap := { todo := ws }

/-- The workers whose `shutdown` has been called. -/
def Reap.workers (r : Reap) : List Handle := r.todo ++ r.results.map Prod.fst

/-- The workers whose shutdown came back without a proof. -/
def Reap.unproven (r : Reap) : List Handle := (r.results.filter fun x => !x.2).map Prod.fst

structure Activity where
  stage : Stage
  reap : Reap := {}
  deriving DecidableEq, Repr

/-- A task holds the worker handed to it until `_return_worker` has run. -/
def Stage.holds : Stage → Option Handle
  | .executing w _ | .faulted w _ _ | .recycling w _ _ _ | .recycled w _ _ _ _ | .toppingUp w _
  | .reporting w _ | .admitted w _ | .retiring w _ _ | .unreapedOld w _ _ | .draining w _ _
  | .drained w _ _ | .probing w _ _ | .probed w _ _ _ | .staleProbe w _ _ _
  | .unsafeRecovery w _ _ | .failing w _ _ | .containing w _ _ | .recovered w _
  | .awaitingShutdown w _ | .returning w _ _ => some w
  | .unreaped _ resume | .quarantining resume => resume.holds
  | _ => none

/-- The generation of the ticket that an activity keeps open. -/
def Stage.ticket : Stage → Option Nat
  | .recycling _ _ t _ | .recycled _ _ t _ _ | .retiring _ _ t | .unreapedOld _ _ t | .draining _ _ t
  | .drained _ _ t | .probing _ _ t | .probed _ _ t _ | .staleProbe _ _ t _
  | .unsafeRecovery _ _ t | .failing _ _ t | .containing _ _ t | .reconciling t _
  | .reconciled t _ | .replenishing t _ | .awaitingOlder t | .checked t _ | .constructing t _
  | .ready t _ _ | .staleReplacement t _ | .callbackDone t _ | .callbackReap t _ | .failed t _ _
  | .containingFailure t | .retrying t | .failureDone t => some t
  | .unreaped _ resume | .quarantining resume => resume.ticket
  | _ => none

end KernelGym.WorkerPool
