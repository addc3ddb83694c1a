import KernelGym.PoolSections

/-! The pool as a transition system. A step is one block of a coroutine or thread, from the `await` it
stands at to the next one, the return of one `PersistentWorker.shutdown`, a call that starts a new
activity, or the death of a worker process. -/

namespace KernelGym.WorkerPool

structure Sys where
  pool : Pool
  activities : List Activity := []
  deriving DecidableEq, Repr

/-- The pool after `_init_workers` with `n` workers. -/
def init (n : Nat) : Sys :=
  { pool :=
      { roster := { poolSize := n, workers := List.range n, idleWorkers := List.range n }
        registry := { constructed := n } } }

/-- What a block leaves behind: the pool, where its activity now stands, the thread it started, and
whether it ended with `_ensure_capacity_locked`. -/
structure Result where
  pool : Pool
  activity : Activity
  started : List Activity := []
  topUp : Bool := false

/-- The blocks, named with the stage they start from. -/
inductive Move
  /-- The result of the task carries a context fault. -/
  | contextFault (w : Handle) (e : Nat)
  /-- A device fault, a timeout or a cancellation. -/
  | deviceFault (w : Handle) (e : Nat)
  | recycle (w : Handle) (e : Nat)
  | finish (w : Handle) (e : Nat)
  | recycleFaulted (w : Handle) (e g : Nat)
  /-- Cancelled while it waits for the lock of `_restart_worker`. -/
  | interrupt (w : Handle) (e g : Nat) (report : Bool)
  | reapRecycled (w : Handle) (e t : Nat) (next : Option (Nat × Bool))
  | settleRecycled (w : Handle) (e t : Nat) (topUp : Bool) (o : Outcome)
  /-- Cancelled while it waits for the lock again: the accounting is left as it is, the ticket open. -/
  | interruptRecycled (w : Handle) (e t : Nat) (topUp : Bool) (o : Outcome) (report : Bool)
  /-- A cancellation during the reap is raised at the end of `_restart_worker`. -/
  | cancelRecycled (w : Handle) (e t : Nat) (report : Bool)
  | topUpRecycled (w : Handle) (e : Nat)
  | interruptTopUp (w : Handle) (e : Nat) (report : Bool)
  | cancelToppedUp (w : Handle) (e : Nat) (report : Bool)
  | returnWorker (w : Handle) (e : Nat) (o : Outcome)
  | enterRecovery (w : Handle) (e : Nat)
  | recoverOnce (w : Handle) (e : Nat)
  | retire (w : Handle) (e g : Nat)
  | quarantineOld (w : Handle) (e g : Nat)
  | drain (w : Handle) (e g : Nat)
  | drainTimeout (w : Handle) (e g : Nat)
  /-- The executor refuses the wait for the drain. -/
  | drainError (w : Handle) (e g : Nat)
  | startProbe (w : Handle) (e g : Nat)
  | probeReady (w : Handle) (e g : Nat)
  /-- The validation constructor failed; `reaped` says whether its child is proven gone. -/
  | probeFailed (w : Handle) (e g : Nat) (reaped : Bool)
  | settleProbe (w : Handle) (e g : Nat) (v : Option Handle)
  | reapStaleProbe (w : Handle) (e g : Nat) (v : Handle)
  | raiseUnsafe (w : Handle) (e g : Nat)
  | contain (w : Handle) (e g : Nat)
  | raiseContained (w : Handle) (e g : Nat)
  /-- `execute_task` takes the error of the recovery for one more device fault. -/
  | reportContained (w : Handle) (e g : Nat)
  | recheck (w : Handle) (e : Nat)
  | shutdownProof (w : Handle) (e : Nat)
  | reapDetached (t n : Nat)
  | settleDetached (t n : Nat)
  | threadStarts (g : Nat) (v : Bool)
  | threadError (g : Nat) (v : Bool)
  | olderDrained (g : Nat)
  | olderTimeout (g : Nat)
  | startConstructor (g : Nat) (v : Bool)
  | constructed (g : Nat) (v : Bool)
  | constructorFailed (g : Nat) (v cudaProbe reaped : Bool)
  | register (g : Nat) (v : Bool) (w : Handle)
  /-- The registration callback is cancelled before its coroutine ran, or cannot be scheduled. -/
  | registerCancelled (g : Nat) (v : Bool) (w : Handle)
  | reapStaleReplacement (g : Nat) (w : Handle)
  | finishCallback (g : Nat) (w : Handle)
  | callbackReaped (g : Nat) (w : Handle)
  | markFailed (g : Nat) (v physical : Bool)
  /-- The failure callback is cancelled before its coroutine ran, or cannot be scheduled. -/
  | dropFailure (g : Nat) (v physical : Bool)
  | reapFailure (g : Nat)
  | retry (g : Nat)
  | finishFailure (g : Nat)
  | shutdownReaped
  | shutdownDrain (stopped : Bool)
  | shutdownSnapshot (stopped : Bool)
  | shutdownEnd (stopped : Bool)
  | quarantine (extra : Option Handle) (resume : Stage)
  | endQuarantine (resume : Stage)
  deriving DecidableEq, Repr

/-- A call of `_quarantine_unreaped_context` for each of the workers, before `last`. -/
def unreapedEach (ws : List Handle) (last : Stage) : Stage :=
  ws.foldr (fun w resume => .unreaped (some w) resume) last

namespace Move

/-- The stage from which the block starts. -/
def source : Move → Stage
  | .contextFault w e | .deviceFault w e | .recycle w e | .finish w e => .executing w e
  | .recycleFaulted w e g | .interrupt w e g _ => .faulted w e g
  | .reapRecycled w e t next => .recycling w e t next
  | .settleRecycled w e t topUp o | .interruptRecycled w e t topUp o _ => .recycled w e t topUp o
  | .cancelRecycled w e t _ => .recycled w e t false .returned
  | .topUpRecycled w e | .interruptTopUp w e _ | .cancelToppedUp w e _ => .toppingUp w e
  | .returnWorker w e o => .returning w e o
  | .enterRecovery w e => .reporting w e
  | .recoverOnce w e => .admitted w e
  | .retire w e g => .retiring w e g
  | .quarantineOld w e g => .unreapedOld w e g
  | .drain w e g | .drainTimeout w e g | .drainError w e g => .draining w e g
  | .startProbe w e g => .drained w e g
  | .probeReady w e g | .probeFailed w e g _ => .probing w e g
  | .settleProbe w e g v => .probed w e g v
  | .reapStaleProbe w e g v => .staleProbe w e g v
  | .raiseUnsafe w e g => .unsafeRecovery w e g
  | .contain w e g => .failing w e g
  | .raiseContained w e g | .reportContained w e g => .containing w e g
  | .recheck w e => .recovered w e
  | .shutdownProof w e => .awaitingShutdown w e
  | .reapDetached t n => .reconciling t n
  | .settleDetached t n => .reconciled t n
  | .threadStarts g v | .threadError g v => .replenishing g v
  | .olderDrained g | .olderTimeout g => .awaitingOlder g
  | .startConstructor g v => .checked g v
  | .constructed g v | .constructorFailed g v _ _ => .constructing g v
  | .register g v w | .registerCancelled g v w => .ready g v w
  | .reapStaleReplacement g w => .staleReplacement g w
  | .finishCallback g w => .callbackDone g w
  | .callbackReaped g w => .callbackReap g w
  | .markFailed g v physical | .dropFailure g v physical => .failed g v physical
  | .reapFailure g => .containingFailure g
  | .retry g => .retrying g
  | .finishFailure g => .failureDone g
  | .shutdownReaped => .shutdownReaping
  | .shutdownDrain _ => .shutdownDraining
  | .shutdownSnapshot stopped => .shutdownDrained stopped
  | .shutdownEnd stopped => .shutdownLate stopped
  | .quarantine extra resume => .unreaped extra resume
  | .endQuarantine resume => .quarantining resume

/-- What must be so before the block can run. A block that gathers shutdowns has waited for all. -/
def ready (p : Pool) (r : Reap) : Move → Bool
  | .enterRecovery _ _ => !p.recoveryLock
  | .drain _ _ g | .olderDrained g => !p.olderReplenishments g
  | .drainTimeout _ _ g | .olderTimeout g => p.olderReplenishments g
  | .shutdownProof _ _ => p.shutdownTask ≠ .notStarted && p.shutdownTask ≠ .running
  | .shutdownDrain stopped => stopped = (p.activeReplenishments = [] : Bool)
  | _ => r.todo = []

/-- The end of a recovery that holds ticket `g`. -/
def endRecovery (p : Pool) (g : Nat) : Pool :=
  (p.finishReplenishmentTicket g).releaseRecoveryLock

/-- The block itself. -/
def run (p : Pool) (r : Reap) : Move → Result
  | .contextFault w e =>
    let answer := p.contextFaultAnswer e
    { pool := p.beginContextFaultValidation answer
      activity :=
        ⟨match answer with
          | .validating g => .faulted w e g
          | _ => .reporting w e, {}⟩ }
  | .deviceFault w e => { pool := p, activity := ⟨.reporting w e, {}⟩ }
  | .recycle w e =>
    { pool := (p.restartWorker w none).1
      activity :=
        ⟨.recycling w e p.admission.poolGeneration (p.restartWorker w none).2, .of [w]⟩ }
  | .finish w e => { pool := p, activity := ⟨.returning w e .returned, {}⟩ }
  | .recycleFaulted w e g =>
    { pool := (p.restartWorker w (some g)).1
      activity :=
        ⟨.recycling w e p.admission.poolGeneration (p.restartWorker w (some g)).2, .of [w]⟩ }
  -- `except asyncio.CancelledError` reports a device fault, a cancelled handler does not.
  | .interrupt w e _ report | .interruptRecycled w e _ _ _ report | .interruptTopUp w e report =>
    { pool := p
      activity := ⟨if report then .reporting w e else .returning w e .returned, {}⟩ }
  | .reapRecycled w e t next =>
    let p' := p.recordReapResults r.results
    if r.unproven = [] then
      match next with
      | some (g, v) =>
        { pool := p'.registerReplenishmentTicket g
          activity := ⟨.recycled w e t false .returned, {}⟩
          started := [⟨.replenishing g v, {}⟩] }
      | none => { pool := p', activity := ⟨.recycled w e t true .returned, {}⟩ }
    else
      { pool := p'
        activity := ⟨.unreaped (some w) (.recycled w e t false .unsafeContainment), {}⟩ }
  | .settleRecycled w e t topUp o =>
    { pool := p.settleRestart w t
      activity := ⟨if topUp then .toppingUp w e else .returning w e o, {}⟩ }
  | .cancelRecycled w e t report =>
    { pool := p.settleRestart w t
      activity := ⟨if report then .reporting w e else .returning w e .returned, {}⟩ }
  | .topUpRecycled w e =>
    { pool := p, activity := ⟨.returning w e .returned, {}⟩, topUp := true }
  | .cancelToppedUp w e report =>
    { pool := p
      activity := ⟨if report then .reporting w e else .returning w e .returned, {}⟩
      topUp := true }
  | .returnWorker w _ _ => { pool := p.returnWorker w, activity := ⟨.done, {}⟩, topUp := true }
  | .enterRecovery w e =>
    if p.admission.closing then
      { pool := { p with recoveryLock := true }, activity := ⟨.awaitingShutdown w e, {}⟩ }
    else if p.admission.healthState = .quarantined then
      { pool := p
        activity :=
          ⟨.returning w e (if p.unsafeShutdown then .unsafeContainment else .returned), {}⟩ }
    else if e ≠ p.admission.hardRecoveryEpoch then
      { pool := p, activity := ⟨.returning w e .returned, {}⟩ }
    else { pool := { p with recoveryLock := true }, activity := ⟨.admitted w e, {}⟩ }
  | .recoverOnce w e =>
    if p.admission.closing then { pool := p, activity := ⟨.awaitingShutdown w e, {}⟩ }
    else if p.admission.healthState = .quarantined then
      if p.unsafeShutdown then
        { pool := p.releaseRecoveryLock, activity := ⟨.returning w e .unsafeContainment, {}⟩ }
      else { pool := p, activity := ⟨.recovered w e, {}⟩ }
    else
      { pool := p.gateDeviceFault
        activity :=
          ⟨.retiring w e (p.admission.poolGeneration + 1), .of (p.trackedWorkers [w])⟩ }
  | .retire w e g =>
    let p' := p.recordReapResults r.results
    if r.unproven = [] then { pool := p', activity := ⟨.draining w e g, r⟩ }
    else { pool := { p' with unsafeShutdown := true }, activity := ⟨.unreapedOld w e g, {}⟩ }
  | .quarantineOld w e g =>
    { pool := endRecovery (p.quarantineOldWorkers g) g
      activity := ⟨.returning w e .unsafeContainment, {}⟩ }
  | .drain w e g => { pool := p, activity := ⟨.drained w e g, {}⟩ }
  | .drainTimeout w e g =>
    { pool := p, activity := ⟨.unreaped none (.unsafeRecovery w e g), {}⟩ }
  | .drainError w e g => { pool := p, activity := ⟨.failing w e g, r⟩ }
  | .startProbe w e g =>
    if p.recoveryCurrent g then
      { pool := { p with probes := e :: p.probes }, activity := ⟨.probing w e g, {}⟩ }
    else if p.unsafeShutdown then
      { pool := endRecovery p g, activity := ⟨.returning w e .unsafeContainment, {}⟩ }
    else { pool := p.finishReplenishmentTicket g, activity := ⟨.recovered w e, {}⟩ }
  | .probeReady w e g =>
    { pool := { p with registry := p.registry.construct.1 }
      activity := ⟨.probed w e g (some p.registry.construct.2), {}⟩ }
  | .probeFailed w e g reaped =>
    { pool := { p with registry := p.registry.constructFailed reaped }
      activity :=
        ⟨if reaped then .probed w e g none else .unreaped none (.unsafeRecovery w e g), {}⟩ }
  | .settleProbe w e g v =>
    if p.recoveryCurrent g then
      { pool := (p.settleProbe v).finishReplenishmentTicket g
        activity := ⟨.recovered w e, {}⟩
        topUp := v.isSome }
    else
      match v with
      | none => { pool := p.finishReplenishmentTicket g, activity := ⟨.recovered w e, {}⟩ }
      | some v => { pool := p, activity := ⟨.staleProbe w e g v, .of [v]⟩ }
  | .reapStaleProbe w e g v =>
    let p' := p.recordReapResults r.results
    if r.unproven = [] then
      { pool := p'.finishReplenishmentTicket g, activity := ⟨.recovered w e, {}⟩ }
    else { pool := p', activity := ⟨.unreaped (some v) (.unsafeRecovery w e g), {}⟩ }
  | .raiseUnsafe w e g =>
    { pool := endRecovery p g, activity := ⟨.returning w e .unsafeContainment, {}⟩ }
  | .contain w e g =>
    { pool := p.containUnexpectedHardRecoveryFailure
      activity := ⟨.containing w e g, .of (p.trackedWorkers r.workers)⟩ }
  | .raiseContained w e g =>
    let p' := p.recordReapResults r.results
    let p'' := { p' with unsafeShutdown := p'.unsafeShutdown || r.unproven ≠ [] }
    { pool := endRecovery p'' g
      activity :=
        ⟨.returning w e (if p''.unsafeShutdown then .unsafeContainment else .recoveryError), {}⟩ }
  | .reportContained w e g =>
    let p' := p.recordReapResults r.results
    let p'' := { p' with unsafeShutdown := p'.unsafeShutdown || r.unproven ≠ [] }
    { pool := endRecovery p'' g
      activity := ⟨if p''.unsafeShutdown then .returning w e .unsafeContainment else .reporting w e, {}⟩ }
  | .recheck w e =>
    if p.unsafeShutdown then
      { pool := p.releaseRecoveryLock, activity := ⟨.returning w e .unsafeContainment, {}⟩ }
    else if p.admission.closing then { pool := p, activity := ⟨.awaitingShutdown w e, {}⟩ }
    else { pool := p.releaseRecoveryLock, activity := ⟨.returning w e .returned, {}⟩ }
  | .shutdownProof w e =>
    { pool := p.releaseRecoveryLock
      activity :=
        ⟨.returning w e (if p.shutdownTask = .finished true ∧ p.unsafeShutdown = false then
          .shutdownContainment else .unsafeContainment), {}⟩ }
  | .reapDetached t n =>
    { pool := p.recordReapResults r.results
      activity :=
        ⟨match r.unproven with
          | [] => .reconciled t n
          | w :: _ => .unreaped (some w) (.reconciled t n), {}⟩ }
  | .settleDetached t n =>
    { pool := p.settleDetached t n, activity := ⟨.done, {}⟩, topUp := true }
  | .threadStarts g v =>
    if p.replenishmentStale g then
      { pool := p.finishReplenishmentTicket g, activity := ⟨.done, {}⟩ }
    else { pool := p, activity := ⟨if v then .awaitingOlder g else .checked g v, {}⟩ }
  | .threadError g v => { pool := p, activity := ⟨.failed g v v, {}⟩ }
  | .olderDrained g => { pool := p, activity := ⟨.checked g true, {}⟩ }
  | .olderTimeout g => { pool := p, activity := ⟨.failed g true true, {}⟩ }
  | .startConstructor g v =>
    if p.replenishmentStale g || (v && p.admission.healthState ≠ .degradedCheck) then
      { pool := p.finishReplenishmentTicket g, activity := ⟨.done, {}⟩ }
    else { pool := p, activity := ⟨.constructing g v, {}⟩ }
  | .constructed g v =>
    { pool := { p with registry := p.registry.construct.1.retain p.registry.construct.2 }
      activity := ⟨.ready g v p.registry.construct.2, {}⟩ }
  | .constructorFailed g v cudaProbe reaped =>
    { pool := { p with registry := p.registry.constructFailed reaped }
      activity := ⟨.failed g v (cudaProbe || !reaped || v), {}⟩ }
  | .register g v w =>
    let decision := p.registration g v
    { pool := p.register w v decision
      activity :=
        if decision = .added then ⟨.callbackDone g w, {}⟩ else ⟨.staleReplacement g w, .of [w]⟩
      topUp := decision ≠ .stale }
  | .registerCancelled g _ w | .finishCallback g w =>
    if w ∈ p.registry.unreaped then { pool := p, activity := ⟨.callbackReap g w, .of [w]⟩ }
    else { pool := p.finishReplenishmentTicket g, activity := ⟨.done, {}⟩ }
  | .reapStaleReplacement g w =>
    { pool := p.recordReapResults r.results
      activity :=
        ⟨if r.unproven = [] then .callbackDone g w
          else .unreaped (some w) (.callbackDone g w), {}⟩ }
  | .callbackReaped g _ =>
    { pool := (p.recordReapResults r.results).finishReplenishmentTicket g
      activity := ⟨.done, {}⟩ }
  | .markFailed g _ physical =>
    let decision := p.failure g physical
    { pool := p.markFailed decision
      activity :=
        match decision with
        | .quarantine => ⟨.containingFailure g, .of (p.trackedWorkers [])⟩
        | .retry => ⟨.retrying g, {}⟩
        | _ => ⟨.failureDone g, {}⟩ }
  | .dropFailure g _ _ | .finishFailure g =>
    { pool := p.finishReplenishmentTicket g, activity := ⟨.done, {}⟩ }
  | .reapFailure g =>
    { pool := p.recordReapResults r.results
      activity := ⟨unreapedEach r.unproven (.failureDone g), {}⟩ }
  | .retry g =>
    if p.replenishmentStale g then { pool := p, activity := ⟨.failureDone g, {}⟩ }
    else { pool := p.retryCapacity, activity := ⟨.failureDone g, {}⟩, topUp := true }
  | .shutdownReaped => { pool := p, activity := ⟨.shutdownDraining, r⟩ }
  | .shutdownDrain stopped => { pool := p, activity := ⟨.shutdownDrained stopped, r⟩ }
  | .shutdownSnapshot stopped =>
    { pool := { p with roster := p.roster.clear }
      activity :=
        ⟨.shutdownLate stopped,
          { r with todo := (p.trackedWorkers []).filter (· ∉ r.workers) }⟩ }
  | .shutdownEnd stopped =>
    { pool := p.endShutdown stopped r.results, activity := ⟨.done, {}⟩ }
  | .quarantine extra resume =>
    { pool := p.quarantineUnreapedContext
      activity := ⟨.quarantining resume, .of (p.trackedWorkers extra.toList)⟩ }
  | .endQuarantine resume =>
    { pool := p.recordReapResults r.results, activity := ⟨resume, {}⟩ }

end Move

/-- A call of the pool that starts an activity. -/
inductive Call
  /-- An iteration of `_get_idle_worker` that hands worker `w` to `execute_task`. -/
  | checkout (w : Handle)
  /-- An iteration that finds no worker to hand out. -/
  | poll
  | reconcile
  | foundOrphan
  | shutdown
  deriving DecidableEq, Repr

namespace Call

def ready (p : Pool) : Call → Bool
  | .checkout w =>
    !p.admissionBlocked && p.liveOrphans = [] && p.deadWorkers = [] && p.mayDispatch &&
      p.roster.idleWorkers.head? = some w
  | .poll => !p.admissionBlocked && p.liveOrphans = [] && p.deadWorkers = []
  | .reconcile => !p.admissionBlocked && p.liveOrphans = [] && p.deadWorkers ≠ []
  | .foundOrphan => !p.admissionBlocked && p.liveOrphans ≠ []
  | .shutdown => p.shutdownTask = .notStarted

def run (p : Pool) : Call → Result
  | .checkout w =>
    { pool := p.dispatch w
      activity := ⟨.executing w p.admission.hardRecoveryEpoch, {}⟩
      topUp := true }
  | .poll => { pool := p, activity := ⟨.done, {}⟩, topUp := true }
  | .reconcile =>
    { pool := p.detachDeadWorkers
      activity := ⟨.reconciling p.admission.poolGeneration p.deadWorkers.length,
        .of p.deadWorkers⟩ }
  | .foundOrphan =>
    { pool := p.quarantineTopology
      activity := ⟨.reconciling p.admission.poolGeneration (p.trackedWorkers []).length,
        .of (p.trackedWorkers [])⟩ }
  | .shutdown =>
    { pool := p.beginShutdown, activity := ⟨.shutdownReaping, .of (p.trackedWorkers [])⟩ }

end Call

inductive Action
  /-- Activity `i` runs one block. -/
  | move (i : Nat) (m : Move)
  | call (c : Call)
  /-- A `shutdown` that activity `i` awaits comes back. -/
  | stopped (i : Nat) (w : Handle) (proven : Bool)
  /-- The process of `w` dies, or its flag is cleared. -/
  | dies (w : Handle)
  deriving DecidableEq, Repr

/-- The threads that `_ensure_capacity_locked` starts. -/
def topUpThreads (p : Pool) : List Activity :=
  List.replicate p.topUps ⟨.replenishing p.admission.poolGeneration false, {}⟩

/-- The system after a block, with what stands in the activity table when its own entry is set. -/
def Result.finish (r : Result) (activities : List Activity) : Sys :=
  if r.topUp then
    { pool := r.pool.ensureCapacity
      activities := activities ++ r.started ++ topUpThreads r.pool }
  else { pool := r.pool, activities := activities ++ r.started }

/-- The pool's next state, when the action can be taken. -/
def step (s : Sys) : Action → Option Sys
  | .move i m =>
    match s.activities[i]? with
    | some a =>
      if a.stage = m.source ∧ m.ready s.pool a.reap then
        let r := m.run s.pool a.reap
        some (r.finish (s.activities.set i r.activity))
      else none
    | none => none
  | .call c =>
    if c.ready s.pool then
      let r := c.run s.pool
      some (r.finish (s.activities ++ [r.activity]))
    else none
  | .stopped i w proven =>
    match s.activities[i]? with
    | some a =>
      if w ∈ a.reap.todo then
        let (registry, result) := s.pool.registry.shutdown w proven
        some
          { pool := { s.pool with registry := registry }
            activities := s.activities.set i
              { a with reap :=
                  { todo := a.reap.todo.erase w, results := a.reap.results ++ [(w, result)] } } }
      else none
    | none => none
  | .dies w =>
    some { s with pool := { s.pool with
      registry := { s.pool.registry with dead := w :: s.pool.registry.dead } } }

/-- A state of some run of a pool of size `n`. -/
def Reachable (n : Nat) (s : Sys) : Prop := Library.Run step (init n) s

end KernelGym.WorkerPool
