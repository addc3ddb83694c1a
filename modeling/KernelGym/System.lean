import KernelGym.Library.Runs
import KernelGym.TaskManager

/-! The control plane as one transition system. Its state is Redis under every key prefix and what
the worker processes hold in memory; a step is one Redis command issued by some process together
with the local bookkeeping around it, a clock tick, a key expiry, or a process crash. Values read
earlier are kept in the process that read them and may be arbitrarily old when they are used. -/

namespace KernelGym

/-- Where an attempt stands in the process that holds its claim: inside `get_next_task` before the
processing mark, returned to the worker, or adopted by `_recover_gpu_inflight`. -/
inductive AttemptStage
  | dequeued
  | running
  | adopted (release : Bool)
  deriving DecidableEq, Repr

/-- A `TaskClaim` in `_task_claims`, with what its owner has read about the task since. -/
structure Attempt where
  pre : KeyPrefix
  inflightQueue : WorkerId
  sourceQueue : Lane
  token : Token
  workerInstance : InstanceId
  stage : AttemptStage
  /-- `task_json` as loaded after the claim. -/
  loaded : Option TaskData := none
  /-- The load found no record, no payload, or a terminal status. -/
  unloadable : Bool := false
  /-- `_dequeued_task_cancelled` answered true. -/
  cancelSeen : Bool := false
  /-- `assigned_worker` and `assigned_at` from the `HGETALL` of `requeue_unstarted_task`. -/
  snapshot : Option (WorkerId × Timestamp) := none
  deriving DecidableEq, Repr

/-- The inflight entry of the attempt for task `id`. -/
def Attempt.entry (c : Attempt) (id : TaskId) : Entry := (c.token, id)

/-- An entry that `_recover_gpu_inflight` has read from an inflight list. -/
structure Scanned where
  pre : KeyPrefix
  worker : WorkerId
  token : Token
  id : TaskId
  deriving DecidableEq, Repr

/-- An id that a CPU worker has popped from a queue. -/
structure Popped where
  pre : KeyPrefix
  lane : Lane
  id : TaskId
  deriving DecidableEq, Repr

/-- The memory of one worker process, which its `worker_instance_id` names. -/
structure Process where
  claims : TaskId → Option Attempt := fun _ => none
  scanned : List Scanned := []
  /-- Scanned entries whose task no longer carries their token. -/
  stale : List Scanned := []
  popped : List Popped := []
  /-- Terminal publications without a claim that have passed their read. -/
  publishing : List (KeyPrefix × TaskId) := []

/-- A generation that `_ACCEPT` has created. -/
structure Issue where
  pre : KeyPrefix
  id : TaskId
  deadline : Nat
  requestHash : String
  deriving DecidableEq, Repr

structure Sys where
  spaces : KeyPrefix → Store := fun _ => {}
  procs : InstanceId → Process := fun _ => {}
  /-- Claim tokens drawn so far. -/
  tokens : List Token := []
  /-- Workflow generations created so far. -/
  issued : Generation → Option Issue := fun _ => none

namespace Sys

variable (s : Sys)

def setStore (pre : KeyPrefix) (store : Store) : Sys :=
  { s with spaces := Function.update s.spaces pre store }

def setProc (p : InstanceId) (f : Process → Process) : Sys :=
  { s with procs := Function.update s.procs p (f (s.procs p)) }

/-- `_task_claims.get(task_id)`. -/
def attempt (p : InstanceId) (id : TaskId) : Option Attempt := (s.procs p).claims id

/-- `_task_claims[task_id] = claim`, or `pop` when there is none to keep. -/
def setAttempt (p : InstanceId) (id : TaskId) (c : Option Attempt) : Sys :=
  s.setProc p fun proc => { proc with claims := Function.update proc.claims id c }

end Sys

inductive Action
  /-- `submit_task`; a child goes through the scheduler of its generation and is never forced. -/
  | submit (pre : KeyPrefix) (d : TaskData) (child : Option Generation) (force : Bool)
      (known : List Lane) (now : Timestamp)
  /-- `_claim_gpu_task` by worker `w`, running as process `p`. -/
  | claim (p : InstanceId) (pre : KeyPrefix) (w : WorkerId) (lane : Lane) (token : Token)
      (scanLimit : Nat)
  | load (p : InstanceId) (id : TaskId)
  | checkCancelled (p : InstanceId) (id : TaskId)
  | mark (p : InstanceId) (id : TaskId) (now : Timestamp)
  | returnClaim (p : InstanceId) (id : TaskId)
  | ack (p : InstanceId) (id : TaskId)
  | snapshot (p : InstanceId) (id : TaskId)
  | requeue (p : InstanceId) (id : TaskId) (restore : Bool) (mode : ReleaseMode) (reason : String)
      (now : Timestamp)
  | freeze (p : InstanceId) (id : TaskId) (reason : String) (now : Timestamp)
  /-- `complete_task` or `fail_task` of the process that holds a claim for the task. -/
  | finalize (p : InstanceId) (id : TaskId) (task : TerminalMapping) (result : ResultMapping)
      (retention : Retention) (allowFrozen : Bool)
  | recoverScan (p : InstanceId) (pre : KeyPrefix) (w : WorkerId) (scanLimit : Nat)
  | recoverRead (p : InstanceId) (entry : Scanned) (release : Bool)
  | recoverDrop (p : InstanceId) (entry : Scanned)
  /-- `HSET cancelled_at` after a recovered task was failed. -/
  | stampCancelled (pre : KeyPrefix) (id : TaskId) (now : Timestamp)
  | queueWait (pre : KeyPrefix) (w : WorkerId) (id : TaskId) (seen : QueueWaitSnapshot)
      (operation : QueueWaitOperation) (reason : String) (now : Timestamp) (moveToken : String)
  | cancel (pre : KeyPrefix) (id : TaskId) (now : Timestamp) (retention : Retention)
  | accept (pre : KeyPrefix) (id : TaskId) (g : Generation) (requestHash name : String)
      (timeout : Nat) (force : Bool) (now : Timestamp)
  | renew (pre : KeyPrefix) (id : TaskId) (g : Generation) (now : Timestamp)
  | finish (pre : KeyPrefix) (id : TaskId) (g : Generation) (payload : ResultPayload)
      (reason : String) (now : Timestamp) (retention : Retention)
  | discardWorkflow (pre : KeyPrefix) (id : TaskId) (g : Generation) (children : Bool)
  | tick (duration : Nat)
  | expireTask (pre : KeyPrefix) (id : TaskId)
  | expireResult (pre : KeyPrefix) (id : TaskId)
  | expireCancel (pre : KeyPrefix) (id : TaskId)
  | expireChildren (pre : KeyPrefix) (id : TaskId) (g : Generation)
  | expireLease (pre : KeyPrefix) (id : TaskId)
  | crash (p : InstanceId)
  /-- `RPOP` by a CPU worker. -/
  | cpuPop (p : InstanceId) (pre : KeyPrefix) (lane : Lane)
  | cpuMark (p : InstanceId) (entry : Popped) (base : TaskId) (now : Timestamp)
  | cpuRepush (p : InstanceId) (entry : Popped)
  /-- The `HGETALL` of `_finalize_task_records` when no claim is held. -/
  | readUnclaimed (p : InstanceId) (pre : KeyPrefix) (id : TaskId)
  /-- The pipeline of `_finalize_task_records` when no claim is held. -/
  | publishUnclaimed (p : InstanceId) (pre : KeyPrefix) (id : TaskId) (task : TerminalMapping)
      (result : ResultMapping) (retention : Retention)
  /-- The plain `DEL` of `discard_task_records` for records without a generation. -/
  | deleteRecords (pre : KeyPrefix) (id : TaskId)

/-- The checks of `_finalize_task_records` on the record a process without a claim has read: a
workflow parent and a claimed task are refused. -/
def unclaimedPublicationAllowed (h : TaskHash) : Bool :=
  !(h.workflow.generation.isSome && h.workflow.parentKey.isNone) && h.claim.token.isNone

/-- The claim `_recover_gpu_inflight` adopts from an entry and the task hash it read. -/
def adoptedAttempt (entry : Scanned) (h : TaskHash) (release : Bool) : Attempt where
  pre := entry.pre
  inflightQueue := entry.worker
  sourceQueue := h.claim.sourceQueue.getD
    (.resource ((h.data.map resolveRequiredResource).getD .gpu))
  token := entry.token
  workerInstance := h.claim.workerInstance
  stage := .adopted release
  loaded := h.data
  unloadable := h.data.isNone || droppedBeforeDispatch h

/-- `_recover_gpu_inflight` on one scanned entry, up to the decision what to do with it. -/
def recoverRead (s : Sys) (p : InstanceId) (entry : Scanned) (release : Bool) : Sys :=
  match (s.spaces entry.pre).tasks entry.id with
  | none => s.setProc p fun proc => { proc with stale := entry :: proc.stale }
  | some h =>
      if h.claim.token ≠ some entry.token then
        s.setProc p fun proc => { proc with stale := entry :: proc.stale }
      else if h.claim.recoveryState ≠ .clear ∧ !release then s
      else if h.claim.workerInstance = p then s
      else s.setAttempt p entry.id (some (adoptedAttempt entry h release))

/-- The payload a submission is made with: as given, or the scheduler's for a child. -/
def submissionPayload (s : Sys) (pre : KeyPrefix) (d : TaskData) : Option Generation → Option TaskData
  | none => if d.workflow = {} then some d else none
  | some g =>
      (s.issued g).bind fun issue =>
        if issue.pre = pre then some (schedulerPayload issue.id g issue.deadline d) else none

/-- `submit_task` with its routing. -/
def submitTask (d : TaskData) (force : Bool) (known : List Lane) (now : Timestamp) (s : Store) :
    Store :=
  if force then
    (forceRefreshTask d.taskId (homeLane d.assignedWorker d)
      ([.resource .cpu, .resource .gpu] ++ known) (taskMapping d now) s).1
  else (submitTaskIfAbsent d.taskId (homeLane d.assignedWorker d) (taskMapping d now) s).1

/-- `_claim_gpu_task`. -/
def claimTask (s : Sys) (p : InstanceId) (pre : KeyPrefix) (w : WorkerId) (lane : Lane)
    (token : Token) (scanLimit : Nat) : Sys :=
  let drawn := { s with tokens := token :: s.tokens }
  match claimGpuTask token w p lane scanLimit (s.spaces pre) with
  | (store, none) => drawn.setStore pre store
  | (store, some id) =>
      (drawn.setStore pre store).setAttempt p id (some
        { pre := pre
          inflightQueue := w
          sourceQueue := lane
          token := token
          workerInstance := p
          stage := .dequeued })

/-- The queue `requeue_unstarted_task` restores a claim to. -/
def requeueLane (c : Attempt) (d : TaskData) (restore : Bool) : Lane :=
  if restore then c.sourceQueue else .resource (resolveRequiredResource d)

/-- The assignment `requeue_unstarted_task` restores: as last read, or none. -/
def requeueAssignment (seen : WorkerId × Timestamp) (restore : Bool) : WorkerId × Timestamp :=
  if restore then seen else ("", "")

/-- `requeue_unstarted_task` after its `HGETALL`; the local claim is kept on `-4` only. -/
def requeueTask (s : Sys) (p : InstanceId) (id : TaskId) (c : Attempt) (d : TaskData)
    (seen : WorkerId × Timestamp) (restore : Bool) (mode : ReleaseMode) (reason : String)
    (now : Timestamp) : Sys :=
  let assigned := requeueAssignment seen restore
  let outcome := conditionalRequeue id (requeueLane c d restore) c.inflightQueue id
    (parentCancelId id d) c.token (restoredTask d assigned.1 reason now) reason now assigned.1
    assigned.2 mode (s.spaces c.pre)
  let next := s.setStore c.pre outcome.1
  if outcome.2 = -4 then next else next.setAttempt p id none

/-- Whether the owner of an attempt acknowledges it: a dequeued task that must not be dispatched, or
an adopted one without a dispatchable record. -/
def Attempt.acknowledges (c : Attempt) : Bool :=
  match c.stage with
  | .dequeued => c.unloadable || c.cancelSeen
  | .adopted _ => c.unloadable
  | .running => false

/-- `release_fenced_claim` of an acknowledgement. -/
def Attempt.releasesFence (c : Attempt) : Bool := c.stage == .adopted true

/-- One step of the system; `none` when the action is not possible in the state. -/
def step (s : Sys) : Action → Option Sys
  | .submit pre d child force known now =>
      if force && child.isSome then none
      else
        (submissionPayload s pre d child).map fun payload =>
          s.setStore pre (submitTask payload force known now (s.spaces pre))
  | .claim p pre w lane token scanLimit =>
      if token ∉ s.tokens ∧ (lane = .worker w ∨ lane = .resource .gpu) then
        some (claimTask s p pre w lane token scanLimit)
      else none
  | .load p id =>
      (s.attempt p id).map fun c =>
        let record := (s.spaces c.pre).tasks id
        s.setAttempt p id (some
          { c with
            loaded := record.bind TaskHash.data
            unloadable := record.all fun h => h.data.isNone || droppedBeforeDispatch h })
  | .checkCancelled p id =>
      (s.attempt p id).bind fun c =>
        c.loaded.map fun d =>
          s.setAttempt p id (some
            { c with
              cancelSeen := c.cancelSeen ||
                (s.spaces c.pre).dequeuedTaskCancelled id d.baseTaskId })
  | .mark p id now =>
      (s.attempt p id).bind fun c =>
        c.loaded.bind fun d =>
          if c.stage = .dequeued then
            let outcome := markClaimProcessing id c.inflightQueue id (parentCancelId id d) c.token
              now c.inflightQueue c.workerInstance c.sourceQueue (s.spaces c.pre)
            some ((s.setStore c.pre outcome.1).setAttempt p id
              (if outcome.2 = 1 then some { c with stage := .running } else none))
          else none
  | .returnClaim p id =>
      (s.attempt p id).bind fun c =>
        if c.stage = .dequeued then
          some ((s.setStore c.pre
            (returnClaim id c.sourceQueue c.inflightQueue c.token (s.spaces c.pre)).1).setAttempt
              p id none)
        else none
  | .ack p id =>
      (s.attempt p id).bind fun c =>
        if c.acknowledges then
          let outcome := ackClaim id c.inflightQueue c.token c.releasesFence (s.spaces c.pre)
          let next := s.setStore c.pre outcome.1
          some (if outcome.2 = -2 then next else next.setAttempt p id none)
        else none
  | .snapshot p id =>
      (s.attempt p id).map fun c =>
        let h := (s.spaces c.pre).hgetall id
        s.setAttempt p id (some { c with snapshot := some (h.assignedWorker, h.assignedAt) })
  | .requeue p id restore mode reason now =>
      (s.attempt p id).bind fun c =>
        c.loaded.bind fun d =>
          c.snapshot.map fun seen => requeueTask s p id c d seen restore mode reason now
  | .freeze p id reason now =>
      (s.attempt p id).bind fun c =>
        if c.stage = .running then
          let outcome := freezeClaimRecovery id c.token reason now (s.spaces c.pre)
          let next := s.setStore c.pre outcome.1
          some (if outcome.2 = 1 then next else next.setAttempt p id none)
        else none
  | .finalize p id task result retention allowFrozen =>
      (s.attempt p id).bind fun c =>
        if task.status.terminal then
          let outcome := finalizeClaim id c.inflightQueue c.token task result retention allowFrozen
            (s.spaces c.pre)
          let next := s.setStore c.pre outcome.1
          some (if outcome.2 = 1 then next.setAttempt p id none else next)
        else none
  | .recoverScan p pre w scanLimit =>
      some (s.setProc p fun proc =>
        { proc with
          scanned := (((s.spaces pre).inflight w).take scanLimit).map
            fun entry => ⟨pre, w, entry.1, entry.2⟩ })
  | .recoverRead p entry release =>
      if entry ∈ (s.procs p).scanned then some (recoverRead s p entry release) else none
  | .recoverDrop p entry =>
      if entry ∈ (s.procs p).stale then
        some (s.setStore entry.pre
          ((s.spaces entry.pre).lremInflight entry.worker (entry.token, entry.id)))
      else none
  | .stampCancelled pre id now =>
      some (s.setStore pre ((s.spaces pre).hset id fun h =>
        { h with stamps := { h.stamps with cancelledAt := now } }))
  | .queueWait pre w id seen operation reason now moveToken =>
      seen.data.map fun d =>
        s.setStore pre (queueWaitRequeue id w (resolveRequiredResource d) id (parentCancelId id d)
          operation seen (restoredTask d "" reason now) reason now moveToken (s.spaces pre)).1
  | .cancel pre id now retention =>
      some (s.setStore pre (cancelTask id now retention (s.spaces pre)).1)
  | .accept pre id g requestHash name timeout force now =>
      if id ≠ "" ∧ s.issued g = none then
        let outcome := acceptWorkflow id g requestHash name timeout force now (s.spaces pre)
        let next := s.setStore pre outcome.1
        some (if outcome.2 = 1 then
          { next with
            issued := Function.update s.issued g
              (some ⟨pre, id, (s.spaces pre).now + timeout, requestHash⟩) }
        else next)
      else none
  | .renew pre id g now => some (s.setStore pre (renewWorkflow id g now (s.spaces pre)).1)
  | .finish pre id g payload reason now retention =>
      if (s.issued g).any (fun issue => issue.pre == pre && issue.id == id) ∧
          payload.status.any TaskStatus.terminal ∧
          (reason ≠ "" → payload.status ≠ some .completed) then
        some (s.setStore pre
          (finishWorkflow id g payload reason now retention (s.spaces pre)).1)
      else none
  | .discardWorkflow pre id g children =>
      some (s.setStore pre (discardWorkflowRecords id g children (s.spaces pre)).1)
  | .tick duration =>
      some { s with
        spaces := fun pre => { s.spaces pre with now := (s.spaces pre).now + duration } }
  | .expireTask pre id =>
      if (s.spaces pre).taskTtl id then some (s.setStore pre ((s.spaces pre).delTask id)) else none
  | .expireResult pre id =>
      if (s.spaces pre).resultTtl id then some (s.setStore pre ((s.spaces pre).delResult id))
      else none
  | .expireCancel pre id =>
      if (s.spaces pre).cancelTtl id then some (s.setStore pre ((s.spaces pre).delCancel id))
      else none
  | .expireChildren pre id g =>
      if (s.spaces pre).childrenTtl id g then
        some (s.setStore pre ((s.spaces pre).delChildren id g))
      else none
  | .expireLease pre id => some (s.setStore pre ((s.spaces pre).delLease id))
  | .crash p => some (s.setProc p fun _ => {})
  | .cpuPop p pre lane =>
      ((s.spaces pre).queues lane).getLast?.map fun id =>
        (s.setStore pre ((s.spaces pre).rpop lane)).setProc p fun proc =>
          { proc with popped := ⟨pre, lane, id⟩ :: proc.popped }
  | .cpuMark p entry base now =>
      if entry ∈ (s.procs p).popped then
        some ((s.setStore entry.pre
          (markCpuProcessing entry.id entry.id base now (s.spaces entry.pre)).1).setProc p
            fun proc => { proc with popped := proc.popped.erase entry })
      else none
  | .cpuRepush p entry =>
      if entry ∈ (s.procs p).popped then
        some ((s.setStore entry.pre ((s.spaces entry.pre).lpush entry.lane entry.id)).setProc p
          fun proc => { proc with popped := proc.popped.erase entry })
      else none
  | .readUnclaimed p pre id =>
      if s.attempt p id = none then
        some (if unclaimedPublicationAllowed ((s.spaces pre).hgetall id) then
          s.setProc p fun proc => { proc with publishing := (pre, id) :: proc.publishing }
        else s)
      else none
  | .publishUnclaimed p pre id task result retention =>
      if (pre, id) ∈ (s.procs p).publishing ∧ task.status.terminal then
        some ((s.setStore pre (publishUnclaimed id task result retention (s.spaces pre))).setProc p
          fun proc => { proc with publishing := proc.publishing.erase (pre, id) })
      else none
  | .deleteRecords pre id =>
      some (s.setStore pre
        (((((s.spaces pre).delTask id).delResult id).delCancel id).delLease id))

theorem submit_issued {s s' : Sys} {pre : KeyPrefix} {d : TaskData} {child : Option Generation}
    {force : Bool} {known : List Lane} {now : Timestamp}
    (h : step s (.submit pre d child force known now) = some s') : s'.issued = s.issued := by
  simp only [step] at h
  split_ifs at h
  simp only [Option.map_eq_some_iff] at h
  obtain ⟨_, -, rfl⟩ := h
  rfl

theorem claim_tokens {s s' : Sys} {p : InstanceId} {pre : KeyPrefix} {w : WorkerId} {lane : Lane}
    {t : Token} {scanLimit : Nat} (h : step s (.claim p pre w lane t scanLimit) = some s') :
    t ∈ s'.tokens := by
  simp only [step, Option.ite_none_right_eq_some, Option.some.injEq] at h
  obtain ⟨-, rfl⟩ := h
  unfold claimTask
  generalize claimGpuTask t w p lane scanLimit (s.spaces pre) = outcome
  obtain ⟨store, result⟩ := outcome
  cases result <;> exact List.mem_cons_self

end KernelGym
