import KernelGym.Store

/-! The Lua transactions of `task_manager.py` and the admission guard they share. Every script is one
atomic Redis command: a function from the store and its arguments to the new store and the number
it returns. Key arguments are given as the ids and lanes the keys are built from. -/

namespace KernelGym

namespace Store

/-- `workflow_allowed(mapping)`: no cancellation key of the mapping exists and, for a child of a
workflow, the parent record, the lease and both deadlines still admit its generation. -/
def workflowAllowed (s : Store) (cancellationKeys : List TaskId) (w : WorkflowFields) : Bool :=
  if cancellationKeys.any s.tombstones then false
  else
    match w.generation with
    | none => true
    | some generation =>
      match w.parentKey, w.leaseKey with
      | some parent, some lease =>
          let record := s.hgetall parent
          !record.parent.cancellationKey.any s.tombstones &&
          record.workflow.generation == some generation &&
          record.active &&
          s.leases lease == some generation &&
          decide (s.now < record.workflow.deadline.getD 0) &&
          decide (s.now < w.deadline.getD 0)
      | _, _ => false

/-- `workflow_task_allowed(task_key)`: the guard on the fields stored in the task hash. -/
def workflowTaskAllowed (s : Store) (id : TaskId) : Bool :=
  s.workflowAllowed (s.hgetall id).cancellationKeys (s.hgetall id).workflow

/-- `WORKFLOW_TASK_ALIVE_LUA`: a child is judged by its own guard, a parent by its record. -/
def workflowTaskAlive (s : Store) (id lease : TaskId) : Bool :=
  if (s.hgetall id).workflow.parentKey.isSome then s.workflowTaskAllowed id
  else
    s.workflowAllowed []
      { generation := (s.hgetall id).workflow.generation
        parentKey := some id
        leaseKey := some lease
        deadline := (s.hgetall id).workflow.deadline }

end Store

/-- `clear_claim()`. -/
def TaskHash.clearClaim (h : TaskHash) : TaskHash := { h with claim := {} }

/-- The claim that `_CLAIM_GPU_TASK_LUA` writes. -/
def newClaim (token : Token) (worker : WorkerId) (workerInstance : InstanceId) (source : Lane) :
    ClaimFields where
  token := some token
  worker := worker
  workerInstance := workerInstance
  sourceQueue := some source
  inflightQueue := some worker

/-- The task may be claimed: it is pending, unclaimed and admitted by its workflow. -/
def Store.claimable (s : Store) (id : TaskId) : Bool :=
  (s.tasks id).any fun h =>
    h.status == some .pending && h.claim.token.isNone && s.workflowTaskAllowed id

/-- `_CLAIM_GPU_TASK_LUA`: pop ids until one can be claimed, at most `scanLimit` of them. Popped ids
that cannot be claimed are dropped. -/
def claimGpuTask (token : Token) (worker : WorkerId) (workerInstance : InstanceId) (source : Lane) :
    (scanLimit : Nat) → Store → Store × Option TaskId
  | 0, s => (s, none)
  | scanLimit + 1, s =>
      match (s.queues source).getLast? with
      | none => (s, none)
      | some id =>
          if (s.rpop source).claimable id then
            (((s.rpop source).pushInflight worker (token, id)).hset id fun h =>
              { h with claim := newClaim token worker workerInstance source }, some id)
          else claimGpuTask token worker workerInstance source scanLimit (s.rpop source)

/-- Publish a task id in a queue: `LREM 0` then `LPUSH`. -/
def Store.enqueue (s : Store) (lane : Lane) (id : TaskId) : Store :=
  (s.lremAll lane id).lpush lane id

/-- `SADD` to the generation's children set when the mapping names one. -/
def Store.registerChild (s : Store) (w : WorkflowFields) (id : TaskId) : Store :=
  match w.childrenKey with
  | some key => s.addChild key id
  | none => s

/-- `_SUBMIT_TASK_IF_ABSENT_LUA`. -/
def submitTaskIfAbsent (id : TaskId) (destination : Lane) (mapping : TaskHash) (s : Store) :
    Store × Int :=
  if !s.workflowAllowed mapping.cancellationKeys mapping.workflow then (s, -5)
  else if (s.tasks id).isSome then (s, 0)
  else
    (((s.hset id fun _ => mapping).enqueue destination id).registerChild mapping.workflow id, 1)

/-- `LREM 0` on a list of queues. -/
def Store.lremLanes (s : Store) (lanes : List Lane) (id : TaskId) : Store :=
  lanes.foldl (fun s lane => s.lremAll lane id) s

/-- The direct queue of the worker a task is assigned to; `''` is no worker. -/
def assignedLanes (worker : WorkerId) : List Lane :=
  if worker = "" then [] else [.worker worker]

/-- `_FORCE_REFRESH_TASK_LUA`: replace an absent or a terminal, released task. `lanes` are
`KEYS[3..]`, the destination first. -/
def forceRefreshTask (id : TaskId) (destination : Lane) (cleanup : List Lane) (mapping : TaskHash)
    (s : Store) : Store × Int :=
  let replace (s : Store) : Store :=
    ((((s.lremLanes (destination :: cleanup) id).delTask id).delResult id).hset id
      fun _ => mapping).lpush destination id |>.registerChild mapping.workflow id
  if !s.workflowAllowed mapping.cancellationKeys mapping.workflow then (s, -5)
  else
    match s.tasks id with
    | none => (replace s, 1)
    | some h =>
        if h.claim.recoveryState = .frozen then (s, -2)
        else if h.claim.token.isSome then (s, -1)
        else if !h.terminal then (s, -4)
        else (replace (s.lremLanes (assignedLanes h.assignedWorker) id), 2)

/-- The operation argument of `_QUEUE_WAIT_REQUEUE_LUA`. -/
inductive QueueWaitOperation
  | requeue | removeStaleCopy
  deriving DecidableEq, Repr

/-- What the queue-wait monitor saw of a task: the fields its compare-and-set names. -/
structure QueueWaitSnapshot where
  assignedWorker : WorkerId
  assignedAt : Timestamp
  submittedAt : Timestamp
  data : Option TaskData
  deriving DecidableEq, Repr

/-- `_QUEUE_WAIT_REQUEUE_LUA`. -/
def queueWaitRequeue (id : TaskId) (worker : WorkerId) (destination : Resource)
    (ownCancel parentCancel : TaskId) (operation : QueueWaitOperation)
    (expected : QueueWaitSnapshot) (replacement : TaskData) (reason : String) (now : Timestamp)
    (moveToken : String) (s : Store) : Store × Int :=
  let h := s.hgetall id
  if h.assignedWorker ≠ expected.assignedWorker then (s, -3)
  else if h.assignedAt ≠ expected.assignedAt then (s, -4)
  else if h.submittedAt ≠ expected.submittedAt then (s, -5)
  else if h.data ≠ expected.data then (s, -6)
  else
    match operation with
    | .removeStaleCopy =>
        if expected.assignedWorker = "" ∨ expected.assignedWorker = worker then (s, -8)
        else if id ∈ s.queues (.worker worker) then (s.lremOne (.worker worker) id, 2)
        else (s, -7)
    | .requeue =>
        if expected.assignedWorker ≠ "" ∧ expected.assignedWorker ≠ worker then (s, -8)
        else if h.status ≠ some .pending then (s, 0)
        else if h.claim.token.isSome then (s, -1)
        else if !s.workflowTaskAllowed id || s.cancelMarks ownCancel || s.cancelMarks parentCancel
        then (s, -2)
        else if id ∉ s.queues (.worker worker) then (s, -7)
        else
          (((s.lremOne (.worker worker) id).lremAll (.resource destination) id).hset id
            (fun h =>
              { h with
                data := some replacement
                status := some .pending
                assignedWorker := ""
                assignedAt := ""
                claim := {}
                stamps :=
                  { h.stamps with
                    startedAt := ""
                    queueTimeoutReason := reason
                    queueTimeoutAt := now
                    queueMoveToken := moveToken
                    updatedAt := now } })
            |>.lpush (.resource destination) id, 1)

/-- The fence release mode of a conditional requeue. -/
inductive ReleaseMode
  | none | execution | all
  deriving DecidableEq, Repr

/-- `release_allowed`, which is also granted when there is no fence. -/
def ReleaseMode.releases : ReleaseMode → RecoveryState → Bool
  | _, .clear => true
  | .execution, .executionFenced | .all, .executionFenced => true
  | .all, .frozen => true
  | _, _ => false

/-- `_CONDITIONAL_REQUEUE_LUA`. -/
def conditionalRequeue (id : TaskId) (destination : Lane) (inflightQueue : WorkerId)
    (ownCancel parentCancel : TaskId) (token : Token) (data : TaskData) (reason : String)
    (now : Timestamp) (assignedWorker : WorkerId) (assignedAt : Timestamp) (mode : ReleaseMode)
    (s : Store) : Store × Int :=
  let h := s.hgetall id
  let released := s.lremInflight inflightQueue (token, id)
  if h.claim.token ≠ some token then (released, -3)
  else if !mode.releases h.claim.recoveryState then (s, -4)
  else if h.status = none then (released.hset id TaskHash.clearClaim, 0)
  else if h.terminal then (released.hset id TaskHash.clearClaim, -1)
  else if !s.workflowTaskAllowed id || s.cancelMarks ownCancel || s.cancelMarks parentCancel then
    (released.hset id TaskHash.clearClaim, -2)
  else
    ((released.lremAll destination id).hset id
      (fun h =>
        { h with
          data := some data
          status := some .pending
          assignedWorker := assignedWorker
          assignedAt := assignedAt
          claim := {}
          stamps :=
            { h.stamps with
              startedAt := ""
              queueTimeoutReason := reason
              queueTimeoutAt := now
              updatedAt := now } })
      |>.lpush destination id, 1)

/-- The reason a fresh execution fence carries. -/
def executionFenceReason : String :=
  "GPU execution is in flight; automatic recovery requires proven process containment"

/-- `_MARK_CLAIM_PROCESSING_LUA`. -/
def markClaimProcessing (id : TaskId) (inflightQueue : WorkerId) (ownCancel parentCancel : TaskId)
    (token : Token) (startedAt : Timestamp) (worker : WorkerId) (workerInstance : InstanceId)
    (source : Lane) (s : Store) : Store × Int :=
  let h := s.hgetall id
  let released := s.lremInflight inflightQueue (token, id)
  if h.claim.token ≠ some token then (released, -2)
  else if h.status ≠ some .pending then (released.hset id TaskHash.clearClaim, 0)
  else if !s.workflowTaskAllowed id || s.cancelMarks ownCancel || s.cancelMarks parentCancel then
    (released.hset id TaskHash.clearClaim, -1)
  else
    (s.hset id fun h =>
      { h with
        status := some .processing
        stamps := { h.stamps with startedAt := startedAt }
        claim :=
          { h.claim with
            worker := worker
            workerInstance := workerInstance
            sourceQueue := some source
            inflightQueue := some inflightQueue
            recoveryState := .executionFenced
            recoveryReason := executionFenceReason
            recoveryAt := startedAt } }, 1)

/-- `_MARK_WORKFLOW_CPU_PROCESSING_LUA`. -/
def markCpuProcessing (id : TaskId) (ownCancel parentCancel : TaskId) (startedAt : Timestamp)
    (s : Store) : Store × Int :=
  if (s.hgetall id).status ≠ some .pending then (s, 0)
  else if !s.workflowTaskAllowed id then (s, 0)
  else if s.cancelMarks ownCancel || s.cancelMarks parentCancel then (s, 0)
  else
    (s.hset id fun h =>
      { h with
        status := some .processing
        stamps := { h.stamps with startedAt := startedAt } }, 1)

/-- `_RETURN_CLAIM_LUA`. -/
def returnClaim (id : TaskId) (source : Lane) (inflightQueue : WorkerId) (token : Token)
    (s : Store) : Store × Int :=
  let released := s.lremInflight inflightQueue (token, id)
  if (s.hgetall id).claim.token ≠ some token then (released, 0)
  else
    let removed := released.lremAll source id
    let pushed := if removed.workflowTaskAllowed id then removed.lpush source id else removed
    (pushed.hset id TaskHash.clearClaim, 1)

/-- `_ACK_CLAIM_LUA`. -/
def ackClaim (id : TaskId) (inflightQueue : WorkerId) (token : Token) (release : Bool)
    (s : Store) : Store × Int :=
  let released := s.lremInflight inflightQueue (token, id)
  match s.tasks id with
  | none => (released, 1)
  | some h =>
      if h.claim.token ≠ some token then (released, 0)
      else if h.claim.recoveryState ≠ .clear ∧ !release then (s, -2)
      else (released.hset id TaskHash.clearClaim, 1)

/-- `_FREEZE_CLAIM_RECOVERY_LUA`. -/
def freezeClaimRecovery (id : TaskId) (token : Token) (reason : String) (now : Timestamp)
    (s : Store) : Store × Int :=
  if (s.hgetall id).claim.token ≠ some token then (s, 0)
  else
    (s.hset id fun h =>
      { h with
        claim :=
          { h.claim with
            recoveryState := .frozen
            recoveryReason := reason
            recoveryAt := now } }, 1)

/-- The task mapping of a terminal publication: its status and time stamps; the eight claim fields
are always cleared. An absent stamp is not written. -/
structure TerminalMapping where
  status : TaskStatus
  completedAt : Option Timestamp := none
  failedAt : Option Timestamp := none
  timeoutAt : Option Timestamp := none
  deriving DecidableEq, Repr

/-- `HSET` of the terminal task mapping. -/
def TerminalMapping.apply (m : TerminalMapping) (h : TaskHash) : TaskHash :=
  { h with
    status := some m.status
    claim := {}
    stamps :=
      { h.stamps with
        completedAt := m.completedAt.getD h.stamps.completedAt
        failedAt := m.failedAt.getD h.stamps.failedAt
        timeoutAt := m.timeoutAt.getD h.stamps.timeoutAt } }

/-- The result mapping of a terminal publication; absent fields are not written. -/
structure ResultMapping where
  result : Option ResultPayload := none
  requestHash : Option String := none
  error : Option String := none
  errorCode : Option ErrorCode := none
  completedAt : Option Timestamp := none
  failedAt : Option Timestamp := none
  timeoutAt : Option Timestamp := none
  deriving DecidableEq, Repr

/-- `HSET` of the result mapping. -/
def ResultMapping.apply (m : ResultMapping) (r : ResultHash) : ResultHash where
  result := m.result <|> r.result
  requestHash := m.requestHash <|> r.requestHash
  error := m.error <|> r.error
  errorCode := m.errorCode <|> r.errorCode
  completedAt := m.completedAt.getD r.completedAt
  failedAt := m.failedAt.getD r.failedAt
  timeoutAt := m.timeoutAt.getD r.timeoutAt

/-- `_FINALIZE_CLAIM_LUA`. -/
def finalizeClaim (id : TaskId) (inflightQueue : WorkerId) (token : Token)
    (task : TerminalMapping) (result : ResultMapping) (retention : Retention) (allowFrozen : Bool)
    (s : Store) : Store × Int :=
  let h := s.hgetall id
  if h.claim.token ≠ some token then (s.lremInflight inflightQueue (token, id), 0)
  else if h.claim.recoveryState = .frozen ∧ !allowFrozen then (s, -2)
  else
    ((((s.hset id task.apply).hsetResult id result.apply).lremInflight inflightQueue
      (token, id)).expireTask retention.taskTtl id |>.expireResult retention.resultTtl id, 1)

/-- The `MULTI`/`EXEC` pipeline of `_finalize_task_records` when no claim is held. -/
def publishUnclaimed (id : TaskId) (task : TerminalMapping) (result : ResultMapping)
    (retention : Retention) (s : Store) : Store :=
  ((s.hset id task.apply).hsetResult id result.apply).expireTask retention.taskTtl id
    |>.expireResult retention.resultTtl id

end KernelGym
