import KernelGym.ScriptsTask

/-! The Lua transactions of `workflow_lifecycle.py`: accepting, renewing, cancelling, finishing and
discarding workflow records. -/

namespace KernelGym

/-- The id `{task_id}_{stage}` that clients from before generation-scoped ids use. -/
def stageAlias (id : TaskId) (stage : Stage) : TaskId := id ++ "_" ++ stage.name

/-- The child ids a generation hands out: `{task_id}_{stage}_{generation}`. -/
def generationChildren (id : TaskId) (g : Generation) : List (Stage × TaskId) :=
  Stage.all.map fun stage => (stage, id ++ "_" ++ stage.name ++ "_" ++ g)

/-- The parent record that `_ACCEPT` writes. -/
def parentRecord (id : TaskId) (g : Generation) (requestHash name : String) (deadline : Nat)
    (submittedAt : Timestamp) : TaskHash where
  status := some .pending
  submittedAt := submittedAt
  workflow := { generation := some g, deadline := some deadline }
  parent :=
    { requestHash := some requestHash
      workflowName := name
      children := some (generationChildren id g)
      cancellationKey := some id }

/-- `SADD` and `SREM` on the index of active workflows. -/
def Store.activate (s : Store) (id : TaskId) : Store :=
  { s with activeWorkflows := s.activeWorkflows.insert id }

def Store.deactivate (s : Store) (id : TaskId) : Store :=
  { s with activeWorkflows := s.activeWorkflows.erase id }

/-- The reply of `_ACCEPT` before it writes: refuse, join (`0`) or create (`1`). -/
def acceptReply (id : TaskId) (requestHash : String) (force : Bool) (s : Store) : Int :=
  if s.tombstones id then -2
  else
    match s.tasks id with
    | none => if (s.leases id).isSome then -1 else 1
    | some h =>
        if h.active then
          if h.workflow.generation = none then -1
          else if h.parent.requestHash ≠ some requestHash then -1
          else 0
        else if !h.terminal then -1
        else if h.claim.token.isSome then -1
        else if force then 1
        else if h.parent.requestHash = some requestHash ∧ (s.results id).isSome then 0
        else -1

/-- `_ACCEPT`: the parent record of a new generation replaces an absent or terminal one. -/
def acceptWorkflow (id : TaskId) (g : Generation) (requestHash name : String) (timeout : Nat)
    (force : Bool) (submittedAt : Timestamp) (s : Store) : Store × Int :=
  if acceptReply id requestHash force s = 1 then
    (((((s.delTask id).delResult id).delLease id).delCancel id).hset id
        (fun _ => parentRecord id g requestHash name (s.now + timeout) submittedAt)
      |>.setLease id g |>.activate id, 1)
  else (s, acceptReply id requestHash force s)

/-- `_RENEW`: extend the lease of a generation that the guard still admits. The lease keeps its
value; only its time to live changes. -/
def renewWorkflow (id : TaskId) (g : Generation) (now : Timestamp) (s : Store) : Store × Int :=
  let record := s.hgetall id
  if !s.workflowAllowed []
      { generation := some g
        parentKey := some id
        leaseKey := some id
        deadline := record.workflow.deadline } then (s, 0)
  else if record.workflow.generation ≠ some g then (s, 0)
  else
    (s.hset id fun h =>
      { h with
        status := some .processing
        stamps :=
          { h.stamps with
            heartbeatAt := now
            startedAt := if h.stamps.startedAt = "" then now else h.stamps.startedAt } }, 1)

/-- The queues a stopped task is removed from: both resource queues and its direct queue. -/
def stopLanes (h : TaskHash) : List Lane :=
  [.resource .cpu, .resource .gpu] ++ assignedLanes h.assignedWorker

/-- `LREM` of the inflight entry a task hash names, when it names one. -/
def Store.releaseEntry (s : Store) (id : TaskId) (h : TaskHash) : Store :=
  match h.claim.token, h.claim.inflightQueue with
  | some token, some worker => s.lremInflight worker (token, id)
  | _, _ => s

/-- The five claim fields that `cancel` and `finish` clear; the recovery fields are left. -/
def ClaimFields.cleared (c : ClaimFields) : ClaimFields :=
  { c with
    token := none
    worker := ""
    workerInstance := ""
    sourceQueue := none
    inflightQueue := none }

/-- Fail a task that is pending and not fenced: release its claim, publish the result, start both
retention periods. -/
def failPending (id : TaskId) (now : Timestamp) (result : ResultMapping) (retention : Retention)
    (s : Store) : Store :=
  ((s.releaseEntry id (s.hgetall id)).hset id
      (fun h =>
        { h with
          status := some .failed
          claim := h.claim.cleared
          stamps := { h.stamps with completedAt := now } }))
    |>.hsetResult id result.apply
    |>.expireTask retention.taskTtl id
    |>.expireResult retention.resultTtl id

/-- Pending and neither execution-fenced nor frozen. -/
def TaskHash.stoppable (h : TaskHash) : Bool :=
  h.status == some .pending && h.claim.recoveryState == .clear

/-- The result a cancelled task gets. -/
def cancelledResult (id : TaskId) (now : Timestamp) : ResultMapping where
  result := some
    { taskId := id
      status := some .failed
      errorMessage := some "Task cancelled"
      errorCode := some .systemError }
  error := some "Task cancelled"
  errorCode := some .systemError
  completedAt := some now

/-- The admission fences of a cancelled parent: its children and their stage aliases. -/
def Store.fenceChildren (s : Store) (id : TaskId) (children : List (Stage × TaskId)) : Store :=
  children.foldl
    (fun s child =>
      ((s.setTombstone child.2).setCancel child.2).setTombstone (stageAlias id child.1)) s

/-- The admission fences of any cancelled id: tombstone, worker marker and stage aliases. -/
def Store.fenceId (s : Store) (id : TaskId) : Store :=
  Stage.all.foldl (fun s stage => s.setTombstone (stageAlias id stage))
    ((s.setTombstone id).setCancel id)

/-- `CANCEL_TASK_LUA`. -/
def cancelTask (id : TaskId) (now : Timestamp) (retention : Retention) (s : Store) : Store × Int :=
  let fenced := s.fenceId id
  match s.tasks id with
  | none => (fenced, 1)
  | some h =>
      let marked := fenced.hset id fun h =>
        { h with stamps := { h.stamps with cancelledAt := now } }
      match h.parent.children with
      | some children => (marked.fenceChildren id children, 1)
      | none =>
          let stopped := marked.lremLanes (stopLanes h) id
          if h.stoppable then
            (failPending id now (cancelledResult id now) retention stopped, 1)
          else (stopped, 1)

/-- The reason and payload a terminal commit publishes. A tombstone, then the deadline, then a lost
lease override what the caller computed. -/
def finishPayload (id : TaskId) (g : Generation) (payload : ResultPayload) (reason : String)
    (s : Store) : String × ResultPayload :=
  let record := s.hgetall id
  let step₁ : String × ResultPayload :=
    if record.parent.cancellationKey.any s.tombstones then
      ("Task cancelled",
        { payload with status := some .failed, errorCode := some .systemError })
    else (reason, payload)
  let step₂ : String × ResultPayload :=
    if record.workflow.deadline.getD 0 ≤ s.now then
      ("Workflow end-to-end deadline exceeded",
        { step₁.2 with status := some .timeout, errorCode := some .timeoutError })
    else if s.leases id ≠ some g ∧ step₁.1 = "" then
      ("Workflow owner lease expired",
        { step₁.2 with status := some .failed, errorCode := some .systemError })
    else step₁
  let step₃ : ResultPayload :=
    if step₂.1 ≠ "" then
      { step₂.2 with
        errorMessage := some step₂.1
        compiled := some false
        correctness := some false }
    else step₂.2
  (step₂.1,
    { step₃ with
      taskId := id
      workflowGeneration := some g
      workflowChildren := record.parent.children.getD [] })

/-- The result a child gets when its parent ends before it started. -/
def parentEndedResult (id : TaskId) (now : Timestamp) : ResultMapping where
  result := some
    { taskId := id
      status := some .failed
      errorMessage := some "Parent workflow ended"
      errorCode := some .systemError }
  completedAt := some now

/-- What `_FINISH` does with one member of the generation's children set. -/
def finishChild (now : Timestamp) (retention : Retention) (s : Store) (child : TaskId) : Store :=
  let h := s.hgetall child
  let removed := s.lremLanes (stopLanes h) child
  if h.stoppable then failPending child now (parentEndedResult child now) retention removed
  else removed

/-- The terminal commit of `_FINISH` on the parent's own keys. -/
def commitParent (id : TaskId) (payload : ResultPayload) (now : Timestamp)
    (s : Store) : Store :=
  let record := s.hgetall id
  (s.hset id fun h =>
      { h with
        status := payload.status
        stamps :=
          { h.stamps with
            completedAt := now
            errorMessage := payload.errorMessage.getD "" } })
    |>.hsetResult id (fun r =>
      { r with
        result := some payload
        completedAt := now
        requestHash := record.parent.requestHash })
    |>.delLease id |>.setCancel id |>.deactivate id

/-- `_FINISH`. -/
def finishWorkflow (id : TaskId) (g : Generation) (payload : ResultPayload) (reason : String)
    (now : Timestamp) (retention : Retention) (s : Store) : Store × Int :=
  let record := s.hgetall id
  if record.workflow.generation ≠ some g then (s, 0)
  else if !record.active then (s, 0)
  else
    let committed := commitParent id (finishPayload id g payload reason s).2 now s
    let swept := (committed.children id g).foldl (finishChild now retention) committed
    ((swept.expireTask retention.taskTtl id).expireCancel retention.taskTtl id
      |>.expireChildren retention.taskTtl id g
      |>.expireResult retention.resultTtl id, 1)

/-- `DISCARD_WORKFLOW_RECORDS_LUA`; `children` says whether the children set is among the keys. -/
def discardWorkflowRecords (id : TaskId) (g : Generation) (children : Bool) (s : Store) :
    Store × Int :=
  let h := s.hgetall id
  if h.workflow.generation ≠ some g then (s, 0)
  else if !h.terminal then (s, 0)
  else if h.claim.token.isSome then (s, 0)
  else
    let dropped := (((s.delTask id).delResult id).delCancel id).delLease id
    (if children then dropped.delChildren id g else dropped, 1)

end KernelGym
