import KernelGym.ScriptsWorkflow

/-! The pure part of `TaskManager` and `TaskManagerScheduler`: routing, the mappings a submission
writes, node affinity, and the payloads that requeue calls restore. -/

namespace KernelGym

/-- `_resolve_required_resource`. -/
def resolveRequiredResource (d : TaskData) : Resource :=
  match d.requiredResource with
  | some r => r
  | none => if d.taskStage = "compile" ∨ d.pureCompileTask then .cpu else .gpu

/-- The queue a task belongs in: its worker's direct queue, or its resource queue. -/
def homeLane (assignedWorker : WorkerId) (d : TaskData) : Lane :=
  if assignedWorker = "" then .resource (resolveRequiredResource d) else .worker assignedWorker

/-- The tombstones that stop a task: its own, its base task's and its source task's. -/
def cancellationKeysOf (d : TaskData) : List TaskId :=
  [d.taskId] ++ (if d.baseTaskId = "" then [] else [d.baseTaskId]) ++
    (if d.workflowSourceTaskId = "" then [] else [d.workflowSourceTaskId])

/-- The `task_mapping` of `submit_task`. -/
def taskMapping (d : TaskData) (submittedAt : Timestamp) : TaskHash where
  status := some .pending
  data := some { d with requiredResource := some (resolveRequiredResource d) }
  submittedAt := submittedAt
  assignedWorker := d.assignedWorker
  assignedAt := if d.assignedWorker = "" then "" else submittedAt
  cancellationKeys := cancellationKeysOf d
  workflow := d.workflow

/-- The workflow fields `TaskManagerScheduler.submit` gives a child of generation `g`. -/
def childWorkflow (base : TaskId) (g : Generation) (deadline : Nat) : WorkflowFields where
  generation := some g
  parentKey := some base
  leaseKey := some base
  deadline := some deadline
  childrenKey := some (base, g)

/-- `original_id` of `TaskManagerScheduler.submit`. -/
def originalId (base id : TaskId) : TaskId := if id = base then base ++ "_kernel" else id

/-- The payload `TaskManagerScheduler.submit` makes of a task of the workflow `base`. -/
def schedulerPayload (base : TaskId) (g : Generation) (deadline : Nat) (d : TaskData) : TaskData :=
  { d with
    taskId := originalId base d.taskId ++ "_" ++ g
    baseTaskId := base
    workflowSourceTaskId := originalId base d.taskId
    workflow := childWorkflow base g deadline }

/-- `base_task_id` if there is one, else the task's own id: the second cancel marker a dispatch
transaction checks. -/
def parentCancelId (id : TaskId) (d : TaskData) : TaskId :=
  if d.baseTaskId = "" then id else d.baseTaskId

/-- The payload that `requeue_unstarted_task` and the queue-wait monitor write back. -/
def restoredTask (d : TaskData) (assignedWorker : WorkerId) (reason : String) (now : Timestamp) :
    TaskData :=
  { d with
    requiredResource := some (resolveRequiredResource d)
    assignedWorker := assignedWorker
    queueTimeoutReason := reason
    queueTimeoutAt := now }

/-- The identity a worker registers with. -/
structure WorkerNode where
  nodeId : String
  hostname : String
  deriving DecidableEq, Repr

/-- First non-empty string of a list, as a chain of Python `or`s picks it. -/
def firstNonEmpty (names : List String) : String := (names.find? (· ≠ "")).getD ""

/-- `_task_node_affinity`: the node id, the hostname, and whether either is required. -/
def taskNodeAffinity (d : TaskData) : String × String × Bool :=
  let nodeId := firstNonEmpty [d.targetNodeId, d.artifactNodeId, d.preferredNodeId]
  let hostname := firstNonEmpty [d.targetHostname, d.artifactHostname]
  (nodeId, hostname, d.nodeAffinity = "required" || nodeId ≠ "" || hostname ≠ "")

/-- `_task_matches_worker_node`. -/
def taskMatchesWorkerNode (d : TaskData) (node : WorkerNode) : Bool :=
  let (nodeId, hostname, required) := taskNodeAffinity d
  if !required then true
  else
    (nodeId = "" || [node.nodeId, node.hostname].contains nodeId) &&
    (hostname = "" || [node.hostname, node.nodeId].contains hostname)

/-- `_dropped_before_dispatch`, on the hash a dequeue loaded. -/
def droppedBeforeDispatch (h : TaskHash) : Bool := h.terminal

/-- `_dequeued_task_cancelled`: one `EXISTS` over the task's cancel marker and tombstone and, for
another base id, over those of the base. -/
def Store.dequeuedTaskCancelled (s : Store) (id base : TaskId) : Bool :=
  (s.cancelMarks id || s.tombstones id) ||
    (decide (base ≠ "" ∧ base ≠ id) && (s.cancelMarks base || s.tombstones base))

theorem taskId_mem_cancellationKeys (d : TaskData) : d.taskId ∈ cancellationKeysOf d := by
  simp [cancellationKeysOf]

theorem base_mem_cancellationKeys {d : TaskData} (h : d.baseTaskId ≠ "") :
    d.baseTaskId ∈ cancellationKeysOf d := by
  simp [cancellationKeysOf, h]

theorem source_mem_cancellationKeys {d : TaskData} (h : d.workflowSourceTaskId ≠ "") :
    d.workflowSourceTaskId ∈ cancellationKeysOf d := by
  simp [cancellationKeysOf, h]

end KernelGym
