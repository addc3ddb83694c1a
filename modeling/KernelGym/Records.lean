import Mathlib.Logic.Function.Basic
import Mathlib.Tactic.SplitIfs

/-! The records the task manager keeps in Redis: task hashes, result hashes and their fields.
A hash field that every script reads through `or ''` is held without the distinction between a
missing field and an empty one; whether a hash exists is kept apart from its fields. Times are
Redis microseconds. -/

namespace KernelGym

abbrev KeyPrefix := String
abbrev TaskId := String
abbrev WorkerId := String
abbrev InstanceId := String
abbrev Token := String
abbrev Generation := String
abbrev Timestamp := String

inductive TaskStatus
  | pending | processing | completed | failed | timeout
  deriving DecidableEq, Repr

/-- `_TERMINAL_TASK_STATUSES`. -/
def TaskStatus.terminal : TaskStatus → Bool
  | .completed | .failed | .timeout => true
  | .pending | .processing => false

/-- The members of `ErrorCode` that the control plane itself decides on; the others are carried
by name. -/
inductive ErrorCode
  | timeoutError | systemError | unknownError | other (name : String)
  deriving DecidableEq, Repr

inductive Resource
  | cpu | gpu
  deriving DecidableEq, Repr

/-- A dispatch queue of one key prefix: `queue:resource:{r}` or `queue:worker:{w}`. -/
inductive Lane
  | resource (r : Resource)
  | worker (w : WorkerId)
  deriving DecidableEq, Repr

inductive Stage
  | compile | kernel | ref
  deriving DecidableEq, Repr

def Stage.name : Stage → String
  | .compile => "compile"
  | .kernel => "kernel"
  | .ref => "ref"

def Stage.all : List Stage := [.compile, .kernel, .ref]

/-- `claim_recovery_state`: empty, `execution_fenced` or `frozen`. -/
inductive RecoveryState
  | clear | executionFenced | frozen
  deriving DecidableEq, Repr

/-- The workflow fields of a task hash. Key-valued fields hold the id the key is built from:
`parentKey` names `task:{id}`, `leaseKey` names `workflow:{id}`. -/
structure WorkflowFields where
  generation : Option Generation := none
  parentKey : Option TaskId := none
  leaseKey : Option TaskId := none
  deadline : Option Nat := none
  childrenKey : Option (TaskId × Generation) := none
  deriving DecidableEq, Repr

/-- The JSON payload in the `data` field. String entries are the stripped and lower-cased values the
task manager compares; `requiredResource` is the entry when it names a resource queue. -/
structure TaskData where
  taskId : TaskId
  baseTaskId : TaskId := ""
  workflowSourceTaskId : TaskId := ""
  requiredResource : Option Resource := none
  taskStage : String := ""
  pureCompileTask : Bool := false
  assignedWorker : WorkerId := ""
  nodeAffinity : String := ""
  targetNodeId : String := ""
  artifactNodeId : String := ""
  preferredNodeId : String := ""
  targetHostname : String := ""
  artifactHostname : String := ""
  queueTimeoutReason : String := ""
  queueTimeoutAt : Timestamp := ""
  workflow : WorkflowFields := {}
  deriving DecidableEq, Repr

/-- The eight claim fields of a task hash; `{}` is what the scripts write to clear a claim. -/
structure ClaimFields where
  token : Option Token := none
  worker : WorkerId := ""
  workerInstance : InstanceId := ""
  sourceQueue : Option Lane := none
  inflightQueue : Option WorkerId := none
  recoveryState : RecoveryState := .clear
  recoveryReason : String := ""
  recoveryAt : Timestamp := ""
  deriving DecidableEq, Repr

/-- The fields that only the hash of a workflow parent has. -/
structure ParentFields where
  requestHash : Option String := none
  workflowName : String := ""
  children : Option (List (Stage × TaskId)) := none
  cancellationKey : Option TaskId := none
  deriving DecidableEq, Repr

/-- Time stamps and reasons that no transaction decides on. -/
structure Stamps where
  startedAt : Timestamp := ""
  completedAt : Timestamp := ""
  failedAt : Timestamp := ""
  timeoutAt : Timestamp := ""
  cancelledAt : Timestamp := ""
  heartbeatAt : Timestamp := ""
  updatedAt : Timestamp := ""
  queueTimeoutReason : String := ""
  queueTimeoutAt : Timestamp := ""
  queueMoveToken : String := ""
  errorMessage : String := ""
  deriving DecidableEq, Repr

/-- The hash `task:{id}`. -/
structure TaskHash where
  status : Option TaskStatus := none
  data : Option TaskData := none
  submittedAt : Timestamp := ""
  assignedWorker : WorkerId := ""
  assignedAt : Timestamp := ""
  cancellationKeys : List TaskId := []
  workflow : WorkflowFields := {}
  claim : ClaimFields := {}
  parent : ParentFields := {}
  stamps : Stamps := {}
  deriving DecidableEq, Repr

/-- The status is one of `completed`, `failed`, `timeout`. -/
def TaskHash.terminal (h : TaskHash) : Bool := h.status.any TaskStatus.terminal

/-- The status is `pending` or `processing`. -/
def TaskHash.active (h : TaskHash) : Bool :=
  h.status == some .pending || h.status == some .processing

/-- The JSON payload of a result. `body` stands for the entries no lifecycle decision reads. -/
structure ResultPayload where
  taskId : TaskId := ""
  status : Option TaskStatus := none
  errorMessage : Option String := none
  errorCode : Option ErrorCode := none
  compiled : Option Bool := none
  correctness : Option Bool := none
  workflowGeneration : Option Generation := none
  workflowChildren : List (Stage × TaskId) := []
  body : String := ""
  deriving DecidableEq, Repr

/-- The hash `result:{id}`. -/
structure ResultHash where
  result : Option ResultPayload := none
  requestHash : Option String := none
  error : Option String := none
  errorCode : Option ErrorCode := none
  completedAt : Timestamp := ""
  failedAt : Timestamp := ""
  timeoutAt : Timestamp := ""
  deriving DecidableEq, Repr

/-- `task_status_from_result_payload`: a timeout status or code wins, then `failed`; anything else
counts as completed. -/
def taskStatusFromResultPayload (status : Option TaskStatus) (code : Option ErrorCode) :
    TaskStatus :=
  if status = some .timeout then .timeout
  else if code = some .timeoutError then .timeout
  else if status = some .failed then .failed
  else .completed

theorem TaskHash.terminal_iff (h : TaskHash) :
    h.terminal = true ↔ ∃ status, h.status = some status ∧ status.terminal = true := by
  rw [TaskHash.terminal, Option.any_eq_true]

theorem TaskHash.active_iff (h : TaskHash) :
    h.active = true ↔ h.status = some .pending ∨ h.status = some .processing := by
  simp [TaskHash.active]

theorem TaskHash.not_terminal_of_active {h : TaskHash} (hactive : h.active = true) :
    h.terminal = false := by
  rcases h.active_iff.mp hactive with hs | hs <;> simp [TaskHash.terminal, hs, TaskStatus.terminal]

theorem TaskHash.not_active_of_terminal {h : TaskHash} (hterminal : h.terminal = true) :
    h.active = false := by
  rw [← Bool.not_eq_true]
  intro hactive
  rw [not_terminal_of_active hactive] at hterminal
  exact absurd hterminal (by simp)

end KernelGym
