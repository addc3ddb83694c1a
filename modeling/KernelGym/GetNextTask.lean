import KernelGym.ClaimLifetime
import KernelGym.Library.Programs

/-! `get_next_task` of a GPU worker as a program: its loops, its early returns and its `finally` block
are those of the source, and each of its commands is one Redis command of the process with the local
bookkeeping around it. Other clients take any steps between two commands. -/

namespace KernelGym

open Library

/-- The process that calls `get_next_task`, and what it knows for the whole call. -/
structure Caller where
  inst : InstanceId
  worker : WorkerId
  /-- The identity in the `worker_info` read at the start. -/
  node : WorkerNode
  /-- `_prefixes_for_read`. -/
  prefixes : List KeyPrefix
  scanLimit : Nat

structure CallState where
  sys : Sys
  /-- The process is inside `recover_gpu_inflight`. -/
  recovering : Bool := false

inductive Command
  /-- `get_worker_data` and `_gpu_worker_admission_open`. -/
  | admission
  | beginRecovery
  | endRecovery
  /-- `_claim_gpu_task`. -/
  | claim (pre : KeyPrefix) (lane : Lane)
  /-- The `HGETALL` of `_load_task_data_for_prefix`. -/
  | load (pre : KeyPrefix) (id : TaskId)
  /-- `_dequeued_task_cancelled`. -/
  | checkCancelled (pre : KeyPrefix) (id base : TaskId)
  /-- The script of `_mark_claim_processing`. -/
  | mark (pre : KeyPrefix) (lane : Lane) (id : TaskId) (d : TaskData)
  /-- `acknowledge_task_claim`. -/
  | ack (id : TaskId)
  /-- The look at the local claim and the `HGETALL` of `requeue_unstarted_task`. -/
  | snapshot (id : TaskId)
  /-- The script of `requeue_unstarted_task`. -/
  | requeue (id : TaskId) (d : TaskData) (reason : String)
  /-- The script of `_return_claim_to_source`. -/
  | returnClaim (id : TaskId)

/-- `none` where the process has no local claim for the task. -/
def Command.Answer : Command → Type
  | .admission => Bool
  | .beginRecovery | .endRecovery => Unit
  | .claim .. => Option TaskId
  | .load .. => Option TaskHash
  | .checkCancelled .. => Bool
  | .mark .. => Option Bool
  | .ack _ => Unit
  | .snapshot _ => Bool
  | .requeue .. => Unit
  | .returnClaim _ => Option Int

inductive CallError
  | staleTaskClaim
  deriving DecidableEq

abbrev CallBlock := Block Command.Answer CallError (Option TaskData)

/-- `_return_claim_to_source`. -/
def returnClaimToSource (id : TaskId) : CallBlock :=
  .call (.returnClaim id) fun
    | some code => .done (if code = 1 then .next else .raised .staleTaskClaim)
    | none => .done (.raised .staleTaskClaim)

/-- `requeue_unstarted_task` with the authority of an ordinary call. -/
def requeueUnstartedTask (d : TaskData) (reason : String) : CallBlock :=
  .call (.snapshot d.taskId) fun
    | true => .call (.requeue d.taskId d reason) fun _ => .done .next
    | false => .done .next

/-- The payload of a task that was just claimed, unless it must not be dispatched. -/
def loadDispatchable (pre : KeyPrefix) (id : TaskId) : Program Command.Answer (Option TaskData) :=
  .call (.load pre id) fun
    | some record =>
        match record.data with
        | some d =>
            if droppedBeforeDispatch record then .done none
            else .call (.checkCancelled pre id d.baseTaskId) fun
              | true => .done none
              | false => .done (some d)
        | none => .done none
    | none => .done none

/-- Dispatch of a claimed task: it is given back when admission has closed meanwhile, and returned
when its processing mark succeeds; `next` stands for the `continue` after a refused mark. -/
def dispatchTask (pre : KeyPrefix) (lane : Lane) (id : TaskId) (d : TaskData) (reason : String) :
    CallBlock :=
  .call .admission fun
    | true => .call (.mark pre lane id d) fun
        | some true => .done (.returned (some d))
        | some false => .done .next
        | none => .done (.raised .staleTaskClaim)
    | false => (requeueUnstartedTask d reason).andThen (.done (.returned none))

namespace Caller

variable (caller : Caller)

/-- The `try` block over one resource queue, with `deferred_claims` in the order of the appends. -/
def scanQueue (pre : KeyPrefix) (lane : Lane) :
    Nat → List TaskId →
      Program Command.Answer (Completion CallError (Option TaskData) × List TaskId)
  | 0, deferred => .done (.next, deferred)
  | n + 1, deferred => .call (.claim pre lane) fun
      | none => .done (.next, deferred)
      | some id => (loadDispatchable pre id).bind fun
          | none => .call (.ack id) fun _ => scanQueue pre lane n deferred
          | some d =>
              if taskMatchesWorkerNode d caller.node then
                (dispatchTask pre lane id d "gpu_admission_closed_after_resource_dequeue").bind fun
                  | .next => scanQueue pre lane n deferred
                  | how => .done (how, deferred)
              else scanQueue pre lane n (deferred ++ [id])

/-- The resource queue of a prefix; `finally` returns the deferred claims. -/
def fromResource (pre : KeyPrefix) : CallBlock :=
  Program.tryFinally (caller.scanQueue pre (.resource .gpu) caller.scanLimit [])
    (Program.forEach returnClaimToSource)

/-- One prefix: the worker's own queue, then the resource queue. -/
def fromPrefix (pre : KeyPrefix) : CallBlock :=
  .call (.claim pre (.worker caller.worker)) fun
    | none => caller.fromResource pre
    | some id => (loadDispatchable pre id).bind fun
        | none => .call (.ack id) fun _ => caller.fromResource pre
        | some d => dispatchTask pre (.worker caller.worker) id d
            "gpu_admission_closed_after_direct_dequeue"

/-- `get_next_task` with `resources=["gpu"]`. -/
def getNextTask : CallBlock :=
  .call .admission fun
    | false => .done (.returned none)
    | true => .call .beginRecovery fun _ => .call .endRecovery fun _ =>
        (Program.forEach caller.fromPrefix caller.prefixes).andThen (.done (.returned none))

/-- What the surroundings choose for a command: a fresh token, the time, the worker's registration. -/
structure Input where
  token : Token := ""
  now : Timestamp := ""
  admission : Bool := true

/-- One command of the call. -/
def exec (S : CallState) : (c : Command) → Input → Option (c.Answer × CallState)
  | .admission, x => some (x.admission, S)
  | .beginRecovery, _ => some ((), { S with recovering := true })
  | .endRecovery, _ => some ((), { S with recovering := false })
  | .claim pre lane, x =>
      (step S.sys (.claim caller.inst pre caller.worker lane x.token 32)).map fun sys =>
        ((claimGpuTask x.token caller.worker caller.inst lane 32 (S.sys.spaces pre)).2,
          { S with sys := sys })
  | .load pre id, _ =>
      some ((S.sys.spaces pre).tasks id,
        { S with sys := (step S.sys (.load caller.inst id)).getD S.sys })
  | .checkCancelled pre id base, _ =>
      some ((S.sys.spaces pre).dequeuedTaskCancelled id base,
        { S with sys := (step S.sys (.checkCancelled caller.inst id)).getD S.sys })
  | .mark pre lane id d, x =>
      match S.sys.attempt caller.inst id with
      | none => some (none, S)
      | some c =>
          let outcome := markClaimProcessing id caller.worker id (parentCancelId id d) c.token x.now
            caller.worker c.workerInstance lane (S.sys.spaces pre)
          some (some (outcome.2 = 1),
            { S with
              sys := (S.sys.setStore pre outcome.1).setAttempt caller.inst id
                (if outcome.2 = 1 then some { c with stage := .running } else none) })
  | .ack id, _ =>
      match S.sys.attempt caller.inst id with
      | none => some ((), S)
      | some c =>
          let outcome := ackClaim id c.inflightQueue c.token false (S.sys.spaces c.pre)
          let next := S.sys.setStore c.pre outcome.1
          some ((),
            { S with
              sys := if outcome.2 = -2 then next else next.setAttempt caller.inst id none })
  | .snapshot id, _ =>
      some ((S.sys.attempt caller.inst id).isSome,
        { S with sys := (step S.sys (.snapshot caller.inst id)).getD S.sys })
  | .requeue id d reason, x =>
      match S.sys.attempt caller.inst id with
      | none => some ((), S)
      | some c => some ((),
          { S with
            sys := requeueTask S.sys caller.inst id c d (c.snapshot.getD ("", "")) false .none
              reason x.now })
  | .returnClaim id, _ =>
      match S.sys.attempt caller.inst id with
      | none => some (none, S)
      | some c =>
          let outcome := returnClaim id c.sourceQueue c.inflightQueue c.token (S.sys.spaces c.pre)
          some (some outcome.2,
            { S with sys := (S.sys.setStore c.pre outcome.1).setAttempt caller.inst id none })

/-- The call among the other clients of Redis. -/
def machine : Machine Command.Answer CallState Action Input where
  env S a := (step S.sys a).map fun sys => { S with sys := sys }
  exec := caller.exec

end Caller

end KernelGym
