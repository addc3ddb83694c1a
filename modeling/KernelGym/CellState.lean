import KernelGym.ViewWorkflow

/-! One task as a component of the system: what Redis holds about it, and the claims on it that the
worker processes remember. Every step of the system changes such a cell in one of a fixed number of
ways, which `CellStep` lists together with what the step has checked. -/

namespace KernelGym

/-- One task id of one key prefix. -/
@[ext]
structure Cell where
  view : TaskView
  /-- The claims on the task, by the process that holds them. -/
  attempts : InstanceId → Option Attempt

namespace Cell

variable (C : Cell)

/-- What `HGET` answers on the task hash. -/
def hash : TaskHash := C.view.hash.getD {}

def withView (v : TaskView) : Cell := { C with view := v }

def setAttempt (p : InstanceId) (c : Option Attempt) : Cell :=
  { C with attempts := Function.update C.attempts p c }

@[simp] theorem withView_view (v : TaskView) : (C.withView v).view = v := rfl
@[simp] theorem withView_attempts (v : TaskView) : (C.withView v).attempts = C.attempts := rfl
@[simp] theorem setAttempt_view (p : InstanceId) (c : Option Attempt) :
    (C.setAttempt p c).view = C.view := rfl
@[simp] theorem setAttempt_attempts (p : InstanceId) (c : Option Attempt) :
    (C.setAttempt p c).attempts = Function.update C.attempts p c := rfl

end Cell

/-- The cell of task `k` under key prefix `m`. -/
def Sys.cell (s : Sys) (m : KeyPrefix) (k : TaskId) : Cell where
  view := (s.spaces m).view k
  attempts p := (s.attempt p k).filter fun c => c.pre = m

/-- The claim that a successful `_claim_gpu_task` leaves in its process. -/
def claimedAttempt (m : KeyPrefix) (w : WorkerId) (lane : Lane) (t : Token) (p : InstanceId) :
    Attempt where
  pre := m
  inflightQueue := w
  sourceQueue := lane
  token := t
  workerInstance := p
  stage := .dequeued

/-- What an attempt knows after it loaded the task hash. -/
def Attempt.load (c : Attempt) (record : Option TaskHash) : Attempt :=
  { c with
    loaded := record.bind TaskHash.data
    unloadable := record.all fun h => h.data.isNone || droppedBeforeDispatch h }

/-- The actions that write `cancelled_at` into a task hash. -/
def Action.stampsCancelled : Action → Bool
  | .stampCancelled .. | .cancel .. => true
  | _ => false

/-- The ways in which a step changes the cell `C` of task `k` under prefix `m`. -/
inductive CellStep (s : Sys) (m : KeyPrefix) (k : TaskId) (C : Cell) : Action → Cell → Prop
  | idle {a : Action} : CellStep s m k C a C
  | forgotten {a : Action} (p : InstanceId) : CellStep s m k C a (C.setAttempt p none)
  | loaded {p : InstanceId} {c : Attempt} (hc : C.attempts p = some c) :
      CellStep s m k C (.load p k) (C.setAttempt p (some (c.load C.view.hash)))
  | checked {p : InstanceId} {c : Attempt} {d : TaskData} (hc : C.attempts p = some c)
      (hd : c.loaded = some d) :
      CellStep s m k C (.checkCancelled p k) (C.setAttempt p (some
        { c with
          cancelSeen := c.cancelSeen || (s.spaces m).dequeuedTaskCancelled k d.baseTaskId }))
  | observed {p : InstanceId} {c : Attempt} (hc : C.attempts p = some c) :
      CellStep s m k C (.snapshot p k) (C.setAttempt p (some
        { c with snapshot := some (C.hash.assignedWorker, C.hash.assignedAt) }))
  | adopted {p : InstanceId} {entry : Scanned} {release : Bool} {h : TaskHash}
      (hscan : entry ∈ (s.procs p).scanned) (hpre : entry.pre = m) (hid : entry.id = k)
      (hh : C.view.hash = some h) (ht : h.claim.token = some entry.token)
      (hfence : h.claim.recoveryState = .clear ∨ release = true)
      (howner : h.claim.workerInstance ≠ p) :
      CellStep s m k C (.recoverRead p entry release)
        (C.setAttempt p (some (adoptedAttempt entry h release)))
  | submitted {d payload : TaskData} {child : Option Generation} {force : Bool} {known : List Lane}
      {now : Timestamp} (hpayload : submissionPayload s m d child = some payload)
      (hid : payload.taskId = k)
      (hallowed : (s.spaces m).workflowAllowed (cancellationKeysOf payload) payload.workflow = true)
      (hnone : C.view.hash = none) :
      CellStep s m k C (.submit m d child force known now)
        (C.withView (((C.view.setHash (taskMapping payload now)).purge
          (homeLane payload.assignedWorker payload)).push (homeLane payload.assignedWorker payload)))
  | refreshed {d : TaskData} {known lanes : List Lane} {now : Timestamp}
      (hpayload : submissionPayload s m d none = some d) (hid : d.taskId = k)
      (hallowed : (s.spaces m).workflowAllowed (cancellationKeysOf d) d.workflow = true)
      (hold : ∀ h, C.view.hash = some h → h.terminal = true ∧ h.claim.token = none)
      (hlanes : lanes = refreshLanes (homeLane d.assignedWorker d)
        ([.resource .cpu, .resource .gpu] ++ known) C.view.hash) :
      CellStep s m k C (.submit m d none true known now)
        (C.withView (C.view.refreshed (taskMapping d now) lanes (homeLane d.assignedWorker d)))
  | claimed {p : InstanceId} {w : WorkerId} {lane : Lane} {t : Token} {scanLimit : Nat}
      (ht : t ∉ s.tokens) (hlane : lane = .worker w ∨ lane = .resource .gpu)
      (hclaimable : (s.spaces m).claimable k = true) (hqueued : 0 < C.view.queued lane) :
      CellStep s m k C (.claim p m w lane t scanLimit)
        ((C.withView (C.view.claimed C.hash t w p lane)).setAttempt p
          (some (claimedAttempt m w lane t p)))
  | debris {p : InstanceId} {w : WorkerId} {lane : Lane} {t : Token} {scanLimit : Nat}
      {v' : TaskView} (hnot : (s.spaces m).claimable k = false) (hlow : C.view.lowered v' lane) :
      CellStep s m k C (.claim p m w lane t scanLimit) (C.withView v')
  | marked {p : InstanceId} {c : Attempt} {d : TaskData} {now : Timestamp}
      (hc : C.attempts p = some c) (hstage : c.stage = .dequeued) (hd : c.loaded = some d)
      (ht : C.hash.claim.token = some c.token) (hstatus : C.hash.status = some .pending)
      (hadmits : (s.spaces m).admits k k (parentCancelId k d) = true) :
      CellStep s m k C (.mark p k now)
        ((C.withView (C.view.setHash (C.hash.marked now c.inflightQueue c.workerInstance
          c.sourceQueue c.inflightQueue))).setAttempt p (some { c with stage := .running }))
  | markRefused {p : InstanceId} {c : Attempt} {d : TaskData} {now : Timestamp}
      (hc : C.attempts p = some c) (hstage : c.stage = .dequeued) (hd : c.loaded = some d)
      (ht : C.hash.claim.token = some c.token)
      (hrefused : C.hash.status ≠ some .pending ∨
        (s.spaces m).admits k k (parentCancelId k d) = false) :
      CellStep s m k C (.mark p k now)
        ((C.withView (C.view.unclaim c.inflightQueue c.token C.hash)).setAttempt p none)
  | returned {p : InstanceId} {c : Attempt} (hc : C.attempts p = some c)
      (hstage : c.stage = .dequeued) (ht : C.hash.claim.token = some c.token) :
      CellStep s m k C (.returnClaim p k)
        ((C.withView (C.view.returned c.inflightQueue c.token c.sourceQueue
          ((s.spaces m).workflowTaskAllowed k) C.hash)).setAttempt p none)
  | acked {p : InstanceId} {c : Attempt} (hc : C.attempts p = some c)
      (hack : c.acknowledges = true) (ht : C.hash.claim.token = some c.token)
      (hfence : C.hash.claim.recoveryState = .clear ∨ c.releasesFence = true) :
      CellStep s m k C (.ack p k)
        ((C.withView (C.view.unclaim c.inflightQueue c.token C.hash)).setAttempt p none)
  | requeued {p : InstanceId} {c : Attempt} {d : TaskData} {seen : WorkerId × Timestamp}
      {restore : Bool} {mode : ReleaseMode} {reason : String} {now : Timestamp}
      (hc : C.attempts p = some c) (hd : c.loaded = some d) (hseen : c.snapshot = some seen)
      (ht : C.hash.claim.token = some c.token)
      (hmode : mode.releases C.hash.claim.recoveryState = true)
      (hadmits : (s.spaces m).admits k k (parentCancelId k d) = true) :
      CellStep s m k C (.requeue p k restore mode reason now)
        ((C.withView (C.view.requeued c.inflightQueue c.token (requeueLane c d restore)
          (C.hash.requeued (restoredTask d (requeueAssignment seen restore).1 reason now) reason now
            (requeueAssignment seen restore).1 (requeueAssignment seen restore).2))).setAttempt p
              none)
  | requeueRefused {p : InstanceId} {c : Attempt} {d : TaskData} {restore : Bool}
      {mode : ReleaseMode} {reason : String} {now : Timestamp}
      (hc : C.attempts p = some c) (hd : c.loaded = some d)
      (ht : C.hash.claim.token = some c.token)
      (hmode : mode.releases C.hash.claim.recoveryState = true)
      (hrefused : C.hash.status = none ∨ C.hash.terminal = true ∨
        (s.spaces m).admits k k (parentCancelId k d) = false) :
      CellStep s m k C (.requeue p k restore mode reason now)
        ((C.withView (C.view.unclaim c.inflightQueue c.token C.hash)).setAttempt p none)
  /-- A mark, return, acknowledgement or requeue that presents a token the task no longer has. -/
  | superseded {a : Action} {p : InstanceId} {c : Attempt} (hc : C.attempts p = some c)
      (ht : C.hash.claim.token ≠ some c.token) :
      CellStep s m k C a
        ((C.withView (C.view.release c.inflightQueue c.token)).setAttempt p none)
  | finalizeSuperseded {a : Action} {p : InstanceId} {c : Attempt} (hc : C.attempts p = some c)
      (ht : C.hash.claim.token ≠ some c.token) :
      CellStep s m k C a (C.withView (C.view.release c.inflightQueue c.token))
  | frozen {p : InstanceId} {c : Attempt} {reason : String} {now : Timestamp}
      (hc : C.attempts p = some c) (hstage : c.stage = .running)
      (ht : C.hash.claim.token = some c.token) :
      CellStep s m k C (.freeze p k reason now)
        (C.withView (C.view.setHash (C.hash.frozen reason now)))
  | finalized {p : InstanceId} {c : Attempt} {task : TerminalMapping} {result : ResultMapping}
      {retention : Retention} {allowFrozen : Bool} (hc : C.attempts p = some c)
      (hterminal : task.status.terminal = true) (ht : C.hash.claim.token = some c.token)
      (hfrozen : C.hash.claim.recoveryState = .frozen → allowFrozen = true) :
      CellStep s m k C (.finalize p k task result retention allowFrozen)
        ((C.withView ((C.view.published C.hash task result retention).release c.inflightQueue
          c.token)).setAttempt p none)
  | entryDropped {p : InstanceId} {entry : Scanned} (hstale : entry ∈ (s.procs p).stale)
      (hpre : entry.pre = m) (hid : entry.id = k) :
      CellStep s m k C (.recoverDrop p entry)
        (C.withView (C.view.release entry.worker entry.token))
  | stamped {a : Action} {h : TaskHash} {now : Timestamp} (hh : C.view.hash = some h)
      (hstamps : a.stampsCancelled = true) :
      CellStep s m k C a (C.withView (C.view.setHash (h.cancelStamped now)))
  | stampedAbsent {now : Timestamp} (hnone : C.view.hash = none) :
      CellStep s m k C (.stampCancelled m k now)
        (C.withView (C.view.setHash (({} : TaskHash).cancelStamped now)))
  | cancelled {now : Timestamp} {retention : Retention} {h : TaskHash} (hh : C.view.hash = some h)
      (hchildren : h.parent.children = none) :
      CellStep s m k C (.cancel m k now retention)
        (C.withView ((C.view.setHash (h.cancelStamped now)).withdrawn (h.cancelStamped now) now
          (cancelledResult k now) retention))
  | swept {id : TaskId} {g : Generation} {payload : ResultPayload} {reason : String}
      {now : Timestamp} {retention : Retention} (hne : k ≠ id)
      (hmem : k ∈ (s.spaces m).children id g) :
      CellStep s m k C (.finish m id g payload reason now retention)
        (C.withView (C.view.swept k now retention))
  | accepted {g : Generation} {requestHash name : String} {timeout : Nat} {force : Bool}
      {now : Timestamp} (hid : k ≠ "") (hfresh : s.issued g = none)
      (hreply : acceptReply k requestHash force (s.spaces m) = 1) :
      CellStep s m k C (.accept m k g requestHash name timeout force now)
        (C.withView
          { C.view with
            hash := some (parentRecord k g requestHash name ((s.spaces m).now + timeout) now)
            result := none
            ttl := false })
  | renewed {g : Generation} {now : Timestamp}
      (hallowed : (s.spaces m).workflowAllowed []
        { generation := some g
          parentKey := some k
          leaseKey := some k
          deadline := C.hash.workflow.deadline } = true)
      (hgen : C.hash.workflow.generation = some g) :
      CellStep s m k C (.renew m k g now) (C.withView (C.view.setHash (C.hash.renewed now)))
  | committed {g : Generation} {issue : Issue} {payload : ResultPayload} {reason : String}
      {now : Timestamp} {retention : Retention} {lanes : List Lane}
      (hissued : s.issued g = some issue) (hpre : issue.pre = m) (hid : issue.id = k)
      (hterminal : payload.status.any TaskStatus.terminal = true)
      (hreason : reason ≠ "" → payload.status ≠ some .completed)
      (hgen : C.hash.workflow.generation = some g) (hactive : C.hash.active = true) :
      CellStep s m k C (.finish m k g payload reason now retention)
        (C.withView (((C.view.committed C.hash (finishPayload k g payload reason (s.spaces m)).2
          now).purgeLanes lanes).retain retention.taskTtl))
  | moved {w : WorkerId} {seen : QueueWaitSnapshot} {operation : QueueWaitOperation} {d : TaskData}
      {reason : String} {now : Timestamp} {moveToken : String} (hdata : C.hash.data = some d)
      (hassigned : C.hash.assignedWorker = "" ∨ C.hash.assignedWorker = w)
      (hstatus : C.hash.status = some .pending) (htoken : C.hash.claim.token = none)
      (hadmits : (s.spaces m).admits k k (parentCancelId k d) = true)
      (hqueued : 0 < C.view.queued (.worker w)) :
      CellStep s m k C (.queueWait m w k seen operation reason now moveToken)
        (C.withView (C.view.moved w (resolveRequiredResource d)
          (C.hash.moved (restoredTask d "" reason now) reason now moveToken)))
  | staleCopy {w : WorkerId} {seen : QueueWaitSnapshot} {operation : QueueWaitOperation}
      {reason : String} {now : Timestamp} {moveToken : String}
      (hempty : C.hash.assignedWorker ≠ "") (hother : C.hash.assignedWorker ≠ w) :
      CellStep s m k C (.queueWait m w k seen operation reason now moveToken)
        (C.withView (C.view.pullOne (.worker w)))
  | taskExpired (httl : C.view.ttl = true) :
      CellStep s m k C (.expireTask m k) (C.withView { C.view with hash := none, ttl := false })
  | resultExpired :
      CellStep s m k C (.expireResult m k) (C.withView { C.view with result := none })
  | discarded {g : Generation} {children : Bool} (hgen : C.hash.workflow.generation = some g)
      (hterminal : C.hash.terminal = true) (htoken : C.hash.claim.token = none) :
      CellStep s m k C (.discardWorkflow m k g children)
        (C.withView { C.view with hash := none, result := none, ttl := false })
  | deleted :
      CellStep s m k C (.deleteRecords m k)
        (C.withView { C.view with hash := none, result := none, ttl := false })
  | cpuPopped {p : InstanceId} {lane : Lane} :
      CellStep s m k C (.cpuPop p m lane) (C.withView (C.view.pullOne lane))
  | cpuPushed {p : InstanceId} {entry : Popped} :
      CellStep s m k C (.cpuRepush p entry) (C.withView (C.view.push entry.lane))
  | cpuMarked {p : InstanceId} {entry : Popped} {base : TaskId} {now : Timestamp}
      (hpre : entry.pre = m) (hid : entry.id = k) (hstatus : C.hash.status = some .pending)
      (hadmits : (s.spaces m).admits k k base = true) :
      CellStep s m k C (.cpuMark p entry base now)
        (C.withView (C.view.setHash (C.hash.cpuMarked now)))
  | published {p : InstanceId} {task : TerminalMapping} {result : ResultMapping}
      {retention : Retention} (hpublishing : (m, k) ∈ (s.procs p).publishing)
      (hterminal : task.status.terminal = true) :
      CellStep s m k C (.publishUnclaimed p m k task result retention)
        (C.withView (C.view.published C.hash task result retention))

end KernelGym
