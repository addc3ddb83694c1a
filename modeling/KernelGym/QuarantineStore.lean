import KernelGym.Library.Runs
import KernelGym.QuarantineRecords

/-! The stores of GPU quarantine latches and the operations on them. Every operation that names a GPU
runs under the lock of that GPU and reads all that it writes from inside the lock; a notification claim
keeps the lock until it is released. -/

namespace KernelGym.Quarantine

open Library

/-! ### Paths and keys -/

def safeChar (c : Char) : Bool := c.isAlphanum || c = '_' || c = '.' || c = '-'

/-- Every run of other characters becomes one underscore. -/
def replaceRuns : Bool → List Char → List Char
  | _, [] => []
  | inRun, c :: rest =>
      if safeChar c then c :: replaceRuns false rest
      else if inRun then replaceRuns true rest
      else '_' :: replaceRuns true rest

/-- `_safe_component`. -/
def safeComponent (value : String) : String :=
  let safe := trimChars (fun c => c = '.' || c = '_') (replaceRuns false value.toList)
  if safe = [] then "unknown" else String.ofList safe

/-- The name of a worker's latch file. -/
abbrev WorkerPath := String

/-- The directory and the name of a GPU's latch file, and of its lock file. -/
abbrev GpuPath := String × String

def workerLatchPath (worker : WorkerId) : WorkerPath := safeComponent worker

def deviceLatchPath (gpu : Gpu) : GpuPath := (safeComponent gpu.hostname, safeComponent gpu.device)

/-- `gpu_device_quarantine_key`, after its fixed prefix. -/
def gpuDeviceQuarantineKey (gpu : Gpu) : String := gpu.hostname ++ ":" ++ gpu.device

/-! ### Stores -/

/-- Latch files and Redis hashes; `gpu_quarantine_key` is the worker's id after a fixed prefix. -/
structure Store where
  gpuFiles : Dict GpuPath Record := {}
  workerFiles : Dict WorkerPath Record := {}
  gpuHashes : Dict String Record := {}
  workerHashes : Dict WorkerId Record := {}

/-- The GPU that a record names. -/
def recordGpu (r : Record) : Gpu := ⟨text r "hostname", text r "device"⟩

/-- The copy of a record for the file and hash of a worker. -/
def aliasRecord (worker : WorkerId) (r : Record) : Record :=
  if r.get "worker_id" = some worker then r
  else (r.setDefault "origin_worker_id" (text r "worker_id")).set "worker_id" worker

theorem recordGpu_same {gpu : Gpu} {r : Record} (h : samePhysicalGpu gpu r = true) : recordGpu r = gpu := by
  simp only [samePhysicalGpu, Bool.and_eq_true, decide_eq_true_eq] at h
  rw [recordGpu, text, h.1.2, text, h.2, Option.getD_some, Option.getD_some]

theorem alias_get {worker : WorkerId} {r : Record} {key : String} (hkey : key ≠ "worker_id")
    (horigin : key ≠ "origin_worker_id") : (aliasRecord worker r).get key = r.get key := by
  unfold aliasRecord
  split_ifs
  · rfl
  · rw [Dict.get_set_of_ne _ hkey, Dict.get_setDefault, if_neg horigin]

theorem alias_text (worker : WorkerId) (r : Record) (key : String) (hworker : key ≠ "worker_id")
    (horigin : key ≠ "origin_worker_id") : text (aliasRecord worker r) key = text r key := by
  rw [text, alias_get hworker horigin, text]

/-- A record with a place of its own under its GPU. -/
def deviceScoped (r : Record) : Bool := isPhysical r && (recordGpu r).named

namespace Store

variable (s : Store)

def gpuHash (gpu : Gpu) : Record := (s.gpuHashes.get (gpuDeviceQuarantineKey gpu)).getD {}

def workerHash (worker : WorkerId) : Record := (s.workerHashes.get worker).getD {}

/-- What one read looks at. -/
def copies (worker : WorkerId) (gpu : Gpu) : Copies where
  durableDevice := s.gpuFiles.get (deviceLatchPath gpu)
  durableWorker := s.workerFiles.get (workerLatchPath worker)
  redisDevice := s.gpuHash gpu
  redisWorker := s.workerHash worker

/-- `_read_merged_quarantine`. -/
def readMerged (worker : WorkerId) (gpu : Gpu) : Except LatchError (Option Merged) :=
  (s.copies worker gpu).readMerged worker gpu

def writeGpuFile (r : Record) : Store :=
  { s with gpuFiles := s.gpuFiles.set (deviceLatchPath (recordGpu r)) r }

def writeWorkerFile (worker : WorkerId) (r : Record) : Store :=
  { s with workerFiles := s.workerFiles.set (workerLatchPath worker) (aliasRecord worker r) }

def hsetGpu (gpu : Gpu) (r : Record) : Store :=
  { s with gpuHashes := s.gpuHashes.set (gpuDeviceQuarantineKey gpu) ((s.gpuHash gpu).update r) }

def hsetWorker (worker : WorkerId) (r : Record) : Store :=
  { s with
    workerHashes := s.workerHashes.set worker ((s.workerHash worker).update (aliasRecord worker r)) }

/-- `_write_durable_aliases_locked`: every path of `_records_for_durable_paths`. -/
def writeDurable (worker : WorkerId) (r : Record) : Store :=
  (if deviceScoped r then s.writeGpuFile r else s).writeWorkerFile worker r

/-- The Redis mirror of a record that was written. -/
def mirror (worker : WorkerId) (r : Record) : Store :=
  (if deviceScoped r then s.hsetGpu (recordGpu r) r else s).hsetWorker worker r

/-- `_rehydrate_redis_to_completion`. -/
def rehydrate (worker : WorkerId) (gpu : Gpu) (m : Merged) (r : Record) : Store :=
  let s' := if isPhysical r && gpu.named && !m.redisDevice.any (·.contains r) then s.hsetGpu gpu r else s
  if m.redisWorker.any (·.contains (aliasRecord worker r)) then s' else s'.hsetWorker worker r

/-- `notification_provenance` of a latch that could not be made durable. -/
def unlatched (r : Record) : Record := r.set "notification_provenance" "unlatched_best_effort"

/-- A mutating `read_gpu_quarantine`, from the merge inside its lock on. -/
def read (worker : WorkerId) (gpu : Gpu) : Store :=
  match s.readMerged worker gpu with
  | .ok (some m) =>
      if m.durableReady then s.rehydrate worker gpu m m.record
      else if gpu.named then (s.writeDurable worker m.record).rehydrate worker gpu m m.record
      else s.rehydrate worker gpu m (unlatched m.record)
  | _ => s

/-- `_existing_durable_record`. -/
def existingDurableRecord (worker : WorkerId) (gpu : Gpu) : Except LatchError (Option Record) := do
  match ← readJson (if gpu.named then s.gpuFiles.get (deviceLatchPath gpu) else none) with
  | some r => return some (normalizeDeviceRecord gpu r)
  | none => readJson (s.workerFiles.get (workerLatchPath worker))

end Store

/-! ### Write -/

/-- What a caller of `write_gpu_quarantine` reports. -/
structure Fault where
  reason : String := ""
  faultClass : String := ""
  taskId : String := ""
  nodeId : String := ""
  deriving DecidableEq, Repr

/-- `_new_quarantine_record`. -/
def newQuarantineRecord (worker : WorkerId) (gpu : Gpu) (fault : Fault) (physicalScope : Bool)
    (eventId now : String) : Record :=
  ⟨[("state", "quarantined"), ("worker_id", worker), ("device", gpu.device),
    ("reason", fault.reason), ("fault_class", fault.faultClass), ("task_id", fault.taskId),
    ("node_id", fault.nodeId), ("hostname", gpu.hostname), ("event_id", eventId),
    ("created_at", now), ("manual_clear_required", "true"),
    ("scope", if physicalScope then "physical_gpu" else "worker_process")]⟩

/-- `preserve_existing`. -/
def preserves (worker : WorkerId) (gpu : Gpu) (physicalScope : Bool) (existing : Record) : Bool :=
  (isPhysical existing && (!gpu.named || samePhysicalGpu gpu existing)) ||
    (!physicalScope && existing.get "scope" = some "worker_process" &&
      existing.get "worker_id" = some worker && existing.get "hostname" = some gpu.hostname &&
      existing.get "device" = some gpu.device)

def pendingPage (r : Record) : Record := r.setDefault "page_user_state" "pending"

/-- `_write_gpu_quarantine_to_completion`. A latch file that cannot be read leaves the durable copies
alone. -/
def Store.write (s : Store) (worker : WorkerId) (gpu : Gpu) (fault : Fault) (physicalScope : Bool)
    (eventId now : String) : Store :=
  let new := newQuarantineRecord worker gpu fault physicalScope eventId now
  match s.existingDurableRecord worker gpu with
  | .ok existing =>
      let r := pendingPage ((existing.filter (preserves worker gpu physicalScope)).getD new)
      (s.writeDurable worker r).mirror worker r
  | .error _ => s.mirror worker (Store.unlatched (new.set "page_user_state" "pending"))

/-! ### Notifications -/

inductive PageOutcome
  | pending | sent | failed
  deriving DecidableEq, Repr

def PageOutcome.text : PageOutcome → String
  | .pending => "pending"
  | .sent => "sent"
  | .failed => "failed"

inductive Scope
  | physicalGpu | workerProcess
  deriving DecidableEq, Repr

def Scope.text : Scope → String
  | .physicalGpu => "physical_gpu"
  | .workerProcess => "worker_process"

def truncated (error : String) : String := String.ofList (error.toList.take 500)

/-- The page fields of `finish_gpu_quarantine_notification_claim` and of a notification update. -/
def delivered (outcome : PageOutcome) (error now : String) (r : Record) : Record :=
  let r := ((r.set "page_user_state" outcome.text).set "page_user_updated_at" now).set
    "page_user_error" (truncated error)
  if outcome = .sent then r.set "page_user_sent_at" now else r

/-- The latch that a notification update compares with its generation. -/
def Store.notified (s : Store) (worker : WorkerId) (gpu : Gpu) :
    Scope → Except LatchError (Option Record)
  | .workerProcess => readJson (s.workerFiles.get (workerLatchPath worker))
  | .physicalGpu => s.existingDurableRecord worker gpu

/-- `update_gpu_quarantine_notification`; `none` where it answers `None` or raises. -/
def Store.updatedRecord (s : Store) (worker : WorkerId) (gpu : Gpu) (scope : Scope)
    (expected : Generation) (outcome : PageOutcome) (error now : String) : Option Record :=
  match s.notified worker gpu scope with
  | .ok (some r) =>
      if r.get "scope" = some scope.text ∧ generation r = expected then
        some (if pageState r ≠ some "sent" ∨ outcome = .sent then delivered outcome error now r else r)
      else none
  | _ => none

def Store.updateNotification (s : Store) (worker : WorkerId) (gpu : Gpu) (scope : Scope)
    (expected : Generation) (outcome : PageOutcome) (error now : String) : Store :=
  match s.updatedRecord worker gpu scope expected outcome error now with
  | some r => (s.writeDurable worker r).mirror worker r
  | none => s

/-- A `GPUQuarantineNotificationClaim` that holds its lock. -/
structure Claim where
  record : Record
  workerId : WorkerId
  shouldSend : Bool
  superseded : Bool := false
  finished : Bool := false

/-- `max(0, int(value))`, or 0 where `int` raises. -/
def attemptCount (value : String) : Nat := ((strip value).toInt?.getD 0).toNat

def sending (pid now : String) (r : Record) : Record :=
  (((r.set "page_user_state" "sending").set "page_user_claimed_at" now).set "page_user_claim_owner"
    pid).set "page_user_attempt_count"
      (toString (attemptCount ((r.get "page_user_attempt_count").getD "0") + 1))

/-- The latch that a claim is about, from the two latch files. -/
def claimedLatch (input : Record) (durableWorker durableDevice : Option Record) : Option Record :=
  if isPhysical input then durableDevice
  else durableWorker.filter fun r => r.get "scope" = input.get "scope"

/-- The part of `acquire_gpu_quarantine_notification_claim` that follows the two file reads. -/
def Store.claimLatch (s : Store) (input : Record) (pid now : String)
    (durableWorker durableDevice : Option Record) : Store × Claim :=
  let worker := text input "worker_id"
  if !isPhysical input && durableDevice.isSome then
    (s, { record := durableDevice.getD input, workerId := worker, shouldSend := false
          superseded := true })
  else
    match claimedLatch input durableWorker durableDevice with
    | none => (s, { record := input, workerId := worker, shouldSend := false, superseded := true })
    | some current =>
        if generation current ≠ generation input then
          (s, { record := current, workerId := worker, shouldSend := false, superseded := true })
        else if pageState current = some "sent" then
          (s, { record := current, workerId := worker, shouldSend := false })
        else
          (s.writeDurable worker (sending pid now current),
            { record := sending pid now current, workerId := worker, shouldSend := true })

/-- `acquire_gpu_quarantine_notification_claim`, once it has the lock; `none` where it raises. -/
def Store.acquireClaim (s : Store) (input : Record) (pid now : String) : Option (Store × Claim) :=
  match readJson (s.workerFiles.get (workerLatchPath (text input "worker_id"))),
      readJson (s.gpuFiles.get (deviceLatchPath (recordGpu input))) with
  | .ok durableWorker, .ok durableDevice =>
      some (s.claimLatch input pid now durableWorker
        (durableDevice.map (normalizeDeviceRecord (recordGpu input))))
  | _, _ => none

/-- The record of `finish_gpu_quarantine_notification_claim`. -/
def Claim.outcome (c : Claim) (sent : Bool) (error now : String) : Record :=
  (delivered (if sent then .sent else .failed) error now c.record).erase "page_user_claim_owner"

/-! ### Clear -/

/-- A worker file that `_clear_durable_latches` removes with the latch of a GPU. -/
def clearsFile (gpu : Gpu) (r : Record) : Bool :=
  r.get "state" = some "quarantined" && isPhysical r && r.get "hostname" = some gpu.hostname &&
    r.get "device" = some gpu.device

/-- A worker hash that `_redis_physical_aliases` answers. -/
def clearsHash (gpu : Gpu) (r : Record) : Bool :=
  (r.get "scope" = some "" || r.get "scope" = some "physical_gpu") &&
    r.get "hostname" = some gpu.hostname && r.get "device" = some gpu.device

namespace Store

variable (s : Store)

/-- `_redis_physical_aliases`. -/
def redisPhysicalAliases (gpu : Gpu) : List WorkerId :=
  s.workerHashes.keysWhere fun _ r => clearsHash gpu r

/-- The worker ids in the files that a clear removes. -/
def durableAliases (gpu : Gpu) : List WorkerId :=
  (s.workerFiles.keysWhere fun _ r => clearsFile gpu r).filterMap fun path =>
    (s.workerFiles.get path).bind fun r =>
      if text r "worker_id" = "" then none else some (text r "worker_id")

/-- `clear_gpu_quarantine`, with the aliases that its scan before the lock has found. -/
def clear (worker : WorkerId) (gpu : Gpu) (seen : List WorkerId) : Store :=
  if gpu.named then
    let aliases := worker :: (seen ++ s.redisPhysicalAliases gpu ++ s.durableAliases gpu)
    { gpuFiles := s.gpuFiles.erase (deviceLatchPath gpu)
      workerFiles := (s.workerFiles.dropWhere fun _ r => clearsFile gpu r).erase (workerLatchPath worker)
      gpuHashes := s.gpuHashes.erase (gpuDeviceQuarantineKey gpu)
      workerHashes := s.workerHashes.keep fun id => !aliases.contains id }
  else
    { s with
      workerFiles := s.workerFiles.erase (workerLatchPath worker)
      workerHashes := s.workerHashes.erase worker }

end Store

/-! ### Runs -/

structure State where
  store : Store := {}
  /-- The claims that hold the lock of a GPU. -/
  held : GpuPath → Option Claim := fun _ => none
  /-- Events created so far. -/
  issued : List Generation := []

/-- The lock that an operation needs is free. -/
def State.free (s : State) (gpu : Gpu) : Prop :=
  gpu.named = true → s.held (deviceLatchPath gpu) = none

instance (s : State) (gpu : Gpu) : Decidable (s.free gpu) :=
  if hgpu : gpu.named = true then
    if hheld : (s.held (deviceLatchPath gpu)).isNone = true then
      isTrue fun _ => Option.isNone_iff_eq_none.mp hheld
    else isFalse fun h => hheld (Option.isNone_iff_eq_none.mpr (h hgpu))
  else isTrue fun h => absurd h hgpu

inductive Action
  | read (worker : WorkerId) (gpu : Gpu)
  | write (worker : WorkerId) (gpu : Gpu) (fault : Fault) (physicalScope : Bool)
      (eventId now : String)
  | claim (input : Record) (pid now : String)
  /-- `finish_gpu_quarantine_notification_claim`, which only the sender of a page calls, and once. -/
  | finish (path : GpuPath) (sent : Bool) (error now : String)
  | release (path : GpuPath)
  | update (worker : WorkerId) (gpu : Gpu) (scope : Scope) (expected : Generation)
      (outcome : PageOutcome) (error now : String)
  /-- `seen` is what the scan before the lock has answered. -/
  | clear (worker : WorkerId) (gpu : Gpu) (seen : List WorkerId)

/-- The scopes that a claim may be made for. -/
def claimableScope (r : Record) : Bool :=
  isPhysical r || r.get "scope" = some "worker_process"

def step (s : State) : Action → Option State
  | .read worker gpu =>
      if s.free gpu then some { s with store := s.store.read worker gpu } else none
  | .write worker gpu fault physicalScope eventId now =>
      if s.free gpu ∧ strip eventId ≠ "" ∧ .event (strip eventId) ∉ s.issued then
        some { s with
          store := s.store.write worker gpu fault physicalScope eventId now
          issued := .event (strip eventId) :: s.issued }
      else none
  | .claim input pid now =>
      if claimableScope input ∧ (recordGpu input).named ∧ text input "worker_id" ≠ "" ∧
          s.free (recordGpu input) then
        (s.store.acquireClaim input pid now).map fun result =>
          { s with
            store := result.1
            held := Function.update s.held (deviceLatchPath (recordGpu input)) (some result.2) }
      else none
  | .finish path sent error now =>
      (s.held path).bind fun c =>
        if c.shouldSend ∧ !c.finished then
          some { s with
            store := s.store.writeDurable c.workerId (c.outcome sent error now)
            held := Function.update s.held path
              (some { c with record := c.outcome sent error now, finished := true }) }
        else none
  | .release path =>
      (s.held path).map fun _ => { s with held := Function.update s.held path none }
  | .update worker gpu scope expected outcome error now =>
      if gpu.named ∧ s.free gpu then
        some { s with
          store := s.store.updateNotification worker gpu scope expected outcome error now }
      else none
  | .clear worker gpu seen =>
      if s.free gpu then some { s with store := s.store.clear worker gpu seen } else none

/-! ### What a step requires and does -/

variable {s t : State} {worker : WorkerId} {gpu : Gpu} {input : Record} {path : GpuPath}

theorem step_read : step s (.read worker gpu) = some t ↔
    s.free gpu ∧ { s with store := s.store.read worker gpu } = t := by
  simp only [step, Option.ite_none_right_eq_some, Option.some.injEq]

theorem step_write {fault : Fault} {physicalScope : Bool} {eventId now : String} :
    step s (.write worker gpu fault physicalScope eventId now) = some t ↔
      (s.free gpu ∧ strip eventId ≠ "" ∧ .event (strip eventId) ∉ s.issued) ∧
      { s with
        store := s.store.write worker gpu fault physicalScope eventId now
        issued := .event (strip eventId) :: s.issued } = t := by
  simp only [step, Option.ite_none_right_eq_some, Option.some.injEq]

theorem step_claim {pid now : String} : step s (.claim input pid now) = some t ↔
    (claimableScope input ∧ (recordGpu input).named ∧ text input "worker_id" ≠ "" ∧
      s.free (recordGpu input)) ∧
      ∃ result, s.store.acquireClaim input pid now = some result ∧
      { s with
        store := result.1
        held := Function.update s.held (deviceLatchPath (recordGpu input)) (some result.2) } = t := by
  simp only [step, Option.ite_none_right_eq_some, Option.map_eq_some_iff]

theorem step_finish {sent : Bool} {error now : String} :
    step s (.finish path sent error now) = some t ↔
      ∃ c, s.held path = some c ∧ (c.shouldSend = true ∧ c.finished = false) ∧
      { s with
        store := s.store.writeDurable c.workerId (c.outcome sent error now)
        held := Function.update s.held path
          (some { c with record := c.outcome sent error now, finished := true }) } = t := by
  simp only [step, Option.bind_eq_some_iff, Option.ite_none_right_eq_some, Option.some.injEq,
    Bool.not_eq_true']

theorem step_release : step s (.release path) = some t ↔
    ∃ c, s.held path = some c ∧ { s with held := Function.update s.held path none } = t := by
  simp only [step, Option.map_eq_some_iff]

theorem step_update {scope : Scope} {expected : Generation} {outcome : PageOutcome}
    {error now : String} : step s (.update worker gpu scope expected outcome error now) = some t ↔
      (gpu.named ∧ s.free gpu) ∧
      { s with
        store := s.store.updateNotification worker gpu scope expected outcome error now } = t := by
  simp only [step, Option.ite_none_right_eq_some, Option.some.injEq]

theorem step_clear {seen : List WorkerId} : step s (.clear worker gpu seen) = some t ↔
    s.free gpu ∧ { s with store := s.store.clear worker gpu seen } = t := by
  simp only [step, Option.ite_none_right_eq_some, Option.some.injEq]

/-! ### What a clear leaves in the files -/

variable {store : Store} {seen : List WorkerId}

theorem workerFiles_clear (path : WorkerPath) : (store.clear worker gpu seen).workerFiles.get path =
    if path = workerLatchPath worker then none
    else (store.workerFiles.get path).filter fun r => !(gpu.named && clearsFile gpu r) := by
  rw [Store.clear]
  cases hgpu : gpu.named with
  | false =>
      rw [if_neg (by simp)]
      change (store.workerFiles.erase _).get path = _
      rw [Dict.get_erase]
      cases store.workerFiles.get path <;> rfl
  | true =>
      rw [if_pos rfl]
      change ((store.workerFiles.dropWhere _).erase _).get path = _
      rw [Dict.get_erase, Dict.get_dropWhere]
      rfl

theorem gpuFiles_clear (path : GpuPath) :
    (store.clear worker gpu seen).gpuFiles.get path =
      if gpu.named = true ∧ path = deviceLatchPath gpu then none else store.gpuFiles.get path := by
  unfold Store.clear
  split_ifs with hgpu hpath hpath
  · rw [Dict.get_erase, if_pos hpath.2]
  · rw [Dict.get_erase, if_neg fun heq => hpath ⟨hgpu, heq⟩]
  · exact absurd hpath.1 hgpu
  · rfl

end KernelGym.Quarantine
