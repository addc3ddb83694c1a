import KernelGym.QuarantineCopies

/-! Calls that page operators about a latch. A call claims the latch under the lock of its GPU, sends the
page, records the outcome in the latch files and gives the lock back; a process may crash in between. -/

namespace KernelGym.Quarantine

open Library

abbrev CallId := Nat

/-- What `send_page_user_notification` answers, or that an exception ended it. -/
inductive Exchange
  | success
  | failure (kind error : String)
  | interrupted
  deriving DecidableEq, Repr

/-- The error that is recorded with an outcome. -/
def Exchange.errorText : Exchange → String
  | .success => ""
  | .failure kind error => (if kind = "" then "unknown" else kind) ++ ": " ++ error
  | .interrupted => "delivery interrupted before completion"

/-- What a call of `_send_claimed_gpu_notification` ends with. -/
inductive PageResult
  | inputError
  | claimError
  /-- Success without a page of its own. -/
  | superseded
  | deduplicated
  | exchanged (answer : Exchange)
  | cancelled
  deriving DecidableEq, Repr

/-- Where a call stands. -/
inductive CallPhase
  | claiming (record : Record)
  /-- It holds a claim and its HTTP exchange is open. -/
  | sending (path : GpuPath)
  | releasing (path : GpuPath) (result : PageResult)
  | returned (result : PageResult)
  | crashed

structure Paging where
  base : State := {}
  calls : CallId → Option CallPhase := fun _ => none
  /-- The latches whose page `send_page_user_notification` has delivered. -/
  pages : List Generation := []
  /-- The latches that a completed claim or an update has marked as sent. -/
  recorded : List Generation := []

inductive PageAction
  | call (id : CallId) (record : Record) (expected : Scope)
  | acquire (id : CallId) (pid now : String) (cancelled : Bool)
  | exchange (id : CallId) (answer : Exchange) (now : String) (cancelled : Bool)
  | release (id : CallId)
  | crash (id : CallId)
  /-- A write, an update of the notification state or a clear of any process. -/
  | other (a : Action)

/-- The operations of other processes between the steps of a call. -/
def Action.external : Action → Bool
  | .write _ _ _ _ _ _ | .update _ _ _ _ _ _ _ | .clear _ _ _ => true
  | _ => false

/-- The latch that an update marks as sent. -/
def Store.marks (s : Store) : Action → List Generation
  | .update worker gpu scope expected .sent error now =>
      ((s.updatedRecord worker gpu scope expected .sent error now).map fun _ => expected).toList
  | _ => []

namespace Paging

def setCall (w : Paging) (id : CallId) (phase : CallPhase) : Paging :=
  { w with calls := Function.update w.calls id (some phase) }

/-- The next phase after `acquire_gpu_quarantine_notification_claim` has returned. -/
def afterClaim (path : GpuPath) (c : Claim) (cancelled : Bool) : CallPhase :=
  if cancelled then .releasing path .cancelled
  else if c.shouldSend then .sending path
  else .releasing path (if c.superseded then .superseded else .deduplicated)

/-- `acquire_gpu_quarantine_notification_claim` and what follows it; the lock has to be free, and an
exception in it returns an error that may be retried. -/
def acquire (w : Paging) (id : CallId) (record : Record) (pid now : String) (cancelled : Bool) :
    Option Paging :=
  if claimableScope record ∧ (recordGpu record).named ∧ text record "worker_id" ≠ "" then
    if w.base.free (recordGpu record) then
      match step w.base (.claim record pid now) with
      | some base =>
          (base.held (deviceLatchPath (recordGpu record))).map fun c =>
            { w with base := base }.setCall id (afterClaim (deviceLatchPath (recordGpu record)) c cancelled)
      | none => some (w.setCall id (.returned (if cancelled then .cancelled else .claimError)))
    else none
  else some (w.setCall id (.returned (if cancelled then .cancelled else .claimError)))

/-- The outcome is recorded before the lock is given back. -/
def exchange (w : Paging) (id : CallId) (path : GpuPath) (answer : Exchange) (now : String)
    (cancelled : Bool) : Option Paging :=
  (w.base.held path).bind fun c =>
    (step w.base (.finish path (answer = .success) answer.errorText now)).map fun base =>
      let delivered := if answer = .success then [generation c.record] else []
      { w with
        base := base
        pages := delivered ++ w.pages
        recorded := delivered ++ w.recorded }.setCall id
          (.releasing path (if cancelled then .cancelled else .exchanged answer))

/-- One step of a call or of another process. A record that is tagged as unlatched is paged without a
claim, and is no call of this system. -/
def step (w : Paging) : PageAction → Option Paging
  | .call id record expected =>
      if (w.calls id).isNone ∧ record.get "notification_provenance" ≠ some "unlatched_best_effort" then
        some (w.setCall id
          (if record.get "scope" ≠ some expected.text then .returned .inputError else .claiming record))
      else none
  | .acquire id pid now cancelled =>
      match w.calls id with
      | some (.claiming record) => w.acquire id record pid now cancelled
      | _ => none
  | .exchange id answer now cancelled =>
      match w.calls id with
      | some (.sending path) => w.exchange id path answer now cancelled
      | _ => none
  | .release id =>
      match w.calls id with
      | some (.releasing path result) =>
          (Quarantine.step w.base (.release path)).map fun base =>
            { w with base := base }.setCall id (.returned result)
      | _ => none
  | .crash id =>
      match w.calls id with
      | some (.claiming _) => some (w.setCall id .crashed)
      | some (.sending path) | some (.releasing path _) =>
          (Quarantine.step w.base (.release path)).map fun base =>
            { w with base := base }.setCall id .crashed
      | _ => none
  | .other a =>
      if a.external then
        (Quarantine.step w.base a).map fun base =>
          { w with base := base, recorded := w.base.store.marks a ++ w.recorded }
      else none

end Paging

/-! ### Latches -/

/-- One latch of a GPU: its physical latch, or the exclusion of a worker. -/
structure Latch where
  gpu : Gpu
  /-- The worker that an exclusion is of. -/
  owner : Option WorkerId
  generation : Generation

namespace Latch

variable (l : Latch)

abbrev path : GpuPath := deviceLatchPath l.gpu

/-- The record in the durable file that decides about the latch. -/
def home (s : Store) : Option Record :=
  match l.owner with
  | none => (s.gpuFiles.get l.path).map (normalizeDeviceRecord l.gpu)
  | some worker => (s.workerFiles.get (workerLatchPath worker)).filter fun r =>
      r.get "scope" = some "worker_process"

/-- The durable state holds the latch. -/
def Durable (s : Store) : Prop := ∃ r, l.home s = some r ∧ Quarantine.generation r = l.generation

/-- The durable state holds the latch and says that its page was sent. -/
def Sent (s : Store) : Prop :=
  ∃ r, l.home s = some r ∧ Quarantine.generation r = l.generation ∧ isSent r

end Latch

/-- The latch file of the worker holds a physical latch with the latch file of `path`. -/
def Store.namesPath (s : Store) (worker : WorkerId) (path : GpuPath) : Prop :=
  ∃ r, s.workerFiles.get (workerLatchPath worker) = some r ∧ deviceScoped r = true ∧
    deviceLatchPath (recordGpu r) = path

/-- An operation that names a GPU under the lock of the latch names its GPU. -/
def Latch.sameName (l : Latch) (gpu : Gpu) : Prop :=
  gpu.named = true → deviceLatchPath gpu = l.path → gpu = l.gpu

/-- What an operation may touch of a physical latch: it names the GPU as the latch does, and only under
the lock does a write or an update republish a physical latch of the GPU from the file of a worker. -/
def Latch.physicalOrder (l : Latch) (s : Store) : Action → Prop
  | .write worker gpu _ _ _ _ =>
      l.sameName gpu ∧ (gpu.named = false → ¬s.namesPath worker l.path)
  | .update worker gpu _ _ _ _ _ =>
      l.sameName gpu ∧ (deviceLatchPath gpu ≠ l.path → ¬s.namesPath worker l.path)
  | .claim input _ _ => l.sameName (recordGpu input)
  | .clear _ gpu _ => l.sameName gpu
  | _ => True

/-- An operation on the latch file of the excluded worker is one of that worker under the lock of the
latch. -/
def Latch.workerOrder (l : Latch) (owner : WorkerId) : Action → Prop
  | .write worker gpu _ _ _ _ | .update worker gpu _ _ _ _ _ | .clear worker gpu _ =>
      workerLatchPath worker = workerLatchPath owner → worker = owner ∧ gpu = l.gpu
  | .claim input _ _ =>
      workerLatchPath (text input "worker_id") = workerLatchPath owner →
        text input "worker_id" = owner ∧ recordGpu input = l.gpu
  | _ => True

/-- The operation touches the files of the latch under the lock of its GPU only. -/
def Latch.inOrder (l : Latch) (s : Store) (a : Action) : Prop :=
  match l.owner with
  | none => l.physicalOrder s a
  | some owner => l.workerOrder owner a

/-- The operation on the latch files that a step of a call or of another process is. -/
def Paging.operation (w : Paging) : PageAction → Option Action
  | .acquire id pid now _ =>
      match w.calls id with
      | some (.claiming record) => some (.claim record pid now)
      | _ => none
  | .other a => some a
  | _ => none

def Latch.pageOrder (l : Latch) (w : Paging) (a : PageAction) : Prop :=
  ∀ o, w.operation a = some o → l.inOrder w.base.store o

end KernelGym.Quarantine
