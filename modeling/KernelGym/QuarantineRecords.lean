import KernelGym.Library.Dicts

/-! Records of the persistent GPU quarantine latch: their identity, their normalization on read, and
the merge of the durable and Redis copies of a latch. -/

namespace KernelGym.Quarantine

open Library

/-- A latch as a JSON object of strings, or as a Redis hash. -/
abbrev Record := Dict String String

abbrev WorkerId := String

/-- The hostname and the device of a request; either may be empty. -/
structure Gpu where
  hostname : String
  device : String
  deriving DecidableEq, Repr

/-- The request names a physical GPU. -/
def Gpu.named (gpu : Gpu) : Bool := gpu.hostname ≠ "" && gpu.device ≠ ""

/-- `str(record.get(key) or "")`. -/
def text (r : Record) (key : String) : String := (r.get key).getD ""

/-- `str(record.get(key) or default)`. -/
def textOr (r : Record) (key default : String) : String :=
  if text r key = "" then default else text r key

/-- The `page_user_*` fields, which record the delivery of the page and not the event. -/
def isPageKey (key : String) : Bool := "page_user_".toList.isPrefixOf key.toList

def pageState (r : Record) : Option String := r.get "page_user_state"

def isPhysical (r : Record) : Bool := r.get "scope" = some "physical_gpu"

/-! ### Generations -/

/-- The characters that `str.strip` removes. -/
def isSpace (c : Char) : Bool :=
  let n := c.toNat
  (9 ≤ n && n ≤ 13) || (28 ≤ n && n ≤ 32) || n = 0x85 || n = 0xA0 || n = 0x1680 ||
    (0x2000 ≤ n && n ≤ 0x200A) || n = 0x2028 || n = 0x2029 || n = 0x202F || n = 0x205F || n = 0x3000

/-- The characters without those at either end that meet `p`. -/
def trimChars (p : Char → Bool) (chars : List Char) : List Char :=
  ((chars.dropWhile p).reverse.dropWhile p).reverse

/-- `str.strip`. -/
def strip (s : String) : String := String.ofList (trimChars isSpace s.toList)

/-- The fields whose digest identifies a legacy record. -/
structure LegacyIdentity where
  scope : String
  hostname : String
  device : String
  workerId : String
  faultClass : String
  reason : String
  taskId : String
  deriving DecidableEq, Repr

/-- The identity of one latch event; a legacy record stands for the digest of its fields. -/
inductive Generation
  | event (id : String)
  | created (time : String)
  | legacy (identity : LegacyIdentity)
  deriving DecidableEq, Repr

def legacyIdentity (r : Record) : LegacyIdentity where
  scope := text r "scope"
  hostname := text r "hostname"
  device := text r "device"
  workerId := if text r "scope" = "physical_gpu" then "" else text r "worker_id"
  faultClass := text r "fault_class"
  reason := text r "reason"
  taskId := text r "task_id"

/-- `gpu_quarantine_generation`. -/
def generation (r : Record) : Generation :=
  if strip (text r "event_id") ≠ "" then .event (strip (text r "event_id"))
  else if strip (text r "created_at") ≠ "" then .created (strip (text r "created_at"))
  else .legacy (legacyIdentity r)

/-! ### Normalization -/

/-- `_normalize_device_record`. -/
def normalizeDeviceRecord (gpu : Gpu) (r : Record) : Record :=
  ((r.set "scope" "physical_gpu").set "hostname" gpu.hostname).set "device" gpu.device

/-- The scope of a record that `_normalize_read_record` keeps as it is. -/
def knownScope (r : Record) : Bool :=
  text r "scope" = "physical_gpu" || text r "scope" = "worker_process"

def markPositive (r : Record) : Record :=
  ((r.set "state" "quarantined").set "manual_clear_required" "true").setDefault "page_user_state"
    "pending"

def withoutPage (r : Record) : Record := r.keep fun key => !isPageKey key

/-- Legacy records without a known scope are physical exclusions whose page is delivered anew. -/
def upgradeScope (r : Record) : Record :=
  if knownScope r then r
  else (withoutPage (r.set "scope" "physical_gpu")).set "page_user_state" "pending"

def fillIdentity (worker : WorkerId) (gpu : Gpu) (r : Record) : Record :=
  ((r.set "worker_id" (textOr r "worker_id" worker)).set "hostname"
    (textOr r "hostname" gpu.hostname)).set "device" (textOr r "device" gpu.device)

/-- The record that `_normalize_read_record` answers. -/
def normalizeReadRecord (worker : WorkerId) (gpu : Gpu) (r : Record) : Record :=
  fillIdentity worker gpu (upgradeScope (markPositive r))

/-- The flag that `_normalize_read_record` answers. -/
def normalizationChanged (worker : WorkerId) (gpu : Gpu) (r : Record) : Bool :=
  !(normalizeReadRecord worker gpu r).same r

/-- `_same_physical_gpu`. -/
def samePhysicalGpu (gpu : Gpu) (r : Record) : Bool :=
  isPhysical r && gpu.named && r.get "hostname" = some gpu.hostname &&
    r.get "device" = some gpu.device

/-- `_constrain_worker_record_to_device`. -/
def constrainWorkerRecord (gpu : Gpu) (r : Record) : Record :=
  if !isPhysical r || !gpu.named || samePhysicalGpu gpu r then r
  else (withoutPage (r.set "scope" "worker_process")).set "page_user_state" "not_applicable"

/-! ### Merge -/

/-- The normalized copies of a latch. -/
structure Sources where
  durableDevice : Option Record
  durableWorker : Option Record
  redisDevice : Option Record
  redisWorker : Option Record

namespace Sources

variable (sources : Sources) (gpu : Gpu)

/-- The copies in the order of their authority. -/
def ordered : List Record :=
  [sources.durableDevice, sources.durableWorker.map (constrainWorkerRecord gpu),
    sources.redisDevice, sources.redisWorker.map (constrainWorkerRecord gpu)].reduceOption

def candidates : List Record :=
  if ((sources.ordered gpu).filter isPhysical).isEmpty then sources.ordered gpu
  else (sources.ordered gpu).filter isPhysical

def sentRecord : Option Record :=
  (sources.ordered gpu).find? fun r => isPhysical r && pageState r = some "sent"

/-- `_strongest_quarantine_record`. -/
def strongest : Option Record :=
  match sources.candidates gpu with
  | [] => none
  | first :: _ =>
      match sources.sentRecord gpu with
      | some sent =>
          if generation sent = generation first then
            some ((first.update (sent.keep isPageKey)).set "page_user_state" "sent")
          else some first
      | none => some first

end Sources

/-- The four copies as they are stored; a Redis hash without fields does not exist. -/
structure Copies where
  durableDevice : Option Record
  durableWorker : Option Record
  redisDevice : Record
  redisWorker : Record

inductive LatchError
  /-- `Invalid GPU safety latch`. -/
  | invalidLatch
  deriving DecidableEq, Repr

/-- `_read_json` of a latch file. -/
def readJson (file : Option Record) : Except LatchError (Option Record) :=
  match file with
  | none => .ok none
  | some r => if r.get "state" = some "quarantined" then .ok (some r) else .error .invalidLatch

def fetched (hash : Record) : Option Record := if hash.isEmpty then none else some hash

/-- What a positive `_read_merged_quarantine` answers. -/
structure Merged where
  record : Record
  redisDevice : Option Record
  redisWorker : Option Record
  durableReady : Bool

namespace Copies

variable (copies : Copies) (worker : WorkerId) (gpu : Gpu)

/-- The device-keyed copies are read for a named GPU only. -/
def device (gpu : Gpu) (copy : Option Record) : Option Record :=
  if gpu.named then copy.map (normalizeDeviceRecord gpu) else none

def normalized : Sources where
  durableDevice := (device gpu copies.durableDevice).map (normalizeReadRecord worker gpu)
  durableWorker := copies.durableWorker.map (normalizeReadRecord worker gpu)
  redisDevice := (device gpu (fetched copies.redisDevice)).map (normalizeReadRecord worker gpu)
  redisWorker := (fetched copies.redisWorker).map (normalizeReadRecord worker gpu)

/-- The durable copy that the merged record has to agree with is stored in canonical form. -/
def durableReady (record : Record) : Bool :=
  let sources := copies.normalized worker gpu
  if isPhysical record then
    sources.durableDevice.any (fun r => generation r = generation record) &&
      !(device gpu copies.durableDevice).any (normalizationChanged worker gpu)
  else
    sources.durableWorker.any (fun r => r.get "scope" = some "worker_process" &&
        generation r = generation record) &&
      !copies.durableWorker.any (normalizationChanged worker gpu)

def merged (record : Record) : Merged where
  record := record
  redisDevice := (copies.normalized worker gpu).redisDevice
  redisWorker := (copies.normalized worker gpu).redisWorker
  durableReady := copies.durableReady worker gpu record

/-- `_read_merged_quarantine`, with Redis readable. -/
def readMerged : Except LatchError (Option Merged) := do
  let _ ← readJson (if gpu.named then copies.durableDevice else none)
  let _ ← readJson copies.durableWorker
  return ((copies.normalized worker gpu).strongest gpu).map (copies.merged worker gpu)

end Copies

end KernelGym.Quarantine
