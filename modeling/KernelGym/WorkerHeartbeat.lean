import KernelGym.Library.Dicts

/-! `POST /worker/heartbeat`: the handler checks the device of the heartbeat against the worker's registration
and against the other workers of the node, and otherwise refreshes the worker. -/

namespace KernelGym.WorkerRoute

open Library

abbrev WorkerId := String

/-- A worker's record, in Redis or in memory. -/
abbrev Fields := Dict String String

/-- An entry of the load balancer. -/
structure Balance where
  device : String
  status : String
  lastHeartbeat : String
  deriving DecidableEq, Repr

/-- The worker records under the prefixes that are read, the primary one first, the index of workers, the
registry and the load balancer. -/
structure Server where
  primary : WorkerId → Fields
  legacy : Option (WorkerId → Fields)
  index : List WorkerId
  workerRegistry : Dict WorkerId Fields
  availableWorkers : Dict WorkerId Balance

/-- The query of a heartbeat. -/
structure Heartbeat where
  workerId : WorkerId
  device : Option String
  nodeId : Option String
  hostname : Option String
  deriving DecidableEq, Repr

inductive Response
  | success (message : String)
  /-- An `HTTPException`. -/
  | refused (statusCode : ℕ) (detail : String)
  deriving DecidableEq, Repr

/-- `get_worker_data` -/
def Server.getWorkerData (s : Server) (worker : WorkerId) : Fields :=
  if !(s.primary worker).isEmpty then s.primary worker
  else match s.legacy with
    | some legacy => legacy worker
    | none => {}

/-- `worker_data.get(b"device", b"").decode()` -/
def Server.storedDevice (s : Server) (worker : WorkerId) : String :=
  ((s.getWorkerData worker).get "device").getD ""

def Server.hset (s : Server) (worker : WorkerId) (mapping : Fields) : Server :=
  { s with primary := fun w => if w = worker then (s.primary w).update mapping else s.primary w }

def Server.sadd (s : Server) (worker : WorkerId) : Server :=
  { s with index := if worker ∈ s.index then s.index else s.index ++ [worker] }

/-- The entry of a mapping for an argument that is given. -/
def optional (field : String) (value : Option String) : List (String × String) :=
  (given value).toList.map fun v => (field, v)

/-- `register_worker` -/
def Server.registerWorker (s : Server) (now : String) (worker : WorkerId) (device : String)
    (nodeId hostname : Option String) : Server :=
  let admission := if "cuda:".toList.isPrefixOf device.toList then
    [("health_state", "initializing"), ("accepting_tasks", "false")] else []
  let mapping : Fields := ⟨[("device", device), ("status", "online"), ("last_heartbeat", now),
    ("node_id", nodeId.getD ""), ("hostname", hostname.getD "")] ++ admission⟩
  let s := (s.hset worker mapping).sadd worker
  { s with
    workerRegistry := s.workerRegistry.set worker mapping
    availableWorkers := s.availableWorkers.set worker ⟨device, "online", now⟩ }

/-- `update_worker_heartbeat` -/
def Server.updateWorkerHeartbeat (s : Server) (now : String) (worker : WorkerId)
    (nodeId hostname : Option String) : Server :=
  let mapping : Fields := ⟨[("last_heartbeat", now), ("status", "online")] ++ optional "node_id" nodeId ++
    optional "hostname" hostname⟩
  let s := (s.hset worker mapping).sadd worker
  { s with
    workerRegistry := match s.workerRegistry.get worker with
      | some info => s.workerRegistry.set worker (info.update mapping)
      | none => s.workerRegistry
    availableWorkers := match s.availableWorkers.get worker with
      | some entry => s.availableWorkers.set worker { entry with lastHeartbeat := now }
      | none => s.availableWorkers }

/-- The entry of another worker with the device and the very node id of the heartbeat. -/
def Heartbeat.clashes (h : Heartbeat) (device : String) (worker : WorkerId) (info : Fields) : Bool :=
  info.get "device" = some device && worker ≠ h.workerId && info.get "node_id" = h.nodeId

/-- `device or stored_device` -/
def Heartbeat.resolvedDevice (h : Heartbeat) (s : Server) : String :=
  (given h.device).getD (s.storedDevice h.workerId)

/-- The checks for a worker that is not in the registry: the refusal, if there is one. -/
def Heartbeat.autoRegisterRefusal (h : Heartbeat) (s : Server) : Option Response :=
  let stored := s.storedDevice h.workerId
  let resolved := h.resolvedDevice s
  if given h.device = none ∧ stored = "" then
    some (.refused 409 ("Worker " ++ h.workerId ++
      " not registered and device unknown; please register explicitly"))
  else match s.workerRegistry.keysWhere (h.clashes resolved) with
    | other :: _ =>
      some (.refused 409 ("Device " ++ resolved ++ " already in use by " ++ other ++ " on node " ++
        h.nodeId.getD "None"))
    | [] =>
      match given h.device with
      | some device =>
        if stored ≠ "" ∧ stored ≠ device then
          some (.refused 409 ("Device mismatch for " ++ h.workerId ++ ": stored=" ++ stored ++ ", provided=" ++
            device))
        else none
      | none => none

/-- `reg[field] = value`, where the registry has no value and the heartbeat has one. -/
def backfill (field : String) (value : Option String) (info : Fields) : Fields :=
  match given (info.get field), given value with
  | none, some v => info.set field v
  | _, _ => info

/-- The check of a registered worker: the repaired registry, and the refusal that it raises. -/
def Heartbeat.registeredCheck (h : Heartbeat) (s : Server) : Server × Option Response :=
  match s.workerRegistry.get h.workerId with
  | none => (s, none)
  | some info =>
    let info := backfill "hostname" h.hostname (backfill "node_id" h.nodeId info)
    let s := { s with workerRegistry := s.workerRegistry.set h.workerId info }
    match given h.device, given (info.get "device") with
    | some device, some registered =>
      if registered ≠ device then (s, some (.refused 409 "Device mismatch; please re-register")) else (s, none)
    | _, _ => (s, none)

/-- `worker_heartbeat`, with the time of its two clock readings. -/
def workerHeartbeat (s : Server) (now : String) (h : Heartbeat) : Response × Server :=
  let refresh (s : Server) : Response × Server :=
    -- `except Exception: pass` drops the refusal of the check
    let s := (h.registeredCheck s).1
    (.success ("Heartbeat updated for " ++ h.workerId),
      s.updateWorkerHeartbeat now h.workerId h.nodeId h.hostname)
  match s.workerRegistry.get h.workerId with
  | some _ => refresh s
  | none =>
    match h.autoRegisterRefusal s with
    | some refusal => (refusal, s)
    | none => refresh (s.registerWorker now h.workerId (h.resolvedDevice s) h.nodeId h.hostname)

/-! ### Contradictory heartbeats -/

/-- The device of the heartbeat is not the one that the worker is registered with. -/
def Heartbeat.Mismatches (h : Heartbeat) (s : Server) : Prop :=
  ∃ device, h.device = some device ∧
    ((∃ info registered, s.workerRegistry.get h.workerId = some info ∧
        given (info.get "device") = some registered ∧ registered ≠ device) ∨
      s.storedDevice h.workerId ≠ "" ∧ s.storedDevice h.workerId ≠ device)

/-- The resolved device is used by another worker of the node; no node id and an empty one are the same. -/
def Heartbeat.Collides (h : Heartbeat) (s : Server) : Prop :=
  ∃ other info, s.workerRegistry.get other = some info ∧ other ≠ h.workerId ∧ h.resolvedDevice s ≠ "" ∧
    info.get "device" = some (h.resolvedDevice s) ∧ (info.get "node_id").getD "" = h.nodeId.getD ""

def Heartbeat.Contradictory (h : Heartbeat) (s : Server) : Prop := h.Mismatches s ∨ h.Collides s

/-- The call is rejected with 409 and changes nothing. -/
def Rejected (s : Server) (now : String) (h : Heartbeat) : Prop :=
  (∃ detail, (workerHeartbeat s now h).1 = .refused 409 detail) ∧ (workerHeartbeat s now h).2 = s

/-- A check that stands fires: the worker is not in the registry, and either its device in Redis differs from
one that is not empty, or another worker has the device and the very same node id. -/
def Heartbeat.Detected (h : Heartbeat) (s : Server) : Prop :=
  s.workerRegistry.get h.workerId = none ∧
    ((∃ device, h.device = some device ∧ device ≠ "" ∧ s.storedDevice h.workerId ≠ "" ∧
        s.storedDevice h.workerId ≠ device) ∨
      ∃ other info, s.workerRegistry.get other = some info ∧ other ≠ h.workerId ∧
        info.get "device" = some (h.resolvedDevice s) ∧ info.get "node_id" = h.nodeId)

/-- The check of the registry's other workers. -/
theorem clashes_iff {h : Heartbeat} {s : Server} {device : String} :
    s.workerRegistry.keysWhere (h.clashes device) ≠ [] ↔
      ∃ other info, s.workerRegistry.get other = some info ∧ other ≠ h.workerId ∧
        info.get "device" = some device ∧ info.get "node_id" = h.nodeId := by
  simp only [ne_eq, List.eq_nil_iff_forall_not_mem, not_forall, not_not, Dict.mem_keysWhere,
    Heartbeat.clashes, Bool.and_eq_true, decide_eq_true_eq]
  constructor
  · rintro ⟨other, info, hinfo, ⟨hdevice, hother⟩, hnode⟩
    exact ⟨other, info, hinfo, hother, hdevice, hnode⟩
  · rintro ⟨other, info, hinfo, hother, hdevice, hnode⟩
    exact ⟨other, info, hinfo, ⟨hdevice, hother⟩, hnode⟩

theorem refusal_isSome_iff {h : Heartbeat} {s : Server} (hdevice : h.resolvedDevice s ≠ "") :
    (h.autoRegisterRefusal s).isSome ↔
      (∃ device, h.device = some device ∧ device ≠ "" ∧ s.storedDevice h.workerId ≠ "" ∧
        s.storedDevice h.workerId ≠ device) ∨
      ∃ other info, s.workerRegistry.get other = some info ∧ other ≠ h.workerId ∧
        info.get "device" = some (h.resolvedDevice s) ∧ info.get "node_id" = h.nodeId := by
  have hknown : ¬(given h.device = none ∧ s.storedDevice h.workerId = "") := by
    rintro ⟨hgiven, hstored⟩
    exact hdevice (by rw [Heartbeat.resolvedDevice, hgiven, Option.getD_none, hstored])
  rw [← clashes_iff]
  simp only [Heartbeat.autoRegisterRefusal, if_neg hknown]
  cases hclash : s.workerRegistry.keysWhere (h.clashes (h.resolvedDevice s)) with
  | cons other rest => simp
  | nil =>
      cases hgiven : given h.device with
      | none =>
          have hempty := given_eq_none.1 hgiven
          simp only [Option.isSome_none, Bool.false_eq_true, ne_eq, not_true_eq_false, or_false, false_iff]
          rintro ⟨device, hsome, hne, -⟩
          exact hne (hempty device hsome)
      | some device =>
          obtain ⟨hsome, hne⟩ := given_eq_some.1 hgiven
          by_cases hmismatch : s.storedDevice h.workerId ≠ "" ∧ s.storedDevice h.workerId ≠ device
          · simp only [if_pos hmismatch, Option.isSome_some, true_iff]
            exact .inl ⟨device, hsome, hne, hmismatch⟩
          · simp only [if_neg hmismatch, Option.isSome_none, Bool.false_eq_true, ne_eq, not_true_eq_false,
              or_false, false_iff]
            rintro ⟨device', hsome', -, hmismatch'⟩
            cases hsome.symm.trans hsome'
            exact hmismatch hmismatch'

theorem refusal_conflict {h : Heartbeat} {s : Server} {refusal : Response}
    (hrefusal : h.autoRegisterRefusal s = some refusal) : ∃ detail, refusal = .refused 409 detail := by
  unfold Heartbeat.autoRegisterRefusal at hrefusal
  dsimp only at hrefusal
  split at hrefusal
  · cases hrefusal
    exact ⟨_, rfl⟩
  · split at hrefusal
    · cases hrefusal
      exact ⟨_, rfl⟩
    · split at hrefusal
      · split at hrefusal <;> cases hrefusal
        exact ⟨_, rfl⟩
      · cases hrefusal

/-- A call is rejected exactly when the worker is not in the registry and one of the checks fires. -/
theorem rejected_iff {s : Server} {now : String} {h : Heartbeat} :
    Rejected s now h ↔ s.workerRegistry.get h.workerId = none ∧ (h.autoRegisterRefusal s).isSome := by
  unfold Rejected workerHeartbeat
  cases hknown : s.workerRegistry.get h.workerId with
  | some info => simp
  | none =>
      cases hrefusal : h.autoRegisterRefusal s with
      | none => simp
      | some refusal =>
          obtain ⟨detail, rfl⟩ := refusal_conflict hrefusal
          simp

theorem Heartbeat.Contradictory.resolved {h : Heartbeat} {s : Server} (hc : h.Contradictory s)
    (hunknown : s.workerRegistry.get h.workerId = none) : h.resolvedDevice s ≠ "" := by
  obtain ⟨device, -, ⟨info, registered, hinfo, -⟩ | ⟨hstored, -⟩⟩ | ⟨other, info, -, -, hresolved, -⟩ := hc
  · rw [hunknown] at hinfo
    cases hinfo
  · unfold Heartbeat.resolvedDevice
    cases hgiven : given h.device with
    | none => exact hstored
    | some v => exact (given_eq_some.1 hgiven).2
  · exact hresolved

/-- **A contradictory heartbeat is rejected and changes nothing exactly when the worker is not in the registry
and the contradiction is one that a check sees**: a device that is not empty against the one in Redis, or
another worker's entry with the device and the very same node id. -/
theorem contradictory_rejected_iff (s : Server) (now : String) (h : Heartbeat) :
    (h.Contradictory s → Rejected s now h) ↔ (h.Contradictory s → h.Detected s) := by
  refine imp_congr_right fun hc => ?_
  rw [rejected_iff, Heartbeat.Detected]
  exact and_congr_right fun hunknown => refusal_isSome_iff (hc.resolved hunknown)

/-- One registered worker. -/
def registered : Server where
  primary _ := ⟨[("device", "cuda:0")]⟩
  legacy := none
  index := ["w"]
  workerRegistry := ⟨[("w", ⟨[("device", "cuda:0"), ("node_id", "n"), ("hostname", "host")]⟩)]⟩
  availableWorkers := ⟨[("w", ⟨"cuda:0", "online", "before"⟩)]⟩

/-- The refusal of a registered worker is swallowed: the heartbeat for another device refreshes the worker. -/
theorem mismatch_accepted :
    (⟨"w", some "cuda:1", none, none⟩ : Heartbeat).Contradictory registered ∧
      (workerHeartbeat registered "now" ⟨"w", some "cuda:1", none, none⟩).1 =
        .success "Heartbeat updated for w" ∧
      (workerHeartbeat registered "now" ⟨"w", some "cuda:1", none, none⟩).2.availableWorkers.get "w" =
        some ⟨"cuda:0", "online", "now"⟩ ∧
      ¬Rejected registered "now" ⟨"w", some "cuda:1", none, none⟩ := by
  have hmismatch : (⟨"w", some "cuda:1", none, none⟩ : Heartbeat).Mismatches registered :=
    ⟨"cuda:1", rfl, .inl ⟨_, "cuda:0", rfl, rfl, by decide⟩⟩
  refine ⟨.inl hmismatch, rfl, rfl, ?_⟩
  rintro ⟨⟨detail, h⟩, -⟩
  cases h

end KernelGym.WorkerRoute
