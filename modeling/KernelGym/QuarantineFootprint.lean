import KernelGym.QuarantineCopies

/-! What an operation goes by and which copies of a latch it may replace, as its arguments and the
stores before it tell. What an operation publishes follows its footprint. -/

namespace KernelGym.Quarantine

open Library

/-- What an operation goes by, and the copies that it may replace. -/
structure Footprint where
  worker : WorkerId
  /-- The physical latch that it takes down again or creates; absent for the exclusion of a worker. -/
  latch : Option (Gpu × Generation) := none
  /-- The latch file of that GPU is written. -/
  device : Bool := false
  /-- The latch file of the worker is replaced. -/
  file : Bool := false
  /-- The Redis hashes of that GPU and of the worker are written. -/
  redis : Bool := false

namespace Footprint

variable (q : Footprint) (worker : WorkerId) (gpu : Gpu)

/-- The latch may be read on the GPU from an alias that says no more than it. -/
def speaksFor : Prop :=
  ∃ named g, q.latch = some (named, g) ∧ (gpu.named = true →
    (named.hostname = "" ∨ named.hostname = gpu.hostname) ∧
      (named.device = "" ∨ named.device = gpu.device))

def replacesFile : Bool := q.file && workerLatchPath worker = workerLatchPath q.worker

def writesHash : Bool := q.redis && worker = q.worker

end Footprint

/-- The physical latch that a stored record is. -/
def recordLatch (r : Record) : Option (Gpu × Generation) :=
  if isPhysical r then some (recordGpu r, generation r) else none

namespace Store

variable (s : Store) (q : Footprint) (worker : WorkerId) (gpu : Gpu)

/-- The latch file of the GPU is replaced, unless it holds the latch of the operation already. -/
def replacesDevice : Prop :=
  q.device = true ∧ gpu.named = true ∧ ∃ named g, q.latch = some (named, g) ∧ named.named = true ∧
    deviceLatchPath gpu = deviceLatchPath named ∧ s.deviceLatch named ≠ some g

/-- So is the Redis hash of the GPU. -/
def replacesDeviceHash : Prop :=
  q.redis = true ∧ gpu.named = true ∧ ∃ named g, q.latch = some (named, g) ∧ named.named = true ∧
    gpuDeviceQuarantineKey gpu = gpuDeviceQuarantineKey named ∧ s.deviceHashLatch named ≠ some g

/-- The latch of the files that the operation leaves alone. -/
def leftFiles : Option Generation :=
  (s.deviceLatch gpu).or (if q.replacesFile worker then none else s.fileLatch worker gpu)

/-- The latch of the Redis hashes that the operation leaves alone. -/
def leftHashes : Option Generation :=
  (s.deviceHashLatch gpu).or (if q.writesHash worker then none else s.hashLatch worker gpu)

/-! ### The footprints of the operations -/

/-- The latch file of the GPU is stored as a read would write it. -/
def settled : Bool :=
  (Copies.device gpu (s.gpuFiles.get (deviceLatchPath gpu))).any fun r =>
    !normalizationChanged worker gpu r

/-- A read that names no GPU writes the worker's hash only, where nothing changes if the file of the
worker holds no latch and the hash names its GPU. -/
def readFootprint : Footprint where
  worker := worker
  latch := if gpu.named then (s.latch worker gpu).map (gpu, ·) else none
  device := true
  file := gpu.named && !s.settled worker gpu
  redis := gpu.named || (s.fileLatch worker gpu).isSome || !(recordGpu (s.workerHash worker)).named

/-- An operation that writes a stored record again leaves the place alone that it has it from. -/
def keptFootprint (fromDevice : Bool) (r : Record) : Footprint where
  worker := worker
  latch := recordLatch r
  device := true
  file := fromDevice
  redis := true

/-- There is a latch file of the GPU. -/
def hasDevice : Bool := gpu.named && (s.gpuFiles.get (deviceLatchPath gpu)).isSome

def writeFootprint (physicalScope : Bool) (eventId : String) : Footprint :=
  let new : Option (Gpu × Generation) :=
    if physicalScope then some (gpu, .event (strip eventId)) else none
  match s.existingDurableRecord worker gpu with
  | .error _ => { worker := worker, latch := new, redis := true }
  | .ok existing =>
      match existing.filter (preserves worker gpu physicalScope) with
      | some r => keptFootprint worker (s.hasDevice gpu) r
      | none => { worker := worker, latch := new, device := true, file := true, redis := true }

/-- The latch file of a GPU holds the physical latch of a claim, and its page was not sent. -/
def claimable (input : Record) : Bool :=
  isPhysical input && (s.gpuFiles.get (deviceLatchPath (recordGpu input))).any fun r =>
    generation (normalizeDeviceRecord (recordGpu input) r) = generation input &&
      pageState r ≠ some "sent"

/-- The claim of a worker's exclusion writes the file of the worker as it was. -/
def claimFootprint (input : Record) : Footprint :=
  if s.claimable input then
    { worker := text input "worker_id", latch := recordLatch input, device := true, file := true }
  else { worker := text input "worker_id" }

def updateFootprint (scope : Scope) (expected : Generation) : Footprint :=
  match s.notified worker gpu scope with
  | .ok (some r) =>
      if r.get "scope" = some scope.text ∧ generation r = expected then
        keptFootprint worker (scope = .physicalGpu && s.hasDevice gpu) r
      else { worker := worker }
  | _ => { worker := worker }

end Store

/-- The footprint of an operation; a claim that is finished writes its record whatever the files hold. -/
def State.footprint (s : State) : Action → Footprint
  | .read worker gpu => s.store.readFootprint worker gpu
  | .write worker gpu _ physicalScope eventId _ =>
      s.store.writeFootprint worker gpu physicalScope eventId
  | .claim input _ _ => s.store.claimFootprint input
  | .finish path _ _ _ =>
      match s.held path with
      | some c =>
          { worker := c.workerId, latch := recordLatch c.record, device := true, file := true }
      | none => { worker := "" }
  | .update worker gpu scope expected _ _ _ => s.store.updateFootprint worker gpu scope expected
  | .release _ | .clear _ _ _ => { worker := "" }

/-! ### Publications follow the footprint -/

/-- A publication writes the latch of a footprint, to places that the footprint has, or writes a place
as it was. -/
structure Confined (s : Store) (q : Footprint) (p : Publication) : Prop where
  worker : p.worker = q.worker
  latch : ∀ named g, q.latch = some (named, g) →
    isPhysical p.record = true ∧ recordGpu p.record = named ∧ generation p.record = g
  device : p.files = true → deviceScoped p.record = true →
    q.device = true ∧ q.latch = some (recordGpu p.record, generation p.record)
  created : q.device = true → ∀ named g, q.latch = some (named, g) → named.named = true →
    p.files = true ∨ s.deviceLatch named = some g
  file : p.files = true →
    q.file = true ∧ (q.latch = none → text p.record "scope" = "worker_process") ∨
      ∀ gpu, carries gpu (aliasRecord p.worker p.record) = s.fileLatch p.worker gpu
  gpuHash : ∀ written, p.gpuHash = some written →
    q.redis = true ∧ written.named = true ∧ q.latch = some (written, generation p.record)
  workerHash : p.workerHash = true → q.redis = true ∨
    ∀ gpu, carries gpu ((s.workerHash p.worker).update (aliasRecord p.worker p.record)) =
      s.hashLatch p.worker gpu

variable {s t : State} {a : Action} {worker : WorkerId} {gpu : Gpu} {r r' : Record} {store : Store}
  {p : Publication} {q : Footprint} {g : Generation}

/-! ### The latch of a record -/

/-- The fields that decide about the generation of a physical latch, and about its GPU. -/
def latchKey (key : String) : Bool :=
  ["hostname", "device", "event_id", "created_at", "fault_class", "reason", "task_id"].contains key

theorem textOr_congr {key default : String} (h : text r key = text r' key) :
    textOr r key default = textOr r' key default := by
  rw [textOr, textOr, h]

theorem physicalGeneration_congr (h : ∀ key, latchKey key = true → text r key = text r' key) :
    physicalGeneration gpu r = physicalGeneration gpu r' := by
  rw [physicalGeneration, physicalGeneration, textOr_congr (h "hostname" (by decide)),
    textOr_congr (h "device" (by decide)), h "event_id" (by decide), h "created_at" (by decide),
    h "fault_class" (by decide), h "reason" (by decide), h "task_id" (by decide)]

theorem carries_congr (hscope : text r "scope" = "worker_process" ↔ text r' "scope" = "worker_process")
    (h : ∀ key, latchKey key = true → text r key = text r' key) : carries gpu r = carries gpu r' := by
  rw [carries, carries, physicalGeneration_congr h, textOr_congr (h "hostname" (by decide)),
    textOr_congr (h "device" (by decide))]
  simp only [ne_eq, hscope]

theorem latchKey_ne {key other : String} (h : latchKey key = true) (hother : latchKey other = false) :
    key ≠ other := by
  rintro rfl
  rw [h] at hother
  exact absurd hother (by simp)

theorem recordGpu_alias : recordGpu (aliasRecord worker r) = recordGpu r := by
  rw [recordGpu, alias_text worker r "hostname" (by decide) (by decide),
    alias_text worker r "device" (by decide) (by decide), recordGpu]

theorem carries_aliasRecord : carries gpu (aliasRecord worker r) = carries gpu r :=
  carries_congr (by rw [alias_text worker r "scope" (by decide) (by decide)]) fun key hkey =>
    alias_text worker r key (latchKey_ne hkey (by decide)) (latchKey_ne hkey (by decide))

theorem latchKey_page {key : String} (h : latchKey key = true) : isPageKey key = false := by
  simp only [latchKey, List.contains_eq_mem, List.mem_cons, List.not_mem_nil, or_false,
    decide_eq_true_eq] at h
  rcases h with rfl | rfl | rfl | rfl | rfl | rfl | rfl <;> decide

theorem SameEvent.carries (h : SameEvent r r') : carries gpu r = carries gpu r' :=
  carries_congr (by rw [h.text (by decide)]) fun _ hkey => h.text (latchKey_page hkey)

/-- A physical latch that names its GPU is of one generation wherever it is read. -/
theorem physicalGeneration_named (h : isPhysical r = true) (hnamed : (recordGpu r).named = true) :
    physicalGeneration gpu r = generation r := by
  obtain ⟨hhost, hdevice⟩ := Gpu.named_iff.mp hnamed
  have hscope : text r "scope" = "physical_gpu" := by
    rw [text, of_decide_eq_true h, Option.getD_some]
  have hname : ∀ key default, text r key ≠ "" → textOr r key default = text r key :=
    fun key default hne => if_neg hne
  simp only [physicalGeneration, generation, legacyIdentity, hscope, if_true,
    hname "hostname" gpu.hostname hhost, hname "device" gpu.device hdevice]

theorem deviceScoped_of_same (hsame : samePhysicalGpu gpu r = true) : deviceScoped r = true := by
  have hgpu : gpu.named = true := by
    simp only [samePhysicalGpu, Bool.and_eq_true] at hsame
    exact hsame.1.1.2
  rw [deviceScoped, isPhysical_of_same hsame, recordGpu_same hsame, hgpu]
  rfl

theorem get_of_text {key value : String} (hvalue : value ≠ "") (h : text r key = value) :
    r.get key = some value := by
  cases hget : r.get key with
  | none => exact absurd (by simpa [text, hget] using h.symm) hvalue
  | some v => simpa [text, hget] using h

theorem same_of_deviceScoped (hscoped : deviceScoped r = true) (hgpu : recordGpu r = gpu) :
    samePhysicalGpu gpu r = true := by
  rw [deviceScoped, Bool.and_eq_true, hgpu] at hscoped
  obtain ⟨hphysical, hnamed⟩ := hscoped
  obtain ⟨hhost, hdevice⟩ := Gpu.named_iff.mp hnamed
  have hhostname : r.get "hostname" = some gpu.hostname := get_of_text hhost (by rw [← hgpu]; rfl)
  have hdev : r.get "device" = some gpu.device := get_of_text hdevice (by rw [← hgpu]; rfl)
  simp [samePhysicalGpu, hphysical, hnamed, hhostname, hdev]

theorem deviceGeneration_same (h : samePhysicalGpu gpu r = true) :
    deviceGeneration gpu r = generation r := by
  have hscoped := deviceScoped_of_same h
  rw [deviceScoped, Bool.and_eq_true] at hscoped
  rw [deviceGeneration, ← physicalGeneration_named hscoped.1 hscoped.2]
  exact physicalGeneration_congr fun key _ => by rw [text, get_normalizeDevice h, text]

/-- Records of one generation under the key of a GPU are so under that of every other. -/
theorem deviceGeneration_congr {other : Gpu}
    (h : deviceGeneration gpu r = deviceGeneration gpu r') :
    deviceGeneration other r = deviceGeneration other r' := by
  rw [deviceGeneration_eq, deviceGeneration_eq] at h ⊢
  split_ifs at h ⊢ <;> simp_all

/-! ### Reads -/

namespace Store

/-- A read of a physical latch on a named GPU answers a record of that latch. -/
theorem strongest_latch (hgpu : gpu.named = true)
    (h : ((store.copies worker gpu).normalized worker gpu).strongest gpu = some r)
    (hlatch : store.latch worker gpu = some g) :
    samePhysicalGpu gpu r = true ∧ generation r = g := by
  rw [← generation_candidates, Copies.physical_ordered hgpu] at hlatch
  obtain ⟨first, hfirst, hgen⟩ := Option.map_eq_some_iff.mp hlatch
  have hphysical : (store.copies worker gpu).physicalCopies worker gpu ≠ [] := fun hnil => by
    rw [hnil] at hfirst
    exact absurd hfirst (by simp)
  obtain ⟨first', hfirst', hsame, -⟩ := Copies.strongest_physical hgpu h hphysical
  obtain rfl := Option.some.inj (hfirst'.symm.trans hfirst)
  rw [hsame.samePhysicalGpu, hsame.generation]
  exact ⟨Copies.same_of_physicalCopies hgpu (List.mem_of_mem_head? hfirst), hgen⟩

theorem strongest_exclusion (hgpu : gpu.named = true)
    (h : ((store.copies worker gpu).normalized worker gpu).strongest gpu = some r)
    (hlatch : store.latch worker gpu = none) : r.get "scope" = some "worker_process" := by
  rw [← generation_candidates, Copies.physical_ordered hgpu, Option.map_eq_none_iff,
    List.head?_eq_none_iff] at hlatch
  exact Copies.strongest_worker hgpu h hlatch

/-- The files are left alone when the latch file is settled, and only then. -/
theorem durableReady_iff (hgpu : gpu.named = true) (hphysical : isPhysical r = true)
    (hlatch : store.latch worker gpu = some (generation r)) :
    (store.copies worker gpu).durableReady worker gpu r = true ↔ store.settled worker gpu = true := by
  have hgen : ∀ d, store.gpuFiles.get (deviceLatchPath gpu) = some d →
      generation (normalizeReadRecord worker gpu (normalizeDeviceRecord gpu d)) = generation r := by
    intro d hd
    have hdevice : store.deviceLatch gpu = some (deviceGeneration gpu d) := by
      rw [deviceLatch, deviceCopy, if_pos hgpu, hd, Option.map_some]
    rw [latch, hdevice, Option.some_or, Option.some_or, Option.some.injEq] at hlatch
    rw [← hlatch, deviceGeneration]
    exact generation_normalizeReadRecord (by simp [text, normalizeDeviceRecord, Dict.get_set])
  rw [Copies.durableReady, if_pos hphysical, (Copies.normalized_device hgpu).1, settled]
  simp only [Copies.device, if_pos hgpu]
  change (((store.gpuFiles.get (deviceLatchPath gpu)).map _).any _ &&
    !((store.gpuFiles.get (deviceLatchPath gpu)).map _).any _) = true ↔
    ((store.gpuFiles.get (deviceLatchPath gpu)).map _).any _ = true
  cases hd : store.gpuFiles.get (deviceLatchPath gpu) with
  | none => simp
  | some d => simp [hgen d hd]

theorem deviceLatch_of_settled (hgpu : gpu.named = true) (h : store.settled worker gpu = true) :
    ∃ g, store.deviceLatch gpu = some g := by
  rw [settled, Copies.device, if_pos hgpu] at h
  cases hd : store.gpuFiles.get (deviceLatchPath gpu) with
  | none =>
      rw [hd] at h
      exact absurd h (by simp)
  | some d => exact ⟨deviceGeneration gpu d, by rw [deviceLatch, deviceCopy, if_pos hgpu, hd]; rfl⟩

end Store

/-! ### A read that names no GPU -/

theorem named_of_text (h : (recordGpu r).named = true) :
    text r "hostname" ≠ "" ∧ text r "device" ≠ "" := Gpu.named_iff.mp h

/-- A hash that is written with fields that it has, as the latch of its own GPU, stays the latch that it
is. -/
theorem carries_update (hscope : text r "scope" = "worker_process" ↔
      text (r.update r') "scope" = "worker_process")
    (h : ∀ key, latchKey key = true → r'.get key = none ∨ text r' key = text r key) :
    carries gpu (r.update r') = carries gpu r := by
  refine carries_congr hscope.symm fun key hkey => ?_
  rw [text, Dict.get_update]
  rcases h key hkey with hnone | hsame
  · rw [hnone, Option.none_or]
    rfl
  · cases hr' : r'.get key with
    | none =>
        rw [Option.none_or]
        rfl
    | some value =>
        rw [Option.some_or, ← hsame, text, hr']

theorem text_update_of_some {key value : String} (h : r'.get key = some value) :
    text (r.update r') key = value := by
  rw [text, Dict.get_update, h, Option.some_or, Option.getD_some]

namespace Store

theorem constrain_unnamed (hgpu : gpu.named = false) : constrainWorkerRecord gpu r = r := by
  rw [constrainWorkerRecord, if_pos (by simp [hgpu])]

theorem ordered_unnamed (store : Store) (worker : WorkerId) (hgpu : gpu.named = false) :
    ((store.copies worker gpu).normalized worker gpu).ordered gpu =
      [(store.workerFiles.get (workerLatchPath worker)).map (normalizeReadRecord worker gpu),
        (fetched (store.workerHash worker)).map (normalizeReadRecord worker gpu)].reduceOption := by
  have hconstrain : constrainWorkerRecord gpu = id := funext fun _ => constrain_unnamed hgpu
  rw [Sources.ordered, hconstrain, Option.map_id, Copies.normalized]
  simp only [Copies.device, hgpu, Bool.false_eq_true, if_false, Option.map_none, id_eq]
  rfl

theorem fileLatch_unnamed (hgpu : gpu.named = false) (h : store.fileLatch worker gpu = none)
    (hr : store.workerFiles.get (workerLatchPath worker) = some r) :
    text r "scope" = "worker_process" := by
  rw [fileLatch, hr, Option.bind_some, carries] at h
  by_contra hscope
  rw [if_pos ⟨hscope, by simp [hgpu]⟩] at h
  exact absurd h (by simp)

theorem fetched_of_named {hash : Record} (h : (recordGpu hash).named = true) :
    fetched hash = some hash := by
  refine if_neg fun hempty => (named_of_text h).1 ?_
  rw [text, (Dict.isEmpty_iff _).mp hempty "hostname", Option.getD_none]

/-- Of a worker fault in the file and another fault in the hash, the physical one is taken first. -/
theorem candidates_of_worker_file {sources : Sources} {file : Option Record} {n first : Record}
    (hlist : sources.ordered gpu = [file, some n].reduceOption) (hfile : ∀ copy ∈ file, isPhysical copy = false)
    (hfirst : (sources.candidates gpu).head? = some first) :
    if isPhysical n then first = n else first ∈ file ∨ first = n := by
  rw [Sources.candidates, hlist] at hfirst
  cases file with
  | none =>
      simp only [List.reduceOption, List.filterMap_cons, List.filterMap_nil, id_eq] at hfirst
      split_ifs with hn <;> simp_all
  | some copy =>
      have hcopy := hfile copy rfl
      simp only [List.reduceOption, List.filterMap_cons, List.filterMap_nil, id_eq] at hfirst
      split_ifs with hn <;> simp_all

/-- Where the file of the worker holds no latch, a read that names no GPU finds that of the hash. -/
theorem strongest_unnamed (hgpu : gpu.named = false) (hfile : store.fileLatch worker gpu = none)
    (hnamed : (recordGpu (store.workerHash worker)).named = true)
    (h : ((store.copies worker gpu).normalized worker gpu).strongest gpu = some r) :
    if text (store.workerHash worker) "scope" = "worker_process" then
      r.get "scope" = some "worker_process"
    else SameEvent r (normalizeReadRecord worker gpu (store.workerHash worker)) := by
  obtain ⟨first, hfirst, hsame, -⟩ := Sources.strongest_eq_some h
  have hlist := ordered_unnamed store worker hgpu
  rw [fetched_of_named hnamed, Option.map_some] at hlist
  have hscope : ∀ copy ∈ (store.workerFiles.get (workerLatchPath worker)).map (normalizeReadRecord worker gpu),
      copy.get "scope" = some "worker_process" := by
    intro copy hcopy
    obtain ⟨stored, hstored, rfl⟩ := Option.map_eq_some_iff.mp hcopy
    rw [scope_normalizeReadRecord, if_pos (fileLatch_unnamed hgpu hfile hstored)]
  have hworker : ∀ copy ∈ (store.workerFiles.get (workerLatchPath worker)).map (normalizeReadRecord worker gpu),
      isPhysical copy = false := by
    intro copy hcopy
    rw [isPhysical, hscope copy hcopy]
    decide
  have htaken := candidates_of_worker_file hlist hworker hfirst
  rw [isPhysical_normalizeReadRecord] at htaken
  split_ifs with hhash
  · rw [hsame "scope" (by decide)]
    have hphysical : ¬(!decide (text (store.workerHash worker) "scope" = "worker_process")) = true := by simp [hhash]
    rw [if_neg hphysical] at htaken
    rcases htaken with hcopy | rfl
    · exact hscope first hcopy
    · rw [scope_normalizeReadRecord, if_pos hhash]
  · have heq : first = normalizeReadRecord worker gpu (store.workerHash worker) := by
      simpa [hhash] using htaken
    rwa [← heq]

/-- Such a read writes the hash of the worker as it was. -/
theorem hash_kept (hgpu : gpu.named = false) (hfile : store.fileLatch worker gpu = none)
    (hnamed : (recordGpu (store.workerHash worker)).named = true)
    (h : ((store.copies worker gpu).normalized worker gpu).strongest gpu = some r)
    (hwritten : ∀ key, key ≠ "notification_provenance" → r'.get key = r.get key) (other : Gpu) :
    carries other ((store.workerHash worker).update (aliasRecord worker r')) =
      store.hashLatch worker other := by
  have hget : ∀ key, key ≠ "worker_id" → key ≠ "origin_worker_id" → key ≠ "notification_provenance" →
      (aliasRecord worker r').get key = r.get key := fun key hworker horigin hkey =>
    (alias_get hworker horigin).trans (hwritten key hkey)
  rw [hashLatch, fetched_of_named hnamed, Option.bind_some]
  have hread := strongest_unnamed hgpu hfile hnamed h
  split_ifs at hread with hscope
  · have hupdate : text ((store.workerHash worker).update (aliasRecord worker r')) "scope" =
        "worker_process" :=
      text_update_of_some ((hget "scope" (by decide) (by decide) (by decide)).trans hread)
    rw [carries, if_neg fun hboth => hboth.1 hupdate, carries, if_neg fun hboth => hboth.1 hscope]
  · refine carries_update ⟨fun heq => absurd heq hscope, fun heq => ?_⟩ fun key hkey => ?_
    · rw [text_update_of_some ((hget "scope" (by decide) (by decide) (by decide)).trans
        ((hread "scope" (by decide)).trans scope_normalizeReadRecord)), if_neg hscope] at heq
      exact absurd heq (by decide)
    · refine Or.inr ?_
      obtain ⟨hhost, hdevice⟩ := named_of_text hnamed
      rw [text, hget key (latchKey_ne hkey (by decide)) (latchKey_ne hkey (by decide))
        (latchKey_ne hkey (by decide)), hread key (latchKey_page hkey)]
      by_cases hhostname : key = "hostname"
      · rw [hhostname, hostname_normalizeReadRecord, textOr, if_neg hhost, Option.getD_some]
      by_cases hdevicename : key = "device"
      · rw [hdevicename, device_normalizeReadRecord, textOr, if_neg hdevice, Option.getD_some]
      rw [get_normalizeReadRecord, text]
      simp only [latchKey, List.contains_eq_mem, List.mem_cons, hhostname, hdevicename,
        List.not_mem_nil, or_false, false_or, decide_eq_true_eq] at hkey
      rcases hkey with rfl | rfl | rfl | rfl | rfl <;> decide

/-- What a read publishes. -/
theorem reading_eq_some (h : store.reading worker gpu = some p) :
    ∃ r, ((store.copies worker gpu).normalized worker gpu).strongest gpu = some r ∧
      p = readPublication worker gpu ((store.copies worker gpu).merged worker gpu r) := by
  unfold reading at h
  split at h
  · rename_i m hm
    obtain ⟨r, hr, rfl⟩ := Option.map_eq_some_iff.mp (readMerged_ok_iff.mp hm).2.symm
    exact ⟨r, hr, (Option.some.inj h).symm⟩
  · exact absurd h (by simp)

theorem readRecord_get {m : Merged} {key : String} (h : key ≠ "notification_provenance") :
    (readRecord gpu m).get key = m.record.get key := by
  rw [readRecord]
  split_ifs
  · rfl
  · exact Dict.get_set_of_ne _ h

theorem readRecord_named {m : Merged} (hgpu : gpu.named = true) : readRecord gpu m = m.record :=
  if_pos (by simp [hgpu])

section

variable (hr : ((store.copies worker gpu).normalized worker gpu).strongest gpu = some r)
include hr

theorem reading_unnamed (hgpu : gpu.named = false) :
    Confined store (store.readFootprint worker gpu)
      (readPublication worker gpu ((store.copies worker gpu).merged worker gpu r)) := by
  have hlatch : (store.readFootprint worker gpu).latch = none := if_neg (by simp [hgpu])
  have hfiles : (readPublication worker gpu
      ((store.copies worker gpu).merged worker gpu r)).files = false := by
    rw [readPublication, hgpu, Bool.and_false]
  have hgpuHash : (readPublication worker gpu
      ((store.copies worker gpu).merged worker gpu r)).gpuHash = none := if_neg (by simp [hgpu])
  exact
    { worker := rfl
      latch := fun _ _ hsome => absurd (hlatch.symm.trans hsome) (by simp)
      device := fun hyes => absurd (hfiles.symm.trans hyes) (by simp)
      created := fun _ _ _ hsome => absurd (hlatch.symm.trans hsome) (by simp)
      file := fun hyes => absurd (hfiles.symm.trans hyes) (by simp)
      gpuHash := fun _ hsome => absurd (hgpuHash.symm.trans hsome) (by simp)
      workerHash := fun _ => by
        by_cases hkept : store.fileLatch worker gpu = none ∧
            (recordGpu (store.workerHash worker)).named = true
        · exact Or.inr (hash_kept hgpu hkept.1 hkept.2 hr fun key hkey => readRecord_get hkey)
        · refine Or.inl ?_
          rw [readFootprint, hgpu]
          cases hfile : store.fileLatch worker gpu <;> simp_all }

theorem reading_exclusion (hgpu : gpu.named = true) (hlatch : store.latch worker gpu = none) :
    Confined store (store.readFootprint worker gpu)
      (readPublication worker gpu ((store.copies worker gpu).merged worker gpu r)) := by
  have hscope := strongest_exclusion hgpu hr hlatch
  have hphysical : isPhysical (readRecord gpu ((store.copies worker gpu).merged worker gpu r)) =
      false := by
    rw [readRecord_named hgpu, Copies.merged_record, isPhysical, hscope]
    decide
  have hfootprint : (store.readFootprint worker gpu).latch = none := by
    rw [readFootprint, hlatch, Option.map_none, ite_self]
  have hgpuHash : (readPublication worker gpu
      ((store.copies worker gpu).merged worker gpu r)).gpuHash = none := if_neg (by simp [hphysical])
  have hsettled : store.settled worker gpu = false := by
    by_contra hsettled
    rw [Bool.not_eq_false] at hsettled
    obtain ⟨g, hg⟩ := deviceLatch_of_settled hgpu hsettled
    rw [latch, hg] at hlatch
    exact absurd hlatch (by simp)
  exact
    { worker := rfl
      latch := fun _ _ hsome => absurd (hfootprint.symm.trans hsome) (by simp)
      device := fun _ hscoped => by
        rw [deviceScoped, Bool.and_eq_true] at hscoped
        exact absurd (hphysical.symm.trans hscoped.1) (by simp)
      created := fun _ _ _ hsome => absurd (hfootprint.symm.trans hsome) (by simp)
      file := fun _ => Or.inl ⟨by rw [readFootprint, hgpu, hsettled]; rfl, fun _ => by
        change text (readRecord gpu ((store.copies worker gpu).merged worker gpu r)) "scope" = _
        rw [readRecord_named hgpu, Copies.merged_record, text, hscope, Option.getD_some]⟩
      gpuHash := fun _ hsome => absurd (hgpuHash.symm.trans hsome) (by simp)
      workerHash := fun _ => Or.inl (by rw [readFootprint, hgpu]; rfl) }

theorem reading_latch (hgpu : gpu.named = true) (hlatch : store.latch worker gpu = some g) :
    Confined store (store.readFootprint worker gpu)
      (readPublication worker gpu ((store.copies worker gpu).merged worker gpu r)) := by
  obtain ⟨hsame, hgen⟩ := strongest_latch hgpu hr hlatch
  have hphysical := isPhysical_of_same hsame
  have hrecord : (readPublication worker gpu
      ((store.copies worker gpu).merged worker gpu r)).record = r := readRecord_named hgpu
  have hredis : (store.readFootprint worker gpu).redis = true := by
    rw [readFootprint, hgpu]
    rfl
  have hfootprint : (store.readFootprint worker gpu).latch = some (gpu, g) := by
    rw [readFootprint, if_pos hgpu, hlatch, Option.map_some]
  have hready := durableReady_iff hgpu hphysical (by rw [hgen]; exact hlatch)
  have hfiles : (readPublication worker gpu
      ((store.copies worker gpu).merged worker gpu r)).files = !store.settled worker gpu := by
    rw [readPublication, hgpu, Bool.and_true, ← Bool.eq_iff_iff.mpr hready]
    rfl
  exact
    { worker := rfl
      latch := fun named g' hsome => by
        obtain ⟨rfl, rfl⟩ := Prod.mk.inj (Option.some.inj (hfootprint.symm.trans hsome))
        rw [hrecord]
        exact ⟨hphysical, recordGpu_same hsame, hgen⟩
      device := fun _ _ => ⟨rfl, by rw [hrecord, recordGpu_same hsame, hgen, hfootprint]⟩
      created := fun _ named g' hsome _ => by
        obtain ⟨rfl, rfl⟩ := Prod.mk.inj (Option.some.inj (hfootprint.symm.trans hsome))
        cases hsettled : store.settled worker gpu with
        | false => exact Or.inl (hfiles.trans (by rw [hsettled]; rfl))
        | true =>
            obtain ⟨g', hg'⟩ := deviceLatch_of_settled hgpu hsettled
            rw [latch, hg', Option.some_or, Option.some_or] at hlatch
            exact Or.inr (hg'.trans hlatch)
      file := fun hyes => Or.inl ⟨by
        rw [readFootprint, hgpu, Bool.true_and]
        exact hfiles.symm.trans hyes, fun hnone => absurd (hfootprint.symm.trans hnone) (by simp)⟩
      gpuHash := fun written hsome => by
        obtain ⟨-, hwritten⟩ := Option.ite_none_right_eq_some.mp hsome
        obtain rfl := Option.some.inj hwritten
        rw [hrecord, hgen, hfootprint]
        exact ⟨hredis, hgpu, rfl⟩
      workerHash := fun _ => Or.inl hredis }

end

theorem reading_confined (h : store.reading worker gpu = some p) :
    Confined store (store.readFootprint worker gpu) p := by
  obtain ⟨r, hr, rfl⟩ := reading_eq_some h
  cases hgpu : gpu.named with
  | false => exact reading_unnamed hr hgpu
  | true =>
      cases hlatch : store.latch worker gpu with
      | none => exact reading_exclusion hr hgpu hlatch
      | some g => exact reading_latch hr hgpu hlatch

end Store

/-! ### Writes and notifications -/

theorem recordLatch_eq_some {named : Gpu} (h : recordLatch r = some (named, g)) :
    isPhysical r = true ∧ recordGpu r = named ∧ generation r = g := by
  obtain ⟨hphysical, h⟩ := Option.ite_none_right_eq_some.mp h
  exact ⟨hphysical, Prod.mk.inj (Option.some.inj h)⟩

theorem SameEvent.recordLatch (h : SameEvent r r') : recordLatch r = recordLatch r' := by
  rw [Quarantine.recordLatch, Quarantine.recordLatch, h.physical, h.recordGpu, h.generation]

/-- The records that operations keep: physical latches and exclusions of a worker. -/
def Scoped (r : Record) : Prop := isPhysical r = true ∨ r.get "scope" = some "worker_process"

theorem SameEvent.scoped (h : SameEvent r r') : Scoped r ↔ Scoped r' := by
  rw [Scoped, Scoped, h.physical, h "scope" (by decide)]

/-- A publication of a record follows the footprint that the record gives. -/
theorem confined_of_event (hevent : SameEvent p.record r) (hscope : Scoped r)
    (hworker : p.worker = q.worker) (hlatch : q.latch = recordLatch r) (hdevice : q.device = true)
    (hfiles : p.files = true)
    (hfile : q.file = true ∨ store.workerFiles.get (workerLatchPath p.worker) = some r)
    (hgpuHash : ∀ written, p.gpuHash = some written →
      q.redis = true ∧ deviceScoped p.record = true ∧ recordGpu p.record = written)
    (hworkerHash : p.workerHash = true → q.redis = true) : Confined store q p := by
  have hrecord : q.latch = recordLatch p.record := hlatch.trans hevent.recordLatch.symm
  have hscoped : deviceScoped p.record = true →
      q.latch = some (recordGpu p.record, generation p.record) := by
    intro hscoped
    rw [deviceScoped, Bool.and_eq_true] at hscoped
    rw [hrecord, recordLatch, if_pos hscoped.1]
  exact
    { worker := hworker
      latch := fun named g hsome => recordLatch_eq_some (hrecord.symm.trans hsome)
      device := fun _ hyes => ⟨hdevice, hscoped hyes⟩
      created := fun _ _ _ _ _ => Or.inl hfiles
      file := fun _ => by
        rcases hfile with hfile | hfile
        · refine Or.inl ⟨hfile, fun hnone => ?_⟩
          rcases hevent.scoped.mpr hscope with hphysical | hworker
          · rw [hrecord, recordLatch, if_pos hphysical] at hnone
            exact absurd hnone (by simp)
          · rw [text, hworker, Option.getD_some]
        · refine Or.inr fun gpu => ?_
          rw [carries_aliasRecord, hevent.carries, Store.fileLatch, hfile, Option.bind_some]
      gpuHash := fun written hwritten => by
        obtain ⟨hredis, hyes, rfl⟩ := hgpuHash written hwritten
        exact ⟨hredis, (Bool.and_eq_true_iff.mp hyes).2, hscoped hyes⟩
      workerHash := fun hyes => Or.inl (hworkerHash hyes) }

namespace Store

theorem everywhere_confined {fromDevice : Bool} (hevent : SameEvent r' r) (hscope : Scoped r)
    (hplace : fromDevice = true ∨ store.workerFiles.get (workerLatchPath worker) = some r) :
    Confined store (keptFootprint worker fromDevice r) (everywhere worker r') :=
  confined_of_event hevent hscope rfl rfl rfl rfl hplace (fun _ hwritten => by
    obtain ⟨hscoped, hwritten⟩ := Option.ite_none_right_eq_some.mp hwritten
    exact ⟨rfl, hscoped, Option.some.inj hwritten⟩) fun _ => rfl

/-- A record that is not in the latch file of the GPU is in that of the worker. -/
theorem existing_place (h : store.existingDurableRecord worker gpu = .ok (some r)) :
    store.hasDevice gpu = true ∨ store.workerFiles.get (workerLatchPath worker) = some r := by
  rcases existingDurableRecord_cases h with ⟨hgpu, d, hd, -⟩ | ⟨-, hfile⟩
  · exact Or.inl (by rw [hasDevice, hgpu, hd]; rfl)
  · exact Or.inr hfile

theorem preserves_scoped {physicalScope : Bool} (h : preserves worker gpu physicalScope r = true) :
    Scoped r := by
  simp only [preserves, Bool.or_eq_true, Bool.and_eq_true, decide_eq_true_eq] at h
  rcases h with ⟨hphysical, -⟩ | ⟨⟨⟨⟨-, hscope⟩, -⟩, -⟩, -⟩
  · exact Or.inl hphysical
  · exact Or.inr hscope

theorem recordLatch_new (fault : Fault) (physicalScope : Bool) {eventId : String} (now : String)
    (hevent : strip eventId ≠ "") :
    recordLatch (pendingPage (newQuarantineRecord worker gpu fault physicalScope eventId now)) =
      if physicalScope then some (gpu, .event (strip eventId)) else none := by
  rw [recordLatch, new_physical, new_generation worker gpu fault physicalScope now hevent]
  rfl

theorem scoped_new (worker : WorkerId) (gpu : Gpu) (fault : Fault) (physicalScope : Bool) (eventId now : String) :
    Scoped (pendingPage (newQuarantineRecord worker gpu fault physicalScope eventId now)) := by
  cases physicalScope
  · exact Or.inr rfl
  · exact Or.inl rfl

/-- A write that finds a latch file unreadable leaves the files alone. -/
theorem writing_unreadable (fault : Fault) (physicalScope : Bool) {eventId : String} (now : String)
    (hevent : strip eventId ≠ "") {e : LatchError}
    (h : store.existingDurableRecord worker gpu = .error e) : Confined store
      (store.writeFootprint worker gpu physicalScope eventId)
      (store.writing worker gpu fault physicalScope eventId now) := by
  have hrecord : recordLatch (unlatched ((newQuarantineRecord worker gpu fault physicalScope eventId
      now).set "page_user_state" "pending")) =
      if physicalScope then some (gpu, .event (strip eventId)) else none := by
    have hgen : generation (unlatched ((newQuarantineRecord worker gpu fault physicalScope eventId
        now).set "page_user_state" "pending")) = .event (strip eventId) := if_pos hevent
    rw [recordLatch, hgen]
    cases physicalScope <;> rfl
  simp only [writeFootprint, writing, h]
  exact
    { worker := rfl
      latch := fun named g hsome => recordLatch_eq_some (hrecord.trans hsome)
      device := fun hfiles => absurd hfiles (by simp)
      created := fun hdevice => absurd hdevice (by simp)
      file := fun hfiles => absurd hfiles (by simp)
      gpuHash := fun written hwritten => by
        obtain ⟨hscoped, hwritten⟩ := Option.ite_none_right_eq_some.mp hwritten
        obtain rfl := Option.some.inj hwritten
        rw [deviceScoped, Bool.and_eq_true] at hscoped
        refine ⟨rfl, hscoped.2, ?_⟩
        rw [← hrecord, recordLatch, if_pos hscoped.1]
        rfl
      workerHash := fun _ => Or.inl rfl }

theorem writing_confined (fault : Fault) (physicalScope : Bool) {eventId : String} (now : String)
    (hevent : strip eventId ≠ "") : Confined store
      (store.writeFootprint worker gpu physicalScope eventId)
      (store.writing worker gpu fault physicalScope eventId now) := by
  cases hexisting : store.existingDurableRecord worker gpu with
  | error e => exact writing_unreadable fault physicalScope now hevent hexisting
  | ok existing =>
      rw [writing_ok fault physicalScope eventId now hexisting]
      simp only [writeFootprint, hexisting]
      cases hkept : existing.filter (preserves worker gpu physicalScope) with
      | some r =>
          obtain ⟨rfl, hpreserved⟩ := Option.filter_eq_some_iff.mp hkept
          exact everywhere_confined (sameEvent_pendingPage r) (preserves_scoped hpreserved)
            (existing_place hexisting)
      | none =>
          have hconfined : Confined store (keptFootprint worker true _) (everywhere worker _) :=
            everywhere_confined (SameEvent.refl _) (scoped_new worker gpu fault physicalScope eventId now)
              (Or.inl rfl)
          rw [keptFootprint, recordLatch_new fault physicalScope now hevent] at hconfined
          exact hconfined

/-- A claim that sends is about the latch file of its GPU, or about the exclusion of its worker. -/
theorem claiming_eq_some {input : Record} {pid now : String}
    (h : store.claiming input pid now = some p) :
    ∃ current, p = { worker := text input "worker_id", record := sending pid now current } ∧
      pageState current ≠ some "sent" ∧ generation current = generation input ∧
      ((isPhysical input = true ∧ ∃ d, store.gpuFiles.get (deviceLatchPath (recordGpu input)) = some d ∧
          current = normalizeDeviceRecord (recordGpu input) d) ∨
        (isPhysical input = false ∧ current.get "scope" = input.get "scope" ∧
          store.workerFiles.get (workerLatchPath (text input "worker_id")) = some current)) := by
  obtain ⟨result, hresult, hp⟩ := Option.bind_eq_some_iff.mp h
  obtain ⟨hsend, hp⟩ := Option.ite_none_right_eq_some.mp hp
  obtain ⟨durableWorker, durableDevice, hworker, hdevice, rfl⟩ := acquireClaim_eq_some hresult
  rcases claimLatch_cases input pid now durableWorker
    (durableDevice.map (normalizeDeviceRecord (recordGpu input))) with
    ⟨c, hclaim, hno⟩ | ⟨current, hcurrent, -, hgen, hunsent, hclaim⟩
  · rw [hclaim, hno] at hsend
    exact absurd hsend (by simp)
  · rw [hclaim, Option.some.injEq] at hp
    refine ⟨current, hp.symm, hunsent, hgen, ?_⟩
    rw [claimedLatch] at hcurrent
    split_ifs at hcurrent with hphysical
    · obtain ⟨d, rfl, rfl⟩ := Option.map_eq_some_iff.mp hcurrent
      exact Or.inl ⟨hphysical, d, (readJson_ok_iff.mp hdevice).1.symm, rfl⟩
    · obtain ⟨rfl, hscope⟩ := Option.filter_eq_some_iff.mp hcurrent
      exact Or.inr ⟨by simpa using hphysical, of_decide_eq_true hscope,
        (readJson_ok_iff.mp hworker).1.symm⟩

theorem claiming_confined {input : Record} {pid now : String} (hscope : claimableScope input = true)
    (hnamed : (recordGpu input).named = true) (h : store.claiming input pid now = some p) :
    Confined store (store.claimFootprint input) p := by
  obtain ⟨current, rfl, hunsent, hgen, hplace⟩ := claiming_eq_some h
  rcases hplace with ⟨hphysical, d, hd, rfl⟩ | ⟨hphysical, hworker, hfile⟩
  · have hclaimable : store.claimable input = true := by
      rw [claimable, hphysical, hd, Option.any_some, hgen, Bool.true_and, Bool.and_eq_true]
      refine ⟨decide_eq_true rfl, decide_eq_true fun hsent => hunsent ?_⟩
      rw [pageState, normalizeDeviceRecord, Dict.get_set_of_ne _ (by decide),
        Dict.get_set_of_ne _ (by decide), Dict.get_set_of_ne _ (by decide)]
      exact hsent
    have hsame := samePhysicalGpu_normalizeDevice (r := d) hnamed
    rw [claimFootprint, if_pos hclaimable]
    refine confined_of_event (sameEvent_sending pid now) (Or.inl (isPhysical_of_same hsame)) rfl ?_ rfl
      rfl (Or.inl rfl) (fun _ hnone => absurd hnone (by simp)) (fun hno => absurd hno (by simp))
    rw [recordLatch, if_pos hphysical, recordLatch, if_pos (isPhysical_of_same hsame),
      recordGpu_same hsame, hgen]
  · have hexclusion : current.get "scope" = some "worker_process" := by
      rw [hworker]
      simpa [claimableScope, hphysical] using hscope
    have hevent := sameEvent_sending (r := current) pid now
    have hnot : isPhysical (sending pid now current) = false := by
      rw [hevent.physical, isPhysical, hexclusion]
      decide
    have hclaimable : store.claimable input = false := by
      rw [claimable, hphysical, Bool.false_and]
    rw [claimFootprint, if_neg (by simp [hclaimable])]
    exact
      { worker := rfl
        latch := fun _ _ hnone => absurd hnone (by simp)
        device := fun _ hscoped => by
          rw [deviceScoped, hnot] at hscoped
          exact absurd hscoped (by simp)
        created := fun hno => absurd hno (by simp)
        file := fun _ => Or.inr fun gpu => by
          rw [carries_aliasRecord, hevent.carries, fileLatch, hfile, Option.bind_some]
        gpuHash := fun _ hnone => absurd hnone (by simp)
        workerHash := fun hno => absurd hno (by simp) }

theorem updatedRecord_confined {scope : Scope} {expected : Generation} {outcome : PageOutcome}
    {error now : String}
    (h : store.updatedRecord worker gpu scope expected outcome error now = some r) :
    Confined store (store.updateFootprint worker gpu scope expected) (everywhere worker r) := by
  rw [updatedRecord] at h
  split at h
  · rename_i old hold
    obtain ⟨hboth, h⟩ := Option.ite_none_right_eq_some.mp h
    have hevent : SameEvent r old := by
      rw [← Option.some.inj h]
      split_ifs
      · exact sameEvent_delivered outcome error now
      · exact SameEvent.refl old
    simp only [updateFootprint, hold, if_pos hboth]
    cases scope with
    | workerProcess =>
        exact everywhere_confined hevent (Or.inr hboth.1)
          (Or.inr (readJson_ok_iff.mp hold).1.symm)
    | physicalGpu =>
        refine everywhere_confined hevent (Or.inl (decide_eq_true hboth.1)) ?_
        rw [decide_eq_true rfl, Bool.true_and]
        exact existing_place hold
  · exact absurd h (by simp)

end Store

/-- The claims that may still be finished hold a record that operations keep. -/
def State.claimsScoped (s : State) : Prop :=
  ∀ path c, s.held path = some c → c.shouldSend = true → Scoped c.record

theorem Store.acquireClaim_scoped {input : Record} {pid now : String} {result : Store × Claim}
    (hscope : claimableScope input = true) (hnamed : (recordGpu input).named = true)
    (h : store.acquireClaim input pid now = some result) (hsend : result.2.shouldSend = true) :
    Scoped result.2.record := by
  have hp : store.claiming input pid now =
      some { worker := result.2.workerId, record := result.2.record } := by
    rw [Store.claiming, h, Option.bind_some, if_pos hsend]
  obtain ⟨current, heq, -, -, hplace⟩ := Store.claiming_eq_some hp
  rw [(Publication.mk.inj heq).2.1, (sameEvent_sending pid now).scoped]
  rcases hplace with ⟨-, d, -, rfl⟩ | ⟨hphysical, hworker, -⟩
  · exact Or.inl (isPhysical_of_same (samePhysicalGpu_normalizeDevice hnamed))
  · refine Or.inr (hworker.trans ?_)
    simpa [claimableScope, hphysical] using hscope

theorem step_claimsScoped (hinv : s.claimsScoped) (h : step s a = some t) : t.claimsScoped :=
  step_claims (P := Scoped) Store.acquireClaim_scoped
    (fun hrecord => (sameEvent_outcome _ _ _ _).scoped.mpr hrecord) hinv h

/-- What a step publishes follows the footprint of its operation. -/
theorem publication_confined (hinv : s.claimsScoped) (h : step s a = some t)
    (hp : s.publication a = some p) : Confined s.store (s.footprint a) p := by
  cases a with
  | read worker gpu => exact Store.reading_confined hp
  | write worker gpu fault physicalScope eventId now =>
      obtain ⟨⟨-, hevent, -⟩, -⟩ := step_write.mp h
      rw [← Option.some.inj hp]
      exact Store.writing_confined fault physicalScope now hevent
  | claim input pid now =>
      obtain ⟨⟨hscope, hnamed, -⟩, -⟩ := step_claim.mp h
      exact Store.claiming_confined hscope hnamed hp
  | finish path sent error now =>
      obtain ⟨c, hc, ⟨hsend, -⟩, -⟩ := step_finish.mp h
      rw [State.publication, hc, Option.map_some] at hp
      rw [State.footprint, hc, ← Option.some.inj hp]
      exact confined_of_event (sameEvent_outcome c sent error now) (hinv path c hc hsend) rfl rfl rfl rfl
        (Or.inl rfl) (fun _ hnone => absurd hnone (by simp)) fun hno => absurd hno (by simp)
  | update worker gpu scope expected outcome error now =>
      obtain ⟨r, hr, rfl⟩ := Option.map_eq_some_iff.mp hp
      exact Store.updatedRecord_confined hr
  | release path => exact absurd hp (by simp [State.publication])
  | clear worker gpu seen => exact absurd hp (by simp [State.publication])

end KernelGym.Quarantine
