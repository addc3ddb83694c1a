import KernelGym.QuarantineMerge
import KernelGym.QuarantineStore

/-! The physical latch that a worker reads on a GPU, as a function of the four copies: the first of
them that is a latch of the GPU decides its generation. -/

namespace KernelGym.Quarantine

open Library

/-- The generation under which a record that is not a worker's exclusion is read on a GPU. -/
def physicalGeneration (gpu : Gpu) (r : Record) : Generation :=
  if strip (text r "event_id") ≠ "" then .event (strip (text r "event_id"))
  else if strip (text r "created_at") ≠ "" then .created (strip (text r "created_at"))
  else .legacy
    { scope := "physical_gpu"
      hostname := textOr r "hostname" gpu.hostname
      device := textOr r "device" gpu.device
      workerId := ""
      faultClass := text r "fault_class"
      reason := text r "reason"
      taskId := text r "task_id" }

/-- The generation of the latch that a copy of a worker is on a GPU, if it is one there. -/
def carries (gpu : Gpu) (r : Record) : Option Generation :=
  if text r "scope" ≠ "worker_process" ∧
      (gpu.named = true → textOr r "hostname" gpu.hostname = gpu.hostname ∧
        textOr r "device" gpu.device = gpu.device) then
    some (physicalGeneration gpu r)
  else none

/-- The generation of the latch that a copy under the key of a GPU is. -/
def deviceGeneration (gpu : Gpu) (r : Record) : Generation :=
  physicalGeneration gpu (normalizeDeviceRecord gpu r)

namespace Store

variable (s : Store)

def deviceCopy (gpu : Gpu) (copy : Option Record) : Option Generation :=
  if gpu.named then copy.map (deviceGeneration gpu) else none

def deviceLatch (gpu : Gpu) : Option Generation :=
  deviceCopy gpu (s.gpuFiles.get (deviceLatchPath gpu))

def fileLatch (worker : WorkerId) (gpu : Gpu) : Option Generation :=
  (s.workerFiles.get (workerLatchPath worker)).bind (carries gpu)

def hashLatch (worker : WorkerId) (gpu : Gpu) : Option Generation :=
  (fetched (s.workerHash worker)).bind (carries gpu)

def deviceHashLatch (gpu : Gpu) : Option Generation := deviceCopy gpu (fetched (s.gpuHash gpu))

/-- The generation of the physical latch that `worker` reads on `gpu`. -/
def latch (worker : WorkerId) (gpu : Gpu) : Option Generation :=
  ((s.deviceLatch gpu).or (s.fileLatch worker gpu)).or
    ((s.deviceHashLatch gpu).or (s.hashLatch worker gpu))

/-- The files that a read opens hold latches. -/
def readable (worker : WorkerId) (gpu : Gpu) : Prop :=
  (gpu.named = true → ∀ r, s.gpuFiles.get (deviceLatchPath gpu) = some r →
    r.get "state" = some "quarantined") ∧
  ∀ r, s.workerFiles.get (workerLatchPath worker) = some r → r.get "state" = some "quarantined"

/-- A read by `worker` on `gpu` returns a physical latch of generation `g`. -/
def reads (worker : WorkerId) (gpu : Gpu) (g : Generation) : Prop :=
  ∃ m, s.readMerged worker gpu = .ok (some m) ∧ isPhysical m.record = true ∧
    generation m.record = g

end Store

variable {worker : WorkerId} {gpu : Gpu} {r : Record} {copies : Copies} {s : Store} {g : Generation}

theorem text_normalizeReadRecord (key : String) (h : normalizedKey key = false) :
    text (normalizeReadRecord worker gpu r) key = text r key := by
  rw [text, get_normalizeReadRecord h, text]

theorem generation_normalizeReadRecord (h : text r "scope" ≠ "worker_process") :
    generation (normalizeReadRecord worker gpu r) = physicalGeneration gpu r := by
  have hscope : text (normalizeReadRecord worker gpu r) "scope" = "physical_gpu" := by
    rw [text, scope_normalizeReadRecord, if_neg h, Option.getD_some]
  have hhost : text (normalizeReadRecord worker gpu r) "hostname" =
      textOr r "hostname" gpu.hostname := by
    rw [text, hostname_normalizeReadRecord, Option.getD_some]
  have hdevice : text (normalizeReadRecord worker gpu r) "device" =
      textOr r "device" gpu.device := by
    rw [text, device_normalizeReadRecord, Option.getD_some]
  simp only [generation, physicalGeneration, legacyIdentity, hscope, if_true, hhost, hdevice,
    text_normalizeReadRecord "event_id" (by decide),
    text_normalizeReadRecord "created_at" (by decide),
    text_normalizeReadRecord "fault_class" (by decide),
    text_normalizeReadRecord "reason" (by decide), text_normalizeReadRecord "task_id" (by decide)]

/-- A worker copy is a physical candidate of the merge exactly when it carries a latch of the GPU. -/
theorem isPhysical_constrain_iff :
    isPhysical (constrainWorkerRecord gpu (normalizeReadRecord worker gpu r)) = true ↔
      text r "scope" ≠ "worker_process" ∧
        (gpu.named = true → textOr r "hostname" gpu.hostname = gpu.hostname ∧
          textOr r "device" gpu.device = gpu.device) := by
  cases hgpu : gpu.named with
  | true =>
      rw [isPhysical_constrain hgpu, samePhysicalGpu, isPhysical_normalizeReadRecord, hgpu,
        hostname_normalizeReadRecord, device_normalizeReadRecord]
      simp [and_assoc]
  | false =>
      rw [constrainWorkerRecord, if_pos (by simp [hgpu]), isPhysical_normalizeReadRecord]
      simp

theorem constrain_of_physical {n : Record} (h : isPhysical (constrainWorkerRecord gpu n) = true) :
    constrainWorkerRecord gpu n = n := by
  unfold constrainWorkerRecord at h ⊢
  split_ifs at h ⊢ with hkeep
  · rfl
  · rw [isPhysical, Dict.get_set_of_ne _ (by decide), get_withoutPage (by decide),
      Dict.get_set_self] at h
    exact absurd h (by decide)

theorem generation_alias (copy : Option Record) :
    (((copy.map (normalizeReadRecord worker gpu)).map (constrainWorkerRecord gpu)).filter
      isPhysical).map generation = copy.bind (carries gpu) := by
  cases copy with
  | none => rfl
  | some r =>
      simp only [Option.map_some, Option.filter_some, Option.bind_some, carries]
      by_cases hphysical :
          isPhysical (constrainWorkerRecord gpu (normalizeReadRecord worker gpu r)) = true
      · have hread := isPhysical_constrain_iff.mp hphysical
        rw [if_pos hphysical, if_pos hread, Option.map_some, constrain_of_physical hphysical,
          generation_normalizeReadRecord hread.1]
      · rw [if_neg hphysical, if_neg (mt isPhysical_constrain_iff.mpr hphysical), Option.map_none]

theorem map_generation_filter {n : Record} (h : isPhysical n = true) :
    ((some n).filter isPhysical).map generation = some (generation n) := by
  rw [Option.filter_some, if_pos h, Option.map_some]

theorem generation_device (copy : Option Record) :
    (((Copies.device gpu copy).map (normalizeReadRecord worker gpu)).filter isPhysical).map
      generation = Store.deviceCopy gpu copy := by
  unfold Copies.device Store.deviceCopy
  split_ifs with hgpu
  · cases copy with
    | none => simp only [Option.map_none, Option.filter_none]
    | some r =>
        have hscope : text (normalizeDeviceRecord gpu r) "scope" ≠ "worker_process" := by
          simp [text, normalizeDeviceRecord, Dict.get_set]
        rw [Option.map_some, Option.map_some, Option.map_some, deviceGeneration,
          map_generation_filter (isPhysical_of_same (samePhysicalGpu_device hgpu)),
          generation_normalizeReadRecord hscope]
  · rw [Option.map_none, Option.filter_none, Option.map_none]

theorem head?_reduceOption {α : Type} (a b c d : Option α) :
    [a, b, c, d].reduceOption.head? = (a.or b).or (c.or d) := by
  cases a <;> cases b <;> cases c <;> cases d <;> rfl

/-- The first physical candidate of a merge has the generation of the latch. -/
theorem generation_candidates : ((((s.copies worker gpu).normalized worker gpu).ordered gpu).filter
    isPhysical).head?.map generation = s.latch worker gpu := by
  rw [Sources.ordered, filter_reduceOption]
  simp only [List.map_cons, List.map_nil, Copies.normalized]
  rw [head?_reduceOption, Option.map_or, Option.map_or, Option.map_or, generation_device,
    generation_device, generation_alias, generation_alias]
  rfl

theorem strongest_isPhysical {sources : Sources} {m : Record} (h : sources.strongest gpu = some m) :
    isPhysical m = true ↔ (sources.ordered gpu).filter isPhysical ≠ [] := by
  obtain ⟨first, hhead, hsame, -⟩ := Sources.strongest_eq_some h
  have hscope : isPhysical m = isPhysical first := by
    rw [isPhysical, isPhysical, hsame "scope" (by decide)]
  rw [hscope]
  unfold Sources.candidates at hhead
  split_ifs at hhead with hnil
  · rw [List.isEmpty_iff] at hnil
    refine ⟨fun hphysical => ?_, fun hne => absurd hnil hne⟩
    exact List.ne_nil_of_mem (List.mem_filter.mpr ⟨List.mem_of_mem_head? hhead, hphysical⟩)
  · rw [List.isEmpty_iff] at hnil
    exact ⟨fun _ => hnil, fun _ => (List.mem_filter.mp (List.mem_of_mem_head? hhead)).2⟩

theorem readJson_ok_iff {file o : Option Record} : readJson file = .ok o ↔
    o = file ∧ ∀ r, file = some r → r.get "state" = some "quarantined" := by
  cases file with
  | none => simp [readJson, eq_comm]
  | some r =>
      rw [readJson]
      split_ifs with hstate
      · simp [hstate, eq_comm]
      · simp [hstate]

theorem readMerged_ok_iff {o : Option Merged} : s.readMerged worker gpu = .ok o ↔
    s.readable worker gpu ∧ o = (((s.copies worker gpu).normalized worker gpu).strongest gpu).map
      ((s.copies worker gpu).merged worker gpu) := by
  have hdevice : (∀ r, (if gpu.named = true then (s.copies worker gpu).durableDevice else none) =
      some r → r.get "state" = some "quarantined") ↔ (gpu.named = true →
        ∀ r, s.gpuFiles.get (deviceLatchPath gpu) = some r → r.get "state" = some "quarantined") := by
    cases gpu.named <;> simp [Store.copies]
  rw [Store.readMerged, Copies.readMerged, Store.readable, ← hdevice]
  cases hread : readJson (if gpu.named = true then (s.copies worker gpu).durableDevice else none) with
  | error e =>
      have hno : ¬∀ r, (if gpu.named = true then (s.copies worker gpu).durableDevice else none) =
          some r → r.get "state" = some "quarantined" := fun h => by
        rw [readJson_ok_iff.mpr ⟨rfl, h⟩] at hread
        exact absurd hread (by simp)
      exact ⟨fun h => absurd h (by simp [bind, Except.bind]), fun h => absurd h.1.1 hno⟩
  | ok device =>
      cases hfile : readJson (s.copies worker gpu).durableWorker with
      | error e =>
          have hno : ¬∀ r, s.workerFiles.get (workerLatchPath worker) = some r →
              r.get "state" = some "quarantined" := fun h => by
            have hok : readJson (s.copies worker gpu).durableWorker =
                .ok (s.copies worker gpu).durableWorker := readJson_ok_iff.mpr ⟨rfl, h⟩
            rw [hok] at hfile
            exact absurd hfile (by simp)
          exact ⟨fun h => absurd h (by simp [bind, Except.bind]), fun h => absurd h.1.2 hno⟩
      | ok file =>
          have hyes := (readJson_ok_iff.mp hread).2
          have hyes' : ∀ r, s.workerFiles.get (workerLatchPath worker) = some r →
              r.get "state" = some "quarantined" := (readJson_ok_iff.mp hfile).2
          simp only [bind, Except.bind, pure, Except.pure, Except.ok.injEq]
          exact ⟨fun h => ⟨⟨hyes, hyes'⟩, h.symm⟩, fun h => h.2.symm⟩

/-- A read returns a physical latch exactly when its files are readable and some copy is one; the
first such copy gives the generation. -/
theorem Store.reads_iff : s.reads worker gpu g ↔
    s.readable worker gpu ∧ s.latch worker gpu = some g := by
  rw [← generation_candidates]
  have hkey : s.readable worker gpu → (s.reads worker gpu g ↔
      ((((s.copies worker gpu).normalized worker gpu).ordered gpu).filter
        isPhysical).head?.map generation = some g) := by
    intro hread
    rw [Store.reads, readMerged_ok_iff.mpr ⟨hread, rfl⟩]
    cases hstrongest : ((s.copies worker gpu).normalized worker gpu).strongest gpu with
    | none =>
        rw [Sources.strongest_eq_none.mp hstrongest]
        simp
    | some m =>
        obtain ⟨first, hhead, hsame, -⟩ := Sources.strongest_eq_some hstrongest
        have hphysical := strongest_isPhysical hstrongest
        rw [Sources.candidates] at hhead
        by_cases hnil : (((s.copies worker gpu).normalized worker gpu).ordered gpu).filter
            isPhysical = []
        · rw [hnil]
          simp only [Option.map_some, Except.ok.injEq, Option.some.injEq, exists_eq_left',
            Copies.merged_record, hphysical, hnil, ne_eq, not_true_eq_false, false_and,
            List.head?_nil, Option.map_none, reduceCtorEq]
        · rw [if_neg (by simpa using hnil)] at hhead
          rw [hhead]
          simp only [Option.map_some, Except.ok.injEq, Option.some.injEq, exists_eq_left',
            Copies.merged_record, hphysical, ne_eq, hnil, not_false_eq_true, true_and,
            hsame.generation]
  constructor
  · intro h
    have hread := (readMerged_ok_iff.mp h.choose_spec.1).1
    exact ⟨hread, (hkey hread).mp h⟩
  · rintro ⟨hread, hlatch⟩
    exact (hkey hread).mpr hlatch

/-! ### Hashes that are written -/

theorem textOr_of_get {key value fallback : String} (h : r.get key = some value) :
    textOr r key fallback = if value = "" then fallback else value := by
  rw [textOr, text, h, Option.getD_some]

/-- The generation of a hash of the GPU, written out. -/
theorem deviceGeneration_eq (r : Record) : deviceGeneration gpu r =
    if strip (text r "event_id") ≠ "" then .event (strip (text r "event_id"))
    else if strip (text r "created_at") ≠ "" then .created (strip (text r "created_at"))
    else .legacy
      { scope := "physical_gpu", hostname := gpu.hostname, device := gpu.device, workerId := ""
        faultClass := text r "fault_class", reason := text r "reason", taskId := text r "task_id" } := by
  have htext : ∀ key, key ≠ "scope" → key ≠ "hostname" → key ≠ "device" →
      text (normalizeDeviceRecord gpu r) key = text r key := by
    intro key hscope hhost hdevice
    rw [text, normalizeDeviceRecord, Dict.get_set_of_ne _ hdevice, Dict.get_set_of_ne _ hhost,
      Dict.get_set_of_ne _ hscope, text]
  have hhost : textOr (normalizeDeviceRecord gpu r) "hostname" gpu.hostname = gpu.hostname := by
    have hget : (normalizeDeviceRecord gpu r).get "hostname" = some gpu.hostname := by
      simp [normalizeDeviceRecord, Dict.get_set]
    rw [textOr_of_get hget, ite_self]
  have hdevice : textOr (normalizeDeviceRecord gpu r) "device" gpu.device = gpu.device := by
    have hget : (normalizeDeviceRecord gpu r).get "device" = some gpu.device := by
      simp [normalizeDeviceRecord]
    rw [textOr_of_get hget, ite_self]
  rw [deviceGeneration, physicalGeneration, hhost, hdevice, htext _ (by decide) (by decide) (by decide),
    htext _ (by decide) (by decide) (by decide), htext _ (by decide) (by decide) (by decide),
    htext _ (by decide) (by decide) (by decide), htext _ (by decide) (by decide) (by decide)]

theorem text_update (x r : Record) (key : String) :
    text (x.update r) key = if (r.get key).isSome then text r key else text x key := by
  rw [text, Dict.get_update]
  cases hr : r.get key <;> simp [text, hr]

theorem text_update_of_eq {x : Record} {key : String} (h : text x key = text r key) :
    text (x.update r) key = text r key := by
  rw [text_update, h, ite_self]

theorem text_update_of_ne (x : Record) {key : String} (h : text r key ≠ "") : text (x.update r) key = text r key := by
  rw [text_update, if_pos]
  by_contra hnone
  rw [Bool.not_eq_true, Option.isSome_eq_false_iff, Option.isNone_iff_eq_none] at hnone
  exact h (by rw [text, hnone, Option.getD_none])

theorem strip_ne_empty {value : String} (h : strip value ≠ "") : value ≠ "" := by
  rintro rfl
  exact h (by decide)

/-- An update of a hash of the GPU with a latch of its generation keeps the generation. -/
theorem deviceGeneration_update {x : Record} (h : deviceGeneration gpu x = deviceGeneration gpu r) :
    deviceGeneration gpu (x.update r) = deviceGeneration gpu r := by
  rw [deviceGeneration_eq x, deviceGeneration_eq r] at h
  rw [deviceGeneration_eq (x.update r), deviceGeneration_eq r]
  by_cases hevent : strip (text r "event_id") ≠ ""
  · rw [text_update_of_ne x (strip_ne_empty hevent)]
    simp only [if_pos hevent]
  · have hxevent : ¬strip (text x "event_id") ≠ "" := by
      intro hx
      rw [if_pos hx, if_neg hevent] at h
      split_ifs at h
    have hboth : ¬strip (text (x.update r) "event_id") ≠ "" := by
      rw [text_update]
      split_ifs
      · exact hevent
      · exact hxevent
    rw [if_neg hboth, if_neg hevent]
    rw [if_neg hxevent, if_neg hevent] at h
    by_cases hcreated : strip (text r "created_at") ≠ ""
    · rw [text_update_of_ne x (strip_ne_empty hcreated)]
      simp only [if_pos hcreated]
    · have hxcreated : ¬strip (text x "created_at") ≠ "" := by
        intro hx
        rw [if_pos hx, if_neg hcreated] at h
        cases h
      have hboth : ¬strip (text (x.update r) "created_at") ≠ "" := by
        rw [text_update]
        split_ifs
        · exact hcreated
        · exact hxcreated
      rw [if_neg hxcreated, if_neg hcreated] at h
      simp only [Generation.legacy.injEq, LegacyIdentity.mk.injEq, true_and] at h
      rw [if_neg hboth, if_neg hcreated, text_update_of_eq h.1, text_update_of_eq h.2.1,
        text_update_of_eq h.2.2]

end KernelGym.Quarantine
