import KernelGym.QuarantineFootprint

/-! Reads, writes and notifications keep a physical latch unless it rests on copies that they replace
by something else. A worker's alias may be the only copy of a latch; a read on another GPU of its host
replaces it. -/

namespace KernelGym.Quarantine

open Library

/-! ### What a publication overwrites -/

namespace Publication

variable (p : Publication) (worker : WorkerId) (gpu : Gpu)

def rewritesDevice : Prop :=
  p.files = true ∧ deviceScoped p.record = true ∧ gpu.named = true ∧
    deviceLatchPath gpu = deviceLatchPath (recordGpu p.record)

def rewritesFile : Prop := p.files = true ∧ workerLatchPath worker = workerLatchPath p.worker

def rewritesDeviceHash : Prop :=
  gpu.named = true ∧ ∃ written, p.gpuHash = some written ∧
    gpuDeviceQuarantineKey gpu = gpuDeviceQuarantineKey written

def rewritesHash : Prop := p.workerHash = true ∧ worker = p.worker

instance : Decidable (p.rewritesDevice gpu) := inferInstanceAs (Decidable (_ ∧ _))

instance : Decidable (p.rewritesFile worker) := inferInstanceAs (Decidable (_ ∧ _))

instance : Decidable (p.rewritesHash worker) := inferInstanceAs (Decidable (_ ∧ _))

end Publication

namespace Store

variable (s : Store) (p : Publication) (worker : WorkerId) (gpu : Gpu) (g : Generation)

/-- The Redis copies that are overwritten do not give the latch, or are overwritten by it. -/
def SparesRedis : Prop :=
  (p.rewritesDeviceHash gpu → deviceGeneration gpu ((s.gpuHash gpu).update p.record) = g) ∧
  (¬p.rewritesDeviceHash gpu → s.deviceHashLatch gpu = none → p.rewritesHash worker →
    carries gpu ((s.workerHash worker).update (aliasRecord p.worker p.record)) = some g)

/-- So do the latch files, where a device file of the GPU comes first, then the file of the worker,
and then Redis. -/
def SparesLatch : Prop :=
  (p.rewritesDevice gpu → deviceGeneration gpu p.record = g) ∧
  (¬p.rewritesDevice gpu → s.deviceLatch gpu = none →
    (p.rewritesFile worker →
      carries gpu (aliasRecord p.worker p.record) = some g ∨
      carries gpu (aliasRecord p.worker p.record) = none ∧
        (s.deviceHashLatch gpu).or (s.hashLatch worker gpu) = some g ∧
        s.SparesRedis p worker gpu g) ∧
    (¬p.rewritesFile worker → s.fileLatch worker gpu = none → s.SparesRedis p worker gpu g))

end Store

variable {s t : State} {a : Action} {worker : WorkerId} {gpu : Gpu} {r : Record} {store : Store}
  {p : Publication} {q : Footprint} {g : Generation}

/-! ### The latch after a publication -/

theorem fetched_update {hash r : Record} {key value : String} (h : r.get key = some value) :
    fetched (hash.update r) = some (hash.update r) := by
  rw [fetched, if_neg]
  intro hempty
  have hnone := (Dict.isEmpty_iff _).mp hempty key
  rw [Dict.get_update, h] at hnone
  exact absurd hnone (by simp)

namespace Store

theorem deviceLatch_publish (h : p.rewritesDevice gpu) :
    (store.publish p).deviceLatch gpu = some (deviceGeneration gpu p.record) := by
  obtain ⟨hfiles, hscoped, hgpu, hpath⟩ := h
  rw [deviceLatch, gpuFiles_publish, if_pos ⟨hfiles, hscoped, hpath⟩, deviceCopy, if_pos hgpu,
    Option.map_some]

theorem deviceLatch_publish_of_not (h : ¬p.rewritesDevice gpu) :
    (store.publish p).deviceLatch gpu = store.deviceLatch gpu := by
  rw [deviceLatch, deviceLatch, deviceCopy, deviceCopy]
  split_ifs with hgpu
  · rw [gpuFiles_publish, if_neg fun hpath => h ⟨hpath.1, hpath.2.1, hgpu, hpath.2.2⟩]
  · rfl

theorem fileLatch_publish : (store.publish p).fileLatch worker gpu =
    if p.rewritesFile worker then carries gpu (aliasRecord p.worker p.record)
    else store.fileLatch worker gpu := by
  by_cases h : p.rewritesFile worker
  · rw [if_pos h, fileLatch, workerFiles_publish, if_pos ⟨h.1, h.2⟩, Option.bind_some]
  · rw [if_neg h, fileLatch, workerFiles_publish, if_neg fun hboth => h ⟨hboth.1, hboth.2⟩, fileLatch]

theorem deviceHashLatch_publish (hvalid : p.valid) (h : p.rewritesDeviceHash gpu) :
    (store.publish p).deviceHashLatch gpu =
      some (deviceGeneration gpu ((store.gpuHash gpu).update p.record)) := by
  obtain ⟨hgpu, written, hp, hkey⟩ := h
  rw [deviceHashLatch, gpuHash_publish_of_eq hp hkey, fetched_update hvalid, deviceCopy, if_pos hgpu,
    Option.map_some]

theorem deviceHashLatch_publish_of_not (h : ¬p.rewritesDeviceHash gpu) :
    (store.publish p).deviceHashLatch gpu = store.deviceHashLatch gpu := by
  rw [deviceHashLatch, deviceHashLatch, deviceCopy, deviceCopy]
  split_ifs with hgpu
  · rw [gpuHash_publish_of_ne fun written hp hkey => h ⟨hgpu, written, hp, hkey⟩]
  · rfl

theorem hashLatch_publish (hvalid : p.valid) : (store.publish p).hashLatch worker gpu =
    if p.rewritesHash worker then
      carries gpu ((store.workerHash worker).update (aliasRecord p.worker p.record))
    else store.hashLatch worker gpu := by
  by_cases h : p.rewritesHash worker
  · rw [if_pos h, hashLatch, workerHash_publish, if_pos ⟨h.1, h.2⟩,
      fetched_update (state_aliasRecord.trans hvalid), Option.bind_some]
  · rw [if_neg h, hashLatch, workerHash_publish, if_neg fun hboth => h ⟨hboth.1, hboth.2⟩, hashLatch]

theorem redis_publish (hvalid : p.valid) (hspares : store.SparesRedis p worker gpu g)
    (h : (store.deviceHashLatch gpu).or (store.hashLatch worker gpu) = some g) :
    ((store.publish p).deviceHashLatch gpu).or ((store.publish p).hashLatch worker gpu) = some g := by
  by_cases hdevice : p.rewritesDeviceHash gpu
  · rw [deviceHashLatch_publish hvalid hdevice, hspares.1 hdevice, Option.some_or]
  · rw [deviceHashLatch_publish_of_not hdevice]
    cases hold : store.deviceHashLatch gpu with
    | some old =>
        rw [hold, Option.some_or] at h
        rw [Option.some_or, h]
    | none =>
        rw [hold, Option.none_or] at h
        rw [Option.none_or, hashLatch_publish hvalid]
        split_ifs with hhash
        · exact hspares.2 hdevice hold hhash
        · exact h

/-- A publication keeps every latch that it spares. -/
theorem latch_publish (hvalid : p.valid) (hspares : store.SparesLatch p worker gpu g)
    (h : store.latch worker gpu = some g) : (store.publish p).latch worker gpu = some g := by
  rw [latch] at h ⊢
  by_cases hdevice : p.rewritesDevice gpu
  · rw [deviceLatch_publish hdevice, hspares.1 hdevice, Option.some_or, Option.some_or]
  rw [deviceLatch_publish_of_not hdevice]
  cases hfirst : store.deviceLatch gpu with
  | some old =>
      rw [hfirst, Option.some_or, Option.some_or] at h
      rw [Option.some_or, Option.some_or, h]
  | none =>
      rw [hfirst, Option.none_or] at h
      obtain ⟨hrewritten, hkept⟩ := hspares.2 hdevice hfirst
      rw [Option.none_or, fileLatch_publish]
      split_ifs with hfile
      · rcases hrewritten hfile with hcarries | ⟨hcarries, hredis, hspared⟩
        · rw [hcarries, Option.some_or]
        · rw [hcarries, Option.none_or]
          exact redis_publish hvalid hspared hredis
      · cases hold : store.fileLatch worker gpu with
        | some old =>
            rw [hold, Option.some_or] at h
            rw [Option.some_or, h]
        | none =>
            rw [hold, Option.none_or] at h
            rw [Option.none_or]
            exact redis_publish hvalid (hkept hfile hold) h

/-- Latch files stay readable. -/
theorem readable_publish (hvalid : p.valid) (h : store.readable worker gpu) :
    (store.publish p).readable worker gpu := by
  refine ⟨fun hgpu r hr => ?_, fun r hr => ?_⟩
  · rw [gpuFiles_publish] at hr
    split_ifs at hr
    · rw [← Option.some.inj hr]
      exact hvalid
    · exact h.1 hgpu r hr
  · rw [workerFiles_publish] at hr
    split_ifs at hr
    · rw [← Option.some.inj hr, state_aliasRecord]
      exact hvalid
    · exact h.2 r hr

end Store

/-! ### Latches that an operation keeps -/

namespace Footprint

variable (q : Footprint) (gpu : Gpu) (g : Generation)

/-- The latch is the one that the operation goes by. -/
def goesBy : Prop :=
  ∃ named, q.latch = some (named, g) ∧ named.named = true ∧
    (gpu = named ∧ q.device = true ∨ gpu.named = false)

end Footprint

/-- The copies that the operation leaves alone give the latch, and none that it writes comes before. -/
def Store.leaves (s : Store) (q : Footprint) (worker : WorkerId) (gpu : Gpu) (g : Generation) : Prop :=
  ¬s.replacesDevice q gpu ∧
    (s.leftFiles q worker gpu = some g ∨
      s.leftFiles q worker gpu = none ∧ (q.replacesFile worker = true → ¬q.speaksFor gpu) ∧
        ¬s.replacesDeviceHash q gpu ∧ s.leftHashes q worker gpu = some g)

/-- An operation other than a clear is careful if every latch that a read returns is the one that the
operation goes by, or does not rest on what it replaces. -/
def Careful (s : State) (a : Action) : Prop :=
  a.isClear = false ∧ ∀ worker gpu g, s.store.reads worker gpu g →
    (s.footprint a).goesBy gpu g ∨ s.store.leaves (s.footprint a) worker gpu g

/-- A hash that is written with a latch of its own generation keeps it for reads that name no GPU. -/
theorem carries_update_unnamed (hgpu : gpu.named = false) (hcarries : carries gpu r = some g)
    (hscope : r'.get "scope" = some "physical_gpu") (hnamed : (recordGpu r').named = true)
    (hgen : physicalGeneration gpu r' = g) : carries gpu (r.update r') = some g := by
  obtain ⟨-, hold⟩ := Option.ite_none_right_eq_some.mp hcarries
  obtain ⟨hhost, hdevice⟩ := named_of_text hnamed
  have hscope' : text (r.update r') "scope" ≠ "worker_process" := by
    rw [text_update_of_some hscope]
    decide
  rw [carries, if_pos ⟨hscope', by simp [hgpu]⟩, Option.some.injEq]
  -- Each field is that of the latch, or is blank there and as in the hash.
  have htext : ∀ key, text (r.update r') key = text r' key ∨
      text r' key = "" ∧ text (r.update r') key = text r key := by
    intro key
    by_cases hblank : text r' key = ""
    · rw [text_update]
      split_ifs
      · exact Or.inl rfl
      · exact Or.inr ⟨hblank, rfl⟩
    · exact Or.inl (text_update_of_ne r hblank)
  have hevent := htext "event_id"
  have hcreated := htext "created_at"
  have hfault := htext "fault_class"
  have hreason := htext "reason"
  have htask := htext "task_id"
  have hhost' := htext "hostname"
  have hdevice' := htext "device"
  have hblank : strip "" = "" := by decide
  simp only [physicalGeneration, textOr] at hold hgen ⊢
  grind

namespace Store

/-- The latch of the Redis hashes stays if it is given by what is left alone. -/
theorem sparesRedis_of_left (hconfined : Confined store q p) (hhash : ¬store.replacesDeviceHash q gpu)
    (hleft : store.leftHashes q worker gpu = some g) : store.SparesRedis p worker gpu g := by
  refine ⟨fun ⟨hgpu, written, hwritten, hkey⟩ => ?_, fun _ hnone hrewrites => ?_⟩
  · obtain ⟨hredis, hnamed, hlatch⟩ := hconfined.gpuHash written hwritten
    have hheld : store.deviceHashLatch written = some (generation p.record) := by
      by_contra hother
      exact hhash ⟨hredis, hgpu, written, _, hlatch, hnamed, hkey, hother⟩
    obtain ⟨hphysical, rfl, -⟩ := hconfined.latch written _ hlatch
    have hrecord := deviceGeneration_same (same_of_deviceScoped
      (by rw [deviceScoped, hphysical, hnamed]; rfl : deviceScoped p.record = true) rfl)
    have hsame : store.gpuHash gpu = store.gpuHash (recordGpu p.record) := by
      rw [gpuHash, hkey, gpuHash]
    rw [deviceHashLatch, deviceCopy, if_pos hnamed, ← hsame] at hheld
    obtain ⟨hash, hfetched, hgen⟩ := Option.map_eq_some_iff.mp hheld
    have hfirst : store.deviceHashLatch gpu = some (deviceGeneration gpu hash) := by
      rw [deviceHashLatch, deviceCopy, if_pos hgpu, hfetched, Option.map_some]
    rw [leftHashes, hfirst, Option.some_or, Option.some.injEq] at hleft
    obtain ⟨-, hfetched⟩ := Option.ite_none_left_eq_some.mp hfetched
    rw [Option.some.inj hfetched, ← hleft]
    exact deviceGeneration_congr ((deviceGeneration_update (hgen.trans hrecord.symm)).trans
      (hrecord.trans hgen.symm))
  · rw [leftHashes, hnone, Option.none_or] at hleft
    obtain ⟨hwritten, rfl⟩ := hrewrites
    obtain ⟨hnot, hleft⟩ := Option.ite_none_left_eq_some.mp hleft
    rcases hconfined.workerHash hwritten with hredis | hsame
    · exact absurd (by simp [Footprint.writesHash, hredis, hconfined.worker]) hnot
    · rw [hsame]
      exact hleft

theorem leftHashes_eq_some (h : store.leftHashes q worker gpu = some g) :
    (store.deviceHashLatch gpu).or (store.hashLatch worker gpu) = some g := by
  rw [leftHashes] at h
  cases hold : store.deviceHashLatch gpu with
  | some old =>
      rw [hold, Option.some_or] at h
      rw [Option.some_or, h]
  | none =>
      rw [hold, Option.none_or] at h
      rw [Option.none_or]
      exact (Option.ite_none_left_eq_some.mp h).2

/-- A latch file that a confined publication does not replace is of the same latch as before. -/
theorem deviceGeneration_confined (hconfined : Confined store q p) (hnot : ¬store.replacesDevice q gpu)
    (hlatch : store.latch worker gpu = some g) (h : p.rewritesDevice gpu) :
    deviceGeneration gpu p.record = g := by
  obtain ⟨hfiles, hscoped, hgpu, hpath⟩ := h
  obtain ⟨hdevice, hrecord⟩ := hconfined.device hfiles hscoped
  have hnamed : (recordGpu p.record).named = true := (Bool.and_eq_true_iff.mp hscoped).2
  have hheld : store.deviceLatch (recordGpu p.record) = some (generation p.record) := by
    by_contra hother
    exact hnot ⟨hdevice, hgpu, _, _, hrecord, hnamed, hpath, hother⟩
  rw [deviceLatch, deviceCopy, if_pos hnamed, ← hpath] at hheld
  obtain ⟨old, hold, hgen⟩ := Option.map_eq_some_iff.mp hheld
  rw [latch, deviceLatch, deviceCopy, if_pos hgpu, hold, Option.map_some, Option.some_or,
    Option.some_or, Option.some.injEq] at hlatch
  rw [← hlatch]
  exact deviceGeneration_congr ((deviceGeneration_same (same_of_deviceScoped hscoped rfl)).trans
    hgen.symm)

/-- The alias of a confined publication is no latch of a GPU that the footprint does not speak for. -/
theorem carries_confined (hconfined : Confined store q p)
    (hexclusion : q.latch = none → text p.record "scope" = "worker_process")
    (hspeaks : ¬q.speaksFor gpu) : carries gpu (aliasRecord p.worker p.record) = none := by
  rw [carries_aliasRecord, carries, if_neg]
  rintro ⟨hscope, hgpu⟩
  cases hlatch : q.latch with
  | none => exact hscope (hexclusion hlatch)
  | some latch =>
      obtain ⟨named, g⟩ := latch
      obtain ⟨-, rfl, -⟩ := hconfined.latch named g hlatch
      refine hspeaks ⟨_, g, hlatch, fun hnamed => ?_⟩
      have hfield : ∀ key value, textOr p.record key value = value →
          text p.record key = "" ∨ text p.record key = value := by
        intro key value heq
        rw [textOr] at heq
        split_ifs at heq with hempty
        · exact Or.inl hempty
        · exact Or.inr heq
      exact ⟨hfield _ _ (hgpu hnamed).1, hfield _ _ (hgpu hnamed).2⟩

theorem spares_of_leaves (hconfined : Confined store q p) (hlatch : store.latch worker gpu = some g)
    (hleaves : store.leaves q worker gpu g) : store.SparesLatch p worker gpu g := by
  obtain ⟨hnot, hleft⟩ := hleaves
  refine ⟨deviceGeneration_confined hconfined hnot hlatch, fun _ hdevice => ?_⟩
  rw [leftFiles, hdevice, Option.none_or] at hleft
  rw [latch, hdevice, Option.none_or] at hlatch
  constructor
  · intro hfile
    have hsameFile : store.fileLatch worker gpu = store.fileLatch p.worker gpu := by
      rw [fileLatch, hfile.2, fileLatch]
    rcases hconfined.file hfile.1 with ⟨hreplaced, hexclusion⟩ | hsame
    · -- The file is replaced, so that Redis gives the latch.
      have hreplaces : q.replacesFile worker = true := by
        simp [Footprint.replacesFile, hreplaced, hfile.2, hconfined.worker]
      rw [if_pos hreplaces] at hleft
      obtain hsome | ⟨-, hspeaks, hhash, hleft⟩ := hleft
      · exact absurd hsome (by simp)
      · exact Or.inr ⟨carries_confined hconfined hexclusion (hspeaks hreplaces),
          leftHashes_eq_some hleft, sparesRedis_of_left hconfined hhash hleft⟩
    · rw [hsame, ← hsameFile]
      cases hold : store.fileLatch worker gpu with
      | some old =>
          rw [hold, Option.some_or] at hlatch
          exact Or.inl hlatch
      | none =>
          rw [hold, ite_self] at hleft
          obtain hsome | ⟨-, -, hhash, hleft⟩ := hleft
          · exact absurd hsome (by simp)
          · exact Or.inr ⟨rfl, leftHashes_eq_some hleft, sparesRedis_of_left hconfined hhash hleft⟩
  · intro _ hold
    rw [hold, ite_self] at hleft
    obtain hsome | ⟨-, -, hhash, hleft⟩ := hleft
    · exact absurd hsome (by simp)
    · exact sparesRedis_of_left hconfined hhash hleft

theorem spares_of_goesBy (hconfined : Confined store q p) (hlatch : store.latch worker gpu = some g)
    (hgoes : q.goesBy gpu g) : store.SparesLatch p worker gpu g := by
  obtain ⟨named, hq, hnamed, hcase⟩ := hgoes
  obtain ⟨hphysical, rfl, hgen⟩ := hconfined.latch named g hq
  have hscoped : deviceScoped p.record = true := by
    rw [deviceScoped, hphysical, hnamed]
    rfl
  rcases hcase with ⟨rfl, hdevice⟩ | hgpu
  · refine ⟨fun _ => (deviceGeneration_same (same_of_deviceScoped hscoped rfl)).trans hgen,
      fun hnot hnone => ?_⟩
    rcases hconfined.created hdevice _ g hq hnamed with hfiles | hheld
    · exact absurd ⟨hfiles, hscoped, hnamed, rfl⟩ hnot
    · exact absurd (hnone.symm.trans hheld) (by simp)
  · have hdeviceHash : store.deviceHashLatch gpu = none := if_neg (by simp [hgpu])
    refine ⟨fun hdevice => absurd (hgpu.symm.trans hdevice.2.2.1) (by simp), fun _ hdevice =>
      ⟨fun _ => Or.inl ?_, fun _ hfile => ⟨fun hhash => absurd (hgpu.symm.trans hhash.1) (by simp),
        fun _ _ hhash => ?_⟩⟩⟩
    · have hscope : text p.record "scope" ≠ "worker_process" := by
        rw [text, of_decide_eq_true hphysical]
        decide
      rw [carries_aliasRecord, carries, if_pos ⟨hscope, by simp [hgpu]⟩,
        physicalGeneration_named hphysical hnamed, hgen]
    · rw [latch, hdevice, hfile, hdeviceHash, Option.none_or, Option.none_or, Option.none_or,
        hashLatch] at hlatch
      obtain ⟨hash, hfetched, hcarries⟩ := Option.bind_eq_some_iff.mp hlatch
      obtain ⟨-, hfetched⟩ := Option.ite_none_left_eq_some.mp hfetched
      rw [← Option.some.inj hfetched] at hcarries
      rw [hhash.2] at hcarries ⊢
      refine carries_update_unnamed hgpu hcarries ?_ (by rw [recordGpu_alias]; exact hnamed) ?_
      · rw [alias_get (by decide) (by decide)]
        exact of_decide_eq_true hphysical
      · rw [physicalGeneration_congr fun key hkey =>
          alias_text _ _ key (latchKey_ne hkey (by decide)) (latchKey_ne hkey (by decide)),
          physicalGeneration_named hphysical hnamed, hgen]

end Store

/-! ### Runs -/

/-- One careful step keeps what reads return. -/
theorem step_reads (hvalid : s.claimsValid) (hscoped : s.claimsScoped) (hcareful : Careful s a)
    (h : step s a = some t) (hreads : s.store.reads worker gpu g) : t.store.reads worker gpu g := by
  rw [step_publishes h hcareful.1]
  cases hp : s.publication a with
  | none => exact hreads
  | some p =>
      have hconfined := publication_confined hscoped h hp
      obtain ⟨hreadable, hlatch⟩ := Store.reads_iff.mp hreads
      have hspares : s.store.SparesLatch p worker gpu g := by
        rcases hcareful.2 worker gpu g hreads with hgoes | hleaves
        · exact Store.spares_of_goesBy hconfined hlatch hgoes
        · exact Store.spares_of_leaves hconfined hlatch hleaves
      have hrecord := publication_valid hvalid h hp
      exact Store.reads_iff.mpr
        ⟨Store.readable_publish hrecord hreadable, Store.latch_publish hrecord hspares hlatch⟩

/-- From any content of the stores, a physical latch that a read returns is returned after any number
of reads, writes and notification steps that are careful at their time. -/
theorem physical_latch_kept (content : Store) (s t : State) (hs : Run step { store := content } s)
    (ht : RunWhen step Careful s t) (worker : WorkerId) (gpu : Gpu) (g : Generation)
    (h : s.store.reads worker gpu g) : t.store.reads worker gpu g := by
  have hclaims : s.claimsValid ∧ s.claimsScoped :=
    hs.invariant (I := fun u => u.claimsValid ∧ u.claimsScoped)
      (fun _ _ _ hinv _ hstep =>
        ⟨step_claimsValid hinv.1 hstep, step_claimsScoped hinv.2 hstep⟩)
      ⟨fun _ _ hheld => absurd hheld (by simp), fun _ _ hheld => absurd hheld (by simp)⟩
  have hall : (t.claimsValid ∧ t.claimsScoped) ∧ t.store.reads worker gpu g :=
    ht.invariant (I := fun u => (u.claimsValid ∧ u.claimsScoped) ∧ u.store.reads worker gpu g)
      (fun _ _ _ hinv hcareful hstep =>
        ⟨⟨step_claimsValid hinv.1.1 hstep, step_claimsScoped hinv.1.2 hstep⟩,
          step_reads hinv.1.1 hinv.1.2 hcareful hstep hinv.2⟩) ⟨hclaims, h⟩
  exact hall.2

/-! ### One event -/

/-- Every copy is of one event. -/
def Store.onlyEvent (s : Store) (e : String) : Prop :=
  (∀ path r, s.gpuFiles.get path = some r → strip (text r "event_id") = e) ∧
  (∀ path r, s.workerFiles.get path = some r → strip (text r "event_id") = e) ∧
  (∀ key r, s.gpuHashes.get key = some r → strip (text r "event_id") = e) ∧
  (∀ key r, s.workerHashes.get key = some r → strip (text r "event_id") = e)

variable {e : String}

theorem physicalGeneration_event (he : e ≠ "") (h : strip (text r "event_id") = e) :
    physicalGeneration gpu r = .event e := by
  rw [physicalGeneration, h, if_pos he]

theorem deviceGeneration_event (he : e ≠ "") (h : strip (text r "event_id") = e) :
    deviceGeneration gpu r = .event e := by
  refine physicalGeneration_event he ?_
  rw [text, normalizeDeviceRecord, Dict.get_set_of_ne _ (by decide), Dict.get_set_of_ne _ (by decide),
    Dict.get_set_of_ne _ (by decide)]
  exact h

theorem carries_event (he : e ≠ "") (h : strip (text r "event_id") = e)
    (hcarries : carries gpu r = some g) : g = .event e := by
  obtain ⟨-, hg⟩ := Option.ite_none_right_eq_some.mp hcarries
  rw [← Option.some.inj hg, physicalGeneration_event he h]

theorem fetched_eq_some {copy : Option Record} (h : fetched (copy.getD {}) = some r) :
    copy = some r := by
  obtain ⟨hempty, h⟩ := Option.ite_none_left_eq_some.mp h
  cases copy with
  | none => exact absurd rfl hempty
  | some hash => exact h

theorem Store.latch_event (he : e ≠ "") (honly : store.onlyEvent e)
    (h : store.latch worker gpu = some g) : g = .event e := by
  obtain ⟨hgpuFiles, hworkerFiles, hgpuHashes, hworkerHashes⟩ := honly
  have hdevice : ∀ copy, (∀ r, copy = some r → strip (text r "event_id") = e) →
      deviceCopy gpu copy = some g → g = .event e := by
    intro copy hcopy hg
    obtain ⟨-, hg⟩ := Option.ite_none_right_eq_some.mp hg
    obtain ⟨r, hr, rfl⟩ := Option.map_eq_some_iff.mp hg
    exact deviceGeneration_event he (hcopy r hr)
  rw [latch, Option.or_eq_some_iff] at h
  rcases h with h | ⟨-, h⟩
  · rw [Option.or_eq_some_iff] at h
    rcases h with h | ⟨-, h⟩
    · exact hdevice _ (hgpuFiles _) h
    · obtain ⟨r, hr, hcarries⟩ := Option.bind_eq_some_iff.mp h
      exact carries_event he (hworkerFiles _ r hr) hcarries
  · rw [Option.or_eq_some_iff] at h
    rcases h with h | ⟨-, h⟩
    · exact hdevice _ (fun r hr => hgpuHashes _ r (fetched_eq_some hr)) h
    · obtain ⟨r, hr, hcarries⟩ := Option.bind_eq_some_iff.mp h
      exact carries_event he (hworkerHashes _ r (fetched_eq_some hr)) hcarries

/-- Every copy is the latch of one GPU and of one event, and its file is there. -/
structure Store.OnlyLatch (s : Store) (named : Gpu) (e : String) : Prop where
  event : s.onlyEvent e
  device : s.deviceLatch named = some (.event e)
  files : ∀ path r, s.workerFiles.get path = some r → samePhysicalGpu named r = true
  hashes : ∀ id r, s.workerHashes.get id = some r → samePhysicalGpu named r = true

theorem carries_other {named : Gpu} (h : samePhysicalGpu named r = true) (hgpu : gpu.named = true)
    (hne : gpu ≠ named) : carries gpu r = none := by
  have hscoped := deviceScoped_of_same h
  rw [deviceScoped, Bool.and_eq_true] at hscoped
  obtain ⟨hhost, hdevice⟩ := named_of_text hscoped.2
  have hrecord := recordGpu_same h
  rw [carries, if_neg]
  rintro ⟨-, hfields⟩
  obtain ⟨hhostname, hdevicename⟩ := hfields hgpu
  rw [textOr, if_neg hhost] at hhostname
  rw [textOr, if_neg hdevice] at hdevicename
  refine hne ?_
  rw [← hrecord, recordGpu, hhostname, hdevicename]

/-- Where every copy is one latch, an operation that goes by it is careful. -/
theorem careful_of_onlyLatch {named : Gpu} (he : e ≠ "") (hnamed : named.named = true)
    (honly : s.store.OnlyLatch named e) (hclear : a.isClear = false)
    (hlatch : (s.footprint a).latch = some (named, .event e)) (hdevice : (s.footprint a).device = true) :
    Careful s a := by
  refine ⟨hclear, fun worker gpu g hreads => ?_⟩
  have hread := (Store.reads_iff.mp hreads).2
  obtain rfl := Store.latch_event he honly.event hread
  by_cases hgpu : gpu.named = true
  swap
  · exact Or.inl ⟨named, hlatch, hnamed, Or.inr (by simpa using hgpu)⟩
  by_cases hne : gpu = named
  · exact Or.inl ⟨named, hlatch, hnamed, Or.inl ⟨hne, hdevice⟩⟩
  -- Another GPU has the latch by its file or hash only, whose name or key is that of this GPU.
  have hfile : s.store.fileLatch worker gpu = none := by
    rw [Store.fileLatch, Option.bind_eq_none_iff]
    exact fun r hr => carries_other (honly.files _ r hr) hgpu hne
  have hhash : s.store.hashLatch worker gpu = none := by
    rw [Store.hashLatch, Option.bind_eq_none_iff]
    exact fun r hr => carries_other (honly.hashes worker r (fetched_eq_some hr)) hgpu hne
  rw [Store.latch, hfile, hhash, Option.or_none, Option.or_none] at hread
  refine Or.inr ⟨?_, ?_⟩
  · rintro ⟨-, -, named', g, hlatch', -, -, hother⟩
    obtain ⟨rfl, rfl⟩ := Prod.mk.inj (Option.some.inj (hlatch.symm.trans hlatch'))
    exact hother honly.device
  · rw [Store.leftFiles, Store.leftHashes, hfile, hhash, ite_self, ite_self, Option.or_none,
      Option.or_none]
    rcases Option.or_eq_some_iff.mp hread with hfirst | ⟨hnone, hfirst⟩
    · exact Or.inl hfirst
    · refine Or.inr ⟨hnone, fun _ => ?_, ?_, hfirst⟩
      · rintro ⟨named', g, hlatch', hspeaks⟩
        obtain ⟨rfl, rfl⟩ := Prod.mk.inj (Option.some.inj (hlatch.symm.trans hlatch'))
        obtain ⟨hhost, hdevice⟩ := Gpu.named_iff.mp hnamed
        obtain ⟨hhostname, hdevicename⟩ := hspeaks hgpu
        refine hne ?_
        rw [Gpu.mk.injEq]
        exact ⟨(hhostname.resolve_left hhost).symm, (hdevicename.resolve_left hdevice).symm⟩
      · rintro ⟨-, -, named', g, hlatch', -, hkey, hother⟩
        obtain ⟨rfl, rfl⟩ := Prod.mk.inj (Option.some.inj (hlatch.symm.trans hlatch'))
        refine hother ?_
        obtain ⟨-, hfirst⟩ := Option.ite_none_right_eq_some.mp hfirst
        obtain ⟨hash, hfetched, -⟩ := Option.map_eq_some_iff.mp hfirst
        rw [Store.gpuHash, hkey, ← Store.gpuHash] at hfetched
        rw [Store.deviceHashLatch, Store.deviceCopy, if_pos hnamed, hfetched, Option.map_some,
          deviceGeneration_event he (honly.event.2.2.1 _ hash (fetched_eq_some hfetched))]

/-- An operation that replaces nothing is careful. -/
theorem careful_of_idle {id : WorkerId} (hclear : a.isClear = false)
    (h : s.footprint a = { worker := id }) : Careful s a := by
  refine ⟨hclear, fun worker gpu g hreads => Or.inr ?_⟩
  have hread := (Store.reads_iff.mp hreads).2
  rw [h]
  refine ⟨fun hreplaces => absurd hreplaces.1 (by simp), ?_⟩
  rcases Option.or_eq_some_iff.mp hread with hfiles | ⟨hnone, hhashes⟩
  · exact Or.inl hfiles
  · exact Or.inr ⟨hnone, fun hreplaces => absurd hreplaces (by simp [Footprint.replacesFile]),
      fun hreplaces => absurd hreplaces.1 (by simp), hhashes⟩

/-- A GPU is latched for a fault, and then paged for. -/
def faultReport : Action :=
  .write "gpu_0" node21 { reason := "illegal access" } true "a" "t0"

def latched : State := (step {} faultReport).getD {}

def pageClaim : Action := .claim (latchRecord node21 "gpu_0" "physical_gpu" "a" "pending") "7" "t1"

def claimed : State := (step latched pageClaim).getD latched

def pageSent : Action := .finish (deviceLatchPath node21) true "" "t2"

def paged : State := (step claimed pageSent).getD claimed

def released : State := (step paged (.release (deviceLatchPath node21))).getD paged

/-- A worker that has no copy of the latch reads it. -/
def otherRead : Action := .read "gpu_1" node21

def readByOther : State := (step released otherRead).getD released

def isEvent (e : String) (r : Record) : Bool := strip (text r "event_id") = e

/-- `OnlyLatch` as a test. -/
def onlyLatch (s : Store) (named : Gpu) (e : String) : Bool :=
  s.gpuFiles.entries.all (fun entry => isEvent e entry.2) &&
    s.workerFiles.entries.all (fun entry => isEvent e entry.2 && samePhysicalGpu named entry.2) &&
    s.gpuHashes.entries.all (fun entry => isEvent e entry.2) &&
    s.workerHashes.entries.all (fun entry => isEvent e entry.2 && samePhysicalGpu named entry.2) &&
    decide (s.deviceLatch named = some (.event e))

theorem onlyLatch_of_test {named : Gpu} (h : onlyLatch store named e = true) :
    store.OnlyLatch named e := by
  simp only [onlyLatch, Bool.and_eq_true] at h
  obtain ⟨⟨⟨⟨hgpuFiles, hworkerFiles⟩, hgpuHashes⟩, hworkerHashes⟩, hdevice⟩ := h
  -- what a worker copy is tested for
  let test : Record → Bool := fun r => isEvent e r && samePhysicalGpu named r
  have hfile : ∀ path r, store.workerFiles.get path = some r →
      isEvent e r = true ∧ samePhysicalGpu named r = true := fun path r hr =>
    Bool.and_eq_true_iff.mp (store.workerFiles.get_of_all test hworkerFiles hr)
  have hhash : ∀ id r, store.workerHashes.get id = some r →
      isEvent e r = true ∧ samePhysicalGpu named r = true := fun id r hr =>
    Bool.and_eq_true_iff.mp (store.workerHashes.get_of_all test hworkerHashes hr)
  exact
    { event := ⟨fun path r hr => of_decide_eq_true (store.gpuFiles.get_of_all (isEvent e) hgpuFiles hr),
        fun path r hr => of_decide_eq_true (hfile path r hr).1,
        fun key r hr => of_decide_eq_true (store.gpuHashes.get_of_all (isEvent e) hgpuHashes hr),
        fun id r hr => of_decide_eq_true (hhash id r hr).1⟩
      device := of_decide_eq_true hdevice
      files := fun path r hr => (hfile path r hr).2
      hashes := fun id r hr => (hhash id r hr).2 }

def isLatch (r : Record) : Bool := r.get "state" = some "quarantined"

theorem latched_isSome : (step {} faultReport).isSome := by decide +kernel

theorem claimed_isSome : (step latched pageClaim).isSome := by decide +kernel

theorem paged_isSome : (step claimed pageSent).isSome := by decide +kernel

theorem physical_latch_kept_paged : readByOther.store.reads "gpu_0" node21 (.event "a") := by
  have hlatched : Run step { store := {} } latched :=
    RunWhen.single (a := faultReport) trivial (step_getD latched_isSome)
  have hcareful : ∀ {s : State} {a : Action}, onlyLatch s.store node21 "a" = true →
      a.isClear = false → (s.footprint a).latch = some (node21, .event "a") →
      (s.footprint a).device = true → Careful s a := fun honly hclear hlatch hdevice =>
    careful_of_onlyLatch (by decide) (by decide) (onlyLatch_of_test honly) hclear hlatch hdevice
  have hclaimed : Careful latched pageClaim :=
    hcareful (by decide +kernel) rfl (by decide +kernel) (by decide +kernel)
  have hpaged : Careful claimed pageSent :=
    hcareful (by decide +kernel) rfl (by decide +kernel) (by decide +kernel)
  have hreleased : Careful paged (.release (deviceLatchPath node21)) := careful_of_idle rfl rfl
  have hread : Careful released otherRead :=
    hcareful (by decide +kernel) rfl (by decide +kernel) (by decide +kernel)
  have hrun : RunWhen step Careful latched readByOther :=
    (((RunWhen.single hclaimed (step_getD claimed_isSome)).snoc hpaged (step_getD paged_isSome)).snoc
      hreleased (step_getD (by decide +kernel))).snoc hread (step_getD (by decide +kernel))
  refine physical_latch_kept {} latched readByOther hlatched hrun "gpu_0" node21 (.event "a") ?_
  refine Store.reads_iff.mpr ⟨⟨fun _ r hr => ?_, fun r hr => ?_⟩, by decide +kernel⟩
  · have hall : latched.store.gpuFiles.entries.all (fun entry => isLatch entry.2) = true := by
      decide +kernel
    exact of_decide_eq_true (latched.store.gpuFiles.get_of_all isLatch hall hr)
  · have hall : latched.store.workerFiles.entries.all (fun entry => isLatch entry.2) = true := by
      decide +kernel
    exact of_decide_eq_true (latched.store.workerFiles.get_of_all isLatch hall hr)

def secondGpu : Gpu := ⟨"node21", "cuda:1"⟩

/-- The worker's alias is the only copy of a latch on its GPU, as older versions left it. -/
def aliasOnly : Store where
  workerFiles := ⟨[("gpu_0", latchRecord node21 "gpu_0" "physical_gpu" "a" "pending")]⟩

/-- A read on another GPU of the host overwrites the alias by an exclusion of the worker. -/
theorem read_elsewhere_drops_latch :
    aliasOnly.reads "gpu_0" node21 (.event "a") ∧ ∃ t,
      step { store := aliasOnly } (.read "gpu_0" secondGpu) = some t ∧
      ∀ g, ¬t.store.reads "gpu_0" node21 g := by
  have hafter : (aliasOnly.read "gpu_0" secondGpu).latch "gpu_0" node21 = none := by decide +kernel
  have hlatch : aliasOnly.latch "gpu_0" node21 = some (.event "a") := by decide +kernel
  have hreadable : aliasOnly.readable "gpu_0" node21 :=
    ⟨fun _ r hr => absurd hr (by simp [aliasOnly]), fun r hr => by
      have hfile : aliasOnly.workerFiles.get (workerLatchPath "gpu_0") =
          some (latchRecord node21 "gpu_0" "physical_gpu" "a" "pending") := by decide +kernel
      rw [← Option.some.inj (hfile.symm.trans hr)]
      rfl⟩
  refine ⟨Store.reads_iff.mpr ⟨hreadable, hlatch⟩, _,
    step_read.mpr ⟨fun _ => rfl, rfl⟩, fun g hreads => ?_⟩
  rw [Store.reads_iff, hafter] at hreads
  exact absurd hreads.2 (by simp)

end KernelGym.Quarantine
