import KernelGym.NotificationOrigins

/-! A physical latch in the latch files. Its device file decides about it; worker files hold it as aliases
only, and what operations in order write of it continues the device file. -/

namespace KernelGym.Quarantine

open Library

/-- The latch files of a physical latch: aliases of it are backed by the device file. -/
structure PhysicalFiles (l : Latch) (s : Store) : Prop where
  devices : ∀ gpu r, deviceLatchPath gpu ≠ l.path → s.gpuFiles.get (deviceLatchPath gpu) = some r →
    generation (normalizeDeviceRecord gpu r) ≠ l.generation
  aliases : ∀ path r, s.workerFiles.get path = some r → generation r = l.generation →
    r.get "state" = some "quarantined" ∧ samePhysicalGpu l.gpu r = true ∧ l.Durable s
  names : ∀ path r, s.workerFiles.get path = some r → deviceScoped r = true →
    deviceLatchPath (recordGpu r) = l.path → recordGpu r = l.gpu

/-- A generation that a physical latch of the GPU may have, and that no later write creates. -/
structure PhysicalIdentity (l : Latch) (issued : List Generation) : Prop where
  owner : l.owner = none
  named : l.gpu.named = true
  issued : ∀ id, l.generation = .event id → .event id ∈ issued
  legacy : ∀ i, l.generation = .legacy i →
    i.scope = "physical_gpu" ∧ i.hostname = l.gpu.hostname ∧ i.device = l.gpu.device

/-- The claims that may still send: a claim of a physical latch is about the device file as it stands. -/
structure PhysicalClaims (l : Latch) (s : State) : Prop where
  path : ∀ path c, s.held path = some c → c.active → isPhysical c.record = true →
    deviceScoped c.record = true ∧ deviceLatchPath (recordGpu c.record) = path ∧
      (path = l.path → recordGpu c.record = l.gpu ∧ s.store.gpuFiles.get l.path = some c.record)
  latch : ∀ path c, s.held path = some c → c.active → generation c.record = l.generation →
    isPhysical c.record = true ∧ path = l.path ∧ pageState c.record = some "sending"

structure PhysicalGuard (l : Latch) (s : State) : Prop where
  identity : PhysicalIdentity l s.issued
  files : PhysicalFiles l s.store
  claims : PhysicalClaims l s
  valid : s.claimsValid

variable {l : Latch} {s t : State} {a : Action} {p : Publication} {store : Store} {r : Record}
  {worker : WorkerId} {gpu : Gpu} {issued : List Generation}

/-! ### Generations of copies -/

namespace PhysicalIdentity

variable (h : PhysicalIdentity l issued)
include h

theorem home_eq : l.home store = (store.gpuFiles.get l.path).map (normalizeDeviceRecord l.gpu) := by
  rw [Latch.home, h.owner]

/-- A record that is of the latch's generation under another GPU is so by its event id or its time. -/
theorem of_normalizeDevice (hgpu : gpu ≠ l.gpu)
    (hgen : generation (normalizeDeviceRecord gpu r) = l.generation) : generation r = l.generation := by
  have htext : ∀ key, key ≠ "scope" → key ≠ "hostname" → key ≠ "device" →
      text (normalizeDeviceRecord gpu r) key = text r key := by
    intro key hscope hhost hdevice
    rw [text, normalizeDeviceRecord, Dict.get_set_of_ne _ hdevice, Dict.get_set_of_ne _ hhost,
      Dict.get_set_of_ne _ hscope, text]
  rw [generation, htext _ (by decide) (by decide) (by decide),
    htext _ (by decide) (by decide) (by decide)] at hgen
  rw [generation]
  split_ifs at hgen ⊢
  · exact hgen
  · exact hgen
  · obtain ⟨-, hhost, hdevice⟩ := h.legacy _ hgen.symm
    refine absurd ?_ hgpu
    have hfields : (legacyIdentity (normalizeDeviceRecord gpu r)).hostname = gpu.hostname ∧
        (legacyIdentity (normalizeDeviceRecord gpu r)).device = gpu.device := by
      simp [legacyIdentity, text, normalizeDeviceRecord, Dict.get_set]
    rw [hfields.1] at hhost
    rw [hfields.2] at hdevice
    cases gpu
    cases hl : l.gpu
    rw [hl] at hhost hdevice
    dsimp only at hhost hdevice
    rw [hhost, hdevice]

/-- An alias has the latch's generation only if the record has it. -/
theorem of_alias (hgen : generation (aliasRecord worker r) = l.generation) :
    generation r = l.generation := by
  have htext : ∀ key, key ≠ "worker_id" → key ≠ "origin_worker_id" →
      text (aliasRecord worker r) key = text r key := by
    intro key hworker horigin
    unfold aliasRecord
    split_ifs
    · rfl
    · rw [text, Dict.get_set_of_ne _ hworker, Dict.get_setDefault, if_neg horigin, text]
  rw [generation, htext _ (by decide) (by decide), htext _ (by decide) (by decide)] at hgen
  rw [generation]
  split_ifs at hgen ⊢
  · exact hgen
  · exact hgen
  · rw [← hgen]
    have hscope : text r "scope" = "physical_gpu" := by
      rw [← htext "scope" (by decide) (by decide)]
      exact (h.legacy _ hgen.symm).1
    simp only [legacyIdentity, htext "scope" (by decide) (by decide),
      htext "hostname" (by decide) (by decide), htext "device" (by decide) (by decide),
      htext "fault_class" (by decide) (by decide), htext "reason" (by decide) (by decide),
      htext "task_id" (by decide) (by decide), hscope, if_true]

end PhysicalIdentity

theorem deviceScoped_alias : deviceScoped (aliasRecord worker r) = deviceScoped r := by
  rw [deviceScoped, isPhysical, recordGpu, text, text, alias_get (by decide) (by decide),
    alias_get (by decide) (by decide), alias_get (by decide) (by decide)]
  rfl

/-! ### What operations in order publish -/

/-- A publication into the files respects the latch. -/
structure PhysicalSource (l : Latch) (s : State) (a : Action) (p : Publication) : Prop where
  /-- The device file is written under its lock, with a copy of what it holds. -/
  device : deviceScoped p.record = true → deviceLatchPath (recordGpu p.record) = l.path →
    recordGpu p.record = l.gpu ∧ (l.Durable s.store → generation p.record = l.generation) ∧
      (s.held l.path = none ∨ ∃ sent error now, a = .finish l.path sent error now)
  /-- A copy of the latch continues the device file. -/
  latch : generation p.record = l.generation → samePhysicalGpu l.gpu p.record = true ∧
    ∃ r, l.home s.store = some r ∧ generation r = l.generation ∧ (isSent r → isSent p.record) ∧
      (isSent p.record → isSent r ∨ a.marksSent)

section Sources

variable (hl : PhysicalIdentity l s.issued) (hfiles : PhysicalFiles l s.store)
include hl

theorem generation_of_durable (hd : s.store.gpuFiles.get l.path = some r) (h : l.Durable s.store) :
    generation (normalizeDeviceRecord l.gpu r) = l.generation := by
  obtain ⟨r', hr', hgen⟩ := h
  rw [hl.home_eq, hd, Option.map_some, Option.some.injEq] at hr'
  rw [hr', hgen]

theorem not_durable_of_none (hd : s.store.gpuFiles.get l.path = none) : ¬l.Durable s.store := by
  rintro ⟨r, hr, -⟩
  rw [hl.home_eq, hd] at hr
  exact absurd hr (by simp)

include hfiles

/-- A record that continues the device file of a GPU, in an operation that names it. -/
theorem PhysicalSource.of_device (hname : l.sameName gpu) (hfree : s.free gpu)
    (hfrom : FromDevice s.store gpu a.marksSent p.record) : PhysicalSource l s a p := by
  obtain ⟨hgpu, d, hd, hcontinues⟩ := hfrom
  have hsame := samePhysicalGpu_normalizeDevice (r := d) hgpu
  have hrecord : recordGpu p.record = gpu :=
    hcontinues.event.recordGpu.trans (recordGpu_same hsame)
  constructor
  · intro _ hpath
    rw [hrecord] at hpath ⊢
    obtain rfl := hname hgpu hpath
    exact ⟨rfl, fun hdurable => hcontinues.event.generation.trans (generation_of_durable hl hd hdurable),
      Or.inl (hfree hgpu)⟩
  · intro hgen
    have hdgen := hcontinues.event.generation.symm.trans hgen
    by_cases hpath : deviceLatchPath gpu = l.path
    · obtain rfl := hname hgpu hpath
      refine ⟨hcontinues.event.samePhysicalGpu.trans hsame, _, ?_, hdgen, hcontinues.sent,
        hcontinues.origin⟩
      rw [hl.home_eq, hd, Option.map_some]
    · exact absurd hdgen (hfiles.devices gpu d hpath hd)

/-- A record that continues the latch file of a worker is not of the latch while its GPU has no device
file, or where the file does not name the GPU. -/
theorem PhysicalSource.of_file (hname : l.sameName gpu) (hfree : s.free gpu)
    {marked : Prop} (hnone : NoDeviceFile s.store gpu)
    (hfrom : FromFile s.store worker marked p.record)
    (hscoped : deviceScoped p.record = true → deviceLatchPath (recordGpu p.record) = l.path →
      gpu.named = true ∧ deviceLatchPath gpu = l.path) : PhysicalSource l s a p := by
  obtain ⟨e, he, hcontinues⟩ := hfrom
  have hdevice : deviceScoped p.record = true → deviceLatchPath (recordGpu p.record) = l.path →
      recordGpu p.record = l.gpu ∧ ¬l.Durable s.store ∧ s.held l.path = none := by
    intro hyes hpath
    obtain ⟨hgpu, hgpath⟩ := hscoped hyes hpath
    obtain rfl := hname hgpu hgpath
    refine ⟨?_, not_durable_of_none hl (hnone hgpu), hfree hgpu⟩
    rw [hcontinues.event.recordGpu] at hpath ⊢
    rw [hcontinues.event.deviceScoped] at hyes
    exact hfiles.names _ e he hyes hpath
  constructor
  · intro hyes hpath
    obtain ⟨hrecord, hnot, hheld⟩ := hdevice hyes hpath
    exact ⟨hrecord, fun hdurable => absurd hdurable hnot, Or.inl hheld⟩
  · intro hgen
    obtain ⟨-, hsame, hdurable⟩ := hfiles.aliases _ e he (hcontinues.event.generation.symm.trans hgen)
    have hpsame := hcontinues.event.samePhysicalGpu.trans hsame
    have hpath : deviceLatchPath (recordGpu p.record) = l.path := by rw [recordGpu_same hpsame]
    exact absurd hdurable (hdevice (deviceScoped_of_same hpsame) hpath).2.1

omit hfiles in
/-- A new event is not the latch's. -/
theorem PhysicalSource.of_new {id : String} (hname : l.sameName gpu) (hfree : s.free gpu)
    (hnone : NoDeviceFile s.store gpu) (hrecord : recordGpu p.record = gpu)
    (hgen : generation p.record = .event id) (hfresh : .event id ∉ s.issued) :
    PhysicalSource l s a p := by
  constructor
  · intro hyes hpath
    rw [hrecord] at hpath ⊢
    have hgpu : gpu.named = true := by
      rw [deviceScoped, hrecord, Bool.and_eq_true] at hyes
      exact hyes.2
    obtain rfl := hname hgpu hpath
    exact ⟨rfl, fun hdurable => absurd hdurable (not_durable_of_none hl (hnone hgpu)),
      Or.inl (hfree hgpu)⟩
  · intro hlatch
    exact absurd (hl.issued id (hlatch.symm.trans hgen)) hfresh

end Sources

/-- A claim that sends. -/
theorem acquireClaim_physicalSource (hg : PhysicalGuard l s) {input : Record} {pid now : String}
    {result : Store × Claim} (hscope : claimableScope input = true)
    (hname : l.sameName (recordGpu input)) (hnamed : (recordGpu input).named = true)
    (hfree : s.free (recordGpu input)) (hresult : s.store.acquireClaim input pid now = some result)
    (hsend : result.2.shouldSend = true) :
    PhysicalSource l s a { worker := result.2.workerId, record := result.2.record } := by
  obtain ⟨-, -, hsending, horigin⟩ := acquireClaim_origin hresult hscope hsend
  rcases horigin with ⟨d, hd, hunsent, hevent⟩ | ⟨-, e, he, hunsent, hescope, hevent⟩
  · refine PhysicalSource.of_device hg.identity hg.files hname hfree ⟨hnamed, d, hd, hevent,
      fun hsent => absurd (isSent_normalizeDevice.mp hsent) hunsent, fun hsent => ?_⟩
    change pageState result.2.record = some "sent" at hsent
    rw [hsending] at hsent
    exact absurd hsent (by decide)
  · have hephysical : isPhysical e = false := by
      rw [isPhysical, hescope]
      decide
    have hphysical : isPhysical result.2.record = false := hevent.physical.trans hephysical
    constructor
    · intro hyes _
      rw [deviceScoped, hphysical, Bool.false_and] at hyes
      exact absurd hyes (by simp)
    · intro hgen
      obtain ⟨-, hsame, -⟩ := hg.files.aliases _ e he (hevent.generation.symm.trans hgen)
      rw [isPhysical_of_same hsame] at hephysical
      exact absurd hephysical (by simp)

/-- The completion of a claim. -/
theorem outcome_physicalSource (hg : PhysicalGuard l s) {path : GpuPath} {c : Claim} {sent : Bool}
    {error now : String} (hc : s.held path = some c) (hactive : c.active) :
    PhysicalSource l s (.finish path sent error now)
      { worker := c.workerId, record := c.outcome sent error now } := by
  have hevent := sameEvent_outcome c sent error now
  constructor
  · intro hyes hpath
    change deviceScoped (c.outcome sent error now) = true at hyes
    change deviceLatchPath (recordGpu (c.outcome sent error now)) = l.path at hpath
    rw [hevent.deviceScoped] at hyes
    rw [hevent.recordGpu] at hpath
    have hphysical : isPhysical c.record = true := by
      rw [deviceScoped, Bool.and_eq_true] at hyes
      exact hyes.1
    obtain ⟨-, hlock, hfile⟩ := hg.claims.path path c hc hactive hphysical
    have hlpath : path = l.path := hlock.symm.trans hpath
    obtain ⟨hgpu, hstored⟩ := hfile hlpath
    refine ⟨hevent.recordGpu.trans hgpu, fun hdurable => ?_, Or.inr ?_⟩
    · have hgen := generation_of_durable hg.identity hstored hdurable
      rw [(normalizeDevice_of_same (same_of_deviceScoped hyes hgpu)).generation] at hgen
      exact hevent.generation.trans hgen
    · rw [hlpath]
      exact ⟨sent, error, now, rfl⟩
  · intro hgen
    have hcgen := hevent.generation.symm.trans hgen
    obtain ⟨hphysical, rfl, hsending⟩ := hg.claims.latch path c hc hactive hcgen
    obtain ⟨hscoped, -, hfile⟩ := hg.claims.path _ c hc hactive hphysical
    obtain ⟨hgpu, hstored⟩ := hfile rfl
    have hsame := same_of_deviceScoped hscoped hgpu
    refine ⟨hevent.samePhysicalGpu.trans hsame, normalizeDeviceRecord l.gpu c.record, ?_, ?_, ?_,
      fun hsent => Or.inr ?_⟩
    · rw [hg.identity.home_eq, hstored, Option.map_some]
    · rw [(normalizeDevice_of_same hsame).generation, hcgen]
    · intro hsent
      rw [isSent_normalizeDevice, isSent, hsending] at hsent
      exact absurd hsent (by decide)
    · change isSent (c.outcome sent error now) at hsent
      rw [isSent, pageState_outcome] at hsent
      cases sent
      · exact absurd hsent (by decide)
      · rfl

/-- What an operation in order writes into the latch files respects the latch. -/
theorem physicalSource (hg : PhysicalGuard l s) (horder : l.physicalOrder s.store a)
    (hread : ∀ worker gpu, a ≠ .read worker gpu) (h : step s a = some t)
    (hp : s.publication a = some p) (hfiles : p.files = true) : PhysicalSource l s a p := by
  cases a with
  | read worker gpu => exact absurd rfl (hread worker gpu)
  | write worker gpu fault physicalScope eventId now =>
      obtain ⟨⟨hfree, hevent, hfresh⟩, -⟩ := step_write.mp h
      obtain ⟨hname, hunnamed⟩ := horder
      rw [← Option.some.inj hp] at hfiles ⊢
      obtain ⟨-, hdevice | ⟨hnone, hfile, hsame⟩ | ⟨hnone, hrecord, hgen⟩⟩ := writing_origin hfiles
      · exact PhysicalSource.of_device hg.identity hg.files hname hfree hdevice
      · refine PhysicalSource.of_file hg.identity hg.files hname hfree hnone hfile ?_
        intro hyes hpath
        have hgpu : gpu.named = true := by
          by_contra hno
          obtain ⟨e, he, hcontinues⟩ := hfile
          refine hunnamed (by simpa using hno) ⟨e, he, ?_, ?_⟩
          · rw [← hcontinues.event.deviceScoped]
            exact hyes
          · rw [← hcontinues.event.recordGpu]
            exact hpath
        rw [deviceScoped, Bool.and_eq_true] at hyes
        rw [recordGpu_same (hsame hyes.1 hgpu)] at hpath
        exact ⟨hgpu, hpath⟩
      · exact PhysicalSource.of_new hg.identity hname hfree hnone hrecord (hgen hevent) hfresh
  | claim input pid now =>
      obtain ⟨⟨hscope, hnamed, -, hfree⟩, -⟩ := step_claim.mp h
      obtain ⟨result, hresult, hp⟩ := Option.bind_eq_some_iff.mp hp
      obtain ⟨hsend, hp⟩ := Option.ite_none_right_eq_some.mp hp
      rw [← Option.some.inj hp]
      exact acquireClaim_physicalSource hg hscope horder hnamed hfree hresult hsend
  | finish path sent error now =>
      obtain ⟨c, hc, rfl⟩ := Option.map_eq_some_iff.mp hp
      obtain ⟨c', hc', hactive, -⟩ := step_finish.mp h
      obtain rfl := Option.some.inj (hc.symm.trans hc')
      exact outcome_physicalSource hg hc hactive
  | update worker gpu scope expected outcome error now =>
      obtain ⟨⟨hgpu, hfree⟩, -⟩ := step_update.mp h
      obtain ⟨hname, hother⟩ := horder
      obtain ⟨r, hr, rfl⟩ := Option.map_eq_some_iff.mp hp
      obtain ⟨-, -, -, ⟨-, hdevice⟩ | ⟨-, hnone, hfile⟩ | ⟨hscope, hfile⟩⟩ := updatedRecord_origin hr
      · exact PhysicalSource.of_device hg.identity hg.files hname hfree hdevice
      · refine PhysicalSource.of_file hg.identity hg.files hname hfree hnone hfile ?_
        intro hyes hpath
        refine ⟨hgpu, ?_⟩
        by_contra hne
        obtain ⟨e, he, hcontinues⟩ := hfile
        refine hother hne ⟨e, he, ?_, ?_⟩
        · rw [← hcontinues.event.deviceScoped]
          exact hyes
        · rw [← hcontinues.event.recordGpu]
          exact hpath
      · obtain ⟨e, he, hcontinues⟩ := hfile
        constructor
        · intro hyes _
          change deviceScoped r = true at hyes
          rw [deviceScoped, hscope, Bool.false_and] at hyes
          exact absurd hyes (by simp)
        · intro hgen
          obtain ⟨-, hsame, -⟩ := hg.files.aliases _ e he
            (hcontinues.event.generation.symm.trans hgen)
          have hphysical := hcontinues.event.physical.trans (isPhysical_of_same hsame)
          exact absurd (hscope.symm.trans hphysical) (by simp)
  | release path => exact absurd hp (by simp [State.publication])
  | clear worker gpu seen => exact absurd hp (by simp [State.publication])

/-! ### Steps -/

section Publishing

variable (hl : PhysicalIdentity l s.issued)
include hl

theorem durable_of_home_eq (store u : Store) (h : u.gpuFiles.get l.path = store.gpuFiles.get l.path) :
    (l.Durable u ↔ l.Durable store) ∧ (l.Sent u ↔ l.Sent store) := by
  rw [Latch.Durable, Latch.Durable, Latch.Sent, Latch.Sent, hl.home_eq, hl.home_eq, h]
  exact ⟨Iff.rfl, Iff.rfl⟩

/-- The device file after a publication. -/
theorem PhysicalSource.home (hsource : PhysicalSource l s a p) :
    (s.store.publish p).gpuFiles.get l.path = s.store.gpuFiles.get l.path ∨
      (recordGpu p.record = l.gpu ∧ (l.Durable s.store → generation p.record = l.generation) ∧
        l.home (s.store.publish p) = some (normalizeDeviceRecord l.gpu p.record) ∧
        SameEvent (normalizeDeviceRecord l.gpu p.record) p.record) := by
  rw [Store.gpuFiles_publish]
  by_cases hwrites : p.files = true ∧ deviceScoped p.record = true ∧
      l.path = deviceLatchPath (recordGpu p.record)
  · rw [if_pos hwrites]
    obtain ⟨hgpu, hdurable, -⟩ := hsource.device hwrites.2.1 hwrites.2.2.symm
    refine Or.inr ⟨hgpu, hdurable, ?_, normalizeDevice_of_same (same_of_deviceScoped hwrites.2.1 hgpu)⟩
    rw [hl.home_eq, Store.gpuFiles_publish, if_pos hwrites, Option.map_some]
  · rw [if_neg hwrites]
    exact Or.inl rfl

theorem PhysicalSource.durable (hsource : PhysicalSource l s a p) :
    l.Durable (s.store.publish p) ↔ l.Durable s.store := by
  rcases hsource.home hl with hsame | ⟨-, hdurable, hhome, hevent⟩
  · exact (durable_of_home_eq hl _ _ hsame).1
  · constructor
    · rintro ⟨r, hr, hgen⟩
      rw [hhome, Option.some.injEq] at hr
      rw [← hr, hevent.generation] at hgen
      obtain ⟨-, r', hr', hgen', -⟩ := hsource.latch hgen
      exact ⟨r', hr', hgen'⟩
    · intro h
      exact ⟨_, hhome, hevent.generation.trans (hdurable h)⟩

theorem PhysicalSource.follows (hsource : PhysicalSource l s a p) (hp : s.publication a = some p)
    (ht : t.store = s.store.publish p) : Follows l s a t := by
  have hdurable := hsource.durable hl
  rw [← ht] at hdurable
  rcases hsource.home hl with hsame | ⟨-, hkept, hhome, hevent⟩
  · rw [← ht] at hsame
    exact ⟨hdurable.mp, fun hsent _ => (durable_of_home_eq hl _ _ hsame).2.mpr hsent,
      fun hsent => Or.inl ((durable_of_home_eq hl _ _ hsame).2.mp hsent)⟩
  · rw [← ht] at hhome
    refine ⟨hdurable.mp, fun hsent ht' => ?_, fun hsent => ?_⟩
    · have hgen := hkept (hdurable.mp ht')
      obtain ⟨-, r, hr, -, hstays, -⟩ := hsource.latch hgen
      obtain ⟨r', hr', -, hsent⟩ := hsent
      obtain rfl := Option.some.inj (hr.symm.trans hr')
      exact ⟨_, hhome, hevent.generation.trans hgen, isSent_normalizeDevice.mpr (hstays hsent)⟩
    · obtain ⟨r', hr', hgen, hsent⟩ := hsent
      obtain rfl := Option.some.inj (hhome.symm.trans hr')
      rw [hevent.generation] at hgen
      obtain ⟨-, r, hr, hrgen, -, horigin⟩ := hsource.latch hgen
      rcases horigin (isSent_normalizeDevice.mp hsent) with hold | hmarks
      · exact Or.inl ⟨r, hr, hrgen, hold⟩
      · exact Or.inr ⟨hmarks, p, hp, hgen⟩

/-- A publication keeps the latch files of a physical latch in order. -/
theorem PhysicalSource.files (hfiles : PhysicalFiles l s.store) (hsource : PhysicalSource l s a p)
    (hvalid : p.valid) : PhysicalFiles l (s.store.publish p) := by
  have hdurable := hsource.durable hl
  constructor
  · intro gpu r hpath hr hgen
    rw [Store.gpuFiles_publish] at hr
    split_ifs at hr with hwrites
    · obtain rfl := Option.some.inj hr
      have hgpu : gpu ≠ l.gpu := by
        rintro rfl
        exact hpath rfl
      obtain ⟨hsame, -⟩ := hsource.latch (hl.of_normalizeDevice hgpu hgen)
      rw [recordGpu_same hsame] at hwrites
      exact hpath hwrites.2.2
    · exact hfiles.devices gpu r hpath hr hgen
  · intro path r hr hgen
    rw [Store.workerFiles_publish] at hr
    split_ifs at hr with hwrites
    · obtain rfl := Option.some.inj hr
      obtain ⟨hsame, r, hr, hrgen, -⟩ := hsource.latch (hl.of_alias hgen)
      refine ⟨state_aliasRecord.trans hvalid, ?_, hdurable.mpr ⟨r, hr, hrgen⟩⟩
      refine same_of_deviceScoped ?_ (recordGpu_alias.trans (recordGpu_same hsame))
      rw [deviceScoped_alias]
      exact deviceScoped_of_same hsame
    · obtain ⟨hstate, hsame, hold⟩ := hfiles.aliases path r hr hgen
      exact ⟨hstate, hsame, hdurable.mpr hold⟩
  · intro path r hr hscoped hpath
    rw [Store.workerFiles_publish] at hr
    split_ifs at hr with hwrites
    · obtain rfl := Option.some.inj hr
      rw [deviceScoped_alias] at hscoped
      rw [recordGpu_alias] at hpath ⊢
      exact (hsource.device hscoped hpath).1
    · exact hfiles.names path r hr hscoped hpath

end Publishing

/-! ### Clears -/

section Clearing

variable (hl : PhysicalIdentity l s.issued) {seen : List WorkerId}
include hl

/-- A clear of another GPU leaves the latch, and a clear of its GPU removes it. -/
theorem home_clear (store : Store) (worker : WorkerId) (seen : List WorkerId) (hname : l.sameName gpu) :
    ((store.clear worker gpu seen).gpuFiles.get l.path = store.gpuFiles.get l.path) ∨
      (gpu = l.gpu ∧ gpu.named = true ∧ l.home (store.clear worker gpu seen) = none) := by
  by_cases hgpu : gpu.named = true ∧ l.path = deviceLatchPath gpu
  · obtain rfl := hname hgpu.1 hgpu.2.symm
    refine Or.inr ⟨rfl, hgpu.1, ?_⟩
    rw [hl.home_eq, gpuFiles_clear, if_pos hgpu, Option.map_none]
  · rw [gpuFiles_clear, if_neg hgpu]
    exact Or.inl rfl

theorem follows_clear (hname : l.sameName gpu) (ht : t.store = s.store.clear worker gpu seen) :
    Follows l s a t := by
  rcases home_clear hl s.store worker seen hname with hsame | ⟨-, -, hnone⟩
  · rw [← ht] at hsame
    have hboth := durable_of_home_eq hl _ _ hsame
    exact ⟨hboth.1.mp, fun hsent _ => hboth.2.mpr hsent, fun hsent => Or.inl (hboth.2.mp hsent)⟩
  · rw [← ht] at hnone
    refine ⟨?_, ?_, ?_⟩
    · rintro ⟨r, hr, -⟩
      exact absurd (hnone.symm.trans hr) (by simp)
    · rintro - ⟨r, hr, -⟩
      exact absurd (hnone.symm.trans hr) (by simp)
    · rintro ⟨r, hr, -⟩
      exact absurd (hnone.symm.trans hr) (by simp)

theorem PhysicalFiles.clear (hfiles : PhysicalFiles l store) (hname : l.sameName gpu) :
    PhysicalFiles l (store.clear worker gpu seen) := by
  constructor
  · intro gpu' r hpath hr
    rw [gpuFiles_clear] at hr
    split_ifs at hr with hwrites
    exact hfiles.devices gpu' r hpath hr
  · intro path r hr hgen
    obtain ⟨hold, -, hkept⟩ := workerFile_of_clear hr
    obtain ⟨hstate, hsame, hdurable⟩ := hfiles.aliases path r hold hgen
    refine ⟨hstate, hsame, ?_⟩
    rcases home_clear hl store worker seen hname with
      hhome | ⟨rfl, hnamed, -⟩
    · exact (durable_of_home_eq hl _ _ hhome).1.mpr hdurable
    · have hclears : clearsFile l.gpu r = true := by
        have hphysical := isPhysical_of_same hsame
        simp only [samePhysicalGpu, Bool.and_eq_true, decide_eq_true_eq] at hsame
        simp [clearsFile, hstate, hphysical, hsame.1.2, hsame.2]
      exact absurd ((hkept hnamed).symm.trans hclears) (by simp)
  · intro path r hr
    exact hfiles.names path r (workerFile_of_clear hr).1

end Clearing

/-! ### Claims -/

/-- The claim that a call makes is about the device file as the claim leaves it. -/
theorem PhysicalClaims.claim (hg : PhysicalGuard l s) {input : Record} {pid now : String}
    (hname : l.sameName (recordGpu input)) (h : step s (.claim input pid now) = some t)
    {c : Claim} (hc : t.held (deviceLatchPath (recordGpu input)) = some c) (hactive : c.active) :
    (isPhysical c.record = true →
      deviceScoped c.record = true ∧ recordGpu c.record = recordGpu input ∧
        (deviceLatchPath (recordGpu input) = l.path → recordGpu c.record = l.gpu ∧
          t.store.gpuFiles.get l.path = some c.record)) ∧
      (generation c.record = l.generation → isPhysical c.record = true ∧
        deviceLatchPath (recordGpu input) = l.path ∧ pageState c.record = some "sending") := by
  obtain ⟨⟨hscope, hnamed, -, -⟩, -⟩ := step_claim.mp h
  obtain ⟨-, -, hsending, horigin⟩ := acquireClaim_origin (claim_result h hc) hscope hactive.1
  rcases horigin with ⟨d, hd, -, hevent⟩ | ⟨-, e, he, -, hescope, hevent⟩
  · have hsame := hevent.samePhysicalGpu.trans (samePhysicalGpu_normalizeDevice (r := d) hnamed)
    have hscoped := deviceScoped_of_same hsame
    refine ⟨fun _ => ⟨hscoped, recordGpu_same hsame, fun hpath => ?_⟩, fun hgen => ?_⟩
    · refine ⟨(recordGpu_same hsame).trans (hname hnamed hpath), ?_⟩
      rw [claim_published h hc hactive.1, Store.gpuFiles_publish, if_pos]
      refine ⟨rfl, hscoped, ?_⟩
      rw [recordGpu_same hsame, hpath]
    · refine ⟨isPhysical_of_same hsame, ?_, hsending⟩
      by_contra hpath
      exact hg.files.devices _ d hpath hd (hevent.generation.symm.trans hgen)
  · have hephysical : isPhysical e = false := by
      rw [isPhysical, hescope]
      decide
    refine ⟨fun hphysical => ?_, fun hgen => ?_⟩
    · rw [hevent.physical, hephysical] at hphysical
      exact absurd hphysical (by simp)
    · obtain ⟨-, hsame, -⟩ := hg.files.aliases _ e he (hevent.generation.symm.trans hgen)
      exact absurd (hephysical.symm.trans (isPhysical_of_same hsame)) (by simp)

/-- While a claim holds the lock of the latch only its completion writes the device file. -/
theorem file_kept (hg : PhysicalGuard l s) (horder : l.physicalOrder s.store a)
    (hread : ∀ worker gpu, a ≠ .read worker gpu) (h : step s a = some t) {c : Claim}
    (hheld : s.held l.path = some c) (hfinish : ∀ sent error now, a ≠ .finish l.path sent error now) :
    t.store.gpuFiles.get l.path = s.store.gpuFiles.get l.path := by
  cases hclear : a.isClear with
  | true =>
      cases a with
      | clear worker gpu seen =>
          obtain ⟨hfree, rfl⟩ := step_clear.mp h
          change (s.store.clear worker gpu seen).gpuFiles.get l.path = _
          rw [gpuFiles_clear, if_neg]
          rintro ⟨hnamed, hpath⟩
          rw [hpath, hfree hnamed] at hheld
          exact absurd hheld (by simp)
      | _ => exact absurd hclear (by simp [Action.isClear])
  | false =>
      rw [step_publishes h hclear]
      cases hp : s.publication a with
      | none => rfl
      | some p =>
          rw [Option.map_some, Option.getD_some, Store.gpuFiles_publish, if_neg]
          rintro ⟨hfiles, hscoped, hpath⟩
          obtain ⟨-, -, hnone | ⟨sent, error, now, heq⟩⟩ :=
            (physicalSource hg horder hread h hp hfiles).device hscoped hpath.symm
          · exact absurd (hheld.symm.trans hnone) (by simp)
          · exact hfinish sent error now heq

theorem PhysicalGuard.claims_step (hg : PhysicalGuard l s) (horder : l.physicalOrder s.store a)
    (hread : ∀ worker gpu, a ≠ .read worker gpu) (h : step s a = some t) : PhysicalClaims l t := by
  have hcases : ∀ path c, t.held path = some c → c.active → (isPhysical c.record = true →
      deviceScoped c.record = true ∧ deviceLatchPath (recordGpu c.record) = path ∧
        (path = l.path → recordGpu c.record = l.gpu ∧ t.store.gpuFiles.get l.path = some c.record)) ∧
      (generation c.record = l.generation →
        isPhysical c.record = true ∧ path = l.path ∧ pageState c.record = some "sending") := by
    intro path c hc hactive
    rcases held_step h hc hactive with ⟨input, pid, now, rfl, rfl⟩ | ⟨hheld, hfinish⟩
    · obtain ⟨hphysical, hgen⟩ := PhysicalClaims.claim hg horder h hc hactive
      refine ⟨fun hyes => ?_, hgen⟩
      obtain ⟨hscoped, hrecord, hfile⟩ := hphysical hyes
      exact ⟨hscoped, congrArg deviceLatchPath hrecord, hfile⟩
    · refine ⟨fun hphysical => ?_, hg.claims.latch path c hheld hactive⟩
      obtain ⟨hscoped, hpath, hstored⟩ := hg.claims.path path c hheld hactive hphysical
      refine ⟨hscoped, hpath, fun heq => ⟨(hstored heq).1, ?_⟩⟩
      subst heq
      rw [file_kept hg horder hread h hheld hfinish]
      exact (hstored rfl).2
  exact ⟨fun path c hc hactive => (hcases path c hc hactive).1,
    fun path c hc hactive => (hcases path c hc hactive).2⟩

theorem PhysicalIdentity.mono {more : List Generation} (hl : PhysicalIdentity l issued) :
    PhysicalIdentity l (more ++ issued) :=
  ⟨hl.owner, hl.named, fun id hid => List.mem_append_right more (hl.issued id hid), hl.legacy⟩

/-- **Operations in order keep a physical latch.** -/
theorem PhysicalGuard.step (hg : PhysicalGuard l s) (horder : l.physicalOrder s.store a)
    (hread : ∀ worker gpu, a ≠ .read worker gpu) (h : step s a = some t) :
    PhysicalGuard l t ∧ Follows l s a t := by
  have hidentity : PhysicalIdentity l t.issued := by
    rw [step_created h]
    exact hg.identity.mono
  have hclaims := hg.claims_step horder hread h
  have hvalid := step_claimsValid hg.valid h
  suffices hstore : PhysicalFiles l t.store ∧ Follows l s a t from
    ⟨⟨hidentity, hstore.1, hclaims, hvalid⟩, hstore.2⟩
  cases hclear : a.isClear with
  | true =>
      cases a with
      | clear worker gpu seen =>
          obtain ⟨-, rfl⟩ := step_clear.mp h
          exact ⟨hg.files.clear hg.identity horder, follows_clear hg.identity horder rfl⟩
      | _ => exact absurd hclear (by simp [Action.isClear])
  | false =>
      have ht := step_publishes h hclear
      have hquiet : t.store.gpuFiles = s.store.gpuFiles → t.store.workerFiles = s.store.workerFiles →
          PhysicalFiles l t.store ∧ Follows l s a t := by
        intro hgpus hworkers
        have hboth := durable_of_home_eq hg.identity s.store t.store (by rw [hgpus])
        refine ⟨⟨?_, ?_, ?_⟩, hboth.1.mp, fun hsent _ => hboth.2.mpr hsent,
          fun hsent => Or.inl (hboth.2.mp hsent)⟩
        · rw [hgpus]
          exact hg.files.devices
        · rw [hworkers]
          intro path r hr hgen
          obtain ⟨hstate, hsame, hdurable⟩ := hg.files.aliases path r hr hgen
          exact ⟨hstate, hsame, hboth.1.mpr hdurable⟩
        · rw [hworkers]
          exact hg.files.names
      cases hp : s.publication a with
      | none =>
          rw [hp] at ht
          exact hquiet (by rw [ht]; rfl) (by rw [ht]; rfl)
      | some p =>
          rw [hp, Option.map_some, Option.getD_some] at ht
          cases hfiles : p.files with
          | false =>
              have hsame : (s.store.publish p).gpuFiles = s.store.gpuFiles ∧
                  (s.store.publish p).workerFiles = s.store.workerFiles := Store.files_publish hfiles
              obtain ⟨hgpus, hworkers⟩ := hsame
              exact hquiet (by rw [ht, hgpus]) (by rw [ht, hworkers])
          | true =>
              have hsource := physicalSource hg horder hread h hp hfiles
              refine ⟨?_, hsource.follows hg.identity hp ht⟩
              rw [ht]
              exact hsource.files hg.identity hg.files (publication_valid hg.valid h hp)

end KernelGym.Quarantine
