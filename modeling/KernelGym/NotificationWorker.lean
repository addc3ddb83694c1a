import KernelGym.NotificationOrigins

/-! The exclusion of one worker in the latch files. The latch file of the worker holds it and nothing else
does, and the operations in order on that file run under the lock of the GPU. -/

namespace KernelGym.Quarantine

open Library

/-- A generation that an exclusion of the worker may have, and that no later write creates. -/
structure WorkerIdentity (l : Latch) (owner : WorkerId) (issued : List Generation) : Prop where
  excludes : l.owner = some owner
  named : l.gpu.named = true
  issued : ∀ id, l.generation = .event id → .event id ∈ issued
  legacy : ∀ i, l.generation = .legacy i → i.scope ≠ "physical_gpu" ∧ i.workerId = owner

/-- The latch files of an exclusion: only the file of its worker holds it. -/
structure WorkerFiles (l : Latch) (owner : WorkerId) (s : Store) : Prop where
  owned : ∀ r, s.workerFiles.get (workerLatchPath owner) = some r → r.get "worker_id" = some owner
  devices : ∀ path r, s.gpuFiles.get path = some r → generation r ≠ l.generation
  holders : ∀ path r, s.workerFiles.get path = some r → generation r = l.generation →
    path = workerLatchPath owner ∧ r.get "scope" = some "worker_process"

/-- The claims on the latch file of the worker: the claim of the latch is about the file as it stands. -/
structure WorkerClaims (l : Latch) (owner : WorkerId) (s : State) : Prop where
  path : ∀ path c, s.held path = some c → c.active → workerLatchPath c.workerId = workerLatchPath owner →
    c.workerId = owner ∧ path = l.path ∧
      (isPhysical c.record = true ∨ c.record.get "worker_id" = some owner)
  latch : ∀ path c, s.held path = some c → c.active → generation c.record = l.generation →
    workerLatchPath c.workerId = workerLatchPath owner ∧ c.record.get "scope" = some "worker_process" ∧
      pageState c.record = some "sending" ∧
      s.store.workerFiles.get (workerLatchPath owner) = some c.record

structure WorkerGuard (l : Latch) (owner : WorkerId) (s : State) : Prop where
  identity : WorkerIdentity l owner s.issued
  files : WorkerFiles l owner s.store
  claims : WorkerClaims l owner s

variable {l : Latch} {owner : WorkerId} {s t : State} {a : Action} {p : Publication} {store : Store}
  {r e : Record} {worker : WorkerId} {gpu : Gpu} {issued : List Generation}

theorem not_physical_of_worker (h : r.get "scope" = some "worker_process") : isPhysical r = false := by
  rw [isPhysical, h]
  decide

/-! ### Generations of copies -/

namespace WorkerIdentity

variable (h : WorkerIdentity l owner issued)
include h

theorem home_eq : l.home store = (store.workerFiles.get (workerLatchPath owner)).filter
    fun r => r.get "scope" = some "worker_process" := by
  rw [Latch.home, h.excludes]

/-- A physical record is of the latch's generation by its event id or its time. -/
theorem of_normalizeDevice (hgen : generation (normalizeDeviceRecord gpu r) = l.generation) :
    generation r = l.generation := by
  have htext : ∀ key, key ≠ "scope" → key ≠ "hostname" → key ≠ "device" →
      text r key = text (normalizeDeviceRecord gpu r) key := by
    intro key hscope hhost hdevice
    rw [text, text, normalizeDeviceRecord, Dict.get_set_of_ne _ hdevice, Dict.get_set_of_ne _ hhost,
      Dict.get_set_of_ne _ hscope]
  rcases generation_same_or_legacy (htext "event_id" (by decide) (by decide) (by decide))
    (htext "created_at" (by decide) (by decide) (by decide)) with hsame | ⟨-, hlegacy⟩
  · exact hsame.trans hgen
  · refine absurd ?_ (h.legacy _ (hgen.symm.trans hlegacy)).1
    simp [legacyIdentity, text, normalizeDeviceRecord, Dict.get_set]

/-- An alias has the latch's generation only if the record has it, unless it makes the record one of the
worker. -/
theorem of_alias
    (hworker : worker = owner → isPhysical r = true ∨ r.get "worker_id" = some owner)
    (hgen : generation (aliasRecord worker r) = l.generation) : generation r = l.generation := by
  rcases generation_same_or_legacy
    (alias_text worker r "event_id" (by decide) (by decide)).symm
    (alias_text _ _ "created_at" (by decide) (by decide)).symm with hsame | ⟨-, hlegacy⟩
  · exact hsame.trans hgen
  · obtain ⟨hscope, hid⟩ := h.legacy _ (hgen.symm.trans hlegacy)
    have hnot : text (aliasRecord worker r) "scope" ≠ "physical_gpu" := hscope
    have howner : worker = owner := by
      change (if text (aliasRecord worker r) "scope" = "physical_gpu" then "" else
        text (aliasRecord worker r) "worker_id") = owner at hid
      rw [if_neg hnot, text, worker_alias, Option.getD_some] at hid
      exact hid
    rcases hworker howner with hphysical | hsame
    · refine absurd ?_ hnot
      rw [alias_text _ _ "scope" (by decide) (by decide), text, of_decide_eq_true hphysical,
        Option.getD_some]
    · rw [aliasRecord, if_pos (howner ▸ hsame)] at hgen
      exact hgen

end WorkerIdentity

/-! ### What operations in order publish -/

/-- A publication into the files respects the exclusion. -/
structure WorkerSource (l : Latch) (owner : WorkerId) (s : State) (a : Action) (p : Publication) :
    Prop where
  /-- The file of the worker is written by the worker, under the lock of the latch. -/
  file : workerLatchPath p.worker = workerLatchPath owner → p.worker = owner ∧
    (s.held l.path = none ∨ ∃ sent error now, a = .finish l.path sent error now)
  stored : generation (aliasRecord p.worker p.record) = l.generation →
    generation p.record = l.generation
  /-- A copy of the latch continues the file of the worker. -/
  latch : generation p.record = l.generation →
    workerLatchPath p.worker = workerLatchPath owner ∧ p.record.get "scope" = some "worker_process" ∧
      ∃ r, l.home s.store = some r ∧ generation r = l.generation ∧ (isSent r → isSent p.record) ∧
        (isSent p.record → isSent r ∨ a.marksSent)

section Sources

variable (hl : WorkerIdentity l owner s.issued) (hfiles : WorkerFiles l owner s.store)
include hl

/-- The latch is in its worker's file. -/
theorem home_of_holder (hr : s.store.workerFiles.get (workerLatchPath owner) = some r)
    (hscope : r.get "scope" = some "worker_process") : l.home s.store = some r := by
  rw [hl.home_eq, hr, Option.filter_some, if_pos (decide_eq_true hscope)]

theorem lock_free (hfree : s.free l.gpu) : s.held l.path = none := hfree hl.named

include hfiles

/-- A record that continues a device file is not of the latch. -/
theorem WorkerSource.of_device {marked : Prop} (hfile : workerLatchPath p.worker = workerLatchPath owner →
      p.worker = owner ∧ (s.held l.path = none ∨ ∃ sent error now, a = .finish l.path sent error now))
    (hfrom : FromDevice s.store gpu marked p.record) : WorkerSource l owner s a p := by
  obtain ⟨hgpu, d, hd, hcontinues⟩ := hfrom
  refine ⟨hfile, hl.of_alias fun _ => Or.inl ?_, fun hgen => ?_⟩
  · rw [hcontinues.event.physical]
    exact isPhysical_of_same (samePhysicalGpu_normalizeDevice hgpu)
  · have hdgen := hl.of_normalizeDevice (hcontinues.event.generation.symm.trans hgen)
    exact absurd hdgen (hfiles.devices _ d hd)

/-- A record that continues the latch file of the publishing worker. -/
theorem WorkerSource.of_file (hfile : workerLatchPath p.worker = workerLatchPath owner →
      p.worker = owner ∧ (s.held l.path = none ∨ ∃ sent error now, a = .finish l.path sent error now))
    (hfrom : FromFile s.store p.worker a.marksSent p.record) : WorkerSource l owner s a p := by
  obtain ⟨e, he, hcontinues⟩ := hfrom
  refine ⟨hfile, hl.of_alias fun howner => Or.inr ?_, fun hgen => ?_⟩
  · rw [hcontinues.event "worker_id" (by decide)]
    rw [howner] at he
    exact hfiles.owned e he
  · have hegen := hcontinues.event.generation.symm.trans hgen
    obtain ⟨hpath, hscope⟩ := hfiles.holders _ e he hegen
    refine ⟨hpath, (hcontinues.event "scope" (by decide)).trans hscope, e, ?_, hegen, hcontinues.sent,
      hcontinues.origin⟩
    rw [hpath] at he
    exact home_of_holder hl he hscope

omit hfiles in
/-- A new event is not the latch's. -/
theorem WorkerSource.of_new {id : String} (hfile : workerLatchPath p.worker = workerLatchPath owner →
      p.worker = owner ∧ (s.held l.path = none ∨ ∃ sent error now, a = .finish l.path sent error now))
    (hgen : generation p.record = .event id) (hfresh : .event id ∉ s.issued) :
    WorkerSource l owner s a p := by
  have hnot : generation p.record ≠ l.generation := by
    intro hlatch
    exact hfresh (hl.issued id (hlatch.symm.trans hgen))
  refine ⟨hfile, fun halias => ?_, fun hlatch => absurd hlatch hnot⟩
  rcases generation_same_or_legacy
    (alias_text p.worker p.record "event_id" (by decide) (by decide)).symm
    (alias_text _ _ "created_at" (by decide) (by decide)).symm with hsame | ⟨hlegacy, -⟩
  · exact hsame.trans halias
  · exact absurd (hgen.symm.trans hlegacy) (by simp)

end Sources

/-- An operation of a worker writes the file of the worker under the lock that it names. -/
theorem file_of_order (hl : WorkerIdentity l owner s.issued) (hfree : s.free gpu)
    (horder : workerLatchPath worker = workerLatchPath owner → worker = owner ∧ gpu = l.gpu)
    (hworker : p.worker = worker) : workerLatchPath p.worker = workerLatchPath owner →
      p.worker = owner ∧ (s.held l.path = none ∨ ∃ sent error now, a = .finish l.path sent error now) := by
  intro hpath
  rw [hworker] at hpath ⊢
  obtain ⟨howner, rfl⟩ := horder hpath
  exact ⟨howner, Or.inl (lock_free hl hfree)⟩

/-- What an operation in order writes into the latch files respects the exclusion. -/
theorem workerSource (hg : WorkerGuard l owner s) (horder : l.workerOrder owner a)
    (hread : ∀ worker gpu, a ≠ .read worker gpu) (h : step s a = some t)
    (hp : s.publication a = some p) (hfiles : p.files = true) : WorkerSource l owner s a p := by
  cases a with
  | read worker gpu => exact absurd rfl (hread worker gpu)
  | write worker gpu fault physicalScope eventId now =>
      obtain ⟨⟨hfree, hevent, hfresh⟩, -⟩ := step_write.mp h
      rw [← Option.some.inj hp] at hfiles ⊢
      obtain ⟨hworker, horigin⟩ := writing_origin hfiles
      have hfile := file_of_order (a := .write worker gpu fault physicalScope eventId now)
        hg.identity hfree horder hworker
      rcases horigin with hdevice | ⟨-, hold, -⟩ | ⟨-, -, hgen⟩
      · exact WorkerSource.of_device hg.identity hg.files hfile hdevice
      · refine WorkerSource.of_file hg.identity hg.files hfile ?_
        rw [hworker]
        exact hold
      · exact WorkerSource.of_new hg.identity hfile (hgen hevent) hfresh
  | claim input pid now =>
      obtain ⟨⟨hscope, hnamed, -, hfree⟩, -⟩ := step_claim.mp h
      obtain ⟨result, hresult, hp⟩ := Option.bind_eq_some_iff.mp hp
      obtain ⟨hsend, hp⟩ := Option.ite_none_right_eq_some.mp hp
      rw [← Option.some.inj hp]
      obtain ⟨hworker, -, hsending, horigin⟩ := acquireClaim_origin hresult hscope hsend
      have hfile := file_of_order (a := .claim input pid now)
        (p := { worker := result.2.workerId, record := result.2.record }) hg.identity hfree horder hworker
      have hunsent : ¬isSent result.2.record := by
        rw [isSent, hsending]
        decide
      rcases horigin with ⟨d, hd, hold, hevent⟩ | ⟨-, e, he, hold, -, hevent⟩
      · have hfrom : FromDevice s.store (recordGpu input) False result.2.record :=
          ⟨hnamed, d, hd, hevent, fun hsent => absurd (isSent_normalizeDevice.mp hsent) hold,
            fun hsent => absurd hsent hunsent⟩
        exact WorkerSource.of_device hg.identity hg.files hfile hfrom
      · refine WorkerSource.of_file hg.identity hg.files hfile ⟨e, ?_, hevent,
          fun hsent => absurd hsent hold, fun hsent => absurd hsent hunsent⟩
        change s.store.workerFiles.get (workerLatchPath result.2.workerId) = some e
        rw [hworker]
        exact he
  | finish path sent error now =>
      obtain ⟨c, hc, rfl⟩ := Option.map_eq_some_iff.mp hp
      obtain ⟨c', hc', hactive, -⟩ := step_finish.mp h
      obtain rfl := Option.some.inj (hc.symm.trans hc')
      have hevent := sameEvent_outcome c sent error now
      refine ⟨fun hpath => ?_, fun halias => ?_, fun hgen => ?_⟩
      · obtain ⟨howner, hlock, -⟩ := hg.claims.path path c hc hactive hpath
        exact ⟨howner, Or.inr ⟨sent, error, now, by rw [hlock]⟩⟩
      · refine hg.identity.of_alias (fun howner => ?_) halias
        change c.workerId = owner at howner
        obtain ⟨-, -, hkind⟩ := hg.claims.path path c hc hactive (by rw [howner])
        change isPhysical (c.outcome sent error now) = true ∨
          (c.outcome sent error now).get "worker_id" = some owner
        rw [hevent.physical, hevent "worker_id" (by decide)]
        exact hkind
      · obtain ⟨hpath, hscope, hsending, hstored⟩ :=
          hg.claims.latch path c hc hactive (hevent.generation.symm.trans hgen)
        refine ⟨hpath, (hevent "scope" (by decide)).trans hscope, c.record,
          home_of_holder hg.identity hstored hscope, hevent.generation.symm.trans hgen,
          fun hsent => ?_, fun hsent => Or.inr ?_⟩
        · rw [isSent, hsending] at hsent
          exact absurd hsent (by decide)
        · change isSent (c.outcome sent error now) at hsent
          rw [isSent, pageState_outcome] at hsent
          cases sent
          · exact absurd hsent (by decide)
          · rfl
  | update worker gpu scope expected outcome error now =>
      obtain ⟨⟨-, hfree⟩, -⟩ := step_update.mp h
      obtain ⟨r, hr, rfl⟩ := Option.map_eq_some_iff.mp hp
      have hfile := file_of_order (a := .update worker gpu scope expected outcome error now)
        (p := Store.everywhere worker r) hg.identity hfree horder rfl
      obtain ⟨-, -, -, ⟨-, hdevice⟩ | ⟨-, -, hold⟩ | ⟨-, hold⟩⟩ := updatedRecord_origin hr
      · exact WorkerSource.of_device hg.identity hg.files hfile hdevice
      · exact WorkerSource.of_file hg.identity hg.files hfile hold
      · exact WorkerSource.of_file hg.identity hg.files hfile hold
  | release path => exact absurd hp (by simp [State.publication])
  | clear worker gpu seen => exact absurd hp (by simp [State.publication])

/-! ### Steps -/

section Publishing

variable (hl : WorkerIdentity l owner s.issued)
include hl

theorem worker_home_eq (store u : Store) (h : u.workerFiles.get (workerLatchPath owner) =
    store.workerFiles.get (workerLatchPath owner)) :
    (l.Durable u ↔ l.Durable store) ∧ (l.Sent u ↔ l.Sent store) := by
  rw [Latch.Durable, Latch.Durable, Latch.Sent, Latch.Sent, hl.home_eq, hl.home_eq, h]
  exact ⟨Iff.rfl, Iff.rfl⟩

theorem WorkerSource.follows (hsource : WorkerSource l owner s a p) (hp : s.publication a = some p)
    (ht : t.store = s.store.publish p) : Follows l s a t := by
  by_cases hwrites : p.files = true ∧ workerLatchPath owner = workerLatchPath p.worker
  · have hhome : l.home t.store = (some (aliasRecord p.worker p.record)).filter
        fun r => r.get "scope" = some "worker_process" := by
      rw [hl.home_eq, ht, Store.workerFiles_publish, if_pos hwrites]
    have hrecord : ∀ r, l.home t.store = some r → generation r = l.generation →
        r = aliasRecord p.worker p.record ∧ generation p.record = l.generation := by
      intro r hr hgen
      rw [hhome] at hr
      obtain rfl := Option.some.inj (Option.filter_eq_some_iff.mp hr).1
      exact ⟨rfl, hsource.stored hgen⟩
    have hsent : isSent (aliasRecord p.worker p.record) ↔ isSent p.record := by
      rw [isSent, isSent, pageState, pageState, alias_get (by decide) (by decide)]
    constructor
    · rintro ⟨r, hr, hgen⟩
      obtain ⟨-, -, r', hr', hgen', -⟩ := hsource.latch (hrecord r hr hgen).2
      exact ⟨r', hr', hgen'⟩
    · rintro ⟨r, hr, -, hold⟩ ⟨r', hr', hgen⟩
      obtain ⟨rfl, hpgen⟩ := hrecord r' hr' hgen
      obtain ⟨-, -, r'', hr'', -, hstays, -⟩ := hsource.latch hpgen
      obtain rfl := Option.some.inj (hr.symm.trans hr'')
      exact ⟨_, hr', hgen, hsent.mpr (hstays hold)⟩
    · rintro ⟨r', hr', hgen, hnew⟩
      obtain ⟨rfl, hpgen⟩ := hrecord r' hr' hgen
      obtain ⟨-, -, r, hr, hrgen, -, horigin⟩ := hsource.latch hpgen
      rcases horigin (hsent.mp hnew) with hold | hmarks
      · exact Or.inl ⟨r, hr, hrgen, hold⟩
      · exact Or.inr ⟨hmarks, p, hp, hpgen⟩
  · have hboth := worker_home_eq hl s.store t.store (by
      rw [ht, Store.workerFiles_publish, if_neg hwrites])
    exact ⟨hboth.1.mp, fun hsent _ => hboth.2.mpr hsent, fun hsent => Or.inl (hboth.2.mp hsent)⟩

omit hl in
/-- A publication keeps the latch files of an exclusion in order. -/
theorem WorkerSource.files (hfiles : WorkerFiles l owner s.store)
    (hsource : WorkerSource l owner s a p) : WorkerFiles l owner (s.store.publish p) := by
  constructor
  · intro r hr
    rw [Store.workerFiles_publish] at hr
    split_ifs at hr with hwrites
    · obtain rfl := Option.some.inj hr
      rw [worker_alias, (hsource.file hwrites.2.symm).1]
    · exact hfiles.owned r hr
  · intro path r hr hgen
    rw [Store.gpuFiles_publish] at hr
    split_ifs at hr with hwrites
    · obtain rfl := Option.some.inj hr
      obtain ⟨-, hscope, -⟩ := hsource.latch hgen
      rw [deviceScoped, not_physical_of_worker hscope, Bool.false_and] at hwrites
      exact absurd hwrites.2.1 (by simp)
    · exact hfiles.devices path r hr hgen
  · intro path r hr hgen
    rw [Store.workerFiles_publish] at hr
    split_ifs at hr with hwrites
    · obtain rfl := Option.some.inj hr
      obtain ⟨hpath, hscope, -⟩ := hsource.latch (hsource.stored hgen)
      refine ⟨hwrites.2.trans hpath, ?_⟩
      rw [alias_get (by decide) (by decide)]
      exact hscope
    · exact hfiles.holders path r hr hgen

end Publishing

section Clearing

variable {seen : List WorkerId}

theorem worker_follows_clear (hl : WorkerIdentity l owner s.issued)
    (ht : t.store = s.store.clear worker gpu seen) : Follows l s a t := by
  have hhome : ∀ r, l.home t.store = some r → l.home s.store = some r := by
    intro r hr
    rw [hl.home_eq, ht] at hr
    obtain ⟨hr, hscope⟩ := Option.filter_eq_some_iff.mp hr
    exact home_of_holder hl (workerFile_of_clear hr).1 (of_decide_eq_true hscope)
  constructor
  · rintro ⟨r, hr, hgen⟩
    exact ⟨r, hhome r hr, hgen⟩
  · rintro ⟨r, hr, -, hsent⟩ ⟨r', hr', hgen⟩
    obtain rfl := Option.some.inj (hr.symm.trans (hhome r' hr'))
    exact ⟨_, hr', hgen, hsent⟩
  · rintro ⟨r, hr, hgen, hsent⟩
    exact Or.inl ⟨r, hhome r hr, hgen, hsent⟩

theorem WorkerFiles.clear (hfiles : WorkerFiles l owner store) :
    WorkerFiles l owner (store.clear worker gpu seen) := by
  constructor
  · intro r hr
    exact hfiles.owned r (workerFile_of_clear hr).1
  · intro path r hr
    rw [gpuFiles_clear] at hr
    split_ifs at hr with hwrites
    exact hfiles.devices path r hr
  · intro path r hr
    exact hfiles.holders path r (workerFile_of_clear hr).1

end Clearing

/-! ### Claims -/

/-- The claim that a call makes of the exclusion is about the worker's file as the claim leaves it. -/
theorem WorkerClaims.claim (hg : WorkerGuard l owner s) {input : Record} {pid now : String}
    (horder : l.workerOrder owner (.claim input pid now)) (h : step s (.claim input pid now) = some t)
    {c : Claim} (hc : t.held (deviceLatchPath (recordGpu input)) = some c) (hactive : c.active) :
    (workerLatchPath c.workerId = workerLatchPath owner →
      c.workerId = owner ∧ deviceLatchPath (recordGpu input) = l.path ∧
        (isPhysical c.record = true ∨ c.record.get "worker_id" = some owner)) ∧
      (generation c.record = l.generation →
        workerLatchPath c.workerId = workerLatchPath owner ∧
          c.record.get "scope" = some "worker_process" ∧ pageState c.record = some "sending" ∧
          t.store.workerFiles.get (workerLatchPath owner) = some c.record) := by
  obtain ⟨⟨hscope, hnamed, -, -⟩, -⟩ := step_claim.mp h
  obtain ⟨hworker, -, hsending, horigin⟩ := acquireClaim_origin (claim_result h hc) hscope hactive.1
  have howned : workerLatchPath c.workerId = workerLatchPath owner →
      c.workerId = owner ∧ deviceLatchPath (recordGpu input) = l.path := by
    intro hpath
    rw [hworker] at hpath ⊢
    obtain ⟨howner, hgpu⟩ := horder hpath
    exact ⟨howner, congrArg deviceLatchPath hgpu⟩
  rcases horigin with ⟨d, hd, -, hevent⟩ | ⟨-, e, he, -, hescope, hevent⟩
  · have hphysical := hevent.physical.trans
      (isPhysical_of_same (samePhysicalGpu_normalizeDevice (r := d) hnamed))
    refine ⟨fun hpath => ⟨(howned hpath).1, (howned hpath).2, Or.inl hphysical⟩, fun hgen => ?_⟩
    exact absurd (hg.identity.of_normalizeDevice (hevent.generation.symm.trans hgen))
      (hg.files.devices _ d hd)
  · rw [← hworker] at he
    have hid : workerLatchPath c.workerId = workerLatchPath owner →
        c.record.get "worker_id" = some owner := by
      intro hpath
      rw [hpath] at he
      exact (hevent "worker_id" (by decide)).trans (hg.files.owned e he)
    refine ⟨fun hpath => ⟨(howned hpath).1, (howned hpath).2, Or.inr (hid hpath)⟩, fun hgen => ?_⟩
    obtain ⟨hpath, hscope⟩ := hg.files.holders _ e he (hevent.generation.symm.trans hgen)
    refine ⟨hpath, (hevent "scope" (by decide)).trans hscope, hsending, ?_⟩
    rw [claim_published h hc hactive.1, Store.workerFiles_publish, if_pos ⟨rfl, hpath.symm⟩, aliasRecord,
      if_pos]
    rw [hid hpath, (howned hpath).1]

/-- While the claim of the latch holds its lock only its completion writes the file of the worker. -/
theorem worker_file_kept (hg : WorkerGuard l owner s) (horder : l.workerOrder owner a)
    (hread : ∀ worker gpu, a ≠ .read worker gpu) (h : step s a = some t) {c : Claim}
    (hheld : s.held l.path = some c) (hfinish : ∀ sent error now, a ≠ .finish l.path sent error now)
    (hr : s.store.workerFiles.get (workerLatchPath owner) = some r)
    (hscope : r.get "scope" = some "worker_process") :
    t.store.workerFiles.get (workerLatchPath owner) = some r := by
  cases hclear : a.isClear with
  | true =>
      cases a with
      | clear worker gpu seen =>
          obtain ⟨hfree, rfl⟩ := step_clear.mp h
          have hpath : workerLatchPath owner ≠ workerLatchPath worker := by
            intro hpath
            obtain ⟨-, rfl⟩ := horder hpath.symm
            rw [lock_free hg.identity hfree] at hheld
            exact absurd hheld (by simp)
          change (s.store.clear worker gpu seen).workerFiles.get (workerLatchPath owner) = some r
          rw [workerFiles_clear, if_neg hpath, hr, Option.filter_some, if_pos]
          simp [clearsFile, not_physical_of_worker hscope]
      | _ => exact absurd hclear (by simp [Action.isClear])
  | false =>
      rw [step_publishes h hclear]
      cases hp : s.publication a with
      | none => exact hr
      | some p =>
          rw [Option.map_some, Option.getD_some, Store.workerFiles_publish, if_neg, hr]
          rintro ⟨hfiles, hpath⟩
          obtain ⟨-, hnone | ⟨sent, error, now, heq⟩⟩ :=
            (workerSource hg horder hread h hp hfiles).file hpath.symm
          · exact absurd (hheld.symm.trans hnone) (by simp)
          · exact hfinish sent error now heq

theorem WorkerGuard.claims_step (hg : WorkerGuard l owner s) (horder : l.workerOrder owner a)
    (hread : ∀ worker gpu, a ≠ .read worker gpu) (h : step s a = some t) : WorkerClaims l owner t := by
  constructor
  · intro path c hc hactive
    rcases held_step h hc hactive with ⟨input, pid, now, rfl, rfl⟩ | ⟨hheld, -⟩
    · exact (WorkerClaims.claim hg horder h hc hactive).1
    · exact hg.claims.path path c hheld hactive
  · intro path c hc hactive hgen
    rcases held_step h hc hactive with ⟨input, pid, now, rfl, rfl⟩ | ⟨hheld, hfinish⟩
    · exact (WorkerClaims.claim hg horder h hc hactive).2 hgen
    · obtain ⟨hpath, hscope, hsending, hstored⟩ := hg.claims.latch path c hheld hactive hgen
      obtain ⟨-, rfl, -⟩ := hg.claims.path path c hheld hactive hpath
      exact ⟨hpath, hscope, hsending, worker_file_kept hg horder hread h hheld hfinish hstored hscope⟩

/-- **Operations in order keep an exclusion.** -/
theorem WorkerGuard.step (hg : WorkerGuard l owner s) (horder : l.workerOrder owner a)
    (hread : ∀ worker gpu, a ≠ .read worker gpu) (h : step s a = some t) :
    WorkerGuard l owner t ∧ Follows l s a t := by
  have hidentity : WorkerIdentity l owner t.issued := by
    rw [step_created h]
    exact ⟨hg.identity.excludes, hg.identity.named,
      fun id hid => List.mem_append_right _ (hg.identity.issued id hid), hg.identity.legacy⟩
  have hclaims := hg.claims_step horder hread h
  suffices hstore : WorkerFiles l owner t.store ∧ Follows l s a t from
    ⟨⟨hidentity, hstore.1, hclaims⟩, hstore.2⟩
  cases hclear : a.isClear with
  | true =>
      cases a with
      | clear worker gpu seen =>
          obtain ⟨-, rfl⟩ := step_clear.mp h
          exact ⟨hg.files.clear, worker_follows_clear hg.identity rfl⟩
      | _ => exact absurd hclear (by simp [Action.isClear])
  | false =>
      have ht := step_publishes h hclear
      have hquiet : t.store.gpuFiles = s.store.gpuFiles → t.store.workerFiles = s.store.workerFiles →
          WorkerFiles l owner t.store ∧ Follows l s a t := by
        intro hgpus hworkers
        have hboth := worker_home_eq hg.identity s.store t.store (by rw [hworkers])
        refine ⟨⟨?_, ?_, ?_⟩, hboth.1.mp, fun hsent _ => hboth.2.mpr hsent,
          fun hsent => Or.inl (hboth.2.mp hsent)⟩
        · rw [hworkers]
          exact hg.files.owned
        · rw [hgpus]
          exact hg.files.devices
        · rw [hworkers]
          exact hg.files.holders
      cases hp : s.publication a with
      | none =>
          rw [hp] at ht
          exact hquiet (by rw [ht]; rfl) (by rw [ht]; rfl)
      | some p =>
          rw [hp, Option.map_some, Option.getD_some] at ht
          cases hfiles : p.files with
          | false =>
              have hsame : (s.store.publish p).gpuFiles = s.store.gpuFiles ∧
                  (s.store.publish p).workerFiles = s.store.workerFiles := Store.files_publish hfiles
              obtain ⟨hgpus, hworkers⟩ := hsame
              exact hquiet (by rw [ht, hgpus]) (by rw [ht, hworkers])
          | true =>
              have hsource := workerSource hg horder hread h hp hfiles
              refine ⟨?_, hsource.follows hg.identity hp ht⟩
              rw [ht]
              exact hsource.files hg.files

end KernelGym.Quarantine
