import KernelGym.QuarantineOrderly

/-! In orderly stores every operation other than a clear publishes soundly: it continues the latch that
its reads under the lock have found, or starts a new one where there is none. -/

namespace KernelGym.Quarantine

open Library

variable {gpu : Gpu} {ids : WorkerId → Prop} {issued created : List Generation}
  {store : Store}
  {p : Publication} {place : Place} {r r' m : Record} {worker : WorkerId}

/-! ### The copies that a read finds -/

theorem rel_device (hgpu : gpu.named = true) {copy : Option Record}
    (hcopy : ∀ r, copy = some r → Complete gpu r ∧ isPhysical r = true) :
    Option.Rel SameCore ((Copies.device gpu copy).map (normalizeReadRecord worker gpu)) copy := by
  cases copy with
  | none =>
      rw [Copies.device, if_pos hgpu, Option.map_none, Option.map_none]
      exact .none
  | some r =>
      obtain ⟨hcomplete, hphysical⟩ := hcopy r rfl
      have hdevice := sameCore_normalizeDevice hcomplete hphysical
      rw [Copies.device, if_pos hgpu, Option.map_some, Option.map_some]
      exact .some ((sameCore_normalizeRead worker hgpu (hdevice.symm.complete hcomplete)).trans hdevice)

theorem rel_worker (hgpu : gpu.named = true) {copy : Option Record}
    (hcopy : ∀ r, copy = some r → Complete gpu r) :
    Option.Rel SameCore ((copy.map (normalizeReadRecord worker gpu)).map (constrainWorkerRecord gpu))
      copy := by
  cases copy with
  | none => exact .none
  | some r =>
      have hread := sameCore_normalizeRead worker hgpu (hcopy r rfl)
      rw [Option.map_some, Option.map_some, constrain_complete hgpu (hread.symm.complete (hcopy r rfl))]
      exact .some hread

theorem eq_none_of_rel {source : Option Record} (h : Option.Rel SameCore source none) :
    source = none := by
  cases h
  rfl

theorem fetched_getD {copy : Option Record} (hcopy : ∀ r, copy = some r → Complete gpu r) :
    fetched (copy.getD {}) = copy := by
  cases copy with
  | none => rfl
  | some r =>
      rw [Option.getD_some, fetched, if_neg]
      intro hempty
      have hnone := (Dict.isEmpty_iff _).mp hempty "state"
      rw [(hcopy r rfl).state] at hnone
      exact absurd hnone (by simp)

namespace Orderly

variable (hgpu : gpu.named = true) (h : Orderly gpu ids issued store)
include hgpu h

theorem rel_durableDevice (worker : WorkerId) : Option.Rel SameCore
    ((store.copies worker gpu).normalized worker gpu).durableDevice (store.copyAt gpu .device) :=
  rel_device hgpu fun r hr => ⟨h.complete .device r hr, h.physical r (Or.inl hr)⟩

theorem rel_durableWorker (worker : WorkerId) : Option.Rel SameCore
    (((store.copies worker gpu).normalized worker gpu).durableWorker.map (constrainWorkerRecord gpu))
    (store.copyAt gpu (.file (workerLatchPath worker))) :=
  rel_worker hgpu fun r hr => h.complete (.file _) r hr

theorem rel_redisDevice (worker : WorkerId) : Option.Rel SameCore
    ((store.copies worker gpu).normalized worker gpu).redisDevice
    (store.copyAt gpu .deviceHash) := by
  have hfetched : fetched (store.gpuHash gpu) = store.copyAt gpu .deviceHash :=
    fetched_getD fun r hr => h.complete .deviceHash r hr
  rw [Copies.normalized, Store.copies, hfetched]
  exact rel_device hgpu fun r hr => ⟨h.complete .deviceHash r hr, h.physical r (Or.inr hr)⟩

omit hgpu in
theorem fetched_workerHash : fetched (store.workerHash worker) = store.copyAt gpu (.hash worker) :=
  fetched_getD fun r hr => h.complete (.hash worker) r hr

theorem rel_redisWorker (worker : WorkerId) : Option.Rel SameCore
    (((store.copies worker gpu).normalized worker gpu).redisWorker.map (constrainWorkerRecord gpu))
    (store.copyAt gpu (.hash worker)) := by
  rw [Copies.normalized, Store.copies, h.fetched_workerHash]
  exact rel_worker hgpu fun r hr => h.complete (.hash worker) r hr

/-- Every record that a merge looks at is a copy that is stored somewhere. -/
theorem mem_ordered (hr : r ∈ ((store.copies worker gpu).normalized worker gpu).ordered gpu) :
    ∃ place r', store.copyAt gpu place = some r' ∧ SameCore r r' := by
  have hrel : ∀ (source : Option Record) place, Option.Rel SameCore source (store.copyAt gpu place) →
      some r = source → ∃ r', store.copyAt gpu place = some r' ∧ SameCore r r' := by
    intro source place hrel hsource
    rw [← hsource] at hrel
    cases hcopy : store.copyAt gpu place with
    | none =>
        rw [hcopy] at hrel
        cases hrel
    | some r' =>
        rw [hcopy] at hrel
        cases hrel with
        | some hcore => exact ⟨r', rfl, hcore⟩
  rw [Sources.ordered, List.reduceOption_mem_iff] at hr
  simp only [List.mem_cons, List.not_mem_nil, or_false] at hr
  rcases hr with hr | hr | hr | hr
  · exact ⟨.device, hrel _ _ (rel_durableDevice hgpu h worker) hr⟩
  · exact ⟨.file _, hrel _ _ (rel_durableWorker hgpu h worker) hr⟩
  · exact ⟨.deviceHash, hrel _ _ (rel_redisDevice hgpu h worker) hr⟩
  · exact ⟨.hash _, hrel _ _ (rel_redisWorker hgpu h worker) hr⟩

/-- With a device file, a merge continues its latch. -/
theorem strongest_device {d : Record} (hd : store.copyAt gpu .device = some d)
    (hm : ((store.copies worker gpu).normalized worker gpu).strongest gpu = some m) :
    Complete gpu m ∧ isPhysical m = true ∧ generation d = generation m ∧ (isSent d ↔ isSent m) := by
  have hrel := rel_durableDevice hgpu h worker
  rw [hd] at hrel
  have hcomplete := h.complete .device d hd
  cases hsource : ((store.copies worker gpu).normalized worker gpu).durableDevice with
  | none =>
      rw [hsource] at hrel
      cases hrel
  | some n =>
      rw [hsource] at hrel
      obtain ⟨hcore⟩ := hrel
      have hn : isPhysical n = true :=
        hcore.identity.isPhysical.trans (h.physical d (Or.inl hd))
      have hhead : (((store.copies worker gpu).normalized worker gpu).candidates gpu).head? = some n := by
        rw [Sources.candidates, Sources.ordered, hsource, List.reduceOption_cons_of_some,
          List.filter_cons, if_pos hn]
        rfl
      obtain ⟨first, hfirst, hsame, hpage⟩ := Sources.strongest_eq_some hm
      rw [hhead, Option.some.injEq] at hfirst
      subst hfirst
      have hidentity : SameIdentity d m := (hsame.identity.trans hcore.identity).symm
      have hsome : (pageState m).isSome := by
        rcases Sources.strongest_page hm hhead with heq | hsent
        · rw [heq, hcore.pageState]
          exact hcomplete.page
        · rw [hsent]
          rfl
      refine ⟨hidentity.complete hcomplete hsome, hidentity.isPhysical.symm.trans
        (h.physical d (Or.inl hd)), hidentity.generation hcomplete, fun hsent => ?_, fun hsent => ?_⟩
      · exact hpage.mpr (Or.inl (hcore.isSent.mpr hsent))
      · rcases hpage.mp hsent with hfirst | ⟨sent, hfound, -⟩
        · exact hcore.isSent.mp hfirst
        · -- The copy that says so is backed by the device file.
          have hboth := List.find?_some hfound
          simp only [Bool.and_eq_true, decide_eq_true_eq] at hboth
          obtain ⟨place, r', hr', hsame'⟩ := h.mem_ordered hgpu (List.mem_of_find?_eq_some hfound)
          obtain ⟨d', hd', -, hbacked⟩ := h.backed place r' hr'
            (hsame'.identity.isPhysical.symm.trans hboth.1)
          rw [hd, Option.some.injEq] at hd'
          subst hd'
          exact hbacked (hsame'.isSent.mp hboth.2)

/-- Without a device file, a merge continues the exclusion in the worker's file. -/
theorem strongest_worker_file (hd : store.copyAt gpu .device = none)
    (hm : ((store.copies worker gpu).normalized worker gpu).strongest gpu = some m) :
    ∃ f, store.copyAt gpu (.file (workerLatchPath worker)) = some f ∧ SameIdentity f m ∧
      Complete gpu m ∧ isPhysical f = false ∧ (isSent f ↔ isSent m) := by
  have hnone : ∀ x ∈ ((store.copies worker gpu).normalized worker gpu).ordered gpu,
      isPhysical x = false := by
    intro x hx
    obtain ⟨place, r', hr', hcore⟩ := h.mem_ordered hgpu hx
    exact hcore.identity.isPhysical.trans (h.not_physical_of_no_device hd hr')
  have hfilter : (((store.copies worker gpu).normalized worker gpu).ordered gpu).filter isPhysical =
      [] := by
    rw [List.filter_eq_nil_iff]
    intro x hx
    rw [hnone x hx]
    simp
  obtain ⟨first, hfirst, hsame, hpage⟩ := Sources.strongest_eq_some hm
  have hpage' := Sources.strongest_page hm hfirst
  rw [Sources.candidates, hfilter, List.isEmpty_nil, if_pos rfl] at hfirst
  have hmem := List.mem_of_mem_head? hfirst
  have hsent : isSent first ↔ isSent m := by
    refine ⟨fun hsent => hpage.mpr (Or.inl hsent), fun hsent => ?_⟩
    rcases hpage.mp hsent with hyes | ⟨sent, hfound, -⟩
    · exact hyes
    · have hboth := List.find?_some hfound
      simp only [Bool.and_eq_true] at hboth
      rw [hnone sent (List.mem_of_find?_eq_some hfound)] at hboth
      exact absurd hboth.1 (by simp)
  have hdevice := rel_durableDevice hgpu h worker
  have hhash : store.copyAt gpu .deviceHash = none := by
    cases hg : store.copyAt gpu .deviceHash with
    | none => rfl
    | some g =>
        have hphysical := h.physical g (Or.inr hg)
        rw [h.not_physical_of_no_device hd hg] at hphysical
        exact absurd hphysical (by simp)
  have hredis := rel_redisDevice hgpu h worker
  have hfile := rel_durableWorker hgpu h worker
  have hlast := rel_redisWorker hgpu h worker
  rw [hd] at hdevice
  rw [hhash] at hredis
  rw [Sources.ordered, eq_none_of_rel hdevice, eq_none_of_rel hredis] at hfirst
  cases hf : store.copyAt gpu (.file (workerLatchPath worker)) with
  | none =>
      have hempty : store.copyAt gpu (.hash worker) = none := by
        cases hw : store.copyAt gpu (.hash worker) with
        | none => rfl
        | some r =>
            obtain ⟨f, hf', -⟩ := h.paired worker r hw (h.not_physical_of_no_device hd hw)
            exact absurd (hf.symm.trans hf') (by simp)
      rw [hf] at hfile
      rw [hempty] at hlast
      rw [eq_none_of_rel hfile, eq_none_of_rel hlast] at hfirst
      exact absurd hfirst (by simp)
  | some f =>
      rw [hf] at hfile
      have hcomplete := h.complete _ f hf
      have hcore : SameCore first f := by
        generalize (Option.map (constrainWorkerRecord gpu)
          ((store.copies worker gpu).normalized worker gpu).durableWorker) = source at hfile hfirst
        cases hfile with
        | some hcore =>
            obtain rfl := Option.some.inj hfirst
            exact hcore
      have hidentity : SameIdentity f m := (hsame.identity.trans hcore.identity).symm
      have hsome : (pageState m).isSome := by
        rcases hpage' with heq | hsent
        · rw [heq, hcore.pageState]
          exact hcomplete.page
        · rw [hsent]
          rfl
      exact ⟨f, rfl, hidentity, hidentity.complete hcomplete hsome,
        h.not_physical_of_no_device hd hf, hcore.isSent.symm.trans hsent⟩

end Orderly

/-! ### Publications of orderly stores -/

namespace Orderly

variable (hgpu : gpu.named = true) (h : Orderly gpu ids issued store)
include hgpu h

/-- A worker hash that needs no rehydration is up to date. -/
theorem hash_contains (hm : Complete gpu m)
    (hcontains : ((store.copies worker gpu).normalized worker gpu).redisWorker.any
      (·.contains (aliasRecord worker m)) = true) :
    ∃ r, store.copyAt gpu (.hash worker) = some r ∧ SameCore r m := by
  obtain ⟨n, hn, hcontains⟩ := (Option.any_eq_true _ _).mp hcontains
  rw [Copies.normalized, Store.copies, h.fetched_workerHash] at hn
  obtain ⟨r, hr, rfl⟩ := Option.map_eq_some_iff.mp hn
  have hnormalized := sameCore_normalizeRead worker hgpu (h.complete _ r hr)
  have halias := sameCore_of_contains (sameCore_alias.symm.complete hm) hcontains
  exact ⟨r, hr, hnormalized.symm.trans (halias.trans sameCore_alias)⟩

theorem strongest_known
    (hm : ((store.copies worker gpu).normalized worker gpu).strongest gpu = some m) :
    Complete gpu m ∧ ∃ r, Known store gpu worker m r ∧ (isSent r ↔ isSent m) := by
  cases hd : store.copyAt gpu .device with
  | some d =>
      obtain ⟨hcomplete, hphysical, hgen, hsent⟩ := h.strongest_device hgpu hd hm
      refine ⟨hcomplete, d, ⟨?_, (h.physical d (Or.inl hd)).trans hphysical.symm, hgen⟩, hsent⟩
      rw [home_physical hphysical]
      exact hd
  | none =>
      obtain ⟨f, hf, hidentity, hcomplete, hscope, hsent⟩ := h.strongest_worker_file hgpu hd hm
      refine ⟨hcomplete, f, ⟨?_, hidentity.isPhysical, hidentity.generation (h.complete _ f hf)⟩, hsent⟩
      rw [home_worker (hidentity.isPhysical.symm.trans hscope)]
      exact hf

theorem reading_sound (hworker : ids worker) (hp : store.reading worker gpu = some p) :
    Sound store gpu ids issued created p := by
  unfold Store.reading at hp
  split at hp
  case h_2 => exact absurd hp (by simp)
  case h_1 merged hmerged =>
    obtain rfl := Option.some.inj hp
    obtain ⟨m, hm, rfl⟩ := Option.map_eq_some_iff.mp (readMerged_ok_iff.mp hmerged).2.symm
    have hrecord : Store.readRecord gpu ((store.copies worker gpu).merged worker gpu m) = m := by
      rw [Store.readRecord, hgpu, Bool.or_true, if_pos rfl]
      rfl
    obtain ⟨hcomplete, r, hknown, hsent⟩ := h.strongest_known hgpu hm
    unfold Store.readPublication
    rw [hrecord]
    refine ⟨hworker, hcomplete, fun written hwritten => ?_,
      Or.inl ⟨r, hknown, hsent.mp, fun _ => hsent.mpr⟩, fun hquiet => Or.inl ?_⟩
    · obtain ⟨hboth, hwritten⟩ := Option.ite_none_right_eq_some.mp hwritten
      simp only [Bool.and_eq_true] at hboth
      exact ⟨(Option.some.inj hwritten).symm, hboth.1.1⟩
    · have hcontains : ((store.copies worker gpu).merged worker gpu m).redisWorker.any
          (·.contains (aliasRecord worker m)) = true := by simpa using hquiet
      exact h.hash_contains hgpu hcomplete hcontains

omit h in
theorem everywhere_gpuHash (hr : Complete gpu r) : ∀ written,
    (Store.everywhere worker r).gpuHash = some written → written = gpu ∧ isPhysical r = true := by
  intro written hwritten
  obtain ⟨hscoped, hrecord⟩ := deviceScoped_complete hgpu hr
  obtain ⟨hphysical, hwritten⟩ := Option.ite_none_right_eq_some.mp hwritten
  exact ⟨(Option.some.inj hwritten).symm.trans hrecord, hscoped.symm.trans hphysical⟩

omit h in
/-- A record that continues a latch is published everywhere. -/
theorem everywhere_sound (hworker : ids worker) (hr : Complete gpu r)
    (hknown : Known store gpu worker r r') (hsent : isSent r' → isSent r) :
    Sound store gpu ids issued created (Store.everywhere worker r) where
  worker := hworker
  complete := hr
  gpuHash := everywhere_gpuHash hgpu hr
  origin := Or.inl ⟨r', hknown, hsent, fun hfiles => absurd hfiles (by simp [Store.everywhere])⟩
  quiet hquiet := absurd hquiet (by simp [Store.everywhere])

omit h in
/-- A record of a new event is published everywhere. -/
theorem everywhere_fresh (hworker : ids worker) (hr : Complete gpu r)
    (hdevice : store.copyAt gpu .device = none) (hhome : store.copyAt gpu (home worker r) = none)
    (hcreated : generation r ∈ created) (hfresh : generation r ∉ issued) :
    Sound store gpu ids issued created (Store.everywhere worker r) where
  worker := hworker
  complete := hr
  gpuHash := everywhere_gpuHash hgpu hr
  origin := Or.inr ⟨hdevice, hhome, ⟨hcreated, hfresh⟩, rfl⟩
  quiet hquiet := absurd hquiet (by simp [Store.everywhere])

/-- What a write or an update finds: the latch in the device file, or else that in the worker's file. -/
theorem existingDurableRecord_eq : store.existingDurableRecord worker gpu =
    .ok (((store.copyAt gpu .device).map (normalizeDeviceRecord gpu)).or
      (store.copyAt gpu (.file (workerLatchPath worker)))) := by
  have hread : ∀ place, readJson (store.copyAt gpu place) = .ok (store.copyAt gpu place) :=
    fun place => readJson_ok_iff.mpr ⟨rfl, fun r hr => (h.complete place r hr).state⟩
  have hdevice : readJson (store.gpuFiles.get (deviceLatchPath gpu)) =
      .ok (store.copyAt gpu .device) := hread .device
  have hfile : readJson (store.workerFiles.get (workerLatchPath worker)) =
      .ok (store.copyAt gpu (.file (workerLatchPath worker))) := hread (.file _)
  rw [Store.existingDurableRecord, if_pos hgpu, hdevice, hfile]
  cases store.copyAt gpu .device <;> rfl

omit hgpu in
theorem device_known {d : Record} (hd : store.copyAt gpu .device = some d)
    (hcore : SameCore d r) : Known store gpu worker r d where
  copy := by
    rw [home_physical (hcore.identity.isPhysical.symm.trans (h.physical d (Or.inl hd)))]
    exact hd
  physical := hcore.identity.isPhysical
  generation := hcore.generation (h.complete .device d hd)

end Orderly

theorem samePhysicalGpu_complete (hgpu : gpu.named = true) (hr : Complete gpu r)
    (hphysical : isPhysical r = true) : samePhysicalGpu gpu r = true := by
  simp [samePhysicalGpu, hphysical, hgpu, hr.hostname, hr.device]

theorem new_complete (worker : WorkerId) (gpu : Gpu) (fault : Fault) (physicalScope : Bool)
    {eventId : String} (now : String) (hevent : strip eventId ≠ "") :
    Complete gpu (pendingPage (newQuarantineRecord worker gpu fault physicalScope eventId now)) where
  state := rfl
  scope := by
    cases physicalScope
    · exact Or.inr rfl
    · exact Or.inl rfl
  hostname := rfl
  device := rfl
  event := hevent
  page := rfl

namespace Orderly

variable (hgpu : gpu.named = true) (h : Orderly gpu ids issued store)
include hgpu h

theorem writing_sound (hdistinct : DistinctFiles ids) (hworker : ids worker) (fault : Fault)
    (physicalScope : Bool) {eventId now : String} (hevent : strip eventId ≠ "")
    (hfresh : .event (strip eventId) ∉ issued) :
    Sound store gpu ids issued [.event (strip eventId)]
      (store.writing worker gpu fault physicalScope eventId now) := by
  rw [Store.writing_ok fault physicalScope eventId now (h.existingDurableRecord_eq hgpu)]
  have hnew := new_complete worker gpu fault physicalScope now hevent
  have hscope := new_physical worker gpu fault physicalScope eventId now
  have hgen := new_generation worker gpu fault physicalScope now hevent
  have hcreated := List.mem_singleton.mpr hgen
  have hfresh' := hgen.symm ▸ hfresh
  cases hd : store.copyAt gpu .device with
  | some d =>
      have hcomplete := h.complete .device d hd
      have hphysical := h.physical d (Or.inl hd)
      have hnormalized := sameCore_normalizeDevice hcomplete hphysical
      have hsame := samePhysicalGpu_complete hgpu (hnormalized.symm.complete hcomplete)
        (hnormalized.identity.isPhysical.trans hphysical)
      have hpreserved : preserves worker gpu physicalScope (normalizeDeviceRecord gpu d) = true := by
        rw [preserves, hsame, isPhysical_of_same hsame]
        simp
      rw [Option.map_some, Option.some_or, Option.filter_some, if_pos hpreserved, Option.getD_some]
      have hcore := (sameCore_pendingPage
        (hnormalized.symm.complete hcomplete).page).trans hnormalized
      exact everywhere_sound hgpu hworker (hcore.symm.complete hcomplete)
        (h.device_known hd hcore.symm) hcore.isSent.mpr
  | none =>
      rw [Option.map_none, Option.none_or]
      cases hf : store.copyAt gpu (.file (workerLatchPath worker)) with
      | none =>
          rw [Option.filter_none, Option.getD_none]
          refine everywhere_fresh hgpu hworker hnew hd ?_ hcreated hfresh'
          cases physicalScope
          · rw [home_worker hscope, hf]
          · rw [home_physical hscope, hd]
      | some f =>
          have hcomplete := h.complete _ f hf
          have hf' := h.not_physical_of_no_device hd hf
          cases physicalScope with
          | true =>
              rw [Option.filter_some, if_neg (by simp [preserves, hf']), Option.getD_none]
              refine everywhere_fresh hgpu hworker hnew hd ?_ hcreated hfresh'
              rw [home_physical hscope, hd]
          | false =>
              have hpreserved : preserves worker gpu false f = true := by
                simp [preserves, hf', hcomplete.scope_of_not_physical hf', hcomplete.hostname,
                  hcomplete.device, h.file_owner hdistinct hworker hf]
              rw [Option.filter_some, if_pos hpreserved, Option.getD_some]
              have hcore := sameCore_pendingPage hcomplete.page
              have hknown : Known store gpu worker (pendingPage f) f :=
                ⟨by rw [home_worker (hcore.identity.isPhysical.trans hf'), hf],
                  hcore.symm.identity.isPhysical, hcore.symm.generation hcomplete⟩
              exact everywhere_sound hgpu hworker (hcore.symm.complete hcomplete) hknown
                hcore.isSent.mpr

/-- A record that is updated continues a latch, and a page that was sent stays sent. -/
theorem updatedRecord_known {scope : Scope} {expected : Generation}
    {outcome : PageOutcome} {error now : String}
    (hr : store.updatedRecord worker gpu scope expected outcome error now = some r) :
    Complete gpu r ∧ generation r = expected ∧
      ∃ r', Known store gpu worker r r' ∧ (isSent r' → isSent r) := by
  have hupdate : ∀ found r', Complete gpu found → SameCore r' found →
      store.copyAt gpu (home worker found) = some r' →
      (if found.get "scope" = some scope.text ∧ generation found = expected then
        some (if pageState found ≠ some "sent" ∨ outcome = .sent then
          delivered outcome error now found else found) else none) = some r →
      Complete gpu r ∧ generation r = expected ∧
        ∃ r', Known store gpu worker r r' ∧ (isSent r' → isSent r) := by
    intro found r' hfound hcore hcopy hr
    obtain ⟨⟨-, hgen⟩, hr⟩ := Option.ite_none_right_eq_some.mp hr
    have hcomplete' := hcore.symm.complete hfound
    by_cases hpage : pageState found ≠ some "sent" ∨ outcome = .sent
    · rw [if_pos hpage, Option.some.injEq] at hr
      subst hr
      have hidentity : SameIdentity found (delivered outcome error now found) :=
        (sameEvent_delivered outcome error now).identity.symm
      have hstate := pageState_delivered (r := found) outcome error now
      refine ⟨hidentity.complete hfound (by rw [hstate]; rfl),
        (hidentity.generation hfound).symm.trans hgen, r', ⟨?_, ?_, ?_⟩, fun hsent => ?_⟩
      · rw [home, ← hidentity.isPhysical]
        exact hcopy
      · exact hcore.identity.isPhysical.trans hidentity.isPhysical
      · exact (hcore.generation hcomplete').trans (hidentity.generation hfound)
      · rcases hpage with hunsent | rfl
        · exact absurd (hcore.isSent.mp hsent) hunsent
        · exact hstate
    · rw [if_neg hpage, Option.some.injEq] at hr
      subst hr
      exact ⟨hfound, hgen, r', ⟨hcopy, hcore.identity.isPhysical, hcore.generation hcomplete'⟩,
        hcore.isSent.mp⟩
  unfold Store.updatedRecord at hr
  cases scope with
  | workerProcess =>
      have hread : readJson (store.workerFiles.get (workerLatchPath worker)) =
          .ok (store.copyAt gpu (.file (workerLatchPath worker))) :=
        readJson_ok_iff.mpr ⟨rfl, fun r hr => (h.complete (.file _) r hr).state⟩
      rw [Store.notified, hread] at hr
      cases hf : store.copyAt gpu (.file (workerLatchPath worker)) with
      | none => exact absurd hr (by simp [hf])
      | some f =>
          rw [hf] at hr
          have hscope : isPhysical f = false := by
            obtain ⟨⟨hscope, -⟩, -⟩ := Option.ite_none_right_eq_some.mp hr
            rw [isPhysical, hscope]
            decide
          exact hupdate f f (h.complete _ f hf) (.refl f) (by rw [home_worker hscope, hf]) hr
  | physicalGpu =>
      rw [Store.notified, h.existingDurableRecord_eq hgpu] at hr
      cases hd : store.copyAt gpu .device with
      | some d =>
          rw [hd, Option.map_some, Option.some_or] at hr
          have hcomplete := h.complete .device d hd
          have hphysical := h.physical d (Or.inl hd)
          have hnormalized := sameCore_normalizeDevice hcomplete hphysical
          exact hupdate _ d (hnormalized.symm.complete hcomplete) hnormalized.symm
            (by rw [home_physical (hnormalized.identity.isPhysical.trans hphysical), hd]) hr
      | none =>
          rw [hd, Option.map_none, Option.none_or] at hr
          cases hf : store.copyAt gpu (.file (workerLatchPath worker)) with
          | none => exact absurd hr (by simp [hf])
          | some f =>
              rw [hf] at hr
              obtain ⟨⟨hscope, -⟩, -⟩ := Option.ite_none_right_eq_some.mp hr
              have hphysical : isPhysical f = true := by
                rw [isPhysical, hscope]
                decide
              rw [h.not_physical_of_no_device hd hf] at hphysical
              exact absurd hphysical (by simp)

omit hgpu in
/-- What a claim marks as being sent continues a latch whose page was not sent. -/
theorem claimed_known {input : Record} {pid now : String} {result : Store × Claim}
    (hinput : recordGpu input = gpu) (hscope : claimableScope input = true)
    (hresult : store.acquireClaim input pid now = some result) (hsend : result.2.shouldSend = true) :
    result.2.workerId = text input "worker_id" ∧ result.2.finished = false ∧
      Complete gpu result.2.record ∧
      ∃ r', Known store gpu (text input "worker_id") result.2.record r' ∧ ¬isSent r' := by
  obtain ⟨durableWorker, durableDevice, hfile, hdevice, rfl⟩ := Store.acquireClaim_eq_some hresult
  rw [hinput] at hdevice ⊢
  rcases Store.claimLatch_cases input pid now durableWorker
    (durableDevice.map (normalizeDeviceRecord gpu)) with
    ⟨c, hclaim, hno⟩ | ⟨current, hcurrent, -, -, hunsent, hclaim⟩
  · rw [hinput, hclaim, hno] at hsend
    exact absurd hsend (by simp)
  rw [hclaim]
  have hmarked : ∀ r', Complete gpu r' → SameCore r' current →
      store.copyAt gpu (home (text input "worker_id") current) = some r' →
      Complete gpu (sending pid now current) ∧
        ∃ r', Known store gpu (text input "worker_id") (sending pid now current) r' ∧ ¬isSent r' := by
    intro r' hcomplete hcore hcopy
    have hidentity : SameIdentity current (sending pid now current) :=
      (sameEvent_sending pid now).identity.symm
    have hcurrent' := hcore.complete hcomplete
    refine ⟨hidentity.complete hcurrent' (by rw [pageState_sending]; rfl), r', ⟨?_, ?_, ?_⟩, ?_⟩
    · rw [home, ← hidentity.isPhysical]
      exact hcopy
    · exact hcore.identity.isPhysical.trans hidentity.isPhysical
    · exact (hcore.generation hcomplete).trans (hidentity.generation hcurrent')
    · exact fun hsent => hunsent (hcore.isSent.mp hsent)
  refine ⟨rfl, rfl, ?_⟩
  cases hphysical : isPhysical input with
  | true =>
      rw [claimedLatch, hphysical, if_pos rfl] at hcurrent
      obtain ⟨d, rfl, rfl⟩ := Option.map_eq_some_iff.mp hcurrent
      have hd : store.copyAt gpu .device = some d := (readJson_ok_iff.mp hdevice).1.symm
      have hcomplete := h.complete .device d hd
      have hd' := h.physical d (Or.inl hd)
      have hnormalized := sameCore_normalizeDevice hcomplete hd'
      exact hmarked d hcomplete hnormalized.symm
        (by rw [home_physical (hnormalized.identity.isPhysical.trans hd'), hd])
  | false =>
      rw [claimedLatch, hphysical, if_neg (by simp)] at hcurrent
      obtain ⟨rfl, hsame⟩ := Option.filter_eq_some_iff.mp hcurrent
      have hf : store.copyAt gpu (.file (workerLatchPath (text input "worker_id"))) = some current :=
        (readJson_ok_iff.mp hfile).1.symm
      have hworker : isPhysical current = false := by
        simp only [claimableScope, hphysical, Bool.false_or, decide_eq_true_eq] at hscope
        simp only [decide_eq_true_eq] at hsame
        rw [isPhysical, hsame, hscope]
        decide
      exact hmarked current (h.complete _ current hf) (.refl _) (by rw [home_worker hworker, hf])

end Orderly

end KernelGym.Quarantine
