import KernelGym.QuarantineCanonical
import KernelGym.QuarantineComplete

/-! Repeated reads. A read repairs the copies that it finds out of date, and the next read finds the
durable state ready and has nothing left to repair, unless only the worker's Redis hash knew that the
page was sent. -/

namespace KernelGym.Quarantine

open Library

variable {worker : WorkerId} {gpu : Gpu} {r m : Record} {s : Store} {key : String}

/-! ### Merging around the device copy -/

/-- The record with the page fields of a delivered copy. -/
def withPage (first sent : Record) : Record :=
  (first.update (sent.keep isPageKey)).set "page_user_state" "sent"

theorem get_withPage (first sent : Record) (key : String) : (withPage first sent).get key =
    if key = "page_user_state" then some "sent"
    else if isPageKey key = true then (sent.get key).or (first.get key) else first.get key := by
  rw [withPage, Dict.get_set, Dict.get_update, Dict.get_keep]
  split_ifs <;> simp

theorem sameEvent_withPage (first sent : Record) : SameEvent (withPage first sent) first := by
  intro key hkey
  rw [get_withPage, if_neg (pageKey_ne hkey isPageKey_state), if_neg (by simp [hkey])]

theorem pageState_withPage (first sent : Record) : pageState (withPage first sent) = some "sent" := by
  rw [pageState, get_withPage, if_pos rfl]

/-- The device copy `d` with the page fields of the delivered copy of its generation. -/
def reported (sent : Option Record) (d : Record) : Record :=
  match sent with
  | some sent => if generation sent = generation d then withPage d sent else d
  | none => d

theorem sameEvent_reported (sent : Option Record) (d : Record) : SameEvent (reported sent d) d := by
  unfold reported
  cases sent with
  | none => exact fun _ _ => rfl
  | some sent =>
      dsimp only
      split_ifs
      · exact sameEvent_withPage d sent
      · exact fun _ _ => rfl

/-- A delivered copy, as the merge looks for it. -/
def deliveredCopy (r : Record) : Bool := isPhysical r && pageState r = some "sent"

namespace Sources

variable {sources : Sources} {d : Record}

theorem strongest_cases (h : sources.strongest gpu = some m) :
    ∃ first, (sources.candidates gpu).head? = some first ∧
      (m = first ∨ ∃ sent, sources.sentRecord gpu = some sent ∧ generation sent = generation first ∧
        m = withPage first sent) := by
  unfold strongest at h
  cases hcandidates : sources.candidates gpu with
  | nil => simp [hcandidates] at h
  | cons first rest =>
      refine ⟨first, rfl, ?_⟩
      rw [hcandidates] at h
      cases hsent : sources.sentRecord gpu with
      | none =>
          rw [hsent] at h
          exact Or.inl (Option.some.inj h).symm
      | some sent =>
          simp only [hsent] at h
          split_ifs at h with hgen
          · exact Or.inr ⟨sent, rfl, hgen, (Option.some.inj h).symm⟩
          · exact Or.inl (Option.some.inj h).symm

theorem candidates_device (hd : sources.durableDevice = some d) (hphysical : isPhysical d = true) :
    (sources.candidates gpu).head? = some d := by
  have hordered : sources.ordered gpu = d :: [sources.durableWorker.map (constrainWorkerRecord gpu),
      sources.redisDevice, sources.redisWorker.map (constrainWorkerRecord gpu)].reduceOption := by
    rw [ordered, hd, List.reduceOption_cons_of_some]
  have hfilter : (sources.ordered gpu).filter isPhysical ≠ [] := by
    rw [hordered, List.filter_cons_of_pos hphysical]
    exact List.cons_ne_nil _ _
  rw [candidates, if_neg (by simpa using hfilter), hordered, List.filter_cons_of_pos hphysical]
  rfl

/-- With a device copy, the merge is that copy, with the page fields of the first delivered copy if
its generation is the same. -/
theorem strongest_device (hd : sources.durableDevice = some d) (hphysical : isPhysical d = true) :
    sources.strongest gpu = some (reported (sources.sentRecord gpu) d) := by
  have hhead : (sources.candidates gpu).head? = some d := candidates_device hd hphysical
  unfold strongest
  cases hcandidates : sources.candidates gpu with
  | nil => simp [hcandidates] at hhead
  | cons first rest =>
      rw [hcandidates, List.head?_cons, Option.some.injEq] at hhead
      subst hhead
      unfold reported
      cases sources.sentRecord gpu with
      | none => rfl
      | some sent =>
          dsimp only
          split_ifs <;> rfl

theorem sentRecord_eq : sources.sentRecord gpu =
    (((sources.durableDevice.filter deliveredCopy).or
      ((sources.durableWorker.map (constrainWorkerRecord gpu)).filter deliveredCopy)).or
    ((sources.redisDevice.filter deliveredCopy).or
      ((sources.redisWorker.map (constrainWorkerRecord gpu)).filter deliveredCopy))) := by
  have hfind : ∀ l : List (Option Record), l.reduceOption.find? deliveredCopy =
      (l.map fun o => o.filter deliveredCopy).reduceOption.head? := by
    intro l
    rw [← List.head?_filter, filter_reduceOption]
  change (sources.ordered gpu).find? deliveredCopy = _
  rw [ordered, hfind]
  simp only [List.map_cons, List.map_nil]
  exact head?_reduceOption _ _ _ _

/-- Without physical copies, the merge is the worker's file, if there is one. -/
theorem strongest_worker {f : Record} (hdevice : sources.durableDevice = none)
    (hhash : sources.redisDevice = none) (hf : sources.durableWorker = some f)
    (hscope : isPhysical f = false)
    (hw : ∀ w ∈ sources.redisWorker.map (constrainWorkerRecord gpu), isPhysical w = false) :
    sources.strongest gpu = some f := by
  have hordered : sources.ordered gpu =
      f :: (sources.redisWorker.map (constrainWorkerRecord gpu)).toList := by
    rw [ordered, hdevice, hhash, hf, Option.map_some, constrainWorkerRecord,
      if_pos (by simp [hscope])]
    cases sources.redisWorker <;> rfl
  have hnone : ∀ r ∈ sources.ordered gpu, isPhysical r = false := by
    intro r hr
    rw [hordered, List.mem_cons, Option.mem_toList] at hr
    rcases hr with rfl | hr
    · exact hscope
    · exact hw r hr
  have hfilter : (sources.ordered gpu).filter isPhysical = [] := by
    rw [List.filter_eq_nil_iff]
    exact fun r hr => by simp [hnone r hr]
  have hsent : sources.sentRecord gpu = none := by
    rw [sentRecord, List.find?_eq_none]
    exact fun r hr => by simp [hnone r hr]
  rw [strongest, candidates, if_pos (by rw [hfilter]; rfl), hordered, hsent]

end Sources

namespace Copies

variable {copies : Copies}

/-- Every source of a merge for a named GPU is canonical. -/
theorem canonical_ordered (hgpu : gpu.named = true)
    (hr : r ∈ (copies.normalized worker gpu).ordered gpu) : Canonical worker gpu r := by
  rw [Sources.ordered, List.reduceOption_mem_iff] at hr
  simp only [List.mem_cons, List.not_mem_nil, or_false, normalized] at hr
  rcases hr with hr | hr | hr | hr
  · obtain ⟨r', -, rfl⟩ := Option.map_eq_some_iff.mp hr.symm
    exact canonical_normalize hgpu r'
  · obtain ⟨n, hn, rfl⟩ := Option.map_eq_some_iff.mp hr.symm
    obtain ⟨r', -, rfl⟩ := Option.map_eq_some_iff.mp hn
    exact canonical_constrain (canonical_normalize hgpu r')
  · obtain ⟨r', -, rfl⟩ := Option.map_eq_some_iff.mp hr.symm
    exact canonical_normalize hgpu r'
  · obtain ⟨n, hn, rfl⟩ := Option.map_eq_some_iff.mp hr.symm
    obtain ⟨r', -, rfl⟩ := Option.map_eq_some_iff.mp hn
    exact canonical_constrain (canonical_normalize hgpu r')

theorem head_candidates_mem {sources : Sources} {first : Record}
    (h : (sources.candidates gpu).head? = some first) : first ∈ sources.ordered gpu := by
  have hmem := List.mem_of_mem_head? h
  unfold Sources.candidates at hmem
  split_ifs at hmem
  · exact hmem
  · exact (List.mem_filter.mp hmem).1

theorem canonical_strongest (hgpu : gpu.named = true)
    (h : (copies.normalized worker gpu).strongest gpu = some m) : Canonical worker gpu m := by
  obtain ⟨first, hhead, hm⟩ := Sources.strongest_cases h
  have hfirst := canonical_ordered hgpu (head_candidates_mem hhead)
  rcases hm with rfl | ⟨sent, -, -, rfl⟩
  · exact hfirst
  · refine hfirst.of_sameEvent (sameEvent_withPage first sent) ?_
    rw [pageState_withPage]
    rfl

/-- A merged physical latch is one of the GPU. -/
theorem strongest_same (hgpu : gpu.named = true)
    (h : (copies.normalized worker gpu).strongest gpu = some m) (hphysical : isPhysical m = true) :
    samePhysicalGpu gpu m = true := by
  obtain ⟨first, hhead, hsame, -⟩ := Sources.strongest_eq_some h
  rw [hsame.samePhysicalGpu]
  have hmem : first ∈ copies.physicalCopies worker gpu → samePhysicalGpu gpu first = true :=
    same_of_physicalCopies hgpu
  refine hmem ?_
  rw [← physical_ordered hgpu]
  refine List.mem_filter.mpr ⟨head_candidates_mem hhead, ?_⟩
  rw [← hsame.physical]
  exact hphysical

end Copies

/-! ### The stores after a read -/

namespace Store

/-- The copies as a read sees them. -/
abbrev sources (s : Store) (worker : WorkerId) (gpu : Gpu) : Sources :=
  (s.copies worker gpu).normalized worker gpu

variable (s) in
/-- The durable copy that the merged record is judged by is stored in canonical form. -/
abbrev ready (worker : WorkerId) (gpu : Gpu) (m : Record) : Bool :=
  (s.copies worker gpu).durableReady worker gpu m

theorem sources_redisDevice (hgpu : gpu.named = true) : (s.sources worker gpu).redisDevice =
    (fetched (s.gpuHash gpu)).map fun r =>
      normalizeReadRecord worker gpu (normalizeDeviceRecord gpu r) :=
  (Copies.normalized_device hgpu).2

theorem sources_durableDevice (hgpu : gpu.named = true) : (s.sources worker gpu).durableDevice =
    (s.gpuFiles.get (deviceLatchPath gpu)).map fun r =>
      normalizeReadRecord worker gpu (normalizeDeviceRecord gpu r) :=
  (Copies.normalized_device hgpu).1

end Store

/-- What a read that answers `m` publishes on a named GPU. -/
theorem readPublication_eq (hgpu : gpu.named = true) :
    Store.readPublication worker gpu ((s.copies worker gpu).merged worker gpu m) =
      { worker := worker
        record := m
        files := !s.ready worker gpu m
        gpuHash := if isPhysical m && !(s.sources worker gpu).redisDevice.any (·.contains m) then
          some gpu else none
        workerHash := !(s.sources worker gpu).redisWorker.any (·.contains (aliasRecord worker m)) } := by
  have hrecord : Store.readRecord gpu ((s.copies worker gpu).merged worker gpu m) = m := by
    rw [Store.readRecord, if_pos (by simp [hgpu]), Copies.merged_record]
  unfold Store.readPublication
  rw [hrecord, hgpu, Bool.and_true, Bool.and_true]
  rfl

section Read

variable (hgpu : gpu.named = true) (hreadable : s.readable worker gpu)
  (hm : (s.sources worker gpu).strongest gpu = some m)

include hreadable hm

theorem reading_eq : s.reading worker gpu =
    some (Store.readPublication worker gpu ((s.copies worker gpu).merged worker gpu m)) := by
  rw [Store.reading, readMerged_ok_iff.mpr ⟨hreadable, rfl⟩, hm]
  rfl

theorem read_publish : s.read worker gpu =
    s.publish (Store.readPublication worker gpu ((s.copies worker gpu).merged worker gpu m)) := by
  rw [Store.read_eq, reading_eq hreadable hm]
  rfl

include hgpu

theorem gpuFile_read : (s.read worker gpu).gpuFiles.get (deviceLatchPath gpu) =
    if s.ready worker gpu m = false ∧ isPhysical m = true then some m
    else s.gpuFiles.get (deviceLatchPath gpu) := by
  have hscoped : deviceScoped m = isPhysical m := by
    cases hphysical : isPhysical m with
    | false => rw [deviceScoped, hphysical, Bool.false_and]
    | true =>
        rw [deviceScoped, recordGpu_same (Copies.strongest_same hgpu hm hphysical), hgpu,
          hphysical]
        rfl
  rw [read_publish hreadable hm, readPublication_eq hgpu, Store.gpuFiles_publish, hscoped]
  cases hphysical : isPhysical m with
  | false => simp
  | true => simp [recordGpu_same (Copies.strongest_same hgpu hm hphysical)]

theorem workerFile_read : (s.read worker gpu).workerFiles.get (workerLatchPath worker) =
    if s.ready worker gpu m = false then some (aliasRecord worker m)
    else s.workerFiles.get (workerLatchPath worker) := by
  rw [read_publish hreadable hm, readPublication_eq hgpu, Store.workerFiles_publish]
  simp

theorem gpuHash_read : (s.read worker gpu).gpuHash gpu =
    if isPhysical m = true ∧ (s.sources worker gpu).redisDevice.any (·.contains m) = false then
      (s.gpuHash gpu).update m
    else s.gpuHash gpu := by
  rw [read_publish hreadable hm, readPublication_eq hgpu]
  by_cases hwrite : isPhysical m = true ∧
      (s.sources worker gpu).redisDevice.any (·.contains m) = false
  · rw [if_pos hwrite]
    exact Store.gpuHash_publish_of_eq (by simp [hwrite.1, hwrite.2]) rfl
  · rw [if_neg hwrite]
    refine Store.gpuHash_publish_of_ne fun written hwritten => ?_
    dsimp only at hwritten
    obtain ⟨hyes, -⟩ := Option.ite_none_right_eq_some.mp hwritten
    rw [Bool.and_eq_true, Bool.not_eq_true'] at hyes
    exact absurd hyes hwrite

theorem workerHash_read : (s.read worker gpu).workerHash worker =
    if (s.sources worker gpu).redisWorker.any (·.contains (aliasRecord worker m)) = false then
      (s.workerHash worker).update (aliasRecord worker m)
    else s.workerHash worker := by
  rw [read_publish hreadable hm, readPublication_eq hgpu, Store.workerHash_publish]
  simp

/-- After a read of a physical latch, the Redis hash of the GPU is read with all of its fields. -/
theorem redisDevice_read (hphysical : isPhysical m = true) : ∃ x,
    ((s.read worker gpu).sources worker gpu).redisDevice = some x ∧ x.contains m = true := by
  have hcanonical := Copies.canonical_strongest hgpu hm
  rw [Store.sources_redisDevice hgpu, gpuHash_read hgpu hreadable hm]
  cases hany : (s.sources worker gpu).redisDevice.any (·.contains m) with
  | false =>
      rw [if_pos ⟨hphysical, rfl⟩,
        fetched_of_contains hcanonical (contains_update (s.gpuHash gpu) m)]
      exact ⟨_, rfl, normalize_contains hcanonical (normalizeDevice_contains
        (Copies.strongest_same hgpu hm hphysical) (contains_update (s.gpuHash gpu) m))⟩
  | true =>
      rw [if_neg (by simp), ← Store.sources_redisDevice hgpu]
      exact (Option.any_eq_true _ _).mp hany

theorem redisWorker_read : ∃ x, ((s.read worker gpu).sources worker gpu).redisWorker = some x ∧
    x.contains (aliasRecord worker m) = true := by
  have hcanonical := canonical_alias (Copies.canonical_strongest hgpu hm)
  have hsources : ((s.read worker gpu).sources worker gpu).redisWorker =
      (fetched ((s.read worker gpu).workerHash worker)).map (normalizeReadRecord worker gpu) := rfl
  rw [hsources, workerHash_read hgpu hreadable hm]
  cases hany : (s.sources worker gpu).redisWorker.any (·.contains (aliasRecord worker m)) with
  | false =>
      rw [if_pos rfl, fetched_of_contains hcanonical
        (contains_update (s.workerHash worker) (aliasRecord worker m))]
      exact ⟨_, rfl, normalize_contains hcanonical
        (contains_update (s.workerHash worker) (aliasRecord worker m))⟩
  | true =>
      rw [if_neg (by simp)]
      exact (Option.any_eq_true _ _).mp hany

/-- The files of a repaired latch are readable. -/
theorem readable_read : (s.read worker gpu).readable worker gpu := by
  have hstate := (Copies.canonical_strongest hgpu hm).state
  refine ⟨fun _ r hr => ?_, fun r hr => ?_⟩
  · rw [gpuFile_read hgpu hreadable hm] at hr
    split_ifs at hr
    · rw [← Option.some.inj hr]
      exact hstate
    · exact hreadable.1 hgpu r hr
  · rw [workerFile_read hgpu hreadable hm] at hr
    split_ifs at hr
    · rw [← Option.some.inj hr, alias_get (by decide) (by decide)]
      exact hstate
    · exact hreadable.2 r hr

end Read

/-! ### The durable state -/

theorem not_changed_iff : normalizationChanged worker gpu r = false ↔
    Same (normalizeReadRecord worker gpu r) r := by
  rw [normalizationChanged, Bool.not_eq_false', Dict.same_iff]
  rfl

theorem ready_iff_physical (hgpu : gpu.named = true) (hphysical : isPhysical m = true) :
    s.ready worker gpu m = true ↔ ∃ d, s.gpuFiles.get (deviceLatchPath gpu) = some d ∧
      generation (normalizeReadRecord worker gpu (normalizeDeviceRecord gpu d)) = generation m ∧
      Same (normalizeReadRecord worker gpu (normalizeDeviceRecord gpu d))
        (normalizeDeviceRecord gpu d) := by
  rw [Store.ready, Copies.durableReady, if_pos hphysical, Bool.and_eq_true, Bool.not_eq_true',
    (Copies.normalized_device hgpu).1, Copies.device, if_pos hgpu]
  change ((s.gpuFiles.get (deviceLatchPath gpu)).map _).any _ = true ∧
    ((s.gpuFiles.get (deviceLatchPath gpu)).map _).any _ = false ↔ _
  cases s.gpuFiles.get (deviceLatchPath gpu) with
  | none => simp
  | some d => simp [not_changed_iff]

theorem ready_iff_worker (hphysical : isPhysical m = false) :
    s.ready worker gpu m = true ↔ ∃ f, s.workerFiles.get (workerLatchPath worker) = some f ∧
      ((normalizeReadRecord worker gpu f).get "scope" = some "worker_process" ∧
        generation (normalizeReadRecord worker gpu f) = generation m) ∧
      Same (normalizeReadRecord worker gpu f) f := by
  rw [Store.ready, Copies.durableReady, hphysical, if_neg (by simp), Bool.and_eq_true,
    Bool.not_eq_true']
  change ((s.workerFiles.get (workerLatchPath worker)).map _).any _ = true ∧
    (s.workerFiles.get (workerLatchPath worker)).any _ = false ↔ _
  cases s.workerFiles.get (workerLatchPath worker) with
  | none => simp
  | some f => simp [not_changed_iff]

/-! ### The second read -/

/-- What the durable state holds after a read that answers `r`: an exclusion taken over from elsewhere
is stored under the id of the worker that reads it. -/
def Store.settledRecord (s : Store) (worker : WorkerId) (gpu : Gpu) (r : Record) : Record :=
  if isPhysical r = true ∨ s.ready worker gpu r = true then r else aliasRecord worker r

/-- The page of a latch with a ready durable state was sent, but neither file nor the Redis hash of the
GPU says so: only the Redis hash of the worker does. -/
structure Store.LateDelivery (s : Store) (worker : WorkerId) (gpu : Gpu) (r : Record) : Prop where
  physical : isPhysical r = true
  ready : s.ready worker gpu r = true
  sent : pageState r = some "sent"
  device : (s.sources worker gpu).durableDevice.filter deliveredCopy = none
  file : ((s.sources worker gpu).durableWorker.map (constrainWorkerRecord gpu)).filter
    deliveredCopy = none
  deviceHash : (s.sources worker gpu).redisDevice.filter deliveredCopy = none

theorem pageState_of_contains {x : Record} (hr : (pageState r).isSome)
    (hx : x.contains r = true) : pageState x = pageState r := by
  obtain ⟨page, hpage⟩ := Option.isSome_iff_exists.mp hr
  rw [hpage]
  exact (Dict.contains_iff x r).mp hx _ _ hpage

theorem filter_delivered_eq_none {o : Option Record} (h : ∀ x ∈ o, pageState x ≠ some "sent") :
    o.filter deliveredCopy = none := by
  cases o with
  | none => rfl
  | some x =>
      have hx : deliveredCopy x = false := by
        simp [deliveredCopy, h x rfl]
      rw [Option.filter_some, hx]
      rfl

theorem same_withPage_self (h : pageState r = some "sent") : Same (withPage r r) r := by
  intro key
  rw [get_withPage]
  split_ifs with hkey
  · rw [hkey, ← h, pageState]
  · exact Option.or_self
  · rfl

/-- A constrained alias that was delivered stands for the copy itself. -/
theorem delivered_constrain (h : deliveredCopy (constrainWorkerRecord gpu r) = true) :
    constrainWorkerRecord gpu r = r := by
  rw [deliveredCopy, Bool.and_eq_true] at h
  exact constrain_of_physical h.1

theorem generation_normalizeDevice : generation (normalizeReadRecord worker gpu
    (normalizeDeviceRecord gpu r)) = deviceGeneration gpu r := by
  refine generation_normalizeReadRecord ?_
  simp [text, normalizeDeviceRecord, Dict.get_set]

/-- The page fields of a copy under the key of the GPU are read as they are stored. -/
theorem page_normalizeDevice (hkey : isPageKey key = true) (hstate : key ≠ "page_user_state") :
    (normalizeReadRecord worker gpu (normalizeDeviceRecord gpu r)).get key = r.get key := by
  have hknown : knownScope (normalizeDeviceRecord gpu r) = true := by
    simp [knownScope, text, normalizeDeviceRecord, Dict.get_set]
  have hne : ∀ other, isPageKey other = false → key ≠ other := fun other hother =>
    (pageKey_ne hother hkey).symm
  rw [get_normalize_known hknown, if_neg (hne _ (by decide)), if_neg (hne _ (by decide)),
    if_neg (hne _ (by decide)), if_neg hstate, if_neg (hne _ (by decide)),
    if_neg (hne _ (by decide)), normalizeDeviceRecord, Dict.get_set_of_ne _ (hne _ (by decide)),
    Dict.get_set_of_ne _ (hne _ (by decide)), Dict.get_set_of_ne _ (hne _ (by decide))]

section Second

variable (hgpu : gpu.named = true) (hreadable : s.readable worker gpu)
  (hm : (s.sources worker gpu).strongest gpu = some m)

include hgpu hm

/-- Where the durable state is ready, the merge is the stored device copy up to its page. -/
theorem device_of_ready (hphysical : isPhysical m = true) (hready : s.ready worker gpu m = true) :
    ∃ raw d, s.gpuFiles.get (deviceLatchPath gpu) = some raw ∧
      normalizeReadRecord worker gpu (normalizeDeviceRecord gpu raw) = d ∧
      (s.sources worker gpu).durableDevice = some d ∧ isPhysical d = true ∧
      Same d (normalizeDeviceRecord gpu raw) ∧
      m = reported ((s.sources worker gpu).sentRecord gpu) d := by
  obtain ⟨raw, hraw, -, hsame⟩ := (ready_iff_physical hgpu hphysical).mp hready
  have hd : (s.sources worker gpu).durableDevice =
      some (normalizeReadRecord worker gpu (normalizeDeviceRecord gpu raw)) := by
    rw [Store.sources_durableDevice hgpu, hraw, Option.map_some]
  have hdsame : samePhysicalGpu gpu (normalizeReadRecord worker gpu (normalizeDeviceRecord gpu raw)) =
    true := samePhysicalGpu_device hgpu
  have hdphysical := isPhysical_of_same hdsame
  refine ⟨raw, _, hraw, rfl, hd, hdphysical, hsame, ?_⟩
  have h : (s.sources worker gpu).strongest gpu = _ := Sources.strongest_device hd hdphysical
  rw [hm] at h
  exact Option.some.inj h

/-- Without a physical latch there is no copy under the key of the GPU, and no source is physical. -/
theorem no_device_copies (hphysical : isPhysical m = false) :
    (s.sources worker gpu).durableDevice = none ∧ (s.sources worker gpu).redisDevice = none ∧
      ∀ r ∈ (s.sources worker gpu).ordered gpu, isPhysical r = false := by
  have hnone : ((s.sources worker gpu).ordered gpu).filter isPhysical = [] := by
    by_contra hsome
    rw [(strongest_isPhysical hm).mpr hsome] at hphysical
    exact absurd hphysical (by simp)
  have hcopies : (s.copies worker gpu).physicalCopies worker gpu = [] := by
    rw [← Copies.physical_ordered hgpu]
    exact hnone
  rw [Copies.physicalCopies, List.reduceOption, List.filterMap_eq_nil_iff] at hcopies
  refine ⟨hcopies _ (by simp), hcopies _ (by simp), fun r hr => ?_⟩
  rw [List.filter_eq_nil_iff] at hnone
  simpa using hnone r hr

/-- Where the durable state of an exclusion is ready, the merge is the worker's file. -/
theorem file_of_ready (hphysical : isPhysical m = false) (hready : s.ready worker gpu m = true) :
    ∃ raw, s.workerFiles.get (workerLatchPath worker) = some raw ∧
      m = normalizeReadRecord worker gpu raw ∧ Same m raw ∧ m.get "scope" = some "worker_process" := by
  obtain ⟨raw, hraw, ⟨hscope, -⟩, hsame⟩ := (ready_iff_worker hphysical).mp hready
  obtain ⟨hdevice, hhash, hnone⟩ := no_device_copies hgpu hm hphysical
  have hfile : (s.sources worker gpu).durableWorker = some (normalizeReadRecord worker gpu raw) := by
    change (s.workerFiles.get (workerLatchPath worker)).map _ = _
    rw [hraw, Option.map_some]
  have hw : ∀ w ∈ (s.sources worker gpu).redisWorker.map (constrainWorkerRecord gpu),
      isPhysical w = false := by
    intro w hw
    refine hnone w ?_
    rw [Sources.ordered, List.reduceOption_mem_iff, ← Option.mem_def.mp hw]
    simp
  have hmerged := Sources.strongest_worker hdevice hhash hfile (by rw [isPhysical, hscope]; decide) hw
  rw [hm, Option.some.injEq] at hmerged
  exact ⟨raw, hraw, hmerged, by rw [hmerged]; exact hsame, by rw [hmerged]; exact hscope⟩

include hreadable

/-- A delivered Redis copy after the read of a latch that is not delivered does not exist. -/
theorem hashes_quiet (hphysical : isPhysical m = true) (hsent : pageState m ≠ some "sent") :
    ((s.read worker gpu).sources worker gpu).redisDevice.filter deliveredCopy = none ∧
      (((s.read worker gpu).sources worker gpu).redisWorker.map (constrainWorkerRecord gpu)).filter
        deliveredCopy = none := by
  have hpage := (Copies.canonical_strongest hgpu hm).page
  obtain ⟨x, hx, hcontains⟩ := redisDevice_read hgpu hreadable hm hphysical
  obtain ⟨y, hy, hycontains⟩ := redisWorker_read hgpu hreadable hm
  constructor
  · rw [hx]
    refine filter_delivered_eq_none fun z hz => ?_
    rw [← Option.some.inj hz, pageState_of_contains hpage hcontains]
    exact hsent
  · rw [hy, Option.map_some]
    rw [Option.filter_eq_none_iff]
    intro z hz hdelivered
    rw [Option.some.injEq] at hz
    rw [← hz] at hdelivered
    rw [delivered_constrain hdelivered, deliveredCopy, Bool.and_eq_true, decide_eq_true_eq,
      pageState_of_contains (by rw [pageState_alias]; exact hpage) hycontains,
      pageState_alias] at hdelivered
    exact hsent hdelivered.2

/-- Where the durable state was not ready, the second read finds what the first one wrote. -/
theorem second_materialized (hphysical : isPhysical m = true) (hready : s.ready worker gpu m = false) :
    ∃ m', ((s.read worker gpu).sources worker gpu).strongest gpu = some m' ∧ Same m' m ∧
      (s.read worker gpu).ready worker gpu m' = true := by
  have hcanonical := Copies.canonical_strongest hgpu hm
  have hsamegpu := Copies.strongest_same hgpu hm hphysical
  have hdevice := normalizeDevice_same hsamegpu
  have hstored : Same (normalizeReadRecord worker gpu (normalizeDeviceRecord gpu m)) m :=
    (normalize_same (hcanonical.of_same hdevice.symm)).trans hdevice
  have hfile : (s.read worker gpu).gpuFiles.get (deviceLatchPath gpu) = some m := by
    rw [gpuFile_read hgpu hreadable hm, if_pos ⟨hready, hphysical⟩]
  have hd : ((s.read worker gpu).sources worker gpu).durableDevice =
      some (normalizeReadRecord worker gpu (normalizeDeviceRecord gpu m)) := by
    rw [Store.sources_durableDevice hgpu, hfile]
    rfl
  have hdphysical := hstored.isPhysical.trans hphysical
  have hstrongest : ((s.read worker gpu).sources worker gpu).strongest gpu = _ :=
    Sources.strongest_device hd hdphysical
  have hsame : Same (reported (((s.read worker gpu).sources worker gpu).sentRecord gpu)
      (normalizeReadRecord worker gpu (normalizeDeviceRecord gpu m))) m := by
    by_cases hsent : pageState m = some "sent"
    · have hdsent := hstored.pageState.trans hsent
      rw [Sources.sentRecord_eq, hd, Option.filter_some,
        if_pos (by simp [deliveredCopy, hdphysical, hdsent]), Option.some_or, Option.some_or,
        reported, if_pos rfl]
      exact (same_withPage_self hdsent).trans hstored
    · obtain ⟨hhash, hworkerHash⟩ := hashes_quiet hgpu hreadable hm hphysical hsent
      have hworkerFile : (((s.read worker gpu).sources worker gpu).durableWorker.map
          (constrainWorkerRecord gpu)).filter deliveredCopy = none := by
        have hsource : ((s.read worker gpu).sources worker gpu).durableWorker =
            some (normalizeReadRecord worker gpu (aliasRecord worker m)) := by
          change ((s.read worker gpu).workerFiles.get (workerLatchPath worker)).map _ = _
          rw [workerFile_read hgpu hreadable hm, if_pos hready]
          rfl
        rw [hsource, Option.map_some, Option.filter_eq_none_iff]
        intro z hz hdelivered
        rw [Option.some.injEq] at hz
        rw [← hz] at hdelivered
        rw [delivered_constrain hdelivered, deliveredCopy, Bool.and_eq_true, decide_eq_true_eq,
          (normalize_same (canonical_alias hcanonical)).pageState, pageState_alias] at hdelivered
        exact hsent hdelivered.2
      rw [Sources.sentRecord_eq, hd, hworkerFile, hhash, hworkerHash, filter_delivered_eq_none]
      · exact hstored
      · intro x hx
        rw [← Option.some.inj hx, hstored.pageState]
        exact hsent
  refine ⟨_, hstrongest, hsame, ?_⟩
  refine (ready_iff_physical hgpu (hsame.isPhysical.trans hphysical)).mpr ⟨m, hfile, ?_, ?_⟩
  · exact hstored.sameEvent.generation.trans hsame.sameEvent.generation.symm
  · exact hstored.trans hdevice.symm

/-- A delivered hash of the GPU is read with the same generation and page after the read that took the
page from it. -/
theorem deviceHash_after (hphysical : isPhysical m = true) {d h x : Record}
    (hh : (s.sources worker gpu).redisDevice = some h)
    (hx : ((s.read worker gpu).sources worker gpu).redisDevice = some x)
    (hmerged : m = withPage d h) (hgen : generation h = generation m) :
    generation x = generation m ∧ Same (withPage d x) (withPage d h) := by
  rw [Store.sources_redisDevice hgpu, gpuHash_read hgpu hreadable hm, hh] at hx
  cases hcontains : h.contains m with
  | true =>
      rw [if_neg (by simp [hcontains]), ← Store.sources_redisDevice hgpu, hh, Option.some.injEq] at hx
      rw [← hx]
      exact ⟨hgen, fun _ => rfl⟩
  | false =>
      rw [if_pos ⟨hphysical, by simp [hcontains]⟩, fetched_of_contains
        (Copies.canonical_strongest hgpu hm) (contains_update _ m), Option.map_some,
        Option.some.injEq] at hx
      rw [Store.sources_redisDevice hgpu, Option.map_eq_some_iff] at hh
      obtain ⟨raw, hraw, hh⟩ := hh
      obtain ⟨-, hraw⟩ := Option.ite_none_left_eq_some.mp hraw
      rw [Option.some.injEq] at hraw
      rw [hraw] at hx
      have hdevice := normalizeDevice_same (Copies.strongest_same hgpu hm hphysical)
      have hstored : Same (normalizeReadRecord worker gpu (normalizeDeviceRecord gpu m)) m :=
        (normalize_same ((Copies.canonical_strongest hgpu hm).of_same hdevice.symm)).trans hdevice
      have hmgen : deviceGeneration gpu m = generation m := by
        rw [← hstored.sameEvent.generation, generation_normalizeDevice]
      constructor
      · rw [← hx, generation_normalizeDevice, deviceGeneration_update, hmgen]
        rw [hmgen, ← hgen, ← hh, generation_normalizeDevice]
      · intro key
        rw [get_withPage, get_withPage]
        split_ifs with hstate hkey
        · rfl
        · have hmkey : m.get key = (h.get key).or (d.get key) := by
            rw [hmerged, get_withPage, if_neg hstate, if_pos hkey]
          rw [← hx, page_normalizeDevice hkey hstate, Dict.get_update, hmkey, ← hh,
            page_normalizeDevice hkey hstate]
          cases raw.get key <;> cases d.get key <;> rfl
        · rfl

/-- Where the durable state was ready, the second read finds the same event; it finds the same record
unless only the worker's Redis hash knew of the delivery. -/
theorem second_ready (hphysical : isPhysical m = true) (hready : s.ready worker gpu m = true) :
    ∃ m', ((s.read worker gpu).sources worker gpu).strongest gpu = some m' ∧ SameEvent m' m ∧
      (s.read worker gpu).ready worker gpu m' = true ∧
      (¬s.LateDelivery worker gpu m → Same m' m) := by
  obtain ⟨raw, d, hraw, hd, hbefore, hdphysical, hsame, hmerged⟩ :=
    device_of_ready hgpu hm hphysical hready
  have hfile : (s.read worker gpu).gpuFiles.get (deviceLatchPath gpu) = some raw := by
    rw [gpuFile_read hgpu hreadable hm, hready, if_neg (by simp), hraw]
  have hworkerFile : ((s.read worker gpu).sources worker gpu).durableWorker =
      (s.sources worker gpu).durableWorker := by
    change ((s.read worker gpu).workerFiles.get (workerLatchPath worker)).map _ =
      (s.workerFiles.get (workerLatchPath worker)).map _
    rw [workerFile_read hgpu hreadable hm, hready, if_neg (by simp)]
  have hafter : ((s.read worker gpu).sources worker gpu).durableDevice = some d := by
    rw [Store.sources_durableDevice hgpu, hfile, Option.map_some, hd]
  have hevent : ∀ sent, SameEvent (reported sent d) m := fun sent key hkey => by
    rw [hmerged, sameEvent_reported sent d key hkey, sameEvent_reported _ d key hkey]
  refine ⟨_, Sources.strongest_device hafter hdphysical, hevent _, ?_, fun hlate => ?_⟩
  · refine (ready_iff_physical hgpu ((hevent _).physical.trans hphysical)).mpr
      ⟨raw, hfile, ?_, ?_⟩
    · rw [hd, (sameEvent_reported _ d).generation]
    · rw [hd]
      exact hsame
  · cases hfiles : ((s.sources worker gpu).durableDevice.filter deliveredCopy).or
      (((s.sources worker gpu).durableWorker.map (constrainWorkerRecord gpu)).filter
        deliveredCopy) with
    | some sent =>
        have hsent : ((s.read worker gpu).sources worker gpu).sentRecord gpu =
            (s.sources worker gpu).sentRecord gpu := by
          rw [Sources.sentRecord_eq, Sources.sentRecord_eq, hafter, hworkerFile, ← hbefore, hfiles,
            Option.some_or, Option.some_or]
        rw [hsent, ← hmerged]
        exact fun _ => rfl
    | none =>
        obtain ⟨hnodevice, hnofile⟩ := Option.or_eq_none_iff.mp hfiles
        have hsentBefore : (s.sources worker gpu).sentRecord gpu =
            ((s.sources worker gpu).redisDevice.filter deliveredCopy).or
              (((s.sources worker gpu).redisWorker.map (constrainWorkerRecord gpu)).filter
                deliveredCopy) := by
          rw [Sources.sentRecord_eq, hfiles, Option.none_or]
        have hsentAfter : ((s.read worker gpu).sources worker gpu).sentRecord gpu =
            (((s.read worker gpu).sources worker gpu).redisDevice.filter deliveredCopy).or
              ((((s.read worker gpu).sources worker gpu).redisWorker.map
                (constrainWorkerRecord gpu)).filter deliveredCopy) := by
          rw [Sources.sentRecord_eq, hafter, hworkerFile, ← hbefore, hfiles, Option.none_or]
        have hdpage : pageState d ≠ some "sent" := by
          intro hpage
          rw [hbefore, Option.filter_some,
            if_pos (by simp [deliveredCopy, hdphysical, hpage])] at hnodevice
          exact absurd hnodevice (by simp)
        by_cases hsent : pageState m = some "sent"
        · cases hold : (s.sources worker gpu).redisDevice.filter deliveredCopy with
          | none => exact absurd ⟨hphysical, hready, hsent, hnodevice, hnofile, hold⟩ hlate
          | some h =>
              obtain ⟨hh, hdelivered⟩ := Option.filter_eq_some_iff.mp hold
              rw [hold, Option.some_or] at hsentBefore
              obtain ⟨hgenh, hpaged⟩ : generation h = generation d ∧ m = withPage d h := by
                rw [hmerged, hsentBefore, reported] at hsent ⊢
                split_ifs at hsent ⊢ with hgenh
                · exact ⟨hgenh, rfl⟩
                · exact absurd hsent hdpage
              have hgenm : generation d = generation m := by
                rw [hpaged, (sameEvent_withPage d h).generation]
              obtain ⟨x, hx, hcontains⟩ := redisDevice_read hgpu hreadable hm hphysical
              obtain ⟨hgenx, hsamex⟩ := deviceHash_after hgpu hreadable hm hphysical hh hx hpaged
                (hgenh.trans hgenm)
              have hxdelivered : deliveredCopy x = true := by
                have hpage := (Copies.canonical_strongest hgpu hm).page
                have hscope := (Dict.contains_iff x m).mp hcontains "scope" "physical_gpu"
                  (of_decide_eq_true hphysical)
                rw [deliveredCopy, isPhysical, hscope, pageState_of_contains hpage hcontains, hsent]
                rfl
              rw [hsentAfter, hx, Option.filter_some, if_pos hxdelivered, Option.some_or, reported,
                if_pos (hgenx.trans hgenm.symm), hpaged]
              exact hsamex
        · obtain ⟨hhash, hworkerHash⟩ := hashes_quiet hgpu hreadable hm hphysical hsent
          rw [hsentAfter, hhash, hworkerHash, Option.or_self]
          rw [hmerged] at hsent ⊢
          intro key
          revert hsent
          unfold reported
          cases (s.sources worker gpu).sentRecord gpu with
          | none => exact fun _ => rfl
          | some sent =>
              dsimp only
              split_ifs
              · exact fun hsent => absurd (pageState_withPage d sent) hsent
              · exact fun _ => rfl

/-- The second read of a worker's exclusion finds what the durable state holds for the worker. -/
theorem second_worker (hphysical : isPhysical m = false) :
    ∃ m', ((s.read worker gpu).sources worker gpu).strongest gpu = some m' ∧
      Same m' (s.settledRecord worker gpu m) ∧ (s.read worker gpu).ready worker gpu m' = true := by
  have hcanonical := Copies.canonical_strongest hgpu hm
  have hscope : m.get "scope" = some "worker_process" :=
    (scope_of_known hcanonical.scope).resolve_left (by simp [hphysical])
  obtain ⟨hdevice, hhash, -⟩ := no_device_copies hgpu hm hphysical
  have hdevice' : ((s.read worker gpu).sources worker gpu).durableDevice = none := by
    rw [Store.sources_durableDevice hgpu, gpuFile_read hgpu hreadable hm,
      if_neg (by simp [hphysical]), ← Store.sources_durableDevice hgpu, hdevice]
  have hhash' : ((s.read worker gpu).sources worker gpu).redisDevice = none := by
    rw [Store.sources_redisDevice hgpu, gpuHash_read hgpu hreadable hm, if_neg (by simp [hphysical]),
      ← Store.sources_redisDevice hgpu, hhash]
  have hworker_of : ∀ f, f.get "scope" = some "worker_process" → isPhysical f = false := by
    intro f hf
    rw [isPhysical, hf]
    decide
  have hworkerHash : ∀ w ∈ ((s.read worker gpu).sources worker gpu).redisWorker.map
      (constrainWorkerRecord gpu), isPhysical w = false := by
    intro w hw
    obtain ⟨x, hx, hcontains⟩ := redisWorker_read hgpu hreadable hm
    have hxscope := hworker_of x ((Dict.contains_iff x _).mp hcontains "scope" "worker_process"
      ((alias_get (by decide) (by decide)).trans hscope))
    rw [Option.mem_def, hx, Option.map_some, Option.some.injEq, constrainWorkerRecord,
      if_pos (by simp [hxscope])] at hw
    rw [← hw, hxscope]
  have hsources : ((s.read worker gpu).sources worker gpu).durableWorker =
      ((s.read worker gpu).workerFiles.get (workerLatchPath worker)).map
        (normalizeReadRecord worker gpu) := rfl
  cases hready : s.ready worker gpu m with
  | true =>
      obtain ⟨raw, hraw, hmerged, hsame, -⟩ := file_of_ready hgpu hm hphysical hready
      have hfile : (s.read worker gpu).workerFiles.get (workerLatchPath worker) = some raw := by
        rw [workerFile_read hgpu hreadable hm, hready, if_neg (by simp), hraw]
      refine ⟨m, Sources.strongest_worker hdevice' hhash' ?_ hphysical hworkerHash, ?_, ?_⟩
      · rw [hsources, hfile, Option.map_some, ← hmerged]
      · rw [Store.settledRecord, if_pos (Or.inr hready)]
        exact fun _ => rfl
      · refine (ready_iff_worker hphysical).mpr ⟨raw, hfile, ?_, ?_⟩ <;> rw [← hmerged]
        · exact ⟨hscope, rfl⟩
        · exact hsame
  | false =>
      have hfile : (s.read worker gpu).workerFiles.get (workerLatchPath worker) =
          some (aliasRecord worker m) := by
        rw [workerFile_read hgpu hreadable hm, hready, if_pos rfl]
      have hstored := normalize_same (canonical_alias hcanonical)
      have hfscope : (normalizeReadRecord worker gpu (aliasRecord worker m)).get "scope" =
          some "worker_process" := by
        rw [hstored, alias_get (by decide) (by decide)]
        exact hscope
      have hstrongest : ((s.read worker gpu).sources worker gpu).strongest gpu = _ :=
        Sources.strongest_worker hdevice' hhash' (by rw [hsources, hfile, Option.map_some])
          (hworker_of _ hfscope) hworkerHash
      refine ⟨_, hstrongest, ?_, ?_⟩
      · rw [Store.settledRecord, if_neg (by simp [hphysical, hready])]
        exact hstored
      · exact (ready_iff_worker (hworker_of _ hfscope)).mpr
          ⟨_, hfile, ⟨hfscope, rfl⟩, hstored⟩

end Second

end KernelGym.Quarantine
