import KernelGym.QuarantineSettled

/-! What a read of a latch leaves for the next read. -/

namespace KernelGym.Quarantine

open Library

/-- A copy agrees with a record on scope, hostname, device and page state. -/
structure Agrees (x r : Record) : Prop where
  scope : x.get "scope" = r.get "scope"
  hostname : x.get "hostname" = r.get "hostname"
  device : x.get "device" = r.get "device"
  page : pageState x = pageState r

namespace Store

variable (s : Store) (worker : WorkerId) (gpu : Gpu) (r : Record)

/-- The Redis copies of a record's scope, as they are read. -/
def scopeHashes : List (Option Record) :=
  if isPhysical r then [(s.sources worker gpu).redisDevice, (s.sources worker gpu).redisWorker]
  else [(s.sources worker gpu).redisWorker]

/-- The durable copies of a record's scope, as they are read. -/
def scopeFiles : List (Option Record) :=
  if isPhysical r then [(s.sources worker gpu).durableDevice, (s.sources worker gpu).durableWorker]
  else [(s.sources worker gpu).durableWorker]

/-- The durable copy that decides whether the durable state is ready. -/
def decidingFile : Option Record :=
  if isPhysical r then (s.sources worker gpu).durableDevice else (s.sources worker gpu).durableWorker

/-- After the read that answered `r`, the next one answers `r`, finds the durable state ready and writes
nothing, and every copy of its scope agrees with `r`. -/
structure ConvergesAtOnce : Prop where
  same : ∃ m, (s.read worker gpu).readMerged worker gpu = .ok (some m) ∧ Same m.record r ∧
    m.durableReady = true
  quiet : (s.read worker gpu).read worker gpu = s.read worker gpu
  copies : ∀ copy ∈ (s.read worker gpu).scopeFiles worker gpu r ++
    (s.read worker gpu).scopeHashes worker gpu r,
    ∃ x, copy = some x ∧ Agrees x r ∧ generation x = generation r

/-- What holds after the read that answered `r`. -/
structure Converges : Prop where
  /-- The next read finds the same event in a ready durable state, and no file is written. -/
  ready : ∃ m, (s.read worker gpu).readMerged worker gpu = .ok (some m) ∧ m.durableReady = true ∧
    SameEvent m.record (s.settledRecord worker gpu r) ∧
    ((s.read worker gpu).read worker gpu).gpuFiles = (s.read worker gpu).gpuFiles ∧
    ((s.read worker gpu).read worker gpu).workerFiles = (s.read worker gpu).workerFiles
  /-- It finds the same record and writes nothing at all, unless a delivery was known to the worker's Redis
  hash only. -/
  quiet : ¬s.LateDelivery worker gpu r →
    (∃ m, (s.read worker gpu).readMerged worker gpu = .ok (some m) ∧
      Same m.record (s.settledRecord worker gpu r)) ∧
    (s.read worker gpu).read worker gpu = s.read worker gpu
  /-- The read after the next one finds what the next one has found, and writes nothing. -/
  settled : ∃ m m', (s.read worker gpu).readMerged worker gpu = .ok (some m) ∧
    ((s.read worker gpu).read worker gpu).readMerged worker gpu = .ok (some m') ∧
    Same m'.record m.record ∧
    ((s.read worker gpu).read worker gpu).read worker gpu = (s.read worker gpu).read worker gpu
  /-- The deciding file agrees with the record, up to a delivery that it has not recorded. -/
  deciding : ∃ x, (s.read worker gpu).decidingFile worker gpu r = some x ∧
    x.get "scope" = r.get "scope" ∧ x.get "hostname" = r.get "hostname" ∧
    x.get "device" = r.get "device" ∧ generation x = generation (s.settledRecord worker gpu r) ∧
    (pageState x = pageState r ∨ isPhysical r = true ∧ pageState r = some "sent")
  /-- A read that had to write the files has brought all of them up to date. -/
  materialized : s.ready worker gpu r = false →
    ∀ copy ∈ (s.read worker gpu).scopeFiles worker gpu r, ∃ x, copy = some x ∧
      (Same x r ∨ Same x (aliasRecord worker r))
  hashes : ∀ copy ∈ (s.read worker gpu).scopeHashes worker gpu r, ∃ x, copy = some x ∧ Agrees x r ∧
    (strip (text r "event_id") ≠ "" → generation x = generation r)

end Store

variable {worker : WorkerId} {gpu : Gpu} {r m m' : Record} {s : Store}

theorem answer_eq_some (hgpu : gpu.named = true) (h : s.answer worker gpu = .ok (some r)) :
    s.readable worker gpu ∧ (s.sources worker gpu).strongest gpu = some r := by
  unfold Store.answer at h
  split at h
  · rename_i merged hmerged
    obtain ⟨hreadable, hsome⟩ := readMerged_ok_iff.mp hmerged
    refine ⟨hreadable, ?_⟩
    rw [Except.ok.injEq, Option.map_eq_some_iff] at h
    obtain ⟨found, hfound, rfl⟩ := h
    rw [hfound] at hsome
    obtain ⟨m, hm, rfl⟩ := Option.map_eq_some_iff.mp hsome.symm
    rw [Store.readRecord, if_pos (by simp [hgpu]), Copies.merged_record]
    exact hm
  · exact absurd h (by simp)

theorem contains_agrees {x : Record} (hr : Canonical worker gpu r) (hx : x.contains r = true) :
    Agrees x r := by
  have hall := (Dict.contains_iff x r).mp hx
  have hscope : ∃ scope, r.get "scope" = some scope := by
    rcases scope_of_known hr.scope with hphysical | hworker
    · exact ⟨_, of_decide_eq_true hphysical⟩
    · exact ⟨_, hworker⟩
  obtain ⟨scope, hscope⟩ := hscope
  exact
    { scope := (hall _ _ hscope).trans hscope.symm
      hostname := (hall _ _ hr.hostname).trans hr.hostname.symm
      device := (hall _ _ hr.device).trans hr.device.symm
      page := pageState_of_contains hr.page hx }

/-- Records with one event id are of one generation. -/
theorem generation_of_contains {x : Record} (hevent : strip (text r "event_id") ≠ "")
    (hx : x.contains r = true) : generation x = generation r := by
  have htext : text x "event_id" = text r "event_id" := by
    cases hr : r.get "event_id" with
    | none =>
        rw [text, hr, Option.getD_none] at hevent
        exact absurd rfl (strip_ne_empty hevent)
    | some id => rw [text, (Dict.contains_iff x r).mp hx _ _ hr, text, hr]
  rw [generation, generation, htext, if_pos hevent, if_pos hevent]

theorem Agrees.alias {x : Record} (h : Agrees x (aliasRecord worker r)) : Agrees x r where
  scope := h.scope.trans (alias_get (by decide) (by decide))
  hostname := h.hostname.trans (alias_get (by decide) (by decide))
  device := h.device.trans (alias_get (by decide) (by decide))
  page := h.page.trans pageState_alias

theorem reported_page (sent : Option Record) (d : Record) :
    pageState d = pageState (reported sent d) ∨ pageState (reported sent d) = some "sent" := by
  unfold reported
  cases sent with
  | none => exact Or.inl rfl
  | some sent =>
      dsimp only
      split_ifs
      · exact Or.inr (pageState_withPage d sent)
      · exact Or.inl rfl

section Converge

variable (hgpu : gpu.named = true) (hreadable : s.readable worker gpu)
  (hm : (s.sources worker gpu).strongest gpu = some m)

include hgpu hreadable hm

/-- The second read, in each of its cases. -/
theorem second_read : ∃ m', ((s.read worker gpu).sources worker gpu).strongest gpu = some m' ∧
    SameEvent m' (s.settledRecord worker gpu m) ∧ (s.read worker gpu).ready worker gpu m' = true ∧
    (¬s.LateDelivery worker gpu m → Same m' (s.settledRecord worker gpu m)) := by
  cases hphysical : isPhysical m with
  | false =>
      obtain ⟨m', hm', hsame, hready⟩ := second_worker hgpu hreadable hm hphysical
      exact ⟨m', hm', hsame.sameEvent, hready, fun _ => hsame⟩
  | true =>
      rw [Store.settledRecord, if_pos (Or.inl hphysical)]
      cases hready : s.ready worker gpu m with
      | false =>
          obtain ⟨m', hm', hsame, hready'⟩ := second_materialized hgpu hreadable hm hphysical hready
          exact ⟨m', hm', hsame.sameEvent, hready', fun _ => hsame⟩
      | true => exact second_ready hgpu hreadable hm hphysical hready

theorem readMerged_read (hm' : ((s.read worker gpu).sources worker gpu).strongest gpu = some m') :
    (s.read worker gpu).readMerged worker gpu =
      .ok (some (((s.read worker gpu).copies worker gpu).merged worker gpu m')) :=
  readMerged_ok_iff.mpr ⟨readable_read hgpu hreadable hm, by rw [hm']; rfl⟩

/-- A second read that finds the durable state ready writes no file. -/
theorem files_second (hm' : ((s.read worker gpu).sources worker gpu).strongest gpu = some m')
    (hready : (s.read worker gpu).ready worker gpu m' = true) :
    ((s.read worker gpu).read worker gpu).gpuFiles = (s.read worker gpu).gpuFiles ∧
      ((s.read worker gpu).read worker gpu).workerFiles = (s.read worker gpu).workerFiles := by
  rw [read_publish (readable_read hgpu hreadable hm) hm', readPublication_eq hgpu, hready]
  exact Store.files_publish rfl

/-- A second read that finds the settled record writes nothing. -/
theorem quiet_second (hm' : ((s.read worker gpu).sources worker gpu).strongest gpu = some m')
    (hready : (s.read worker gpu).ready worker gpu m' = true)
    (hsame : Same m' (s.settledRecord worker gpu m)) :
    (s.read worker gpu).read worker gpu = s.read worker gpu := by
  have hworker : ((s.read worker gpu).sources worker gpu).redisWorker.any
      (·.contains (aliasRecord worker m')) = true := by
    obtain ⟨x, hx, hcontains⟩ := redisWorker_read hgpu hreadable hm
    have halias : Same (aliasRecord worker m) (aliasRecord worker m') := by
      refine Same.trans ?_ (sameAlias hsame).symm
      rw [Store.settledRecord]
      split_ifs
      · exact fun _ => rfl
      · rw [alias_of_worker (alias_worker (r := m))]
        exact fun _ => rfl
    rw [hx, Option.any_some, contains_of_same halias hcontains]
  have hdevice : (isPhysical m' && !((s.read worker gpu).sources worker gpu).redisDevice.any
      (·.contains m')) = false := by
    cases hphysical : isPhysical m' with
    | false => rfl
    | true =>
        have hmphysical : isPhysical m = true := by
          rw [hsame.isPhysical, Store.settledRecord] at hphysical
          split_ifs at hphysical
          · exact hphysical
          · rw [isPhysical_alias] at hphysical
            exact hphysical
        obtain ⟨x, hx, hcontains⟩ := redisDevice_read hgpu hreadable hm hmphysical
        rw [Store.settledRecord, if_pos (Or.inl hmphysical)] at hsame
        rw [hx, Option.any_some, contains_of_same hsame.symm hcontains]
        rfl
  rw [read_publish (readable_read hgpu hreadable hm) hm', readPublication_eq hgpu, hready, hworker,
    hdevice]
  rfl

/-- After a read that reports a delivery, the Redis hash of the GPU knows of it. -/
theorem no_late_second (hphysical : isPhysical m = true) (hsent : pageState m = some "sent") :
    ¬(s.read worker gpu).LateDelivery worker gpu m' := by
  intro hlate
  have hnone := hlate.deviceHash
  obtain ⟨x, hx, hcontains⟩ := redisDevice_read hgpu hreadable hm hphysical
  have hcanonical := Copies.canonical_strongest hgpu hm
  have hagrees := contains_agrees hcanonical hcontains
  have hdelivered : deliveredCopy x = true := by
    rw [deliveredCopy, isPhysical, hagrees.scope, hagrees.page, hsent,
      show m.get "scope" = some "physical_gpu" from of_decide_eq_true hphysical]
    rfl
  rw [hx, Option.filter_some, if_pos hdelivered] at hnone
  exact absurd hnone (by simp)

/-- Every Redis copy of the record's scope mirrors it after a read. -/
theorem hashes_read : ∀ copy ∈ (s.read worker gpu).scopeHashes worker gpu m, ∃ x, copy = some x ∧
    Agrees x m ∧ (strip (text m "event_id") ≠ "" → generation x = generation m) := by
  have hcanonical := Copies.canonical_strongest hgpu hm
  obtain ⟨w, hw, hwcontains⟩ := redisWorker_read hgpu hreadable hm
  have hworker : ∃ x, ((s.read worker gpu).sources worker gpu).redisWorker = some x ∧ Agrees x m ∧
      (strip (text m "event_id") ≠ "" → generation x = generation m) := by
    refine ⟨w, hw, (contains_agrees (canonical_alias hcanonical) hwcontains).alias, fun hevent => ?_⟩
    have hid : text (aliasRecord worker m) "event_id" = text m "event_id" := by
      rw [text, alias_get (by decide) (by decide), text]
    have hgen := generation_of_contains (by rw [hid]; exact hevent) hwcontains
    rw [hgen, generation, generation, hid, if_pos hevent, if_pos hevent]
  intro copy hcopy
  unfold Store.scopeHashes at hcopy
  split_ifs at hcopy with hphysical
  · obtain ⟨x, hx, hcontains⟩ := redisDevice_read hgpu hreadable hm hphysical
    simp only [List.mem_cons, List.not_mem_nil, or_false] at hcopy
    rcases hcopy with rfl | rfl
    · exact ⟨x, hx, contains_agrees hcanonical hcontains,
        fun hevent => generation_of_contains hevent hcontains⟩
    · exact hworker
  · rw [List.mem_singleton] at hcopy
    subst hcopy
    exact hworker

/-- A read that had to write the files leaves its record in all of them. -/
theorem files_read (hready : s.ready worker gpu m = false) :
    ∀ copy ∈ (s.read worker gpu).scopeFiles worker gpu m, ∃ x, copy = some x ∧
      (Same x m ∨ Same x (aliasRecord worker m)) := by
  have hcanonical := Copies.canonical_strongest hgpu hm
  have hworker : ((s.read worker gpu).sources worker gpu).durableWorker =
      some (normalizeReadRecord worker gpu (aliasRecord worker m)) := by
    change ((s.read worker gpu).workerFiles.get (workerLatchPath worker)).map _ = _
    rw [workerFile_read hgpu hreadable hm, if_pos hready]
    rfl
  have hfile : ∃ x, ((s.read worker gpu).sources worker gpu).durableWorker = some x ∧
      (Same x m ∨ Same x (aliasRecord worker m)) :=
    ⟨_, hworker, Or.inr (normalize_same (canonical_alias hcanonical))⟩
  intro copy hcopy
  unfold Store.scopeFiles at hcopy
  split_ifs at hcopy with hphysical
  · simp only [List.mem_cons, List.not_mem_nil, or_false] at hcopy
    rcases hcopy with rfl | rfl
    · have hdevice := normalizeDevice_same (Copies.strongest_same hgpu hm hphysical)
      rw [Store.sources_durableDevice hgpu, gpuFile_read hgpu hreadable hm,
        if_pos ⟨hready, hphysical⟩]
      exact ⟨_, rfl, Or.inl ((normalize_same (hcanonical.of_same hdevice.symm)).trans hdevice)⟩
    · exact hfile
  · rw [List.mem_singleton] at hcopy
    subst hcopy
    exact hfile

/-- The file that decides readiness holds the event after a read. -/
theorem deciding_read : ∃ x, (s.read worker gpu).decidingFile worker gpu m = some x ∧
    x.get "scope" = m.get "scope" ∧ x.get "hostname" = m.get "hostname" ∧
    x.get "device" = m.get "device" ∧ generation x = generation (s.settledRecord worker gpu m) ∧
    (pageState x = pageState m ∨ isPhysical m = true ∧ pageState m = some "sent") := by
  have hwritten := files_read hgpu hreadable hm
  unfold Store.scopeFiles at hwritten
  unfold Store.decidingFile Store.settledRecord
  cases hphysical : isPhysical m with
  | true =>
      simp only [hphysical, if_true, true_or, true_and] at hwritten ⊢
      cases hready : s.ready worker gpu m with
      | false =>
          have hdevice := normalizeDevice_same (Copies.strongest_same hgpu hm hphysical)
          have hsame : Same (normalizeReadRecord worker gpu (normalizeDeviceRecord gpu m)) m :=
            (normalize_same ((Copies.canonical_strongest hgpu hm).of_same hdevice.symm)).trans hdevice
          refine ⟨_, ?_, hsame _, hsame _, hsame _, hsame.sameEvent.generation,
            Or.inl hsame.pageState⟩
          rw [Store.sources_durableDevice hgpu, gpuFile_read hgpu hreadable hm,
            if_pos ⟨hready, hphysical⟩, Option.map_some]
      | true =>
          obtain ⟨raw, d, hraw, hd, -, -, -, hmerged⟩ := device_of_ready hgpu hm hphysical hready
          have hevent : SameEvent d m := by
            rw [hmerged]
            exact fun key hkey => (sameEvent_reported _ d key hkey).symm
          refine ⟨d, ?_, hevent _ (by decide), hevent _ (by decide), hevent _ (by decide),
            hevent.generation, ?_⟩
          · rw [Store.sources_durableDevice hgpu, gpuFile_read hgpu hreadable hm, hready,
              if_neg (by simp), hraw, Option.map_some, hd]
          · rw [hmerged]
            exact reported_page _ d
  | false =>
      simp only [hphysical, Bool.false_eq_true, if_false, false_or, false_and, or_false] at hwritten ⊢
      have hsources : ((s.read worker gpu).sources worker gpu).durableWorker =
          ((s.read worker gpu).workerFiles.get (workerLatchPath worker)).map
            (normalizeReadRecord worker gpu) := rfl
      cases hready : s.ready worker gpu m with
      | false =>
          have hcanonical : Canonical worker gpu m := Copies.canonical_strongest hgpu hm
          have hsame := normalize_same (canonical_alias hcanonical)
          simp only [Bool.false_eq_true, if_false]
          refine ⟨_, ?_, (hsame _).trans (alias_get (by decide) (by decide)),
            (hsame _).trans (alias_get (by decide) (by decide)),
            (hsame _).trans (alias_get (by decide) (by decide)), hsame.sameEvent.generation,
            hsame.pageState.trans pageState_alias⟩
          rw [hsources, workerFile_read hgpu hreadable hm, if_pos hready, Option.map_some]
      | true =>
          obtain ⟨raw, hraw, hmerged, -, -⟩ := file_of_ready hgpu hm hphysical hready
          refine ⟨m, ?_, rfl, rfl, rfl, rfl, rfl⟩
          rw [hsources, workerFile_read hgpu hreadable hm, hready, if_neg (by simp), hraw,
            Option.map_some, ← hmerged]

end Converge

/-- **Reading a latch converges**: after one read for a named GPU the durable state is ready and no
further read writes a file; the next read answers the same record and writes nothing, but for a delivery
that only the worker's Redis hash knew of, and after that one nothing changes in any case. -/
theorem reading_converges (s : Store) (worker : WorkerId) (gpu : Gpu) (hgpu : gpu.named = true)
    (r : Record) (h : s.answer worker gpu = .ok (some r)) : s.Converges worker gpu r := by
  obtain ⟨hreadable, hm⟩ := answer_eq_some hgpu h
  obtain ⟨m, hm', hevent, hready, hsame⟩ := second_read hgpu hreadable hm
  have hmerged := readMerged_read hgpu hreadable hm hm'
  have hreadable' := readable_read hgpu hreadable hm
  refine
    { ready := ⟨_, hmerged, hready, hevent, files_second hgpu hreadable hm hm' hready⟩
      quiet := fun hlate => ⟨⟨_, hmerged, hsame hlate⟩,
        quiet_second hgpu hreadable hm hm' hready (hsame hlate)⟩
      settled := ?_
      deciding := deciding_read hgpu hreadable hm
      materialized := files_read hgpu hreadable hm
      hashes := hashes_read hgpu hreadable hm }
  by_cases hlate : s.LateDelivery worker gpu r
  · -- The Redis hash of the GPU knows of the delivery now, so the next read settles it.
    have hstored : (s.read worker gpu).settledRecord worker gpu m = m := if_pos (Or.inr hready)
    have hnolate : ¬(s.read worker gpu).LateDelivery worker gpu m :=
      no_late_second hgpu hreadable hm hlate.physical hlate.sent
    obtain ⟨m'', hm'', -, hready'', hsame''⟩ := second_read hgpu hreadable' hm'
    have hsettled := hsame'' hnolate
    refine ⟨_, _, hmerged, readMerged_read hgpu hreadable' hm' hm'', ?_,
      quiet_second hgpu hreadable' hm' hm'' hready'' hsettled⟩
    rw [hstored] at hsettled
    exact hsettled
  · have hquiet := quiet_second hgpu hreadable hm hm' hready (hsame hlate)
    refine ⟨_, _, hmerged, ?_, fun _ => rfl, ?_⟩
    · rw [hquiet]
      exact hmerged
    · rw [hquiet, hquiet]

/-- A latch of an older version that only the Redis hash of one worker holds. -/
def unmaterialized : Store where
  workerHashes := ⟨[("gpu_1", (latchRecord node21 "gpu_1" "physical_gpu" "a" "pending").erase "scope")]⟩

theorem reading_converges_unmaterialized : ∃ r, unmaterialized.answer "gpu_1" node21 = .ok (some r) ∧
    unmaterialized.Converges "gpu_1" node21 r := by
  have hsome : (unmaterialized.answer "gpu_1" node21).toOption.join.any (fun _ => true) = true := by
    decide +kernel
  obtain ⟨r, hr, -⟩ := answered_of_any hsome
  exact ⟨r, hr, reading_converges unmaterialized "gpu_1" node21 (by decide) r hr⟩

/-- The second read answers another value of the field. -/
def Store.secondDiffers (s : Store) (worker : WorkerId) (gpu : Gpu) (key : String) : Bool :=
  match s.answer worker gpu, (s.read worker gpu).answer worker gpu with
  | .ok (some r), .ok (some r') => r'.get key ≠ r.get key
  | _, _ => false

/-- After a read, some copy of the scope of its record is missing, of another generation, or in another
page state. -/
def Store.copyDisagrees (s : Store) (worker : WorkerId) (gpu : Gpu) : Bool :=
  match s.answer worker gpu with
  | .ok (some r) =>
      ((s.read worker gpu).scopeFiles worker gpu r ++ (s.read worker gpu).scopeHashes worker gpu r).any
        fun copy => !copy.any fun x => generation x = generation r && pageState x = pageState r
  | _ => false

theorem not_at_once_of_differs (key : String) (hgpu : gpu.named = true) (h : s.secondDiffers worker gpu key = true) :
    ∃ r, s.answer worker gpu = .ok (some r) ∧ ¬s.ConvergesAtOnce worker gpu r := by
  unfold Store.secondDiffers at h
  split at h
  · rename_i r r' hr hr'
    refine ⟨r, hr, fun hconverges => of_decide_eq_true h ?_⟩
    obtain ⟨m, hm, hsame, -⟩ := hconverges.same
    obtain ⟨hreadable, hstrongest⟩ := answer_eq_some hgpu hr'
    rw [readMerged_ok_iff.mpr ⟨hreadable, rfl⟩, hstrongest, Except.ok.injEq, Option.map_some,
      Option.some.injEq] at hm
    rw [← hm] at hsame
    exact hsame key
  · exact absurd h (by simp)

theorem not_at_once_of_disagrees (h : s.copyDisagrees worker gpu = true) :
    ∃ r, s.answer worker gpu = .ok (some r) ∧ ¬s.ConvergesAtOnce worker gpu r := by
  unfold Store.copyDisagrees at h
  split at h
  · rename_i r hr
    refine ⟨r, hr, fun hconverges => ?_⟩
    obtain ⟨copy, hcopy, hno⟩ := List.any_eq_true.mp h
    obtain ⟨x, rfl, hagrees, hgen⟩ := hconverges.copies copy hcopy
    rw [Option.any_some, hgen, hagrees.page] at hno
    simp at hno
  · exact absurd h (by simp)

/-- Only the Redis hash of the worker says that the page was sent, and the hash of the GPU keeps the
error of an earlier attempt. -/
def lateDelivery : Store where
  gpuFiles := ⟨[(deviceLatchPath node21, latchRecord node21 "gpu_0" "physical_gpu" "a" "pending")]⟩
  gpuHashes := ⟨[(gpuDeviceQuarantineKey node21,
    (latchRecord node21 "gpu_0" "physical_gpu" "a" "failed").set "page_user_error" "timeout")]⟩
  workerHashes := ⟨[("gpu_0", latchRecord node21 "gpu_0" "physical_gpu" "a" "sent")]⟩

/-- The exclusion of one worker in the Redis hash of another. -/
def foreignExclusion : Store where
  workerHashes := ⟨[("gpu_1", latchRecord node21 "gpu_0" "worker_process" "a" "not_applicable")]⟩

/-- A latch whose delivery has reached the Redis hash of the GPU only, and no file of the worker. -/
def unrecordedDelivery : Store where
  gpuFiles := ⟨[(deviceLatchPath node21, latchRecord node21 "gpu_0" "physical_gpu" "a" "pending")]⟩
  gpuHashes := ⟨[(gpuDeviceQuarantineKey node21,
    latchRecord node21 "gpu_0" "physical_gpu" "a" "sent")]⟩

/-- A latch without an event id, and a Redis hash of the GPU that has one. -/
def leftoverEvent : Store where
  gpuFiles := ⟨[(deviceLatchPath node21,
    (latchRecord node21 "gpu_0" "physical_gpu" "a" "pending").erase "event_id")]⟩
  gpuHashes := ⟨[(gpuDeviceQuarantineKey node21,
    latchRecord node21 "gpu_0" "physical_gpu" "b" "pending")]⟩
  workerFiles := ⟨[(workerLatchPath "gpu_0",
    (latchRecord node21 "gpu_0" "physical_gpu" "a" "pending").erase "event_id")]⟩

/-- One read does not always converge: the page of a late delivery is completed by the next one, an
exclusion changes its worker id, and copies that nothing requires may stay behind. -/
theorem reading_not_at_once :
    (∃ r, lateDelivery.answer "gpu_0" node21 = .ok (some r) ∧
      ¬lateDelivery.ConvergesAtOnce "gpu_0" node21 r) ∧
    (∃ r, foreignExclusion.answer "gpu_1" node21 = .ok (some r) ∧
      ¬foreignExclusion.ConvergesAtOnce "gpu_1" node21 r) ∧
    (∃ r, unrecordedDelivery.answer "gpu_0" node21 = .ok (some r) ∧
      ¬unrecordedDelivery.ConvergesAtOnce "gpu_0" node21 r) ∧
    ∃ r, leftoverEvent.answer "gpu_0" node21 = .ok (some r) ∧
      ¬leftoverEvent.ConvergesAtOnce "gpu_0" node21 r :=
  ⟨not_at_once_of_differs "page_user_error" (by decide) (by decide +kernel),
    not_at_once_of_differs "worker_id" (by decide) (by decide +kernel),
    not_at_once_of_disagrees (by decide +kernel), not_at_once_of_disagrees (by decide +kernel)⟩

end KernelGym.Quarantine
