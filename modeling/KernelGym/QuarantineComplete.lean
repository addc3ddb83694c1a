import KernelGym.QuarantineCleared

/-! What a manual clear leaves to be read. The clear matches stored fields as they are, while a read
fills in a missing scope, hostname or device: a copy whose identity is incomplete outlives the clear and
is read as a latch of the GPU again. -/

namespace KernelGym.Quarantine

open Library

/-- A record that says itself that it is no latch of the GPU: the exclusion of a worker process, or a
physical latch that names another hostname or device. -/
def exempt (gpu : Gpu) (r : Record) : Bool :=
  r.get "scope" = some "worker_process" ||
    (isPhysical r && (textOr r "hostname" gpu.hostname ≠ gpu.hostname ||
      textOr r "device" gpu.device ≠ gpu.device))

/-- The scope is missing or unknown, or the record is a physical latch without a hostname or a device of
its own that could be one of the GPU. -/
def incomplete (gpu : Gpu) (r : Record) : Bool :=
  !knownScope r ||
    (isPhysical r && !exempt gpu r && (text r "hostname" = "" || text r "device" = ""))

/-- A worker file that a clear of the GPU leaves although it is not exempt. -/
def overlookedFile (gpu : Gpu) (r : Record) : Bool :=
  if gpu.named then
    incomplete gpu r || (isPhysical r && !exempt gpu r && r.get "state" ≠ some "quarantined")
  else !exempt gpu r

/-- A worker hash that a clear of the GPU leaves although it is not exempt; only an empty scope counts as
physical to the clear. -/
def overlookedHash (gpu : Gpu) (r : Record) : Bool :=
  if gpu.named then incomplete gpu r && !clearsHash gpu r else !exempt gpu r

namespace Store

variable (s : Store)

/-- What `read_gpu_quarantine` returns. -/
def answer (worker : WorkerId) (gpu : Gpu) : Except LatchError (Option Record) :=
  match s.readMerged worker gpu with
  | .ok merged => .ok (merged.map (readRecord gpu))
  | .error e => .error e

/-- A record in the latch file or the Redis hash of a worker. -/
def holds (worker : WorkerId) (r : Record) : Prop :=
  s.workerFiles.get (workerLatchPath worker) = some r ∨ fetched (s.workerHash worker) = some r

/-- The workers whose Redis hashes a clear removes without looking at their contents. -/
def reaches (worker : WorkerId) (gpu : Gpu) (seen : List WorkerId) (id : WorkerId) : Prop :=
  id = worker ∨ gpu.named = true ∧ (id ∈ seen ∨ id ∈ s.durableAliases gpu)

/-- The latch file of `id` outlives a clear by `worker` and meets `p`, or its Redis hash does so
and meets `q`. -/
def outlives (worker : WorkerId) (gpu : Gpu) (seen : List WorkerId) (id : WorkerId)
    (p q : Record → Bool) : Prop :=
  (workerLatchPath id ≠ workerLatchPath worker ∧
    ∃ r, s.workerFiles.get (workerLatchPath id) = some r ∧ p r = true) ∨
  (¬s.reaches worker gpu seen id ∧ ∃ r, fetched (s.workerHash id) = some r ∧ q r = true)

/-- After a clear, a read by any worker returns nothing, unless the worker holds an exempt record. -/
def ClearComplete (worker : WorkerId) (gpu : Gpu) (seen : List WorkerId) : Prop :=
  ∀ id, (s.clear worker gpu seen).answer id gpu = .ok none ∨
    ∃ r, (s.clear worker gpu seen).holds id r ∧ exempt gpu r = true

end Store

variable {worker id : WorkerId} {gpu : Gpu} {r : Record} {seen : List WorkerId} {s : Store}

/-! ### Exempt records -/

theorem not_exempt_iff : exempt gpu r = false ↔ r.get "scope" ≠ some "worker_process" ∧
    (isPhysical r = true → textOr r "hostname" gpu.hostname = gpu.hostname ∧
      textOr r "device" gpu.device = gpu.device) := by
  simp [exempt]

theorem scope_of_known (h : knownScope r = true) :
    isPhysical r = true ∨ r.get "scope" = some "worker_process" := by
  cases hscope : r.get "scope" with
  | none => simp [knownScope, text, hscope] at h
  | some scope => simpa [knownScope, text, hscope, isPhysical] using h

theorem knownScope_of_physical (h : isPhysical r = true) : knownScope r = true := by
  simp only [isPhysical, decide_eq_true_eq] at h
  simp [knownScope, text, h]

theorem knownScope_of_worker (h : r.get "scope" = some "worker_process") : knownScope r = true := by
  simp [knownScope, text, h]

theorem get_of_textOr {key value : String} (h : textOr r key value = value) (hne : text r key ≠ "") :
    r.get key = some value := by
  rw [textOr, if_neg hne] at h
  exact get_of_text (fun hvalue => hne (h.trans hvalue)) h

theorem text_of_get {key value : String} (h : r.get key = some value) : text r key = value := by
  rw [text, h, Option.getD_some]

/-- An exempt record names another GPU or is no physical latch, so no clear of the GPU matches it. -/
theorem exempt_kept (hgpu : gpu.named = true) (h : exempt gpu r = true) :
    clearsFile gpu r = false ∧ clearsHash gpu r = false := by
  have hmatch : ∀ {key value : String}, value ≠ "" → r.get key = some value →
      textOr r key value = value := fun hvalue hget => by
    rw [textOr, text_of_get hget, if_neg hvalue]
  obtain ⟨hhost, hdevice⟩ := Gpu.named_iff.mp hgpu
  rw [exempt, Bool.or_eq_true, decide_eq_true_eq] at h
  rcases h with hscope | hother
  · simp [clearsFile, clearsHash, isPhysical, hscope]
  · rw [Bool.and_eq_true, Bool.or_eq_true, decide_eq_true_eq, decide_eq_true_eq] at hother
    rcases hother with ⟨-, hother | hother⟩
    · have hget : r.get "hostname" ≠ some gpu.hostname := mt (hmatch hhost) hother
      simp [clearsFile, clearsHash, hget]
    · have hget : r.get "device" ≠ some gpu.device := mt (hmatch hdevice) hother
      simp [clearsFile, clearsHash, hget]

/-- A physical latch that is not exempt and names both its hostname and its device names the GPU. -/
theorem names_gpu (hphysical : isPhysical r = true) (hexempt : exempt gpu r = false)
    (hcomplete : text r "hostname" ≠ "" ∧ text r "device" ≠ "") :
    r.get "hostname" = some gpu.hostname ∧ r.get "device" = some gpu.device := by
  obtain ⟨hhost, hdevice⟩ := (not_exempt_iff.mp hexempt).2 hphysical
  exact ⟨get_of_textOr hhost hcomplete.1, get_of_textOr hdevice hcomplete.2⟩

theorem incomplete_cases (h : exempt gpu r = false) : incomplete gpu r = true ∨
    isPhysical r = true ∧ r.get "hostname" = some gpu.hostname ∧ r.get "device" = some gpu.device := by
  cases hknown : knownScope r with
  | false => simp [incomplete, hknown]
  | true =>
      have hphysical := (scope_of_known hknown).resolve_right (not_exempt_iff.mp h).1
      by_cases hcomplete : text r "hostname" ≠ "" ∧ text r "device" ≠ ""
      · exact Or.inr ⟨hphysical, names_gpu hphysical h hcomplete⟩
      · rw [not_and_or, not_not, not_not] at hcomplete
        left
        simpa [incomplete, hknown, hphysical, h] using hcomplete

theorem not_exempt_of_incomplete (h : incomplete gpu r = true) : exempt gpu r = false := by
  rw [incomplete, Bool.or_eq_true] at h
  rcases h with hunknown | hknown
  · rw [Bool.not_eq_true'] at hunknown
    refine not_exempt_iff.mpr ⟨fun hworker => ?_, fun hphysical => ?_⟩
    · rw [knownScope_of_worker hworker] at hunknown
      exact absurd hunknown (by simp)
    · rw [knownScope_of_physical hphysical] at hunknown
      exact absurd hunknown (by simp)
  · simp only [Bool.and_eq_true, Bool.not_eq_true'] at hknown
    exact hknown.1.2

/-- A file that a clear leaves is overlooked or exempt. -/
theorem overlookedFile_iff : overlookedFile gpu r = true ↔
    exempt gpu r = false ∧ (gpu.named = true → clearsFile gpu r = false) := by
  cases hgpu : gpu.named with
  | false => simp [overlookedFile, hgpu]
  | true =>
      rw [overlookedFile, if_pos hgpu, Bool.or_eq_true]
      simp only [true_imp_iff]
      constructor
      · rintro (hincomplete | hinvalid)
        · have hexempt := not_exempt_of_incomplete hincomplete
          refine ⟨hexempt, ?_⟩
          by_contra hclears
          simp only [clearsFile, Bool.not_eq_false, Bool.and_eq_true, decide_eq_true_eq] at hclears
          obtain ⟨⟨⟨-, hphysical⟩, hhost⟩, hdevice⟩ := hclears
          obtain ⟨hnehost, hnedevice⟩ := Gpu.named_iff.mp hgpu
          simp [incomplete, knownScope_of_physical hphysical, text_of_get hhost, text_of_get hdevice,
            hnehost, hnedevice] at hincomplete
        · simp only [Bool.and_eq_true, Bool.not_eq_true', decide_eq_true_eq] at hinvalid
          exact ⟨hinvalid.1.2, by simp [clearsFile, hinvalid.2]⟩
      · rintro ⟨hexempt, hclears⟩
        rcases incomplete_cases hexempt with hincomplete | ⟨hphysical, hhost, hdevice⟩
        · exact Or.inl hincomplete
        · right
          simpa [clearsFile, hphysical, hhost, hdevice, hexempt] using hclears

theorem overlookedHash_iff : overlookedHash gpu r = true ↔
    exempt gpu r = false ∧ (gpu.named = true → clearsHash gpu r = false) := by
  cases hgpu : gpu.named with
  | false => simp [overlookedHash, hgpu]
  | true =>
      rw [overlookedHash, if_pos hgpu, Bool.and_eq_true, Bool.not_eq_true']
      simp only [true_imp_iff]
      constructor
      · rintro ⟨hincomplete, hclears⟩
        exact ⟨not_exempt_of_incomplete hincomplete, hclears⟩
      · rintro ⟨hexempt, hclears⟩
        refine ⟨(incomplete_cases hexempt).resolve_right ?_, hclears⟩
        rintro ⟨hphysical, hhost, hdevice⟩
        simp only [isPhysical, decide_eq_true_eq] at hphysical
        simp [clearsHash, hphysical, hhost, hdevice] at hclears

/-! ### The stores after a clear -/

theorem workerHash_clear_of_reaches (h : s.reaches worker gpu seen id) :
    (s.clear worker gpu seen).workerHash id = {} := by
  have hget : (s.clear worker gpu seen).workerHashes.get id = none := by
    rw [Store.clear]
    cases hgpu : gpu.named with
    | false =>
        obtain rfl := h.resolve_right (fun hnamed => absurd hnamed.1 (by simp [hgpu]))
        rw [if_neg (by simp)]
        change (s.workerHashes.erase id).get id = none
        rw [Dict.get_erase, if_pos rfl]
    | true =>
        rw [if_pos rfl]
        change (s.workerHashes.keep _).get id = none
        rw [Dict.get_keep, if_neg]
        rcases h with rfl | ⟨-, hseen | hdurable⟩
        · simp
        · simp [hseen]
        · simp [hdurable]
  rw [Store.workerHash, hget, Option.getD_none]

theorem fetched_filter (o : Option Record) (p : Record → Bool) :
    fetched ((o.filter p).getD {}) = (fetched (o.getD {})).filter p := by
  cases o with
  | none => rfl
  | some r =>
      rw [Option.getD_some, Option.filter_some]
      unfold fetched
      cases hp : p r <;> cases hempty : Dict.isEmpty r <;>
        simp_all [Dict.isEmpty, Option.filter_some]

theorem fetched_clear (h : ¬s.reaches worker gpu seen id) :
    fetched ((s.clear worker gpu seen).workerHash id) =
      (fetched (s.workerHash id)).filter fun r => !(gpu.named && clearsHash gpu r) := by
  rw [Store.reaches, not_or] at h
  obtain ⟨hne, hother⟩ := h
  cases hgpu : gpu.named with
  | false =>
      have hkept : (s.clear worker gpu seen).workerHash id = s.workerHash id := by
        rw [Store.clear, hgpu, if_neg (by simp)]
        change ((s.workerHashes.erase worker).get id).getD {} = _
        rw [Dict.get_erase, if_neg hne, Store.workerHash]
      rw [hkept]
      cases fetched (s.workerHash id) <;> rfl
  | true =>
      have hlists : id ∉ seen ∧ id ∉ s.durableAliases gpu := by
        simpa [hgpu] using hother
      have hget : (s.clear worker gpu seen).workerHashes.get id =
          (s.workerHashes.get id).filter fun r => !clearsHash gpu r := by
        rw [Store.clear, hgpu, if_pos rfl]
        change (s.workerHashes.keep _).get id = _
        have hredis := Dict.mem_keysWhere s.workerHashes (k := id) (q := fun _ r => clearsHash gpu r)
        rw [Dict.get_keep]
        simp only [List.contains_eq_mem, List.mem_cons, List.mem_append, hne, hlists.1, hlists.2,
          false_or, or_false, Store.redisPhysicalAliases, hredis]
        cases s.workerHashes.get id with
        | none => simp
        | some r => cases hclears : clearsHash gpu r <;> simp [hclears, Option.filter_some]
      rw [Store.workerHash, hget, Store.workerHash, fetched_filter]
      simp only [Bool.true_and]

theorem device_clear (hgpu : gpu.named = true) :
    (s.clear worker gpu seen).gpuFiles.get (deviceLatchPath gpu) = none ∧
      fetched ((s.clear worker gpu seen).gpuHash gpu) = none := by
  rw [Store.clear, if_pos hgpu]
  constructor
  · change (s.gpuFiles.erase _).get _ = none
    rw [Dict.get_erase, if_pos rfl]
  · rw [Store.gpuHash]
    change fetched (((s.gpuHashes.erase _).get _).getD {}) = none
    rw [Dict.get_erase, if_pos rfl]
    rfl

/-! ### Reads without a record -/

/-- A read returns nothing exactly when no copy that it looks at is there. -/
theorem answer_none_iff : s.answer id gpu = .ok none ↔
    (gpu.named = true → s.gpuFiles.get (deviceLatchPath gpu) = none ∧ fetched (s.gpuHash gpu) = none) ∧
      s.workerFiles.get (workerLatchPath id) = none ∧ fetched (s.workerHash id) = none := by
  have hnothing : s.answer id gpu = .ok none ↔ s.readMerged id gpu = .ok none := by
    unfold Store.answer
    cases s.readMerged id gpu with
    | error e => simp
    | ok merged => cases merged <;> simp
  have hsources : ((s.copies id gpu).normalized id gpu).strongest gpu = none ↔
      (gpu.named = true → s.gpuFiles.get (deviceLatchPath gpu) = none ∧
        fetched (s.gpuHash gpu) = none) ∧
      s.workerFiles.get (workerLatchPath id) = none ∧ fetched (s.workerHash id) = none := by
    rw [Sources.strongest_eq_none, Sources.ordered, List.reduceOption, List.filterMap_eq_nil_iff]
    cases hgpu : gpu.named with
    | false => simp [Copies.normalized, Copies.device, hgpu, Store.copies]
    | true =>
        simp [Copies.normalized, Copies.device, hgpu, Store.copies]
        tauto
  rw [hnothing, readMerged_ok_iff, eq_comm, Option.map_eq_none_iff, hsources]
  refine ⟨fun h => h.2, fun h => ⟨⟨fun hgpu r hr => ?_, fun r hr => ?_⟩, h⟩⟩
  · rw [(h.1 hgpu).1] at hr
    exact absurd hr (by simp)
  · rw [h.2.1] at hr
    exact absurd hr (by simp)

theorem answer_clear_none_iff : (s.clear worker gpu seen).answer id gpu = .ok none ↔
    (s.clear worker gpu seen).workerFiles.get (workerLatchPath id) = none ∧
      fetched ((s.clear worker gpu seen).workerHash id) = none := by
  rw [answer_none_iff]
  exact ⟨fun h => h.2, fun h => ⟨device_clear, h⟩⟩

/-- What a worker holds after a clear is what outlives it: an exempt record or an overlooked one. -/
theorem holds_clear : (s.clear worker gpu seen).holds id r ↔
    (workerLatchPath id ≠ workerLatchPath worker ∧
      s.workerFiles.get (workerLatchPath id) = some r ∧
        (gpu.named = true → clearsFile gpu r = false)) ∨
    (¬s.reaches worker gpu seen id ∧ fetched (s.workerHash id) = some r ∧
      (gpu.named = true → clearsHash gpu r = false)) := by
  rw [Store.holds, workerFiles_clear]
  refine or_congr ?_ ?_
  · rw [Option.ite_none_left_eq_some, Option.filter_eq_some_iff]
    cases gpu.named <;> simp
  · by_cases hreach : s.reaches worker gpu seen id
    · rw [workerHash_clear_of_reaches hreach]
      simp [hreach, fetched, Dict.isEmpty]
    · rw [fetched_clear hreach, Option.filter_eq_some_iff]
      cases gpu.named <;> simp [hreach]

theorem holds_exempt_iff : (∃ r, (s.clear worker gpu seen).holds id r ∧ exempt gpu r = true) ↔
    s.outlives worker gpu seen id (exempt gpu) (exempt gpu) := by
  constructor
  · rintro ⟨r, hr, hexempt⟩
    rcases holds_clear.mp hr with ⟨hpath, hfile, -⟩ | ⟨hreach, hhash, -⟩
    · exact Or.inl ⟨hpath, r, hfile, hexempt⟩
    · exact Or.inr ⟨hreach, r, hhash, hexempt⟩
  · rintro (⟨hpath, r, hfile, hexempt⟩ | ⟨hreach, r, hhash, hexempt⟩)
    · exact ⟨r, holds_clear.mpr (Or.inl ⟨hpath, hfile, fun hgpu => (exempt_kept hgpu hexempt).1⟩),
        hexempt⟩
    · exact ⟨r, holds_clear.mpr (Or.inr ⟨hreach, hhash, fun hgpu => (exempt_kept hgpu hexempt).2⟩),
        hexempt⟩

theorem holds_overlooked_iff : (∃ r, (s.clear worker gpu seen).holds id r ∧ exempt gpu r = false) ↔
    s.outlives worker gpu seen id (overlookedFile gpu) (overlookedHash gpu) := by
  constructor
  · rintro ⟨r, hr, hexempt⟩
    rcases holds_clear.mp hr with ⟨hpath, hfile, hkept⟩ | ⟨hreach, hhash, hkept⟩
    · exact Or.inl ⟨hpath, r, hfile, overlookedFile_iff.mpr ⟨hexempt, hkept⟩⟩
    · exact Or.inr ⟨hreach, r, hhash, overlookedHash_iff.mpr ⟨hexempt, hkept⟩⟩
  · rintro (⟨hpath, r, hfile, hlost⟩ | ⟨hreach, r, hhash, hlost⟩)
    · obtain ⟨hexempt, hkept⟩ := overlookedFile_iff.mp hlost
      exact ⟨r, holds_clear.mpr (Or.inl ⟨hpath, hfile, hkept⟩), hexempt⟩
    · obtain ⟨hexempt, hkept⟩ := overlookedHash_iff.mp hlost
      exact ⟨r, holds_clear.mpr (Or.inr ⟨hreach, hhash, hkept⟩), hexempt⟩

/-- **A clear is complete exactly when every worker with an overlooked copy that outlives it also has
an exempt one.** -/
theorem clear_complete_iff (s : Store) (worker : WorkerId) (gpu : Gpu) (seen : List WorkerId) :
    s.ClearComplete worker gpu seen ↔
      ∀ id, s.outlives worker gpu seen id (overlookedFile gpu) (overlookedHash gpu) →
        s.outlives worker gpu seen id (exempt gpu) (exempt gpu) := by
  refine forall_congr' fun id => ?_
  rw [answer_clear_none_iff, holds_exempt_iff, ← holds_overlooked_iff]
  constructor
  · rintro (⟨hfile, hhash⟩ | hexempt) ⟨r, hr | hr, hover⟩
    · rw [hfile] at hr
      exact absurd hr (by simp)
    · rw [hhash] at hr
      exact absurd hr (by simp)
    · exact hexempt
    · exact hexempt
  · intro h
    by_cases hexempt : s.outlives worker gpu seen id (exempt gpu) (exempt gpu)
    · exact Or.inr hexempt
    · have hnone : ∀ r, ¬(s.clear worker gpu seen).holds id r := by
        intro r hr
        cases hr' : exempt gpu r with
        | true => exact hexempt (holds_exempt_iff.mp ⟨r, hr, hr'⟩)
        | false => exact hexempt (h ⟨r, hr, hr'⟩)
      refine Or.inl ⟨?_, ?_⟩
      · rw [Option.eq_none_iff_forall_ne_some]
        exact fun r hr => hnone r (Or.inl hr)
      · rw [Option.eq_none_iff_forall_ne_some]
        exact fun r hr => hnone r (Or.inr hr)

theorem answered_of_any {found : Except LatchError (Option Record)} {test : Record → Bool}
    (h : found.toOption.join.any test = true) : ∃ r, found = .ok (some r) ∧ test r = true := by
  cases found with
  | error problem => exact absurd h (by simp [Except.toOption])
  | ok latch =>
      cases latch with
      | none => exact absurd h (by simp [Except.toOption])
      | some r => exact ⟨r, rfl, h⟩

/-- The alias of another worker in Redis, without a scope, outlives the clear and closes the GPU again. -/
theorem clear_leaves_unscoped :
    (∃ r, (unscopedAlias.store.clear "gpu_0" node21
      (unscopedAlias.store.redisPhysicalAliases node21)).answer "gpu_1" node21 = .ok (some r) ∧
      samePhysicalGpu node21 r = true ∧ generation r = .event "a") ∧
    ¬unscopedAlias.store.ClearComplete "gpu_0" node21
      (unscopedAlias.store.redisPhysicalAliases node21) := by
  have hanswer : ((unscopedAlias.store.clear "gpu_0" node21
      (unscopedAlias.store.redisPhysicalAliases node21)).answer "gpu_1" node21).toOption.join.any
        (fun r => samePhysicalGpu node21 r && generation r = .event "a") = true := by decide +kernel
  obtain ⟨r, hr, hsame⟩ := answered_of_any hanswer
  rw [Bool.and_eq_true, decide_eq_true_eq] at hsame
  refine ⟨⟨r, hr, hsame⟩, fun hcomplete => ?_⟩
  rcases hcomplete "gpu_1" with hnone | ⟨r', hheld, hexempt⟩
  · rw [hr] at hnone
    exact absurd hnone (by simp)
  · have hfile : ((unscopedAlias.store.clear "gpu_0" node21
        (unscopedAlias.store.redisPhysicalAliases node21)).workerFiles.get
          (workerLatchPath "gpu_1")).all (fun r => !exempt node21 r) = true := by decide +kernel
    have hhash : (fetched ((unscopedAlias.store.clear "gpu_0" node21
        (unscopedAlias.store.redisPhysicalAliases node21)).workerHash "gpu_1")).all
          (fun r => !exempt node21 r) = true := by decide +kernel
    rcases hheld with hheld | hheld
    · rw [hheld, Option.all_some, hexempt] at hfile
      exact absurd hfile (by simp)
    · rw [hheld, Option.all_some, hexempt] at hhash
      exact absurd hhash (by simp)

end KernelGym.Quarantine
