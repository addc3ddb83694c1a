import KernelGym.QuarantineFields
import Mathlib.Data.List.ReduceOption

/-! The merge of the four copies of a latch fails closed: it forgets no copy, keeps a physical latch
on its own GPU, prefers durable physical copies, and reports a delivered page, unless a copy of another
generation that says `sent` comes first. -/

namespace KernelGym.Quarantine

open Library

/-- The first element that meets `p` agrees with `q` exactly when no element that meets `p` stands
before the first one that meets both. -/
theorem find?_agrees_iff {α : Type} (l : List α) (p q : α → Bool) :
    (∀ x ∈ l, p x = true → q x = true → ∃ y, l.find? p = some y ∧ q y = true) ↔
      ∀ before x after, l = before ++ x :: after → p x = true → q x = true →
        (∀ y ∈ before, p y = true → q y = false) → ∀ y ∈ before, p y = false := by
  constructor
  · rintro h before x after rfl hp hq hbefore y hy
    by_contra hpy
    rw [Bool.not_eq_false] at hpy
    obtain ⟨z, hz, hqz⟩ := h x (by simp) hp hq
    have hsome : (before.find? p).isSome := List.find?_isSome.mpr ⟨y, hy, hpy⟩
    obtain ⟨w, hw⟩ := Option.isSome_iff_exists.mp hsome
    rw [List.find?_append, hw, Option.some_or, Option.some.injEq] at hz
    subst hz
    rw [hbefore w (List.mem_of_find?_eq_some hw) (List.find?_some hw)] at hqz
    exact absurd hqz (by simp)
  · intro h x hx hp hq
    have hsome : (l.find? fun y => p y && q y).isSome :=
      List.find?_isSome.mpr ⟨x, hx, by simp [hp, hq]⟩
    obtain ⟨y, hy⟩ := Option.isSome_iff_exists.mp hsome
    obtain ⟨hboth, before, after, hl, hbefore⟩ := List.find?_eq_some_iff_append.mp hy
    obtain ⟨hpy, hqy⟩ := Bool.and_eq_true_iff.mp hboth
    refine ⟨y, List.find?_eq_some_iff_append.mpr ⟨hpy, before, after, hl, fun z hz => ?_⟩, hqy⟩
    have hnone := h before y after hl hpy hqy (fun z hz hpz => by simpa [hpz] using hbefore z hz) z hz
    rw [hnone]
    rfl

namespace Copies

variable (copies : Copies) (worker : WorkerId) (gpu : Gpu)

def absent : Prop :=
  copies.durableDevice = none ∧ copies.durableWorker = none ∧ copies.redisDevice.isEmpty = true ∧
    copies.redisWorker.isEmpty = true

/-- Every file that is there holds a latch. -/
def readable : Prop :=
  ∀ r, copies.durableDevice = some r ∨ copies.durableWorker = some r →
    r.get "state" = some "quarantined"

/-- A worker copy that is read as a physical latch of the GPU. -/
def ownAlias (copy : Option Record) : Option Record :=
  (copy.map (normalizeReadRecord worker gpu)).filter (samePhysicalGpu gpu)

/-- The copies of a physical latch of the GPU, as they are read, in the order of their authority. -/
def physicalCopies : List Record :=
  [(copies.normalized worker gpu).durableDevice, ownAlias worker gpu copies.durableWorker,
    (copies.normalized worker gpu).redisDevice,
    ownAlias worker gpu (fetched copies.redisWorker)].reduceOption

def durablePhysicalCopies : List Record :=
  [(copies.normalized worker gpu).durableDevice, ownAlias worker gpu copies.durableWorker].reduceOption

/-- A device-keyed copy is there, or a worker copy is a physical latch of the GPU. -/
def latchesGpu : Prop :=
  copies.durableDevice.isSome ∨ copies.redisDevice.isEmpty = false ∨
    (ownAlias worker gpu copies.durableWorker).isSome ∨
    (ownAlias worker gpu (fetched copies.redisWorker)).isSome

instance : Decidable (copies.latchesGpu worker gpu) := by unfold latchesGpu; infer_instance

/-- No physical copy of another generation that says `sent` stands before the first one that says so
for the latch's generation, which is that of the first physical copy. -/
def sentInOrder : Prop :=
  ∀ first ∈ (copies.physicalCopies worker gpu).head?, ∀ before r after,
    copies.physicalCopies worker gpu = before ++ r :: after →
    pageState r = some "sent" → generation r = generation first →
    (∀ x ∈ before, pageState x = some "sent" → generation x ≠ generation first) →
    ∀ x ∈ before, pageState x ≠ some "sent"

/-- What a merge of the copies has to answer to fail closed. -/
structure FailClosed (merged : Option Merged) : Prop where
  absent : merged = none ↔ copies.absent
  scope : ∀ m ∈ merged,
    if copies.latchesGpu worker gpu then
      m.record.get "scope" = some "physical_gpu" ∧ m.record.get "hostname" = some gpu.hostname ∧
        m.record.get "device" = some gpu.device
    else m.record.get "scope" = some "worker_process"
  durable : ∀ m ∈ merged, copies.durablePhysicalCopies worker gpu ≠ [] →
    ∃ r ∈ copies.durablePhysicalCopies worker gpu, generation m.record = generation r
  sent : ∀ m ∈ merged, ∀ r ∈ copies.physicalCopies worker gpu,
    generation r = generation m.record → pageState r = some "sent" → pageState m.record = some "sent"

variable {copies worker gpu}

theorem readMerged_eq (hread : copies.readable) : copies.readMerged worker gpu =
    .ok (((copies.normalized worker gpu).strongest gpu).map (copies.merged worker gpu)) := by
  have hjson : ∀ file, (∀ r, file = some r → r.get "state" = some "quarantined") →
      readJson file = .ok file := by
    intro file hfile
    cases file with
    | none => rfl
    | some r => rw [readJson, if_pos (hfile r rfl)]
  have hdevice : ∀ r, (if gpu.named = true then copies.durableDevice else none) = some r →
      r.get "state" = some "quarantined" := by
    intro r hr
    split_ifs at hr
    exact hread r (Or.inl hr)
  rw [readMerged, hjson _ hdevice, hjson copies.durableWorker fun r hr => hread r (Or.inr hr)]
  rfl

theorem merged_record (m : Record) : (copies.merged worker gpu m).record = m := rfl

theorem fetched_eq_none {hash : Record} : fetched hash = none ↔ hash.isEmpty = true := by
  unfold fetched
  split_ifs with h <;> simp [h]

theorem normalized_device (hgpu : gpu.named = true) :
    (copies.normalized worker gpu).durableDevice = copies.durableDevice.map
      (fun r => normalizeReadRecord worker gpu (normalizeDeviceRecord gpu r)) ∧
    (copies.normalized worker gpu).redisDevice = (fetched copies.redisDevice).map
      (fun r => normalizeReadRecord worker gpu (normalizeDeviceRecord gpu r)) := by
  simp [normalized, device, hgpu, Function.comp_def]

end Copies

namespace Sources

variable {sources : Sources}

theorem candidates_eq_nil : sources.candidates gpu = [] ↔ sources.ordered gpu = [] := by
  unfold candidates
  split_ifs with h
  · rfl
  · rw [List.isEmpty_iff] at h
    exact ⟨fun heq => absurd heq h, fun heq => by rw [heq]; rfl⟩

theorem strongest_eq_none : sources.strongest gpu = none ↔ sources.ordered gpu = [] := by
  rw [← candidates_eq_nil]
  unfold strongest
  cases sources.candidates gpu with
  | nil => simp
  | cons first rest =>
      simp only [reduceCtorEq, iff_false]
      split <;> [split_ifs; skip] <;> simp

/-- The merged record is the first candidate with the page fields of a delivered copy of its own
generation, if the first delivered copy is one. -/
theorem strongest_eq_some {m : Record} (h : sources.strongest gpu = some m) :
    ∃ first, (sources.candidates gpu).head? = some first ∧ SameEvent m first ∧
      (pageState m = some "sent" ↔ pageState first = some "sent" ∨
        ∃ sent, sources.sentRecord gpu = some sent ∧ generation sent = generation first) := by
  unfold strongest at h
  cases hcand : sources.candidates gpu with
  | nil => simp [hcand] at h
  | cons first rest =>
      refine ⟨first, rfl, ?_⟩
      rw [hcand] at h
      cases hsent : sources.sentRecord gpu with
      | none =>
          simp only [hsent, Option.some.injEq] at h
          subst h
          exact ⟨fun _ _ => rfl, by simp⟩
      | some sent =>
          simp only [hsent] at h
          by_cases hgen : generation sent = generation first
          · rw [if_pos hgen, Option.some.injEq] at h
            subst h
            refine ⟨fun key hkey => ?_, ?_⟩
            · rw [Dict.get_set_of_ne _ (pageKey_ne hkey isPageKey_state), Dict.get_update,
                Dict.get_keep, hkey]
              rfl
            · rw [pageState, Dict.get_set_self]
              exact ⟨fun _ => Or.inr ⟨sent, rfl, hgen⟩, fun _ => rfl⟩
          · rw [if_neg hgen, Option.some.injEq] at h
            subst h
            refine ⟨fun _ _ => rfl, ⟨Or.inl, ?_⟩⟩
            rintro (hpage | ⟨other, hother, hsame⟩)
            · exact hpage
            · obtain rfl := Option.some.inj hother
              exact absurd hsame hgen

/-- The page state of a merged record is that of the first candidate, or says that it was sent. -/
theorem strongest_page {m first : Record} (h : sources.strongest gpu = some m)
    (hfirst : (sources.candidates gpu).head? = some first) :
    pageState m = pageState first ∨ pageState m = some "sent" := by
  unfold strongest at h
  cases hcand : sources.candidates gpu with
  | nil => simp [hcand] at h
  | cons first' rest =>
      rw [hcand, List.head?_cons, Option.some.injEq] at hfirst
      subst hfirst
      rw [hcand] at h
      cases hsent : sources.sentRecord gpu with
      | none =>
          simp only [hsent, Option.some.injEq] at h
          exact Or.inl (by rw [h])
      | some sent =>
          simp only [hsent] at h
          split_ifs at h with hgen
          · rw [← Option.some.inj h, pageState, Dict.get_set_self]
            exact Or.inr rfl
          · exact Or.inl (by rw [Option.some.inj h])

end Sources

theorem filter_reduceOption {α : Type} (l : List (Option α)) (p : α → Bool) :
    l.reduceOption.filter p = (l.map fun o => o.filter p).reduceOption := by
  induction l with
  | nil => rfl
  | cons o rest ih =>
      cases o with
      | none => simpa [List.reduceOption] using ih
      | some x =>
          rw [List.reduceOption_cons_of_some, List.filter_cons, ih, List.map_cons, Option.filter_some]
          split_ifs <;> rfl

namespace Copies

variable {copies : Copies}

theorem filter_constrained (hgpu : gpu.named = true) (copy : Option Record) :
    ((copy.map (normalizeReadRecord worker gpu)).map (constrainWorkerRecord gpu)).filter isPhysical =
      ownAlias worker gpu copy := by
  cases copy with
  | none => rfl
  | some r =>
      simp only [ownAlias, Option.map_some, Option.filter_some, isPhysical_constrain hgpu]
      split_ifs with hsame
      · rw [constrain_of_same hsame]
      · rfl

/-- The physical candidates of the merge are the copies of a physical latch of the GPU. -/
theorem physical_ordered (hgpu : gpu.named = true) :
    ((copies.normalized worker gpu).ordered gpu).filter isPhysical =
      copies.physicalCopies worker gpu := by
  have hdevice : ∀ copy : Option Record,
      (copy.map fun r => normalizeReadRecord worker gpu (normalizeDeviceRecord gpu r)).filter
        isPhysical = copy.map fun r => normalizeReadRecord worker gpu (normalizeDeviceRecord gpu r) := by
    intro copy
    cases copy with
    | none => rfl
    | some r =>
        rw [Option.map_some, Option.filter_some,
          if_pos (isPhysical_of_same (samePhysicalGpu_device hgpu))]
  rw [Sources.ordered, filter_reduceOption, physicalCopies, (normalized_device hgpu).1,
    (normalized_device hgpu).2]
  simp only [List.map_cons, List.map_nil, hdevice]
  rw [← filter_constrained hgpu, ← filter_constrained hgpu]
  rfl

theorem ordered_eq_nil (hgpu : gpu.named = true) :
    (copies.normalized worker gpu).ordered gpu = [] ↔ copies.absent := by
  rw [Sources.ordered, (normalized_device hgpu).1, (normalized_device hgpu).2, List.reduceOption,
    List.filterMap_eq_nil_iff]
  simp [normalized, absent, fetched_eq_none]

theorem same_of_physicalCopies (hgpu : gpu.named = true) (h : r ∈ copies.physicalCopies worker gpu) :
    samePhysicalGpu gpu r = true := by
  rw [physicalCopies, List.reduceOption_mem_iff, (normalized_device hgpu).1,
    (normalized_device hgpu).2] at h
  simp only [List.mem_cons, List.not_mem_nil, or_false] at h
  rcases h with h | h | h | h
  · obtain ⟨r', -, rfl⟩ := Option.map_eq_some_iff.mp h.symm
    exact samePhysicalGpu_device hgpu
  · exact (Option.filter_eq_some_iff.mp h.symm).2
  · obtain ⟨r', -, rfl⟩ := Option.map_eq_some_iff.mp h.symm
    exact samePhysicalGpu_device hgpu
  · exact (Option.filter_eq_some_iff.mp h.symm).2

theorem physicalCopies_eq_nil (hgpu : gpu.named = true) :
    copies.physicalCopies worker gpu = [] ↔ ¬copies.latchesGpu worker gpu := by
  rw [physicalCopies, (normalized_device hgpu).1, (normalized_device hgpu).2, List.reduceOption,
    List.filterMap_eq_nil_iff, latchesGpu]
  simp [fetched_eq_none, Option.isSome_iff_ne_none]
  tauto

/-- The durable copies come first. -/
theorem physicalCopies_durable (copies : Copies) (worker : WorkerId) (gpu : Gpu) :
    ∃ rest, copies.physicalCopies worker gpu = copies.durablePhysicalCopies worker gpu ++ rest := by
  refine ⟨[(copies.normalized worker gpu).redisDevice,
    ownAlias worker gpu (fetched copies.redisWorker)].reduceOption, ?_⟩
  rw [physicalCopies, durablePhysicalCopies, ← List.reduceOption_append]
  rfl

end Copies

namespace Copies

variable {copies : Copies} {m : Record}

theorem physical_candidates (hgpu : gpu.named = true) : (copies.normalized worker gpu).candidates gpu =
    if copies.physicalCopies worker gpu = [] then (copies.normalized worker gpu).ordered gpu
    else copies.physicalCopies worker gpu := by
  rw [Sources.candidates, physical_ordered hgpu]
  simp only [List.isEmpty_iff]

theorem physical_sentRecord (hgpu : gpu.named = true) :
    (copies.normalized worker gpu).sentRecord gpu =
      (copies.physicalCopies worker gpu).find? fun r => pageState r = some "sent" := by
  rw [← physical_ordered hgpu, List.find?_filter, Sources.sentRecord]
  simp

/-- A merged record with a physical copy is the first of them, up to paging. -/
theorem strongest_physical (hgpu : gpu.named = true)
    (h : (copies.normalized worker gpu).strongest gpu = some m)
    (hphysical : copies.physicalCopies worker gpu ≠ []) :
    ∃ first, (copies.physicalCopies worker gpu).head? = some first ∧ SameEvent m first ∧
      (pageState m = some "sent" ↔ pageState first = some "sent" ∨
        ∃ sent, (copies.physicalCopies worker gpu).find? (fun r => pageState r = some "sent") =
          some sent ∧ generation sent = generation first) := by
  obtain ⟨first, hhead, hsame, hpage⟩ := Sources.strongest_eq_some h
  rw [physical_candidates hgpu, if_neg hphysical] at hhead
  rw [physical_sentRecord hgpu] at hpage
  exact ⟨first, hhead, hsame, hpage⟩

/-- Without a physical copy, the merged record is an exclusion of the worker. -/
theorem strongest_worker (hgpu : gpu.named = true)
    (h : (copies.normalized worker gpu).strongest gpu = some m)
    (hphysical : copies.physicalCopies worker gpu = []) :
    m.get "scope" = some "worker_process" := by
  obtain ⟨first, hhead, hsame, -⟩ := Sources.strongest_eq_some h
  rw [physical_candidates hgpu, if_pos hphysical] at hhead
  rw [hsame "scope" (by decide)]
  have hmem := List.mem_of_mem_head? hhead
  have hscope : isPhysical first = false := by
    by_contra htrue
    rw [Bool.not_eq_false] at htrue
    have hfilter : first ∈ copies.physicalCopies worker gpu := by
      rw [← physical_ordered hgpu]
      exact List.mem_filter.mpr ⟨hmem, htrue⟩
    rw [hphysical] at hfilter
    exact absurd hfilter (by simp)
  have hnone := (physicalCopies_eq_nil hgpu).mp hphysical
  have haliases : ∀ copy : Option Record,
      some first = (copy.map (normalizeReadRecord worker gpu)).map (constrainWorkerRecord gpu) →
      first.get "scope" = some "worker_process" := by
    intro copy hcopy
    obtain ⟨r', hr', rfl⟩ := Option.map_eq_some_iff.mp hcopy.symm
    obtain ⟨r, -, rfl⟩ := Option.map_eq_some_iff.mp hr'
    exact scope_constrain hscope
  rw [Sources.ordered, List.reduceOption_mem_iff, (normalized_device hgpu).1,
    (normalized_device hgpu).2] at hmem
  simp only [List.mem_cons, List.not_mem_nil, or_false] at hmem
  rcases hmem with hmem | hmem | hmem | hmem
  · obtain ⟨r, hr, -⟩ := Option.map_eq_some_iff.mp hmem.symm
    exact absurd (Or.inl (by rw [hr]; rfl)) hnone
  · exact haliases _ hmem
  · obtain ⟨r, hr, -⟩ := Option.map_eq_some_iff.mp hmem.symm
    refine absurd (Or.inr (Or.inl ?_)) hnone
    by_contra hempty
    rw [Bool.not_eq_false] at hempty
    rw [fetched_eq_none.mpr hempty] at hr
    exact absurd hr (by simp)
  · exact haliases _ hmem

/-- The page of a merged physical latch is reported for every delivered copy of its generation exactly
when these copies are in order. -/
theorem sent_iff_sentInOrder (hgpu : gpu.named = true)
    (h : (copies.normalized worker gpu).strongest gpu = some m) :
    (∀ r ∈ copies.physicalCopies worker gpu, generation r = generation m →
      pageState r = some "sent" → pageState m = some "sent") ↔ copies.sentInOrder worker gpu := by
  by_cases hphysical : copies.physicalCopies worker gpu = []
  · rw [sentInOrder, hphysical]
    simp
  · obtain ⟨first, hhead, hsame, hpage⟩ := strongest_physical hgpu h hphysical
    have hfirst : pageState first = some "sent" → ∃ sent,
        (copies.physicalCopies worker gpu).find? (fun r => pageState r = some "sent") = some sent ∧
          generation sent = generation first := by
      intro hsent
      obtain ⟨rest, hrest⟩ := List.head?_eq_some_iff.mp hhead
      exact ⟨first, by rw [hrest, List.find?_cons_of_pos (by simpa using hsent)], rfl⟩
    have hreport : pageState m = some "sent" ↔ ∃ sent,
        (copies.physicalCopies worker gpu).find? (fun r => pageState r = some "sent") = some sent ∧
          generation sent = generation first :=
      hpage.trans ⟨fun hor => hor.elim hfirst id, Or.inr⟩
    have hkey := find?_agrees_iff (copies.physicalCopies worker gpu)
      (fun r => decide (pageState r = some "sent"))
      (fun r => decide (generation r = generation first))
    simp only [decide_eq_true_eq, decide_eq_false_iff_not] at hkey
    rw [sentInOrder, hhead, hreport, hsame.generation]
    simp only [Option.mem_def, Option.some.injEq, forall_eq']
    rw [← hkey]
    exact ⟨fun hall x hx hsent hgen => hall x hx hgen hsent,
      fun hall x hx hgen hsent => hall x hx hsent hgen⟩

end Copies

/-- Copies of one generation are in order. -/
theorem Copies.sentInOrder_of_same {copies : Copies} (g : Generation)
    (h : ∀ r ∈ copies.physicalCopies worker gpu, generation r = g) :
    copies.sentInOrder worker gpu := by
  intro first hfirst before r after hsplit _ _ hbefore x hx hsent
  have hx' : x ∈ copies.physicalCopies worker gpu := by
    rw [hsplit]
    exact List.mem_append_left _ hx
  exact hbefore x hx hsent ((h x hx').trans (h first (List.mem_of_mem_head? hfirst)).symm)

/-- The merge of the copies of a latch, for a request that names a GPU, answers, and it fails closed
exactly when its delivered copies are in order. -/
theorem merge_fails_closed (copies : Copies) (worker : WorkerId) (gpu : Gpu)
    (hgpu : gpu.named = true) (hread : copies.readable) :
    ∃ merged, copies.readMerged worker gpu = .ok merged ∧
      (copies.FailClosed worker gpu merged ↔ copies.sentInOrder worker gpu) := by
  refine ⟨_, Copies.readMerged_eq hread, ?_⟩
  cases hstrongest : (copies.normalized worker gpu).strongest gpu with
  | none =>
      have hordered := Sources.strongest_eq_none.mp hstrongest
      have hnil : copies.physicalCopies worker gpu = [] := by
        rw [← Copies.physical_ordered hgpu, hordered]
        rfl
      refine ⟨fun _ => ?_, fun _ =>
        { absent := ⟨fun _ => (Copies.ordered_eq_nil hgpu).mp hordered, fun _ => rfl⟩
          scope := by simp
          durable := by simp
          sent := by simp }⟩
      rw [Copies.sentInOrder, hnil]
      simp
  | some m =>
      rw [← Copies.sent_iff_sentInOrder hgpu hstrongest]
      refine ⟨fun h => h.sent (copies.merged worker gpu m) rfl, fun hsent =>
        { absent := ?_
          scope := ?_
          durable := ?_
          sent := ?_ }⟩
      · refine ⟨fun h => absurd h (by simp), fun h => ?_⟩
        rw [Sources.strongest_eq_none.mpr ((Copies.ordered_eq_nil hgpu).mpr h)] at hstrongest
        exact absurd hstrongest (by simp)
      · intro m' hm'
        obtain rfl := Option.some.inj hm'
        split_ifs with hlatch
        · have hphysical : copies.physicalCopies worker gpu ≠ [] := fun hnil =>
            (Copies.physicalCopies_eq_nil hgpu).mp hnil hlatch
          obtain ⟨first, hhead, hsame, -⟩ := Copies.strongest_physical hgpu hstrongest hphysical
          have hfirst := Copies.same_of_physicalCopies hgpu (List.mem_of_mem_head? hhead)
          simp only [samePhysicalGpu, isPhysical, Bool.and_eq_true, decide_eq_true_eq] at hfirst
          rw [Copies.merged_record]
          rw [hsame "scope" (by decide), hsame "hostname" (by decide), hsame "device" (by decide)]
          exact ⟨hfirst.1.1.1, hfirst.1.2, hfirst.2⟩
        · exact Copies.strongest_worker hgpu hstrongest ((Copies.physicalCopies_eq_nil hgpu).mpr hlatch)
      · intro m' hm' hdurable
        obtain rfl := Option.some.inj hm'
        obtain ⟨rest, hrest⟩ := Copies.physicalCopies_durable copies worker gpu
        have hphysical : copies.physicalCopies worker gpu ≠ [] := by
          rw [hrest]
          simp [hdurable]
        obtain ⟨first, hhead, hsame, -⟩ := Copies.strongest_physical hgpu hstrongest hphysical
        rw [hrest, List.head?_append_of_ne_nil _ hdurable] at hhead
        exact ⟨first, List.mem_of_mem_head? hhead, hsame.generation⟩
      · intro m' hm'
        obtain rfl := Option.some.inj hm'
        exact hsent

/-- A latch of one event as this program writes it. -/
def latchRecord (gpu : Gpu) (worker : WorkerId) (scope event page : String) : Record :=
  ⟨[("state", "quarantined"), ("worker_id", worker), ("device", gpu.device),
    ("hostname", gpu.hostname), ("event_id", event), ("manual_clear_required", "true"),
    ("scope", scope), ("page_user_state", page)]⟩

def node21 : Gpu := ⟨"node21", "cuda:0"⟩

/-- The page of the durable latch was delivered and has only reached Redis. -/
def deliveredCopies : Copies where
  durableDevice := some (latchRecord node21 "gpu_0" "physical_gpu" "a" "pending")
  durableWorker := some (latchRecord node21 "gpu_0" "worker_process" "b" "sent")
  redisDevice := latchRecord node21 "gpu_0" "physical_gpu" "a" "sent"
  redisWorker := {}

theorem merge_fails_closed_delivered : ∃ merged,
    deliveredCopies.readMerged "gpu_0" node21 = .ok merged ∧
      deliveredCopies.FailClosed "gpu_0" node21 merged := by
  have hread : deliveredCopies.readable := by
    rintro r (hr | hr) <;> obtain rfl := Option.some.inj hr <;> decide
  obtain ⟨merged, hmerged, hiff⟩ :=
    merge_fails_closed deliveredCopies "gpu_0" node21 (by decide) hread
  have hevent : (deliveredCopies.physicalCopies "gpu_0" node21).all
      fun r => generation r = .event "a" := by decide
  refine ⟨merged, hmerged, hiff.mpr (Copies.sentInOrder_of_same (.event "a") fun r hr => ?_)⟩
  exact of_decide_eq_true (List.all_eq_true.mp hevent r hr)

/-- The same, with the worker's file left from an older latch of the GPU whose page was delivered. -/
def overshadowedCopies : Copies :=
  { deliveredCopies with
    durableWorker := some (latchRecord node21 "gpu_0" "physical_gpu" "b" "sent") }

theorem overshadowed_delivery_forgotten :
    overshadowedCopies.readable ∧ ∃ m r,
      overshadowedCopies.readMerged "gpu_0" node21 =
        .ok (some (overshadowedCopies.merged "gpu_0" node21 m)) ∧
      generation m = .event "a" ∧ pageState m = some "pending" ∧
      r ∈ overshadowedCopies.physicalCopies "gpu_0" node21 ∧ generation r = .event "a" ∧
      pageState r = some "sent" ∧
      ¬overshadowedCopies.FailClosed "gpu_0" node21
        (some (overshadowedCopies.merged "gpu_0" node21 m)) := by
  have hread : overshadowedCopies.readable := by
    rintro r (hr | hr) <;> obtain rfl := Option.some.inj hr <;> decide
  have hmerge : ((overshadowedCopies.normalized "gpu_0" node21).strongest node21).any
      fun m => generation m = .event "a" && pageState m = some "pending" := by decide
  have hsent : (overshadowedCopies.physicalCopies "gpu_0" node21).any
      fun r => generation r = .event "a" && pageState r = some "sent" := by decide
  obtain ⟨m, hm, hpending⟩ := Option.any_eq_true _ _ |>.mp hmerge
  obtain ⟨r, hr, hboth⟩ := List.any_eq_true.mp hsent
  simp only [Bool.and_eq_true, decide_eq_true_eq] at hpending hboth
  refine ⟨hread, m, r, ?_, hpending.1, hpending.2, hr, hboth.1, hboth.2, fun hclosed => ?_⟩
  · rw [Copies.readMerged_eq hread, hm]
    rfl
  · have hpage := hclosed.sent _ rfl r hr (hboth.1.trans hpending.1.symm) hboth.2
    rw [Copies.merged_record, hpending.2] at hpage
    exact absurd hpage (by decide)

end KernelGym.Quarantine
