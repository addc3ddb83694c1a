import KernelGym.QuarantineCopies

/-! Orderly stores: every copy of a latch of the GPU is complete, physical copies agree with the device
file, and a worker's exclusion stays with that worker. A publication that continues a latch that is
there, or starts a new one where there is none, keeps stores orderly. -/

namespace KernelGym.Quarantine

open Library

/-- The place whose copy decides about a record: the device file for a physical latch, the worker's
file for an exclusion of the worker. -/
def home (worker : WorkerId) (r : Record) : Place :=
  if isPhysical r then .device else .file (workerLatchPath worker)

/-- The worker ids have different latch files. -/
def DistinctFiles (ids : WorkerId → Prop) : Prop :=
  ∀ worker worker', ids worker → ids worker' → workerLatchPath worker = workerLatchPath worker' →
    worker = worker'

/-- The copies of the latches of one GPU that the workers in `ids` have made under the lock. -/
structure Orderly (gpu : Gpu) (ids : WorkerId → Prop) (issued : List Generation) (s : Store) : Prop where
  complete : ∀ place r, s.copyAt gpu place = some r → Complete gpu r
  physical : ∀ r, s.copyAt gpu .device = some r ∨ s.copyAt gpu .deviceHash = some r →
    isPhysical r = true
  owned : ∀ place r, s.copyAt gpu place = some r → place ≠ .device → place ≠ .deviceHash →
    ∃ worker, ids worker ∧ place.ownedBy worker ∧ r.get "worker_id" = some worker
  backed : ∀ place r, s.copyAt gpu place = some r → isPhysical r = true →
    ∃ d, s.copyAt gpu .device = some d ∧ generation d = generation r ∧ (isSent r → isSent d)
  paired : ∀ worker r, s.copyAt gpu (.hash worker) = some r → isPhysical r = false →
    ∃ f, s.copyAt gpu (.file (workerLatchPath worker)) = some f ∧
      (isPhysical f = true ∧ worker ≠ "" ∨
        isPhysical f = false ∧ generation f = generation r ∧ (isSent r → isSent f))
  unique : ∀ place place' r r', s.copyAt gpu place = some r → s.copyAt gpu place' = some r' →
    generation r = generation r' → isPhysical r = isPhysical r' ∧
      (isPhysical r = false → r.get "worker_id" = r'.get "worker_id")
  issued : ∀ place r, s.copyAt gpu place = some r → generation r ∈ issued

/-- The copy `r` decides about the record. -/
structure Known (s : Store) (gpu : Gpu) (worker : WorkerId) (record r : Record) : Prop where
  copy : s.copyAt gpu (home worker record) = some r
  physical : isPhysical r = isPhysical record
  generation : generation r = generation record

/-- A publication that continues a latch, or starts one of a created event where there is none. -/
structure Sound (s : Store) (gpu : Gpu) (ids : WorkerId → Prop) (issued created : List Generation)
    (p : Publication) : Prop where
  worker : ids p.worker
  complete : Complete gpu p.record
  gpuHash : ∀ written, p.gpuHash = some written → written = gpu ∧ isPhysical p.record = true
  origin : (∃ r, Known s gpu p.worker p.record r ∧ (isSent r → isSent p.record) ∧
      (p.files = false → isSent p.record → isSent r)) ∨
    (s.copyAt gpu .device = none ∧ s.copyAt gpu (home p.worker p.record) = none ∧
      (generation p.record ∈ created ∧ generation p.record ∉ issued) ∧ p.files = true)
  /-- A hash that is not written is up to date, or belongs to a latch whose page was not sent. -/
  quiet : p.workerHash = false →
    (∃ r, s.copyAt gpu (.hash p.worker) = some r ∧ SameCore r p.record) ∨
    p.worker ≠ "" ∧ p.files = true ∧ ∃ r, Known s gpu p.worker p.record r ∧ ¬isSent r

variable {gpu : Gpu} {ids : WorkerId → Prop} {issued created : List Generation}
  {store : Store}
  {p : Publication} {place : Place} {r r' : Record} {worker : WorkerId}

theorem home_physical (h : isPhysical r = true) : home worker r = .device := if_pos h

theorem home_worker (h : isPhysical r = false) :
    home worker r = .file (workerLatchPath worker) := if_neg (by simp [h])

namespace Orderly

variable (h : Orderly gpu ids issued store)
include h

theorem not_physical_of_no_device (hdevice : store.copyAt gpu .device = none)
    (hr : store.copyAt gpu place = some r) : isPhysical r = false := by
  by_contra hphysical
  rw [Bool.not_eq_false] at hphysical
  obtain ⟨d, hd, -, -⟩ := h.backed place r hr hphysical
  exact absurd (hdevice.symm.trans hd) (by simp)

theorem file_owner (hdistinct : DistinctFiles ids) (hworker : ids worker)
    (hr : store.copyAt gpu (.file (workerLatchPath worker)) = some r) :
    r.get "worker_id" = some worker := by
  obtain ⟨owner, howner, hpath, hid⟩ := h.owned _ r hr (by simp) (by simp)
  rw [hdistinct worker owner hworker howner hpath]
  exact hid

theorem hash_owner (hr : store.copyAt gpu (.hash worker) = some r) :
    ids worker ∧ r.get "worker_id" = some worker := by
  obtain ⟨owner, howner, hpath, hid⟩ := h.owned _ r hr (by simp) (by simp)
  cases hpath
  exact ⟨howner, hid⟩

end Orderly

namespace Sound

variable (hgpu : gpu.named = true) (hsound : Sound store gpu ids issued created p)
include hgpu hsound

/-- What is stored after a sound publication was stored before, or is a copy of its record. -/
theorem copyAt_cases (hr : (store.publish p).copyAt gpu place = some r) :
    (¬p.writes place ∧ store.copyAt gpu place = some r) ∨
      p.writes place ∧ SameCore r p.record ∧
        ∀ worker, place.ownedBy worker → workerLatchPath worker = workerLatchPath p.worker ∧
          r.get "worker_id" = some p.worker := by
  rcases copyAt_publish store hgpu hsound.complete
    (fun written hwritten => (hsound.gpuHash written hwritten).1) place with
    ⟨hno, hsame⟩ | ⟨hyes, r', hr', hcore, howned⟩
  · exact Or.inl ⟨hno, hsame.symm.trans hr⟩
  · obtain rfl := Option.some.inj (hr'.symm.trans hr)
    exact Or.inr ⟨hyes, hcore, howned⟩

theorem copyAt_of_not_writes (hno : ¬p.writes place) :
    (store.publish p).copyAt gpu place = store.copyAt gpu place := by
  rcases copyAt_publish store hgpu hsound.complete
    (fun written hwritten => (hsound.gpuHash written hwritten).1) place with ⟨-, hsame⟩ | ⟨hyes, -⟩
  · exact hsame
  · exact absurd hyes hno

theorem copyAt_of_writes (hyes : p.writes place) :
    ∃ r, (store.publish p).copyAt gpu place = some r ∧ SameCore r p.record := by
  rcases copyAt_publish store hgpu hsound.complete
    (fun written hwritten => (hsound.gpuHash written hwritten).1) place with
    ⟨hno, -⟩ | ⟨-, r, hr, hcore, -⟩
  · exact absurd hyes hno
  · exact ⟨r, hr, hcore⟩

omit hgpu in
/-- A physical latch is published to a device place only if it is one. -/
theorem writes_device (hyes : p.writes place) (hplace : place = .device ∨ place = .deviceHash) :
    isPhysical p.record = true := by
  rcases hplace with rfl | rfl
  · exact hyes.2
  · obtain ⟨written, hwritten⟩ := Option.isSome_iff_exists.mp hyes
    exact (hsound.gpuHash written hwritten).2

end Sound

namespace Orderly

variable (hgpu : gpu.named = true) (hdistinct : DistinctFiles ids)
  (h : Orderly gpu ids issued store) (hsound : Sound store gpu ids issued created p)
include hgpu hdistinct h hsound

omit hdistinct in
theorem publish_complete (hr : (store.publish p).copyAt gpu place = some r) : Complete gpu r := by
  rcases hsound.copyAt_cases hgpu hr with ⟨-, hold⟩ | ⟨-, hcore, -⟩
  · exact h.complete place r hold
  · exact hcore.symm.complete hsound.complete

omit hdistinct in
theorem publish_backed (hr : (store.publish p).copyAt gpu place = some r)
    (hphysical : isPhysical r = true) : ∃ d, (store.publish p).copyAt gpu .device = some d ∧
      generation d = generation r ∧ (isSent r → isSent d) := by
  by_cases hdevice : p.writes .device
  · obtain ⟨d, hd, hcore⟩ := hsound.copyAt_of_writes hgpu hdevice
    have hgen := hcore.symm.generation hsound.complete
    rcases hsound.copyAt_cases hgpu hr with ⟨-, hold⟩ | ⟨-, hrecord, -⟩
    · obtain ⟨d', hd', hgen', hsent'⟩ := h.backed place r hold hphysical
      rcases hsound.origin with ⟨origin, hknown, hsent, -⟩ | ⟨hnone, -⟩
      · have horigin := hknown.copy
        rw [home_physical hdevice.2, hd', Option.some.injEq] at horigin
        subst horigin
        exact ⟨d, hd, hgen.symm.trans (hknown.generation.symm.trans hgen'),
          fun hr => hcore.isSent.mpr (hsent (hsent' hr))⟩
      · exact absurd (hnone.symm.trans hd') (by simp)
    · exact ⟨d, hd, hgen.symm.trans (hrecord.symm.generation hsound.complete),
        fun hr => hcore.isSent.mpr (hrecord.isSent.mp hr)⟩
  · rw [hsound.copyAt_of_not_writes hgpu hdevice]
    rcases hsound.copyAt_cases hgpu hr with ⟨-, hold⟩ | ⟨-, hrecord, -⟩
    · exact h.backed place r hold hphysical
    · have hp : isPhysical p.record = true := hrecord.identity.isPhysical.symm.trans hphysical
      have hfiles : p.files = false := by
        by_contra hfiles
        exact hdevice ⟨by simpa using hfiles, hp⟩
      rcases hsound.origin with ⟨origin, hknown, -, hback⟩ | ⟨-, -, -, hfiles'⟩
      · have horigin := hknown.copy
        rw [home_physical hp] at horigin
        exact ⟨origin, horigin, hknown.generation.trans (hrecord.symm.generation hsound.complete),
          fun hr => hback hfiles (hrecord.isSent.mp hr)⟩
      · exact absurd (hfiles.symm.trans hfiles') (by simp)

theorem publish_paired {worker : WorkerId}
    (hr : (store.publish p).copyAt gpu (.hash worker) = some r) (hscope : isPhysical r = false) :
    ∃ f, (store.publish p).copyAt gpu (.file (workerLatchPath worker)) = some f ∧
      (isPhysical f = true ∧ worker ≠ "" ∨
        isPhysical f = false ∧ generation f = generation r ∧ (isSent r → isSent f)) := by
  rcases hsound.copyAt_cases hgpu hr with ⟨hno, hold⟩ | ⟨hyes, hrecord, -⟩
  · obtain ⟨f, hf, hpair⟩ := h.paired worker r hold hscope
    by_cases hfile : p.writes (.file (workerLatchPath worker))
    · -- The file is overwritten and the hash is not.
      have hworker := hdistinct worker p.worker (h.hash_owner hold).1 hsound.worker hfile.2
      subst hworker
      obtain ⟨f', hf', hcore⟩ := hsound.copyAt_of_writes hgpu hfile
      refine ⟨f', hf', ?_⟩
      have hquiet : p.workerHash = false := by
        by_contra hhash
        exact hno ⟨by simpa using hhash, rfl⟩
      have hgen := hcore.symm.generation hsound.complete
      rcases hsound.quiet hquiet with ⟨r', hr', hsame⟩ | ⟨hnamed, -, origin, hknown, hunsent⟩
      · obtain rfl := Option.some.inj (hr'.symm.trans hold)
        have hscope' : isPhysical p.record = false := hsame.identity.isPhysical.symm.trans hscope
        exact Or.inr ⟨hcore.identity.isPhysical.trans hscope',
          hgen.symm.trans (hsame.symm.generation hsound.complete),
          fun hr => hcore.isSent.mpr (hsame.isSent.mp hr)⟩
      · cases hp : isPhysical p.record with
        | true => exact Or.inl ⟨hcore.identity.isPhysical.trans hp, hnamed⟩
        | false =>
            have horigin := hknown.copy
            rw [home_worker hp, hf, Option.some.injEq] at horigin
            subst horigin
            rcases hpair with ⟨hphysical, -⟩ | ⟨-, hgen', hsent⟩
            · rw [hknown.physical, hp] at hphysical
              exact absurd hphysical (by simp)
            · exact Or.inr ⟨hcore.identity.isPhysical.trans hp,
                hgen.symm.trans (hknown.generation.symm.trans hgen'),
                fun hr => absurd (hsent hr) hunsent⟩
    · rw [hsound.copyAt_of_not_writes hgpu hfile]
      exact ⟨f, hf, hpair⟩
  · have hscope' : isPhysical p.record = false := hrecord.identity.isPhysical.symm.trans hscope
    have hgen := hrecord.symm.generation hsound.complete
    obtain ⟨-, rfl⟩ := hyes
    by_cases hfile : p.writes (.file (workerLatchPath p.worker))
    · obtain ⟨f, hf, hcore⟩ := hsound.copyAt_of_writes hgpu hfile
      exact ⟨f, hf, Or.inr ⟨hcore.identity.isPhysical.trans hscope',
        (hcore.symm.generation hsound.complete).symm.trans hgen,
        fun hr => hcore.isSent.mpr (hrecord.isSent.mp hr)⟩⟩
    · have hfiles : p.files = false := by
        by_contra hfiles
        exact hfile ⟨by simpa using hfiles, rfl⟩
      rw [hsound.copyAt_of_not_writes hgpu hfile]
      rcases hsound.origin with ⟨origin, hknown, -, hback⟩ | ⟨-, -, -, hfiles'⟩
      · have horigin := hknown.copy
        rw [home_worker hscope'] at horigin
        exact ⟨origin, horigin, Or.inr ⟨hknown.physical.trans hscope', hknown.generation.trans hgen,
          fun hr => hback hfiles (hrecord.isSent.mp hr)⟩⟩
      · exact absurd (hfiles.symm.trans hfiles') (by simp)

omit hgpu in
/-- A copy of the published generation that was there before is of the same latch. -/
theorem published_unique (hr : store.copyAt gpu place = some r)
    (hgen : generation r = generation p.record) : isPhysical r = isPhysical p.record ∧
      (isPhysical p.record = false → r.get "worker_id" = some p.worker) := by
  rcases hsound.origin with ⟨origin, hknown, -, -⟩ | ⟨-, -, ⟨-, hfresh⟩, -⟩
  · obtain ⟨hphysical, hid⟩ := h.unique place _ r origin hr hknown.copy
      (hgen.trans hknown.generation.symm)
    refine ⟨hphysical.trans hknown.physical, fun hscope => ?_⟩
    have horigin := hknown.copy
    rw [home_worker hscope] at horigin
    rw [hid (hphysical.trans (hknown.physical.trans hscope))]
    exact h.file_owner hdistinct hsound.worker horigin
  · exact absurd (hgen ▸ h.issued place r hr) hfresh

omit hgpu hdistinct h in
theorem written_worker (hyes : p.writes place) (hscope : isPhysical p.record = false)
    (howned : ∀ worker, place.ownedBy worker → workerLatchPath worker = workerLatchPath p.worker ∧
      r.get "worker_id" = some p.worker) : r.get "worker_id" = some p.worker := by
  cases place with
  | device => exact absurd (hsound.writes_device hyes (Or.inl rfl)) (by simp [hscope])
  | deviceHash => exact absurd (hsound.writes_device hyes (Or.inr rfl)) (by simp [hscope])
  | file path => exact (howned p.worker hyes.2).2
  | hash worker => exact (howned worker rfl).2

theorem publish_unique {place' : Place} (hr : (store.publish p).copyAt gpu place = some r)
    (hr' : (store.publish p).copyAt gpu place' = some r') (hgen : generation r = generation r') :
    isPhysical r = isPhysical r' ∧
      (isPhysical r = false → r.get "worker_id" = r'.get "worker_id") := by
  rcases hsound.copyAt_cases hgpu hr with ⟨-, hold⟩ | ⟨hyes, hcore, howned⟩ <;>
    rcases hsound.copyAt_cases hgpu hr' with ⟨-, hold'⟩ | ⟨hyes', hcore', howned'⟩
  · exact h.unique place place' r r' hold hold' hgen
  · have hp := hcore'.symm.generation hsound.complete
    obtain ⟨hphysical, hid⟩ := published_unique hdistinct h hsound hold (hgen.trans hp.symm)
    refine ⟨hphysical.trans hcore'.symm.identity.isPhysical, fun hscope => ?_⟩
    have hscope' := hphysical.symm.trans hscope
    rw [hid hscope', written_worker hsound hyes' hscope' howned']
  · have hp := hcore.symm.generation hsound.complete
    obtain ⟨hphysical, hid⟩ := published_unique hdistinct h hsound hold' (hgen.symm.trans hp.symm)
    refine ⟨hcore.identity.isPhysical.trans hphysical.symm, fun hscope => ?_⟩
    have hscope' := hcore.identity.isPhysical.symm.trans hscope
    rw [hid hscope', written_worker hsound hyes hscope' howned]
  · refine ⟨hcore.identity.isPhysical.trans hcore'.symm.identity.isPhysical, fun hscope => ?_⟩
    have hscope' := hcore.identity.isPhysical.symm.trans hscope
    rw [written_worker hsound hyes hscope' howned, written_worker hsound hyes' hscope' howned']

/-- A sound publication keeps stores orderly. -/
theorem publish : Orderly gpu ids (created ++ issued) (store.publish p) where
  complete _ _ hr := publish_complete hgpu h hsound hr
  physical r hr := by
    have hplace : ∀ place, place = .device ∨ place = .deviceHash →
        (store.publish p).copyAt gpu place = some r → isPhysical r = true := by
      intro place hplace hr
      rcases hsound.copyAt_cases hgpu hr with ⟨-, hold⟩ | ⟨hyes, hcore, -⟩
      · apply h.physical r
        rcases hplace with rfl | rfl
        · exact Or.inl hold
        · exact Or.inr hold
      · exact hcore.identity.isPhysical.trans (hsound.writes_device hyes hplace)
    rcases hr with hr | hr
    · exact hplace _ (Or.inl rfl) hr
    · exact hplace _ (Or.inr rfl) hr
  owned place r hr hdevice hhash := by
    rcases hsound.copyAt_cases hgpu hr with ⟨-, hold⟩ | ⟨hyes, -, howned⟩
    · exact h.owned place r hold hdevice hhash
    · cases place with
      | device => exact absurd rfl hdevice
      | deviceHash => exact absurd rfl hhash
      | file path => exact ⟨p.worker, hsound.worker, hyes.2, (howned p.worker hyes.2).2⟩
      | hash worker =>
          obtain ⟨-, rfl⟩ := hyes
          exact ⟨p.worker, hsound.worker, rfl, (howned p.worker rfl).2⟩
  backed _ _ hr hphysical := publish_backed hgpu h hsound hr hphysical
  paired _ _ hr hscope := publish_paired hgpu hdistinct h hsound hr hscope
  unique _ _ _ _ hr hr' hgen := publish_unique hgpu hdistinct h hsound hr hr' hgen
  issued place r hr := by
    rcases hsound.copyAt_cases hgpu hr with ⟨-, hold⟩ | ⟨-, hcore, -⟩
    · exact List.mem_append_right _ (h.issued place r hold)
    · rw [← hcore.symm.generation hsound.complete]
      rcases hsound.origin with ⟨origin, hknown, -⟩ | ⟨-, -, ⟨hcreated, -⟩, -⟩
      · rw [← hknown.generation]
        exact List.mem_append_right _ (h.issued _ origin hknown.copy)
      · exact List.mem_append_left _ hcreated

end Orderly

end KernelGym.Quarantine
