import KernelGym.QuarantineKept
import KernelGym.QuarantineSound

/-! A manual clear is final: what it clears is never stored again, and the page state of a latch never
moves back from `sent`. This is so on one GPU, for workers whose latch files have different names, from
orderly stores on. -/

namespace KernelGym.Quarantine

open Library

/-- A claim that may still send its page. -/
def Claim.active (c : Claim) : Prop := c.shouldSend = true ∧ c.finished = false

/-- The latch of a claim is there, and its page was not sent. -/
structure Claimed (s : Store) (gpu : Gpu) (ids : WorkerId → Prop) (c : Claim) : Prop where
  worker : ids c.workerId
  named : c.workerId ≠ ""
  complete : Complete gpu c.record
  latch : ∃ r, Known s gpu c.workerId c.record r ∧ ¬isSent r

structure OrderlyState (gpu : Gpu) (ids : WorkerId → Prop) (s : State) : Prop where
  store : Orderly gpu ids s.issued s.store
  path : ∀ path c, s.held path = some c → path = deviceLatchPath gpu
  claimed : ∀ path c, s.held path = some c → c.active → Claimed s.store gpu ids c

/-- An operation of one of the workers on the GPU. -/
def Action.on (gpu : Gpu) (ids : WorkerId → Prop) : Action → Prop
  | .read worker gpu' => gpu' = gpu ∧ ids worker
  | .write worker gpu' _ _ _ _ => gpu' = gpu ∧ ids worker
  | .claim input _ _ => recordGpu input = gpu ∧ ids (text input "worker_id")
  | .finish _ _ _ _ | .release _ => True
  | .update worker gpu' _ _ _ _ _ => gpu' = gpu ∧ ids worker
  | .clear worker gpu' _ => gpu' = gpu ∧ ids worker

/-- The events that an operation creates. -/
def Action.created : Action → List Generation
  | .write _ _ _ _ eventId _ => [.event (strip eventId)]
  | _ => []

variable {gpu : Gpu} {ids : WorkerId → Prop} {s t u : State} {a : Action} {p : Publication}
  {place : Place} {r r' : Record} {worker : WorkerId} {g : Generation} {store : Store}
  {issued : List Generation}

theorem step_created (h : step s a = some t) : t.issued = a.created ++ s.issued := by
  cases a with
  | read worker gpu' =>
      obtain ⟨-, rfl⟩ := step_read.mp h
      rfl
  | write worker gpu' fault physicalScope eventId now =>
      obtain ⟨-, rfl⟩ := step_write.mp h
      rfl
  | claim input pid now =>
      obtain ⟨-, result, -, rfl⟩ := step_claim.mp h
      rfl
  | finish path sent error now =>
      obtain ⟨c, -, -, rfl⟩ := step_finish.mp h
      rfl
  | release path =>
      obtain ⟨c, -, rfl⟩ := step_release.mp h
      rfl
  | update worker gpu' scope expected outcome error now =>
      obtain ⟨-, rfl⟩ := step_update.mp h
      rfl
  | clear worker gpu' seen =>
      obtain ⟨-, rfl⟩ := step_clear.mp h
      rfl

/-! ### Publications -/

/-- What a claim or its completion writes: the latch files only. -/
theorem Orderly.files_sound {c : Claim} (hclaimed : Claimed store gpu ids c)
    (hr : Complete gpu r) (hidentity : SameIdentity c.record r) :
    Sound store gpu ids issued [] { worker := c.workerId, record := r } := by
  obtain ⟨found, hknown, hunsent⟩ := hclaimed.latch
  have hknown' : Known store gpu c.workerId r found := by
    refine ⟨?_, hknown.physical.trans hidentity.isPhysical,
      hknown.generation.trans (hidentity.generation hclaimed.complete)⟩
    rw [home, ← hidentity.isPhysical]
    exact hknown.copy
  exact
    { worker := hclaimed.worker
      complete := hr
      gpuHash := fun written hwritten => absurd hwritten (by simp)
      origin := Or.inl ⟨found, hknown', fun hsent => absurd hsent hunsent,
        fun hfiles => absurd hfiles (by simp)⟩
      quiet := fun _ => Or.inr ⟨hclaimed.named, rfl, found, hknown', hunsent⟩ }

/-- An operation on an orderly state publishes soundly. -/
theorem publication_sound (hgpu : gpu.named = true) (hdistinct : DistinctFiles ids)
    (hs : OrderlyState gpu ids s) (hon : a.on gpu ids) (h : step s a = some t)
    (hp : s.publication a = some p) : Sound s.store gpu ids s.issued a.created p := by
  cases a with
  | read worker gpu' =>
      obtain ⟨rfl, hworker⟩ := hon
      exact hs.store.reading_sound hgpu hworker hp
  | write worker gpu' fault physicalScope eventId now =>
      obtain ⟨rfl, hworker⟩ := hon
      obtain ⟨⟨-, hevent, hfresh⟩, -⟩ := step_write.mp h
      rw [← Option.some.inj hp]
      exact hs.store.writing_sound hgpu hdistinct hworker fault physicalScope hevent hfresh
  | claim input pid now =>
      obtain ⟨hinput, hworker⟩ := hon
      obtain ⟨⟨hscope, -, hnamed, -⟩, -⟩ := step_claim.mp h
      obtain ⟨result, hresult, hp⟩ := Option.bind_eq_some_iff.mp hp
      obtain ⟨hsend, hp⟩ := Option.ite_none_right_eq_some.mp hp
      obtain ⟨hid, -, hcomplete, hlatch⟩ := hs.store.claimed_known hinput hscope hresult hsend
      rw [← Option.some.inj hp]
      rw [← hid] at hworker hnamed hlatch
      exact Orderly.files_sound ⟨hworker, hnamed, hcomplete, hlatch⟩ hcomplete (fun _ _ => rfl)
  | finish path sent error now =>
      obtain ⟨c, hc, rfl⟩ := Option.map_eq_some_iff.mp hp
      obtain ⟨c', hc', hactive, -⟩ := step_finish.mp h
      obtain rfl := Option.some.inj (hc.symm.trans hc')
      have hclaimed := hs.claimed path c hc hactive
      have hidentity := (sameEvent_outcome c sent error now).identity.symm
      exact Orderly.files_sound hclaimed
        (hidentity.complete hclaimed.complete (by rw [pageState_outcome]; rfl)) hidentity
  | update worker gpu' scope expected outcome error now =>
      obtain ⟨rfl, hworker⟩ := hon
      obtain ⟨r, hr, rfl⟩ := Option.map_eq_some_iff.mp hp
      obtain ⟨hcomplete, -, found, hknown, hsent⟩ := hs.store.updatedRecord_known hgpu hr
      exact Orderly.everywhere_sound hgpu hworker hcomplete hknown hsent
  | release path => exact absurd hp (by simp [State.publication])
  | clear worker gpu' seen => exact absurd hp (by simp [State.publication])

/-! ### Clears -/

theorem clearsFile_iff (hr : Complete gpu r) : clearsFile gpu r = isPhysical r := by
  simp [clearsFile, hr.state, hr.hostname, hr.device]

theorem clearsHash_iff (hr : Complete gpu r) : clearsHash gpu r = isPhysical r := by
  rw [clearsHash, isPhysical]
  rcases hr.scope with hscope | hscope <;> simp [hscope, hr.hostname, hr.device]

/-- What a clear leaves is an exclusion of another worker, whose physical copies are not there. -/
theorem copyAt_clear (hgpu : gpu.named = true) (hs : Orderly gpu ids issued store)
    {seen : List WorkerId} (hr : (store.clear worker gpu seen).copyAt gpu place = some r) :
    store.copyAt gpu place = some r ∧ place ≠ .device ∧ place ≠ .deviceHash ∧
      ¬place.ownedBy worker ∧ isPhysical r = false ∧
      ∀ id, place = .hash id → id ∉ store.durableAliases gpu := by
  rw [Store.clear, if_pos hgpu] at hr
  cases place with
  | device =>
      change (store.gpuFiles.erase _).get _ = some r at hr
      rw [Dict.get_erase, if_pos rfl] at hr
      exact absurd hr (by simp)
  | deviceHash =>
      change (store.gpuHashes.erase _).get _ = some r at hr
      rw [Dict.get_erase, if_pos rfl] at hr
      exact absurd hr (by simp)
  | file path =>
      change ((store.workerFiles.dropWhere fun _ r => clearsFile gpu r).erase _).get path = some r at hr
      rw [Dict.get_erase, Dict.get_dropWhere] at hr
      obtain ⟨hpath, hr⟩ := Option.ite_none_left_eq_some.mp hr
      obtain ⟨hr, hkept⟩ := Option.filter_eq_some_iff.mp hr
      have hcopy : store.copyAt gpu (.file path) = some r := hr
      rw [clearsFile_iff (hs.complete _ r hcopy)] at hkept
      exact ⟨hcopy, by simp, by simp, hpath, by simpa using hkept, by simp⟩
  | hash id =>
      change (store.workerHashes.keep _).get id = some r at hr
      rw [Dict.get_keep] at hr
      obtain ⟨hkept, hr⟩ := Option.ite_none_right_eq_some.mp hr
      have hcopy : store.copyAt gpu (.hash id) = some r := hr
      simp only [List.contains_eq_mem, List.mem_cons, List.mem_append, Bool.not_eq_true',
        decide_eq_false_iff_not, not_or] at hkept
      obtain ⟨hne, ⟨-, hredis⟩, hdurable⟩ := hkept
      refine ⟨hcopy, by simp, by simp, hne, ?_, fun id' hid => ?_⟩
      · rw [Store.redisPhysicalAliases, Dict.mem_keysWhere] at hredis
        rw [← clearsHash_iff (hs.complete _ r hcopy)]
        by_contra hclears
        exact hredis ⟨r, hr, by simpa using hclears⟩
      · cases hid
        exact hdurable

/-- A worker with a physical file is one of the aliases. -/
theorem Orderly.mem_durableAliases (hs : Orderly gpu ids issued store) (hdistinct : DistinctFiles ids)
    (hworker : ids worker) (hnamed : worker ≠ "")
    (hf : store.copyAt gpu (.file (workerLatchPath worker)) = some r) (hphysical : isPhysical r = true) :
    worker ∈ store.durableAliases gpu := by
  have hid : text r "worker_id" = worker := by
    rw [text, hs.file_owner hdistinct hworker hf, Option.getD_some]
  rw [Store.durableAliases, List.mem_filterMap]
  refine ⟨workerLatchPath worker, (Dict.mem_keysWhere _).mpr ⟨r, hf, ?_⟩, ?_⟩
  · rw [clearsFile_iff (hs.complete _ r hf)]
    exact hphysical
  · have hget : store.workerFiles.get (workerLatchPath worker) = some r := hf
    rw [hget, Option.bind_some, hid, if_neg hnamed]

theorem Orderly.clear (hgpu : gpu.named = true) (hdistinct : DistinctFiles ids) (hworker : ids worker)
    (hs : Orderly gpu ids issued store) (seen : List WorkerId) :
    Orderly gpu ids issued (store.clear worker gpu seen) where
  complete place r hr := hs.complete place r (copyAt_clear hgpu hs hr).1
  physical r hr := by
    rcases hr with hr | hr
    · exact absurd rfl (copyAt_clear hgpu hs hr).2.1
    · exact absurd rfl (copyAt_clear hgpu hs hr).2.2.1
  owned place r hr := hs.owned place r (copyAt_clear hgpu hs hr).1
  backed place r hr hphysical := by
    obtain ⟨-, -, -, -, hscope, -⟩ := copyAt_clear hgpu hs hr
    exact absurd (hphysical.symm.trans hscope) (by simp)
  paired worker' r hr hscope := by
    obtain ⟨hcopy, -, -, howned, -, hdurable⟩ := copyAt_clear hgpu hs hr
    have hworker' := (hs.hash_owner hcopy).1
    obtain ⟨f, hf, hpair⟩ := hs.paired worker' r hcopy hscope
    rcases hpair with ⟨hphysical, hnamed⟩ | ⟨hfscope, hgen, hsent⟩
    · exact absurd (hs.mem_durableAliases hdistinct hworker' hnamed hf hphysical) (hdurable worker' rfl)
    · refine ⟨f, ?_, Or.inr ⟨hfscope, hgen, hsent⟩⟩
      rw [Store.clear, if_pos hgpu]
      change ((store.workerFiles.dropWhere fun _ r => clearsFile gpu r).erase _).get _ = some f
      have hpath : workerLatchPath worker' ≠ workerLatchPath worker := fun heq =>
        howned (hdistinct worker' worker hworker' hworker heq)
      have hget : store.workerFiles.get (workerLatchPath worker') = some f := hf
      rw [Dict.get_erase, if_neg hpath, Dict.get_dropWhere, hget, Option.filter_some, if_pos]
      rw [clearsFile_iff (hs.complete _ f hf), hfscope]
      rfl
  unique place place' r r' hr hr' := hs.unique place place' r r' (copyAt_clear hgpu hs hr).1
    (copyAt_clear hgpu hs hr').1
  issued place r hr := hs.issued place r (copyAt_clear hgpu hs hr).1

/-! ### Steps of orderly states -/

/-- What is stored after a step that is no clear was stored before or is a copy of its publication. -/
theorem copyAt_step (hgpu : gpu.named = true) (hdistinct : DistinctFiles ids)
    (hs : OrderlyState gpu ids s) (hon : a.on gpu ids) (h : step s a = some t)
    (hclear : a.isClear = false) (hr : t.store.copyAt gpu place = some r) :
    s.store.copyAt gpu place = some r ∨ ∃ p, s.publication a = some p ∧
      Sound s.store gpu ids s.issued a.created p ∧ p.writes place ∧ SameCore r p.record ∧
        ∀ worker, place.ownedBy worker → workerLatchPath worker = workerLatchPath p.worker ∧
          r.get "worker_id" = some p.worker := by
  rw [step_publishes h hclear] at hr
  cases hp : s.publication a with
  | none =>
      rw [hp] at hr
      exact Or.inl hr
  | some p =>
      rw [hp] at hr
      have hsound := publication_sound hgpu hdistinct hs hon h hp
      rcases hsound.copyAt_cases hgpu hr with ⟨-, hold⟩ | ⟨hyes, hcore, howned⟩
      · exact Or.inl hold
      · exact Or.inr ⟨p, rfl, hsound, hyes, hcore, howned⟩

theorem store_orderly (hgpu : gpu.named = true) (hdistinct : DistinctFiles ids)
    (hs : OrderlyState gpu ids s) (hon : a.on gpu ids) (h : step s a = some t) :
    Orderly gpu ids t.issued t.store := by
  rw [step_created h]
  cases hclear : a.isClear with
  | true =>
      cases a with
      | clear worker gpu' seen =>
          obtain ⟨rfl, hworker⟩ := hon
          obtain ⟨-, rfl⟩ := step_clear.mp h
          exact hs.store.clear hgpu hdistinct hworker seen
      | _ => exact absurd hclear (by simp [Action.isClear])
  | false =>
      rw [step_publishes h hclear]
      cases hp : s.publication a with
      | none =>
          have hnone : a.created = [] := by
            cases a with
            | write worker gpu' fault physicalScope eventId now =>
                exact absurd hp (by simp [State.publication])
            | _ => rfl
          rw [hnone]
          exact hs.store
      | some p =>
          exact hs.store.publish hgpu hdistinct (publication_sound hgpu hdistinct hs hon h hp)

/-- While the lock of the GPU is free no claim is held. -/
theorem OrderlyState.held_none (hs : OrderlyState gpu ids s) (hgpu : gpu.named = true)
    (hfree : s.free gpu) (path : GpuPath) : s.held path = none := by
  cases hheld : s.held path with
  | none => rfl
  | some c =>
      have hnone := hfree hgpu
      rw [← hs.path path c hheld, hheld] at hnone
      exact absurd hnone (by simp)

/-- Every operation of a worker on the GPU keeps its state orderly. -/
theorem step_orderly (hgpu : gpu.named = true) (hdistinct : DistinctFiles ids)
    (hs : OrderlyState gpu ids s) (hon : a.on gpu ids) (h : step s a = some t) :
    OrderlyState gpu ids t := by
  have hstore := store_orderly hgpu hdistinct hs hon h
  have hnothing : s.free gpu → t.held = s.held → OrderlyState gpu ids t := by
    intro hfree hheld
    refine ⟨hstore, fun path c hc => ?_, fun path c hc => ?_⟩ <;>
      rw [hheld, hs.held_none hgpu hfree path] at hc <;> exact absurd hc (by simp)
  cases a with
  | read worker gpu' =>
      obtain ⟨rfl, -⟩ := hon
      obtain ⟨hfree, rfl⟩ := step_read.mp h
      exact hnothing hfree rfl
  | write worker gpu' fault physicalScope eventId now =>
      obtain ⟨rfl, -⟩ := hon
      obtain ⟨⟨hfree, -⟩, rfl⟩ := step_write.mp h
      exact hnothing hfree rfl
  | update worker gpu' scope expected outcome error now =>
      obtain ⟨rfl, -⟩ := hon
      obtain ⟨⟨-, hfree⟩, rfl⟩ := step_update.mp h
      exact hnothing hfree rfl
  | clear worker gpu' seen =>
      obtain ⟨rfl, -⟩ := hon
      obtain ⟨hfree, rfl⟩ := step_clear.mp h
      exact hnothing hfree rfl
  | claim input pid now =>
      obtain ⟨hinput, hworker⟩ := id hon
      obtain ⟨⟨hscope, -, hnamed, hfree⟩, result, hresult, rfl⟩ := step_claim.mp h
      have hlast : ∀ path c, Function.update s.held (deviceLatchPath (recordGpu input))
          (some result.2) path = some c → path = deviceLatchPath gpu ∧ c = result.2 := by
        intro path c hc
        rw [hinput] at hc hfree
        by_cases hpath : path = deviceLatchPath gpu
        · rw [hpath, Function.update_self, Option.some.injEq] at hc
          exact ⟨hpath, hc.symm⟩
        · rw [Function.update_of_ne hpath, hs.held_none hgpu hfree path] at hc
          exact absurd hc (by simp)
      refine ⟨hstore, fun path c hc => (hlast path c hc).1, fun path c hc hactive => ?_⟩
      obtain ⟨-, rfl⟩ := hlast path c hc
      obtain ⟨hid, -, hcomplete, -⟩ := hs.store.claimed_known hinput hscope hresult hactive.1
      have hp : s.publication (.claim input pid now) =
          some { worker := result.2.workerId, record := result.2.record } := by
        rw [State.publication, Store.claiming, hresult, Option.bind_some, if_pos hactive.1]
      have hsound := publication_sound hgpu hdistinct hs hon h hp
      have hwrites : Publication.writes
          { worker := result.2.workerId, record := result.2.record }
          (home result.2.workerId result.2.record) := by
        unfold home
        split_ifs with hphysical
        · exact ⟨rfl, hphysical⟩
        · exact ⟨rfl, rfl⟩
      obtain ⟨r, hr, hcore⟩ := hsound.copyAt_of_writes hgpu hwrites
      have hstep : result.1 =
          s.store.publish { worker := result.2.workerId, record := result.2.record } :=
        (step_publishes h rfl).trans (by rw [hp]; rfl)
      refine ⟨hid ▸ hworker, hid ▸ hnamed, hcomplete, r, ⟨?_, hcore.identity.isPhysical,
        (hcore.symm.generation hcomplete).symm⟩, fun hsent => ?_⟩
      · exact (congrArg (fun store => store.copyAt gpu (home result.2.workerId result.2.record))
          hstep).trans hr
      · have hmarked := Store.acquireClaim_sending hresult hactive.1
        rw [isSent, hcore.pageState, hmarked] at hsent
        exact absurd hsent (by simp)
  | finish path sent error now =>
      obtain ⟨c, hc, -, rfl⟩ := step_finish.mp h
      have hpath := hs.path path c hc
      refine ⟨hstore, fun path' c' hc' => ?_, fun path' c' hc' hactive => ?_⟩
      · by_cases hsame : path' = path
        · exact hsame.trans hpath
        · dsimp only at hc'
          rw [Function.update_of_ne hsame] at hc'
          exact hs.path path' c' hc'
      · dsimp only at hc'
        by_cases hsame : path' = path
        · rw [hsame, Function.update_self, Option.some.injEq] at hc'
          rw [← hc'] at hactive
          exact absurd hactive.2 (by simp)
        · rw [Function.update_of_ne hsame] at hc'
          exact absurd ((hs.path path' c' hc').trans hpath.symm) hsame
  | release path =>
      obtain ⟨c, hc, rfl⟩ := step_release.mp h
      have hnone : ∀ path' c', Function.update s.held path none path' ≠ some c' := by
        intro path' c' hc'
        by_cases hsame : path' = path
        · rw [hsame, Function.update_self] at hc'
          exact absurd hc' (by simp)
        · rw [Function.update_of_ne hsame] at hc'
          exact hsame ((hs.path path' c' hc').trans (hs.path path c hc).symm)
      exact ⟨hstore, fun path' c' hc' => absurd hc' (hnone path' c'),
        fun path' c' hc' => absurd hc' (hnone path' c')⟩

/-! ### Generations that are gone, and pages that were sent -/

/-- No copy holds the generation, and no event will have it. -/
def Retired (gpu : Gpu) (g : Generation) (s : State) : Prop :=
  g ∈ s.issued ∧ ∀ place r, s.store.copyAt gpu place = some r → generation r ≠ g

/-- Every copy that operations continue the generation from says that its page was sent. -/
structure Delivered (gpu : Gpu) (g : Generation) (s : State) : Prop where
  issued : g ∈ s.issued
  device : ∀ r, s.store.copyAt gpu .device = some r → generation r = g → isSent r
  file : ∀ path r, s.store.copyAt gpu (.file path) = some r → isPhysical r = false →
    generation r = g → isSent r

section Steps

variable (hgpu : gpu.named = true) (hdistinct : DistinctFiles ids) (hs : OrderlyState gpu ids s)
  (hon : a.on gpu ids) (h : step s a = some t)
include hgpu hdistinct hs hon h

theorem step_retired (hretired : Retired gpu g s) : Retired gpu g t := by
  refine ⟨?_, fun place r hr => ?_⟩
  · rw [step_created h]
    exact List.mem_append_right _ hretired.1
  cases hclear : a.isClear with
  | true =>
      cases a with
      | clear worker gpu' seen =>
          obtain ⟨rfl, -⟩ := hon
          obtain ⟨-, rfl⟩ := step_clear.mp h
          exact hretired.2 place r (copyAt_clear hgpu hs.store hr).1
      | _ => exact absurd hclear (by simp [Action.isClear])
  | false =>
      rcases copyAt_step hgpu hdistinct hs hon h hclear hr with hold | ⟨p, -, hsound, -, hcore, -⟩
      · exact hretired.2 place r hold
      · intro hgen
        have hrecord := (hcore.symm.generation hsound.complete).trans hgen
        rcases hsound.origin with ⟨origin, hknown, -⟩ | ⟨-, -, ⟨-, hfresh⟩, -⟩
        · exact hretired.2 _ origin hknown.copy (hknown.generation.trans hrecord)
        · exact hfresh (hrecord ▸ hretired.1)

/-- A copy of a delivered generation that a step writes says that the page was sent. -/
theorem written_sent (hclear : a.isClear = false) (hdelivered : Delivered gpu g s)
    (hr : t.store.copyAt gpu place = some r) (hgen : generation r = g) :
    s.store.copyAt gpu place = some r ∨ isSent r := by
  rcases copyAt_step hgpu hdistinct hs hon h hclear hr with hold | ⟨p, -, hsound, -, hcore, -⟩
  · exact Or.inl hold
  · have hrecord := (hcore.symm.generation hsound.complete).trans hgen
    rcases hsound.origin with ⟨origin, hknown, hsent, -⟩ | ⟨-, -, ⟨-, hfresh⟩, -⟩
    · refine Or.inr (hcore.isSent.mpr (hsent ?_))
      have hgen' := hknown.generation.trans hrecord
      have hcopy := hknown.copy
      cases hphysical : isPhysical p.record with
      | true =>
          rw [home_physical hphysical] at hcopy
          exact hdelivered.device origin hcopy hgen'
      | false =>
          rw [home_worker hphysical] at hcopy
          exact hdelivered.file _ origin hcopy (hknown.physical.trans hphysical) hgen'
    · exact absurd (hrecord ▸ hdelivered.issued) hfresh

/-- A place that holds a delivered generation goes on saying that the page was sent. -/
theorem step_sent (hdelivered : Delivered gpu g s)
    (hplace : ∀ r, s.store.copyAt gpu place = some r → generation r = g → isSent r)
    (hr : t.store.copyAt gpu place = some r) (hgen : generation r = g) : isSent r := by
  cases hclear : a.isClear with
  | true =>
      cases a with
      | clear worker gpu' seen =>
          obtain ⟨rfl, -⟩ := hon
          obtain ⟨-, rfl⟩ := step_clear.mp h
          exact hplace r (copyAt_clear hgpu hs.store hr).1 hgen
      | _ => exact absurd hclear (by simp [Action.isClear])
  | false =>
      rcases written_sent hgpu hdistinct hs hon h hclear hdelivered hr hgen with hold | hsent
      · exact hplace r hold hgen
      · exact hsent

theorem step_delivered (hdelivered : Delivered gpu g s) : Delivered gpu g t where
  issued := by
    rw [step_created h]
    exact List.mem_append_right _ hdelivered.issued
  device _ hr hgen := step_sent hgpu hdistinct hs hon h hdelivered hdelivered.device hr hgen
  file path r hr hscope hgen := by
    cases hclear : a.isClear with
    | true =>
        cases a with
        | clear worker gpu' seen =>
            obtain ⟨rfl, -⟩ := hon
            obtain ⟨-, rfl⟩ := step_clear.mp h
            exact hdelivered.file path r (copyAt_clear hgpu hs.store hr).1 hscope hgen
        | _ => exact absurd hclear (by simp [Action.isClear])
    | false =>
        rcases written_sent hgpu hdistinct hs hon h hclear hdelivered hr hgen with hold | hsent
        · exact hdelivered.file path r hold hscope hgen
        · exact hsent

end Steps

/-- A copy that says that its page was sent says so for its generation. -/
theorem delivered_of_sent (hs : OrderlyState gpu ids s)
    (hr : s.store.copyAt gpu place = some r) (hsent : isSent r) :
    Delivered gpu (generation r) s where
  issued := hs.store.issued place r hr
  device d hd hgen := by
    have hphysical : isPhysical r = true :=
      (hs.store.unique .device place d r hd hr hgen).1.symm.trans (hs.store.physical d (Or.inl hd))
    obtain ⟨d', hd', -, hbacked⟩ := hs.store.backed place r hr hphysical
    obtain rfl := Option.some.inj (hd.symm.trans hd')
    exact hbacked hsent
  file path f hf hscope hgen := by
    obtain ⟨hphysical, hid⟩ := hs.store.unique (.file path) place f r hf hr hgen
    have hrscope := hphysical.symm.trans hscope
    obtain ⟨owner, howner, hpath, hfid⟩ := hs.store.owned _ f hf (by simp) (by simp)
    have hrid : r.get "worker_id" = some owner := (hid hscope).symm.trans hfid
    cases place with
    | device => exact absurd (hs.store.physical r (Or.inl hr)) (by simp [hrscope])
    | deviceHash => exact absurd (hs.store.physical r (Or.inr hr)) (by simp [hrscope])
    | file path' =>
        obtain ⟨owner', -, hpath', hrid'⟩ := hs.store.owned _ r hr (by simp) (by simp)
        obtain rfl := Option.some.inj (hrid.symm.trans hrid')
        have hpath'' : path' = path := hpath'.trans hpath.symm
        rw [hpath'', hf, Option.some.injEq] at hr
        rw [hr]
        exact hsent
    | hash worker =>
        obtain ⟨-, hrid'⟩ := hs.store.hash_owner hr
        obtain rfl := Option.some.inj (hrid.symm.trans hrid')
        obtain ⟨f', hf', hpair⟩ := hs.store.paired owner r hr hrscope
        have hpath' : path = workerLatchPath owner := hpath
        rw [← hpath', hf, Option.some.injEq] at hf'
        subst hf'
        rcases hpair with ⟨hfphysical, -⟩ | ⟨-, -, hback⟩
        · exact absurd (hscope.symm.trans hfphysical) (by simp)
        · exact hback hsent

/-- A latch that a clear is about: one of the GPU, or one of the worker that it names. -/
def Store.namesLatch (s : Store) (worker : WorkerId) (gpu : Gpu) (g : Generation) : Prop :=
  ∃ place r, (place = .device ∨ place = .deviceHash ∨ place.ownedBy worker) ∧
    s.copyAt gpu place = some r ∧ generation r = g

theorem clear_retired (hgpu : gpu.named = true) (hdistinct : DistinctFiles ids)
    (hs : OrderlyState gpu ids s) (hworker : ids worker) {seen : List WorkerId}
    (h : step s (.clear worker gpu seen) = some t) (hg : s.store.namesLatch worker gpu g) :
    Retired gpu g t := by
  obtain ⟨place, r, hplace, hr, rfl⟩ := hg
  obtain ⟨-, rfl⟩ := step_clear.mp h
  refine ⟨hs.store.issued place r hr, fun place' r' hr' hgen => ?_⟩
  obtain ⟨hold, hdevice, hhash, hother, hscope, -⟩ := copyAt_clear hgpu hs.store hr'
  obtain ⟨hphysical, hid⟩ := hs.store.unique place' place r' r hold hr hgen
  have hrscope := hphysical.symm.trans hscope
  obtain ⟨owner, howner, howned, hid'⟩ := hs.store.owned place' r' hold hdevice hhash
  have hrid : r.get "worker_id" = some worker := by
    rcases hplace with rfl | rfl | hplace
    · exact absurd (hs.store.physical r (Or.inl hr)) (by simp [hrscope])
    · exact absurd (hs.store.physical r (Or.inr hr)) (by simp [hrscope])
    · cases place with
      | device => exact hplace.elim
      | deviceHash => exact hplace.elim
      | file path =>
          cases hplace
          exact hs.store.file_owner hdistinct hworker hr
      | hash id =>
          cases hplace
          exact (hs.store.hash_owner hr).2
  obtain rfl := Option.some.inj (hrid.symm.trans ((hid hscope).symm.trans hid'))
  exact hother howned

/-! ### Runs -/

/-- Operations of the workers on the GPU, in any order. -/
abbrev GpuRun (gpu : Gpu) (ids : WorkerId → Prop) : State → State → Prop :=
  RunWhen step fun _ a => a.on gpu ids

theorem run_orderly (hgpu : gpu.named = true) (hdistinct : DistinctFiles ids)
    (hrun : GpuRun gpu ids s t) (hs : OrderlyState gpu ids s) : OrderlyState gpu ids t :=
  hrun.invariant (fun _ _ _ hs hon h => step_orderly hgpu hdistinct hs hon h) hs

theorem run_retired (hgpu : gpu.named = true) (hdistinct : DistinctFiles ids)
    (hrun : GpuRun gpu ids s t) (hs : OrderlyState gpu ids s) (hretired : Retired gpu g s) :
    Retired gpu g t :=
  (hrun.invariant (I := fun u => OrderlyState gpu ids u ∧ Retired gpu g u)
    (fun _ _ _ hboth hon h => ⟨step_orderly hgpu hdistinct hboth.1 hon h,
      step_retired hgpu hdistinct hboth.1 hon h hboth.2⟩) ⟨hs, hretired⟩).2

theorem run_sent (hgpu : gpu.named = true) (hdistinct : DistinctFiles ids)
    (hrun : GpuRun gpu ids s t) (hs : OrderlyState gpu ids s) (hdelivered : Delivered gpu g s)
    (hplace : ∀ r, s.store.copyAt gpu place = some r → generation r = g → isSent r)
    (hr : t.store.copyAt gpu place = some r) (hgen : generation r = g) : isSent r :=
  (hrun.invariant (I := fun u => OrderlyState gpu ids u ∧ Delivered gpu g u ∧
      ∀ r, u.store.copyAt gpu place = some r → generation r = g → isSent r)
    (fun _ _ _ ⟨hs, hdelivered, hplace⟩ hon h => ⟨step_orderly hgpu hdistinct hs hon h,
      step_delivered hgpu hdistinct hs hon h hdelivered,
      fun _ hr hgen => step_sent hgpu hdistinct hs hon h hdelivered hplace hr hgen⟩)
    ⟨hs, hdelivered, hplace⟩).2.2 r hr hgen

/-- On one GPU, for workers whose latch files have different names and from an orderly state on: once
a clear has committed, no copy ever holds a latch that it was about again, no claim may send its page,
and late outcomes change nothing; and where a copy of a latch says that its page was sent, later copies
of the latch in that place say so too. -/
theorem clear_final (gpu : Gpu) (hgpu : gpu.named = true) (ids : WorkerId → Prop)
    (hdistinct : DistinctFiles ids) (start s : State) (hstart : OrderlyState gpu ids start)
    (hrun : GpuRun gpu ids start s) :
    (∀ worker seen t u g, ids worker → step s (.clear worker gpu seen) = some t →
      s.store.namesLatch worker gpu g → GpuRun gpu ids t u →
      (∀ place r, u.store.copyAt gpu place = some r → generation r ≠ g) ∧
      (∀ path c, u.held path = some c → c.active → generation c.record ≠ g) ∧
      ∀ worker' scope outcome error now,
        u.store.updateNotification worker' gpu scope g outcome error now = u.store) ∧
    ∀ u place r r', GpuRun gpu ids s u → s.store.copyAt gpu place = some r → isSent r →
      u.store.copyAt gpu place = some r' → generation r' = generation r → isSent r' := by
  have hs := run_orderly hgpu hdistinct hrun hstart
  refine ⟨fun worker seen t u g hworker hclear hnames hafter => ?_,
    fun u place r r' hafter hr hsent hr' hgen => ?_⟩
  · have hon : Action.on gpu ids (.clear worker gpu seen) := ⟨rfl, hworker⟩
    have ht := step_orderly hgpu hdistinct hs hon hclear
    have hu := run_orderly hgpu hdistinct hafter ht
    have hretired := run_retired hgpu hdistinct hafter ht
      (clear_retired hgpu hdistinct hs hworker hclear hnames)
    refine ⟨hretired.2, fun path c hc hactive hgen => ?_, fun worker' scope outcome error now => ?_⟩
    · obtain ⟨found, hknown, -⟩ := (hu.claimed path c hc hactive).latch
      exact hretired.2 _ found hknown.copy (hknown.generation.trans hgen)
    · rw [Store.updateNotification]
      cases hupdate : u.store.updatedRecord worker' gpu scope g outcome error now with
      | none => rfl
      | some r =>
          obtain ⟨-, hgen, found, hknown, -⟩ := hu.store.updatedRecord_known hgpu hupdate
          exact absurd (hknown.generation.trans hgen) (hretired.2 _ found hknown.copy)
  · refine run_sent hgpu hdistinct hafter hs (delivered_of_sent hs hr hsent)
      (fun r'' hr'' _ => ?_) hr' hgen
    obtain rfl := Option.some.inj (hr.symm.trans hr'')
    exact hsent

theorem orderly_empty : OrderlyState gpu ids {} where
  store :=
    { complete := fun place r hr => absurd hr (by cases place <;> simp [Store.copyAt])
      physical := fun r hr => absurd hr (by simp [Store.copyAt])
      owned := fun place r hr => absurd hr (by cases place <;> simp [Store.copyAt])
      backed := fun place r hr => absurd hr (by cases place <;> simp [Store.copyAt])
      paired := fun worker r hr => absurd hr (by simp [Store.copyAt])
      unique := fun place place' r r' hr => absurd hr (by cases place <;> simp [Store.copyAt])
      issued := fun place r hr => absurd hr (by cases place <;> simp [Store.copyAt]) }
  path _ _ hc := absurd hc (by simp)
  claimed _ _ hc := absurd hc (by simp)

/-- The page of a latch was sent; then the latch is cleared, and the GPU fails again. -/
def reread : State := (step released (.read "gpu_0" node21)).getD released

def cleared : State := (step released (.clear "gpu_0" node21 ["gpu_0"])).getD released

def relatched : State :=
  (step cleared (.write "gpu_0" node21 { reason := "illegal access" } true "b" "t3")).getD cleared

theorem clear_final_relatched :
    (∀ place r, relatched.store.copyAt node21 place = some r → generation r ≠ .event "a") ∧
    ∀ place r r', released.store.copyAt node21 place = some r → isSent r →
      reread.store.copyAt node21 place = some r' → generation r' = generation r → isSent r' := by
  have honly : ∀ {s : State} {a : Action}, Action.on node21 (· = "gpu_0") a → (step s a).isSome →
      GpuRun node21 (· = "gpu_0") s ((step s a).getD s) := fun hon hsome =>
    RunWhen.single hon (step_getD hsome)
  have hdistinct : DistinctFiles (· = "gpu_0") := fun worker worker' h h' _ => h.trans h'.symm
  have hlatched : GpuRun node21 (· = "gpu_0") {} latched :=
    honly (a := faultReport) ⟨rfl, rfl⟩ latched_isSome
  have hclaimed : GpuRun node21 (· = "gpu_0") latched claimed :=
    honly (a := pageClaim) ⟨by decide +kernel, by decide +kernel⟩ claimed_isSome
  have hpaged : GpuRun node21 (· = "gpu_0") claimed paged := honly (a := pageSent) trivial paged_isSome
  have hreleased : GpuRun node21 (· = "gpu_0") paged released :=
    honly trivial (show (step paged (.release (deviceLatchPath node21))).isSome by decide +kernel)
  have hrun := ((hlatched.append hclaimed).append hpaged).append hreleased
  obtain ⟨hclear, hpage⟩ := clear_final node21 (by decide) (· = "gpu_0") hdistinct {} released
    orderly_empty hrun
  constructor
  · have hcleared : step released (.clear "gpu_0" node21 ["gpu_0"]) = some cleared :=
      step_getD (by decide +kernel)
    have hafter : GpuRun node21 (· = "gpu_0") cleared relatched :=
      honly ⟨rfl, rfl⟩ (show (step cleared (.write "gpu_0" node21 { reason := "illegal access" } true
        "b" "t3")).isSome by decide +kernel)
    have hheld : (released.store.copyAt node21 .device).any (fun r => generation r = .event "a") :=
      by decide +kernel
    obtain ⟨r, hr, hgen⟩ := (Option.any_eq_true _ _).mp hheld
    exact (hclear "gpu_0" ["gpu_0"] cleared relatched (.event "a") rfl hcleared
      ⟨.device, r, Or.inl rfl, hr, of_decide_eq_true hgen⟩ hafter).1
  · intro place r r'
    exact hpage reread place r r'
      (honly ⟨rfl, rfl⟩ (show (step released (.read "gpu_0" node21)).isSome by decide +kernel))

/-- A latch of an older version: the alias of another worker in Redis has no scope. -/
def unscopedAlias : State where
  store :=
    { gpuFiles := ⟨[(deviceLatchPath node21,
        latchRecord node21 "gpu_0" "physical_gpu" "a" "pending")]⟩
      workerHashes := ⟨[("gpu_1",
        (latchRecord node21 "gpu_1" "physical_gpu" "a" "pending").erase "scope")]⟩ }

def unscopedCleared : State :=
  (step unscopedAlias (.clear "gpu_0" node21 [])).getD unscopedAlias

def unscopedRead : State :=
  (step unscopedCleared (.read "gpu_1" node21)).getD unscopedCleared

/-- Two workers whose latch files have the same name: the exclusion of one reaches the hash of the
other. -/
def sharedFile : State :=
  (execute step [.write "node:21" node21 { reason := "hang" } false "a" "t0",
    .read "node_21" node21] {}).getD {}

def sharedCleared : State := (step sharedFile (.clear "node:21" node21 [])).getD sharedFile

def sharedRead : State := (step sharedCleared (.read "node_21" node21)).getD sharedCleared

/-- Whether a place holds a latch of the event. -/
def holdsEvent (s : State) (place : Place) (e : String) : Bool :=
  (s.store.copyAt node21 place).any fun r => generation r = .event e

/-- A cleared latch comes back: a clear does not find an alias without a scope, nor the alias of a
worker whose latch file has the same name. -/
theorem cleared_latch_revived :
    (holdsEvent unscopedAlias .device "a" = true ∧
      step unscopedAlias (.clear "gpu_0" node21 []) = some unscopedCleared ∧
      holdsEvent unscopedCleared (.hash "gpu_1") "a" = true ∧
      step unscopedCleared (.read "gpu_1" node21) = some unscopedRead ∧
      holdsEvent unscopedRead .device "a" = true) ∧
    execute step [.write "node:21" node21 { reason := "hang" } false "a" "t0",
      .read "node_21" node21] {} = some sharedFile ∧
      holdsEvent sharedFile (.file (workerLatchPath "node:21")) "a" = true ∧
      step sharedFile (.clear "node:21" node21 []) = some sharedCleared ∧
      holdsEvent sharedCleared (.hash "node_21") "a" = true ∧
      step sharedCleared (.read "node_21" node21) = some sharedRead ∧
      holdsEvent sharedRead (.file (workerLatchPath "node:21")) "a" = true := by
  refine ⟨⟨by decide +kernel, step_getD (by decide +kernel), by decide +kernel,
    step_getD (by decide +kernel), by decide +kernel⟩, ?_, by decide +kernel,
    step_getD (by decide +kernel), by decide +kernel, step_getD (by decide +kernel),
    by decide +kernel⟩
  have hsome : (execute step [.write "node:21" node21 { reason := "hang" } false "a" "t0",
    .read "node_21" node21] {}).isSome := by decide +kernel
  obtain ⟨t, ht⟩ := Option.isSome_iff_exists.mp hsome
  rw [sharedFile, ht]
  rfl

end KernelGym.Quarantine
