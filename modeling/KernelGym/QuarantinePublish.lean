import KernelGym.QuarantineLatch

/-! What an operation other than a clear publishes: one record, for one worker, in some of the four
places of a latch. A step changes the stores by its publication only. -/

namespace KernelGym.Quarantine

open Library

/-- A record that an operation writes for a worker, and the places where it does. -/
structure Publication where
  worker : WorkerId
  record : Record
  files : Bool := true
  /-- The GPU whose Redis hash is written. -/
  gpuHash : Option Gpu := none
  workerHash : Bool := false

namespace Store

variable (s : Store)

def publish (p : Publication) : Store :=
  let written := if p.files then s.writeDurable p.worker p.record else s
  let mirrored := (p.gpuHash.map fun gpu => written.hsetGpu gpu p.record).getD written
  if p.workerHash then mirrored.hsetWorker p.worker p.record else mirrored

/-- A record in all of its places. -/
def everywhere (worker : WorkerId) (r : Record) : Publication where
  worker := worker
  record := r
  gpuHash := if deviceScoped r then some (recordGpu r) else none
  workerHash := true

/-- The record that a mutating read publishes. -/
def readRecord (gpu : Gpu) (m : Merged) : Record :=
  if m.durableReady || gpu.named then m.record else unlatched m.record

def readPublication (worker : WorkerId) (gpu : Gpu) (m : Merged) : Publication where
  worker := worker
  record := readRecord gpu m
  files := !m.durableReady && gpu.named
  gpuHash := if isPhysical (readRecord gpu m) && gpu.named &&
    !m.redisDevice.any (·.contains (readRecord gpu m)) then some gpu else none
  workerHash := !m.redisWorker.any (·.contains (aliasRecord worker (readRecord gpu m)))

def reading (worker : WorkerId) (gpu : Gpu) : Option Publication :=
  match s.readMerged worker gpu with
  | .ok (some m) => some (readPublication worker gpu m)
  | _ => none

def writing (worker : WorkerId) (gpu : Gpu) (fault : Fault) (physicalScope : Bool)
    (eventId now : String) : Publication :=
  let new := newQuarantineRecord worker gpu fault physicalScope eventId now
  match s.existingDurableRecord worker gpu with
  | .ok existing =>
      everywhere worker (pendingPage ((existing.filter (preserves worker gpu physicalScope)).getD new))
  | .error _ =>
      { everywhere worker (unlatched (new.set "page_user_state" "pending")) with files := false }

def claiming (input : Record) (pid now : String) : Option Publication :=
  (s.acquireClaim input pid now).bind fun result =>
    if result.2.shouldSend then some { worker := result.2.workerId, record := result.2.record } else none

end Store

/-- What a step publishes. -/
def State.publication (s : State) : Action → Option Publication
  | .read worker gpu => s.store.reading worker gpu
  | .write worker gpu fault physicalScope eventId now =>
      some (s.store.writing worker gpu fault physicalScope eventId now)
  | .claim input pid now => s.store.claiming input pid now
  | .finish path sent error now =>
      (s.held path).map fun c => { worker := c.workerId, record := c.outcome sent error now }
  | .update worker gpu scope expected outcome error now =>
      (s.store.updatedRecord worker gpu scope expected outcome error now).map
        (Store.everywhere worker)
  | .release _ | .clear _ _ _ => none

def Action.isClear : Action → Bool
  | .clear _ _ _ => true
  | _ => false

variable {s t : State} {a : Action} {worker : WorkerId} {gpu : Gpu} {r : Record} {store : Store}

theorem Store.publish_everywhere :
    store.publish (Store.everywhere worker r) = (store.writeDurable worker r).mirror worker r := by
  unfold Store.publish Store.everywhere Store.mirror
  by_cases h : deviceScoped r = true <;> simp [h]

theorem Store.read_eq :
    store.read worker gpu = ((store.reading worker gpu).map store.publish).getD store := by
  rw [Store.read, Store.reading]
  cases store.readMerged worker gpu with
  | error e => rfl
  | ok o =>
      cases o with
      | none => rfl
      | some m =>
          cases hready : m.durableReady <;> cases hgpu : gpu.named <;>
            simp only [Store.publish, Store.readPublication, Store.readRecord, Store.rehydrate, hready,
              hgpu, Option.map_some, Option.getD_some, Bool.or_true, Bool.or_false, Bool.or_self,
              Bool.and_true, Bool.and_false, Bool.false_and, Bool.not_true, Bool.not_false, if_true,
              Bool.false_eq_true, if_false, Option.map_none, Option.getD_none] <;>
            split_ifs <;> simp_all

theorem Store.write_eq (fault : Fault) (physicalScope : Bool) (eventId now : String) :
    store.write worker gpu fault physicalScope eventId now =
      store.publish (store.writing worker gpu fault physicalScope eventId now) := by
  rw [Store.write, Store.writing]
  cases store.existingDurableRecord worker gpu with
  | ok existing => exact Store.publish_everywhere.symm
  | error e =>
      unfold Store.publish Store.everywhere Store.mirror
      split_ifs <;> simp_all

/-- There is no latch file of the GPU. -/
def NoDeviceFile (store : Store) (gpu : Gpu) : Prop :=
  gpu.named = true → store.gpuFiles.get (deviceLatchPath gpu) = none

/-- The durable record of a worker on a GPU is the device file, or else the worker's file. -/
theorem existingDurableRecord_cases (h : store.existingDurableRecord worker gpu = .ok (some r)) :
    (gpu.named = true ∧ ∃ d, store.gpuFiles.get (deviceLatchPath gpu) = some d ∧
      r = normalizeDeviceRecord gpu d) ∨
    (NoDeviceFile store gpu ∧ store.workerFiles.get (workerLatchPath worker) = some r) := by
  unfold Store.existingDurableRecord at h
  cases hdevice : readJson (if gpu.named then store.gpuFiles.get (deviceLatchPath gpu) else none) with
  | error e =>
      rw [hdevice] at h
      exact absurd h (by simp [bind, Except.bind])
  | ok device =>
      rw [hdevice] at h
      have hfile := (readJson_ok_iff.mp hdevice).1
      cases device with
      | none =>
          refine Or.inr ⟨fun hgpu => ?_, ((readJson_ok_iff.mp h).1).symm⟩
          rw [if_pos hgpu] at hfile
          exact hfile.symm
      | some d =>
          have hgpu : gpu.named = true := by
            by_contra hunnamed
            rw [if_neg hunnamed] at hfile
            exact absurd hfile (by simp)
          rw [if_pos hgpu] at hfile
          simp only [bind, Except.bind, pure, Except.pure, Except.ok.injEq, Option.some.injEq] at h
          exact Or.inl ⟨hgpu, d, hfile.symm, h.symm⟩

theorem Store.writing_ok {existing : Option Record} (fault : Fault) (physicalScope : Bool)
    (eventId now : String) (hexisting : store.existingDurableRecord worker gpu = .ok existing) :
    store.writing worker gpu fault physicalScope eventId now =
      Store.everywhere worker (pendingPage ((existing.filter (preserves worker gpu physicalScope)).getD
        (newQuarantineRecord worker gpu fault physicalScope eventId now))) := by
  simp only [Store.writing, hexisting]

theorem new_physical (worker : WorkerId) (gpu : Gpu) (fault : Fault) (physicalScope : Bool)
    (eventId now : String) :
    isPhysical (pendingPage (newQuarantineRecord worker gpu fault physicalScope eventId now)) =
      physicalScope := by
  cases physicalScope <;> rfl

theorem new_generation (worker : WorkerId) (gpu : Gpu) (fault : Fault) (physicalScope : Bool)
    {eventId : String} (now : String) (hevent : strip eventId ≠ "") :
    generation (pendingPage (newQuarantineRecord worker gpu fault physicalScope eventId now)) =
      .event (strip eventId) := if_pos hevent

/-- A claim either leaves the stores alone and does not send, or marks the latch as being sent. -/
theorem Store.claimLatch_cases (input : Record) (pid now : String)
    (durableWorker durableDevice : Option Record) :
    (∃ c, store.claimLatch input pid now durableWorker durableDevice = (store, c) ∧
      c.shouldSend = false) ∨
    ∃ current, claimedLatch input durableWorker durableDevice = some current ∧
      (isPhysical input = true ∨ durableDevice = none) ∧ generation current = generation input ∧
      pageState current ≠ some "sent" ∧
      store.claimLatch input pid now durableWorker durableDevice =
        (store.writeDurable (text input "worker_id") (sending pid now current),
          { record := sending pid now current, workerId := text input "worker_id"
            shouldSend := true }) := by
  rw [Store.claimLatch]
  by_cases hstale : (!isPhysical input && durableDevice.isSome) = true
  · rw [if_pos hstale]
    exact Or.inl ⟨_, rfl, rfl⟩
  · rw [if_neg hstale]
    have hscope : isPhysical input = true ∨ durableDevice = none := by
      cases hphysical : isPhysical input <;> simp_all
    cases hcurrent : claimedLatch input durableWorker durableDevice with
    | none => exact Or.inl ⟨_, rfl, rfl⟩
    | some current =>
        by_cases hgen : generation current = generation input
        · by_cases hsent : pageState current = some "sent"
          · simp only [hgen, hsent, ne_eq, not_true_eq_false, if_false, if_true]
            exact Or.inl ⟨_, rfl, rfl⟩
          · simp only [hgen, hsent, ne_eq, not_true_eq_false, if_false]
            exact Or.inr ⟨current, rfl, hscope, hgen, hsent, rfl⟩
        · simp only [hgen, ne_eq, not_false_eq_true, if_true]
          exact Or.inl ⟨_, rfl, rfl⟩

theorem Store.acquireClaim_eq_some {input : Record} {pid now : String} {result : Store × Claim}
    (h : store.acquireClaim input pid now = some result) :
    ∃ durableWorker durableDevice,
      readJson (store.workerFiles.get (workerLatchPath (text input "worker_id"))) =
        .ok durableWorker ∧
      readJson (store.gpuFiles.get (deviceLatchPath (recordGpu input))) = .ok durableDevice ∧
      result = store.claimLatch input pid now durableWorker
        (durableDevice.map (normalizeDeviceRecord (recordGpu input))) := by
  unfold Store.acquireClaim at h
  split at h
  · exact ⟨_, _, ‹_›, ‹_›, (Option.some.inj h).symm⟩
  · exact absurd h (by simp)

theorem Store.acquireClaim_eq {input : Record} {pid now : String} {result : Store × Claim}
    (h : store.acquireClaim input pid now = some result) :
    result.1 = ((store.claiming input pid now).map store.publish).getD store := by
  rw [Store.claiming, h, Option.bind_some]
  obtain ⟨durableWorker, durableDevice, -, -, rfl⟩ := Store.acquireClaim_eq_some h
  rcases Store.claimLatch_cases input pid now durableWorker
    (durableDevice.map (normalizeDeviceRecord (recordGpu input))) with
    ⟨c, hresult, hsend⟩ | ⟨current, -, -, -, -, hresult⟩
  · rw [hresult, hsend]
    rfl
  · rw [hresult]
    rfl

/-- A step other than a clear changes the stores by what it publishes. -/
theorem step_publishes (h : step s a = some t) (ha : a.isClear = false) :
    t.store = ((s.publication a).map s.store.publish).getD s.store := by
  cases a with
  | read worker gpu =>
      obtain ⟨-, rfl⟩ := step_read.mp h
      exact Store.read_eq
  | write worker gpu fault physicalScope eventId now =>
      obtain ⟨-, rfl⟩ := step_write.mp h
      exact Store.write_eq fault physicalScope eventId now
  | claim input pid now =>
      obtain ⟨-, result, hresult, rfl⟩ := step_claim.mp h
      exact Store.acquireClaim_eq hresult
  | finish path sent error now =>
      obtain ⟨c, hc, -, rfl⟩ := step_finish.mp h
      rw [State.publication, hc]
      rfl
  | release path =>
      obtain ⟨c, -, rfl⟩ := step_release.mp h
      rfl
  | update worker gpu scope expected outcome error now =>
      obtain ⟨-, rfl⟩ := step_update.mp h
      simp only [State.publication, Store.updateNotification]
      cases s.store.updatedRecord worker gpu scope expected outcome error now with
      | none => rfl
      | some r => exact Store.publish_everywhere.symm
  | clear worker gpu seen => exact absurd ha (by simp [Action.isClear])

/-! ### Publications are latches -/

/-- The record of a publication is a latch. -/
def Publication.valid (p : Publication) : Prop := p.record.get "state" = some "quarantined"

/-- The claims that may still be finished hold a latch. -/
def State.claimsValid (s : State) : Prop :=
  ∀ path c, s.held path = some c → c.shouldSend = true → c.record.get "state" = some "quarantined"

variable {p : Publication}

theorem state_aliasRecord : (aliasRecord worker r).get "state" = r.get "state" := by
  unfold aliasRecord
  split_ifs
  · rfl
  · rw [Dict.get_set_of_ne _ (by decide), Dict.get_setDefault, if_neg (by decide)]

theorem state_normalizeReadRecord :
    (normalizeReadRecord worker gpu r).get "state" = some "quarantined" := by
  rw [normalizeReadRecord, get_fillIdentity (by decide) (by decide) (by decide),
    get_upgradeScope (by decide) (by decide), markPositive, Dict.get_setDefault, if_neg (by decide),
    Dict.get_set_of_ne _ (by decide), Dict.get_set_self]

theorem state_normalizeDeviceRecord : (normalizeDeviceRecord gpu r).get "state" = r.get "state" := by
  rw [normalizeDeviceRecord, Dict.get_set_of_ne _ (by decide), Dict.get_set_of_ne _ (by decide),
    Dict.get_set_of_ne _ (by decide)]

theorem state_constrainWorkerRecord :
    (constrainWorkerRecord gpu r).get "state" = r.get "state" := by
  unfold constrainWorkerRecord
  split_ifs
  · rfl
  · rw [Dict.get_set_of_ne _ (by decide), get_withoutPage (by decide),
      Dict.get_set_of_ne _ (by decide)]

theorem state_delivered (outcome : PageOutcome) (error now : String) :
    (delivered outcome error now r).get "state" = r.get "state" := by
  unfold delivered
  split_ifs <;> simp [Dict.get_set]

theorem state_sending (pid now : String) : (sending pid now r).get "state" = r.get "state" := by
  simp [sending, Dict.get_set]

theorem state_outcome (c : Claim) (sent : Bool) (error now : String) :
    (c.outcome sent error now).get "state" = c.record.get "state" := by
  rw [Claim.outcome, Dict.get_erase, if_neg (by decide), state_delivered]

theorem state_pendingPage : (pendingPage r).get "state" = r.get "state" := by
  rw [pendingPage, Dict.get_setDefault, if_neg (by decide)]

theorem state_unlatched : (Store.unlatched r).get "state" = r.get "state" :=
  Dict.get_set_of_ne r (by decide)

theorem Store.everywhere_valid :
    (Store.everywhere worker r).valid ↔ r.get "state" = some "quarantined" := Iff.rfl

theorem state_strongest {copies : Copies} {m : Record}
    (h : (copies.normalized worker gpu).strongest gpu = some m) :
    m.get "state" = some "quarantined" := by
  obtain ⟨first, hhead, hsame, -⟩ := Sources.strongest_eq_some h
  rw [hsame "state" (by decide)]
  have hmem : first ∈ (copies.normalized worker gpu).ordered gpu := by
    have hcandidate := List.mem_of_mem_head? hhead
    unfold Sources.candidates at hcandidate
    split_ifs at hcandidate
    · exact hcandidate
    · exact (List.mem_filter.mp hcandidate).1
  have hnormalized : ∀ copy : Option Record, some first = copy.map (normalizeReadRecord worker gpu) →
      first.get "state" = some "quarantined" := by
    intro copy hcopy
    obtain ⟨r, -, rfl⟩ := Option.map_eq_some_iff.mp hcopy.symm
    exact state_normalizeReadRecord
  have hconstrained : ∀ copy : Option Record,
      some first = (copy.map (normalizeReadRecord worker gpu)).map (constrainWorkerRecord gpu) →
      first.get "state" = some "quarantined" := by
    intro copy hcopy
    obtain ⟨n, hn, rfl⟩ := Option.map_eq_some_iff.mp hcopy.symm
    obtain ⟨r, -, rfl⟩ := Option.map_eq_some_iff.mp hn
    rw [state_constrainWorkerRecord, state_normalizeReadRecord]
  rw [Sources.ordered, List.reduceOption_mem_iff] at hmem
  simp only [List.mem_cons, List.not_mem_nil, or_false] at hmem
  rcases hmem with hmem | hmem | hmem | hmem
  · exact hnormalized _ hmem
  · exact hconstrained _ hmem
  · exact hnormalized _ hmem
  · exact hconstrained _ hmem

theorem readJson_state {file : Option Record} (h : readJson file = .ok (some r)) :
    r.get "state" = some "quarantined" := by
  obtain ⟨hfile, hstate⟩ := readJson_ok_iff.mp h
  exact hstate r hfile.symm

theorem Store.existingDurableRecord_state
    (h : store.existingDurableRecord worker gpu = .ok (some r)) :
    r.get "state" = some "quarantined" := by
  unfold Store.existingDurableRecord at h
  cases hdevice : readJson (if gpu.named then store.gpuFiles.get (deviceLatchPath gpu) else none) with
  | error e =>
      rw [hdevice] at h
      exact absurd h (by simp [bind, Except.bind])
  | ok device =>
      rw [hdevice] at h
      cases device with
      | none => exact readJson_state h
      | some old =>
          simp only [bind, Except.bind, pure, Except.pure, Except.ok.injEq, Option.some.injEq] at h
          rw [← h, state_normalizeDeviceRecord]
          exact readJson_state hdevice

theorem Store.reading_valid (h : store.reading worker gpu = some p) : p.valid := by
  unfold Store.reading at h
  split at h
  · rename_i m hm
    obtain rfl := Option.some.inj h
    obtain ⟨merged, hmerged, rfl⟩ := Option.map_eq_some_iff.mp (readMerged_ok_iff.mp hm).2.symm
    have hstate := state_strongest hmerged
    change (Store.readRecord gpu _).get "state" = some "quarantined"
    rw [Store.readRecord]
    split_ifs
    · exact hstate
    · rw [state_unlatched]
      exact hstate
  · exact absurd h (by simp)

theorem Store.writing_valid (fault : Fault) (physicalScope : Bool) (eventId now : String) :
    (store.writing worker gpu fault physicalScope eventId now).valid := by
  have hnew : (newQuarantineRecord worker gpu fault physicalScope eventId now).get "state" =
      some "quarantined" := rfl
  unfold Store.writing
  cases hexisting : store.existingDurableRecord worker gpu with
  | error e =>
      change (Store.unlatched _).get "state" = some "quarantined"
      rw [state_unlatched, Dict.get_set_of_ne _ (by decide)]
      exact hnew
  | ok existing =>
      rw [Store.everywhere_valid, state_pendingPage]
      cases hkept : existing.filter (preserves worker gpu physicalScope) with
      | none => exact hnew
      | some old =>
          rw [(Option.filter_eq_some_iff.mp hkept).1] at hexisting
          exact Store.existingDurableRecord_state hexisting

theorem Store.updatedRecord_state {scope : Scope} {expected : Generation} {outcome : PageOutcome}
    {error now : String}
    (h : store.updatedRecord worker gpu scope expected outcome error now = some r) :
    r.get "state" = some "quarantined" := by
  unfold Store.updatedRecord at h
  split at h
  · rename_i old hold
    have hstate : old.get "state" = some "quarantined" := by
      cases scope with
      | workerProcess => exact readJson_state hold
      | physicalGpu => exact Store.existingDurableRecord_state hold
    split_ifs at h
    · rw [← Option.some.inj h, state_delivered]
      exact hstate
    · rw [← Option.some.inj h]
      exact hstate
  · exact absurd h (by simp)

theorem Store.acquireClaim_valid {input : Record} {pid now : String} {result : Store × Claim}
    (h : store.acquireClaim input pid now = some result) (hsend : result.2.shouldSend = true) :
    result.2.record.get "state" = some "quarantined" := by
  obtain ⟨durableWorker, durableDevice, hworker, hdevice, rfl⟩ := Store.acquireClaim_eq_some h
  rcases Store.claimLatch_cases input pid now durableWorker
    (durableDevice.map (normalizeDeviceRecord (recordGpu input))) with
    ⟨c, hresult, hno⟩ | ⟨current, hcurrent, -, -, -, hresult⟩
  · rw [hresult, hno] at hsend
    exact absurd hsend (by simp)
  · rw [hresult, state_sending]
    unfold claimedLatch at hcurrent
    split_ifs at hcurrent
    · obtain ⟨old, hold, rfl⟩ := Option.map_eq_some_iff.mp hcurrent
      rw [hold] at hdevice
      rw [state_normalizeDeviceRecord]
      exact readJson_state hdevice
    · rw [(Option.filter_eq_some_iff.mp hcurrent).1] at hworker
      exact readJson_state hworker

/-- What is true of every claim's record when the claim is made, and of its outcome, is true of the
claims that may still be finished. -/
theorem step_claims {P : Record → Prop}
    (hclaim : ∀ {input pid now result}, claimableScope input = true → (recordGpu input).named = true →
      s.store.acquireClaim input pid now = some result → result.2.shouldSend = true →
      P result.2.record)
    (houtcome : ∀ {c : Claim} {sent error now}, P c.record → P (c.outcome sent error now))
    (hinv : ∀ path c, s.held path = some c → c.shouldSend = true → P c.record)
    (h : step s a = some t) (path : GpuPath) (c : Claim) (hheld : t.held path = some c)
    (hsend : c.shouldSend = true) : P c.record := by
  cases a with
  | claim input pid now =>
      obtain ⟨⟨hscope, hnamed, -⟩, result, hresult, rfl⟩ := step_claim.mp h
      dsimp only at hheld
      by_cases hpath : path = deviceLatchPath (recordGpu input)
      · rw [hpath, Function.update_self, Option.some.injEq] at hheld
        subst hheld
        exact hclaim hscope hnamed hresult hsend
      · rw [Function.update_of_ne hpath] at hheld
        exact hinv path c hheld hsend
  | finish path' sent error now =>
      obtain ⟨c', hc, ⟨hsend', -⟩, rfl⟩ := step_finish.mp h
      dsimp only at hheld
      by_cases hpath : path = path'
      · rw [hpath, Function.update_self, Option.some.injEq] at hheld
        subst hheld
        exact houtcome (hinv path' c' hc hsend')
      · rw [Function.update_of_ne hpath] at hheld
        exact hinv path c hheld hsend
  | release path' =>
      obtain ⟨c', -, rfl⟩ := step_release.mp h
      dsimp only at hheld
      by_cases hpath : path = path'
      · rw [hpath, Function.update_self] at hheld
        exact absurd hheld (by simp)
      · rw [Function.update_of_ne hpath] at hheld
        exact hinv path c hheld hsend
  | read worker gpu =>
      obtain ⟨-, rfl⟩ := step_read.mp h
      exact hinv path c hheld hsend
  | write worker gpu fault physicalScope eventId now =>
      obtain ⟨-, rfl⟩ := step_write.mp h
      exact hinv path c hheld hsend
  | update worker gpu scope expected outcome error now =>
      obtain ⟨-, rfl⟩ := step_update.mp h
      exact hinv path c hheld hsend
  | clear worker gpu seen =>
      obtain ⟨-, rfl⟩ := step_clear.mp h
      exact hinv path c hheld hsend

theorem step_claimsValid (hinv : s.claimsValid) (h : step s a = some t) : t.claimsValid :=
  step_claims (P := fun r => r.get "state" = some "quarantined")
    (fun _ _ hresult hsend => Store.acquireClaim_valid hresult hsend)
    (fun hrecord => (state_outcome _ _ _ _).trans hrecord) hinv h

/-- What a step publishes is a latch. -/
theorem publication_valid (hinv : s.claimsValid) (h : step s a = some t)
    (hp : s.publication a = some p) : p.valid := by
  cases a with
  | read worker gpu => exact Store.reading_valid hp
  | write worker gpu fault physicalScope eventId now =>
      rw [← Option.some.inj hp]
      exact Store.writing_valid fault physicalScope eventId now
  | claim input pid now =>
      obtain ⟨result, hresult, hp⟩ := Option.bind_eq_some_iff.mp hp
      obtain ⟨hsend, hp⟩ := Option.ite_none_right_eq_some.mp hp
      rw [← Option.some.inj hp]
      exact Store.acquireClaim_valid hresult hsend
  | finish path sent error now =>
      obtain ⟨c, hc, rfl⟩ := Option.map_eq_some_iff.mp hp
      obtain ⟨c', hc', ⟨hsend, -⟩, -⟩ := step_finish.mp h
      rw [hc, Option.some.injEq] at hc'
      subst hc'
      exact (state_outcome c sent error now).trans (hinv path c hc hsend)
  | update worker gpu scope expected outcome error now =>
      obtain ⟨r, hr, rfl⟩ := Option.map_eq_some_iff.mp hp
      exact Store.updatedRecord_state hr
  | release path => exact absurd hp (by simp [State.publication])
  | clear worker gpu seen => exact absurd hp (by simp [State.publication])

/-! ### The copies after a publication -/

namespace Store

theorem gpuFiles_publish (path : GpuPath) : (store.publish p).gpuFiles.get path =
    if p.files = true ∧ deviceScoped p.record = true ∧ path = deviceLatchPath (recordGpu p.record) then
      some p.record
    else store.gpuFiles.get path := by
  have hwritten : (if p.files = true then store.writeDurable p.worker p.record else store).gpuFiles.get
      path = if p.files = true ∧ deviceScoped p.record = true ∧
        path = deviceLatchPath (recordGpu p.record) then some p.record
      else store.gpuFiles.get path := by
    unfold writeDurable writeWorkerFile writeGpuFile
    split_ifs <;> simp_all [Dict.get_set]
  rw [← hwritten]
  unfold publish hsetWorker hsetGpu
  cases p.gpuHash <;> split_ifs <;> rfl

theorem workerFiles_publish (path : WorkerPath) : (store.publish p).workerFiles.get path =
    if p.files = true ∧ path = workerLatchPath p.worker then some (aliasRecord p.worker p.record)
    else store.workerFiles.get path := by
  have hwritten : (if p.files = true then store.writeDurable p.worker p.record
      else store).workerFiles.get path =
      if p.files = true ∧ path = workerLatchPath p.worker then some (aliasRecord p.worker p.record)
      else store.workerFiles.get path := by
    unfold writeDurable writeWorkerFile writeGpuFile
    split_ifs <;> simp_all [Dict.get_set]
  rw [← hwritten]
  unfold publish hsetWorker hsetGpu
  cases p.gpuHash <;> split_ifs <;> rfl

theorem files_publish (h : p.files = false) : (store.publish p).gpuFiles = store.gpuFiles ∧
    (store.publish p).workerFiles = store.workerFiles := by
  simp only [publish, hsetWorker, hsetGpu, h, Bool.false_eq_true, if_false]
  cases p.gpuHash <;> split_ifs <;> exact ⟨rfl, rfl⟩

theorem hashes_writeDurable : (store.writeDurable worker r).gpuHashes = store.gpuHashes ∧
    (store.writeDurable worker r).workerHashes = store.workerHashes := by
  unfold writeDurable writeWorkerFile writeGpuFile
  split_ifs <;> exact ⟨rfl, rfl⟩

theorem gpuHash_publish_of_eq {written : Gpu} (hp : p.gpuHash = some written)
    (hkey : gpuDeviceQuarantineKey gpu = gpuDeviceQuarantineKey written) :
    (store.publish p).gpuHash gpu = (store.gpuHash gpu).update p.record := by
  have hget : (store.publish p).gpuHashes.get (gpuDeviceQuarantineKey gpu) =
      some ((store.gpuHash written).update p.record) := by
    unfold publish hsetWorker hsetGpu
    rw [hp, hkey]
    split_ifs <;> simp [gpuHash, hashes_writeDurable]
  rw [gpuHash, hget, Option.getD_some, gpuHash, ← hkey, gpuHash]

theorem gpuHash_publish_of_ne (h : ∀ written, p.gpuHash = some written →
    gpuDeviceQuarantineKey gpu ≠ gpuDeviceQuarantineKey written) :
    (store.publish p).gpuHash gpu = store.gpuHash gpu := by
  have hget : (store.publish p).gpuHashes.get (gpuDeviceQuarantineKey gpu) =
      store.gpuHashes.get (gpuDeviceQuarantineKey gpu) := by
    unfold publish hsetWorker hsetGpu
    cases hp : p.gpuHash with
    | none => split_ifs <;> simp [hashes_writeDurable]
    | some written => split_ifs <;> simp [hashes_writeDurable, Dict.get_set, h written hp]
  rw [gpuHash, hget, gpuHash]

theorem workerHashes_publish (worker : WorkerId) : (store.publish p).workerHashes.get worker =
    if p.workerHash = true ∧ worker = p.worker then
      some ((store.workerHash worker).update (aliasRecord p.worker p.record))
    else store.workerHashes.get worker := by
  have hsame : ((p.gpuHash.map fun gpu => (if p.files = true then
      store.writeDurable p.worker p.record else store).hsetGpu gpu p.record).getD
      (if p.files = true then store.writeDurable p.worker p.record else store)).workerHashes =
      store.workerHashes := by
    unfold hsetGpu
    cases p.gpuHash <;> split_ifs <;> simp [hashes_writeDurable]
  unfold publish hsetWorker workerHash
  split_ifs <;> simp_all [Dict.get_set]

theorem workerHash_publish : (store.publish p).workerHash worker =
    if p.workerHash = true ∧ worker = p.worker then
      (store.workerHash worker).update (aliasRecord p.worker p.record)
    else store.workerHash worker := by
  rw [workerHash, workerHashes_publish]
  split_ifs <;> rfl

end Store

end KernelGym.Quarantine
