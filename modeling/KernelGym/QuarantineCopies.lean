import KernelGym.QuarantinePublish

/-! The copies of the latches of one GPU, place by place, and what a publication writes to them. A
complete record has every field that decides its identity, its scope and its page state; operations
that work on complete records keep these fields. -/

namespace KernelGym.Quarantine

open Library

/-- Where a copy of a latch of one GPU is stored. -/
inductive Place
  | device
  | deviceHash
  | file (path : WorkerPath)
  | hash (worker : WorkerId)
  deriving DecidableEq, Repr

/-- The place is one of the worker's own. -/
def Place.ownedBy (worker : WorkerId) : Place → Prop
  | .device | .deviceHash => False
  | .file path => path = workerLatchPath worker
  | .hash id => id = worker

def Store.copyAt (s : Store) (gpu : Gpu) : Place → Option Record
  | .device => s.gpuFiles.get (deviceLatchPath gpu)
  | .deviceHash => s.gpuHashes.get (gpuDeviceQuarantineKey gpu)
  | .file path => s.workerFiles.get path
  | .hash worker => s.workerHashes.get worker

def isSent (r : Record) : Prop := pageState r = some "sent"

/-- A record of a latch on the GPU, with every field that this module is about. -/
structure Complete (gpu : Gpu) (r : Record) : Prop where
  state : r.get "state" = some "quarantined"
  scope : r.get "scope" = some "physical_gpu" ∨ r.get "scope" = some "worker_process"
  hostname : r.get "hostname" = some gpu.hostname
  device : r.get "device" = some gpu.device
  event : strip (text r "event_id") ≠ ""
  page : (pageState r).isSome

/-- The fields that two copies of one record share. -/
def coreKeys : List String :=
  ["state", "scope", "hostname", "device", "event_id", "page_user_state"]

def SameCore (r r' : Record) : Prop := ∀ key ∈ coreKeys, r.get key = r'.get key

/-- The fields of a record that its page does not change. -/
def SameIdentity (r r' : Record) : Prop :=
  ∀ key ∈ ["state", "scope", "hostname", "device", "event_id"], r.get key = r'.get key

variable {gpu : Gpu} {r r' : Record} {worker : WorkerId} {store : Store} {p : Publication}

theorem SameCore.refl (r : Record) : SameCore r r := fun _ _ => rfl

theorem SameCore.symm (h : SameCore r r') : SameCore r' r := fun key hkey => (h key hkey).symm

theorem SameCore.trans {r'' : Record} (h : SameCore r r') (h' : SameCore r' r'') : SameCore r r'' :=
  fun key hkey => (h key hkey).trans (h' key hkey)

theorem SameCore.identity (h : SameCore r r') : SameIdentity r r' := by
  intro key hkey
  refine h key ?_
  simp only [coreKeys, List.mem_cons, List.not_mem_nil, or_false] at hkey ⊢
  tauto

theorem SameCore.pageState (h : SameCore r r') : pageState r = pageState r' :=
  h "page_user_state" (by decide)

theorem SameCore.isSent (h : SameCore r r') : isSent r ↔ isSent r' := by
  rw [Quarantine.isSent, Quarantine.isSent, h.pageState]

theorem SameEvent.identity (h : SameEvent r r') : SameIdentity r r' := by
  intro key hkey
  apply h
  simp only [List.mem_cons, List.not_mem_nil, or_false] at hkey
  rcases hkey with rfl | rfl | rfl | rfl | rfl <;> decide

namespace SameIdentity

theorem symm (h : SameIdentity r r') : SameIdentity r' r := fun key hkey => (h key hkey).symm

theorem trans {r'' : Record} (h : SameIdentity r r') (h' : SameIdentity r' r'') :
    SameIdentity r r'' := fun key hkey => (h key hkey).trans (h' key hkey)

theorem isPhysical (h : SameIdentity r r') : isPhysical r = isPhysical r' := by
  rw [Quarantine.isPhysical, Quarantine.isPhysical, h "scope" (by decide)]

theorem complete (h : SameIdentity r r') (hcomplete : Complete gpu r) (hpage : (pageState r').isSome) :
    Complete gpu r' where
  state := (h "state" (by decide)).symm.trans hcomplete.state
  scope := by
    rw [← h "scope" (by decide)]
    exact hcomplete.scope
  hostname := (h "hostname" (by decide)).symm.trans hcomplete.hostname
  device := (h "device" (by decide)).symm.trans hcomplete.device
  event := by
    rw [text, ← h "event_id" (by decide)]
    exact hcomplete.event
  page := hpage

end SameIdentity

/-- The generation of a complete record is its event. -/
theorem Complete.generation (h : Complete gpu r) :
    generation r = .event (strip (text r "event_id")) := by
  rw [Quarantine.generation, if_pos h.event]

theorem SameIdentity.generation (h : SameIdentity r r') (hcomplete : Complete gpu r) :
    Quarantine.generation r = Quarantine.generation r' := by
  have htext : text r "event_id" = text r' "event_id" := by
    rw [text, text, h "event_id" (by decide)]
  rw [hcomplete.generation, Quarantine.generation, htext, if_pos (htext ▸ hcomplete.event)]

theorem SameCore.complete (h : SameCore r r') (hcomplete : Complete gpu r) : Complete gpu r' :=
  h.identity.complete hcomplete (h.pageState ▸ hcomplete.page)

theorem SameCore.generation (h : SameCore r r') (hcomplete : Complete gpu r) :
    Quarantine.generation r = Quarantine.generation r' := h.identity.generation hcomplete

/-! ### What the operations do to complete records -/

theorem sameCore_alias : SameCore (aliasRecord worker r) r := by
  intro key hkey
  simp only [coreKeys, List.mem_cons, List.not_mem_nil, or_false] at hkey
  unfold aliasRecord
  split_ifs
  · rfl
  · rcases hkey with rfl | rfl | rfl | rfl | rfl | rfl <;>
      rw [Dict.get_set_of_ne _ (by decide), Dict.get_setDefault, if_neg (by decide)]

theorem worker_alias : (aliasRecord worker r).get "worker_id" = some worker := by
  unfold aliasRecord
  split_ifs with h
  · exact h
  · rw [Dict.get_set_self]

theorem Complete.get_core (h : Complete gpu r) {key : String} (hkey : key ∈ coreKeys) :
    ∃ value, r.get key = some value := by
  simp only [coreKeys, List.mem_cons, List.not_mem_nil, or_false] at hkey
  rcases hkey with rfl | rfl | rfl | rfl | rfl | rfl
  · exact ⟨_, h.state⟩
  · rcases h.scope with hscope | hscope
    · exact ⟨_, hscope⟩
    · exact ⟨_, hscope⟩
  · exact ⟨_, h.hostname⟩
  · exact ⟨_, h.device⟩
  · apply Option.isSome_iff_exists.mp
    by_contra hnone
    rw [Option.not_isSome_iff_eq_none] at hnone
    exact h.event (by rw [text, hnone]; rfl)
  · exact Option.isSome_iff_exists.mp h.page

/-- What a hash holds after an update by a complete record. -/
theorem sameCore_update (h : Complete gpu r) (hash : Record) : SameCore (hash.update r) r := by
  intro key hkey
  obtain ⟨value, hvalue⟩ := h.get_core hkey
  rw [Dict.get_update, hvalue, Option.some_or]

theorem sameCore_of_contains (h : Complete gpu r) (hcontains : r'.contains r = true) :
    SameCore r' r := by
  intro key hkey
  obtain ⟨value, hvalue⟩ := h.get_core hkey
  rw [hvalue]
  exact (Dict.contains_iff _ _).mp hcontains key value hvalue

theorem sameCore_normalizeDevice (h : Complete gpu r) (hphysical : isPhysical r = true) :
    SameCore (normalizeDeviceRecord gpu r) r := by
  intro key hkey
  rw [isPhysical, decide_eq_true_eq] at hphysical
  rw [normalizeDeviceRecord, Dict.get_set, Dict.get_set, Dict.get_set]
  split_ifs with hdevice hhost hscope
  · rw [hdevice, h.device]
  · rw [hhost, h.hostname]
  · rw [hscope, hphysical]
  · rfl

theorem Complete.text_scope (h : Complete gpu r) :
    text r "scope" = "physical_gpu" ∨ text r "scope" = "worker_process" := by
  rcases h.scope with hscope | hscope <;> simp [text, hscope]

theorem Complete.scope_of_not_physical (h : Complete gpu r) (hscope : isPhysical r = false) :
    r.get "scope" = some "worker_process" := by
  rcases h.scope with hphysical | hworker
  · simp [isPhysical, hphysical] at hscope
  · exact hworker

theorem sameCore_normalizeRead (worker : WorkerId) (hgpu : gpu.named = true) (h : Complete gpu r) :
    SameCore (normalizeReadRecord worker gpu r) r := by
  obtain ⟨hhost, hdevice⟩ := Gpu.named_iff.mp hgpu
  have hknown : knownScope (markPositive r) = true := by
    rw [knownScope, scope_markPositive]
    rcases h.text_scope with hscope | hscope <;> simp [hscope]
  intro key hkey
  simp only [coreKeys, List.mem_cons, List.not_mem_nil, or_false] at hkey
  rcases hkey with rfl | rfl | rfl | rfl | rfl | rfl
  · rw [state_normalizeReadRecord, h.state]
  · rw [scope_normalizeReadRecord]
    rcases h.scope with hscope | hscope <;> simp [text, hscope]
  · rw [hostname_normalizeReadRecord, textOr, text, h.hostname, Option.getD_some, if_neg hhost]
  · rw [device_normalizeReadRecord, textOr, text, h.device, Option.getD_some, if_neg hdevice]
  · rw [get_normalizeReadRecord (by decide)]
  · obtain ⟨state, hstate⟩ := Option.isSome_iff_exists.mp h.page
    rw [Quarantine.pageState] at hstate
    rw [normalizeReadRecord, get_fillIdentity (by decide) (by decide) (by decide), upgradeScope,
      if_pos hknown, markPositive, Dict.get_setDefault, if_pos rfl, Dict.get_set_of_ne _ (by decide),
      Dict.get_set_of_ne _ (by decide), hstate, Option.getD_some]

/-- A complete copy of a worker is not constrained on its own GPU. -/
theorem constrain_complete (hgpu : gpu.named = true) (h : Complete gpu r) :
    constrainWorkerRecord gpu r = r := by
  rw [constrainWorkerRecord, if_pos]
  cases hphysical : isPhysical r with
  | false => rfl
  | true => simp [samePhysicalGpu, hphysical, hgpu, h.hostname, h.device]

theorem SameEvent.recordGpu {r' : Record} (h : SameEvent r r') : recordGpu r = recordGpu r' := by
  rw [Quarantine.recordGpu, h.text (by decide), h.text (by decide), Quarantine.recordGpu]

theorem SameEvent.deviceScoped {r' : Record} (h : SameEvent r r') :
    deviceScoped r = deviceScoped r' := by
  rw [Quarantine.deviceScoped, h.physical, h.recordGpu, Quarantine.deviceScoped]

theorem sameEvent_pendingPage (r : Record) : SameEvent (pendingPage r) r := by
  intro key hkey
  rw [pendingPage, Dict.get_setDefault, if_neg (pageKey_ne hkey isPageKey_state)]

theorem sameEvent_delivered (outcome : PageOutcome) (error now : String) :
    SameEvent (delivered outcome error now r) r := by
  intro key hkey
  have hne : ∀ page, isPageKey page = true → key ≠ page := fun _ hpage => pageKey_ne hkey hpage
  unfold delivered
  split_ifs <;>
    simp only [Dict.get_set, hne "page_user_state" (by decide), hne "page_user_updated_at" (by decide),
      hne "page_user_error" (by decide), hne "page_user_sent_at" (by decide), if_false]

theorem sameEvent_sending (pid now : String) : SameEvent (sending pid now r) r := by
  intro key hkey
  have hne : ∀ page, isPageKey page = true → key ≠ page := fun _ hpage => pageKey_ne hkey hpage
  simp only [sending, Dict.get_set, hne "page_user_state" (by decide),
    hne "page_user_claimed_at" (by decide), hne "page_user_claim_owner" (by decide),
    hne "page_user_attempt_count" (by decide), if_false]

theorem sameEvent_outcome (c : Claim) (sent : Bool) (error now : String) :
    SameEvent (c.outcome sent error now) c.record := by
  intro key hkey
  rw [Claim.outcome, Dict.get_erase, if_neg (pageKey_ne hkey (by decide))]
  exact sameEvent_delivered _ error now key hkey

theorem pageState_delivered (outcome : PageOutcome) (error now : String) :
    pageState (delivered outcome error now r) = some outcome.text := by
  unfold delivered pageState
  split_ifs <;> simp [Dict.get_set]

theorem pageState_sending (pid now : String) : pageState (sending pid now r) = some "sending" := by
  simp [sending, pageState, Dict.get_set]

theorem pageState_outcome (c : Claim) (sent : Bool) (error now : String) :
    pageState (c.outcome sent error now) = some (if sent then "sent" else "failed") := by
  rw [Claim.outcome, pageState, Dict.get_erase, if_neg (by decide)]
  cases sent
  · exact pageState_delivered .failed error now
  · exact pageState_delivered .sent error now

/-- A page state that is there stays. -/
theorem sameCore_pendingPage (h : (pageState r).isSome) : SameCore (pendingPage r) r := by
  obtain ⟨state, hstate⟩ := Option.isSome_iff_exists.mp h
  intro key _
  rw [pendingPage, Dict.get_setDefault]
  split_ifs with hkey
  · rw [hkey, ← pageState, hstate, Option.getD_some]
  · rfl

theorem Store.acquireClaim_sending {input : Record} {pid now : String} {result : Store × Claim}
    (h : store.acquireClaim input pid now = some result) (hsend : result.2.shouldSend = true) :
    pageState result.2.record = some "sending" := by
  obtain ⟨durableWorker, durableDevice, -, -, rfl⟩ := Store.acquireClaim_eq_some h
  rcases Store.claimLatch_cases input pid now durableWorker
    (durableDevice.map (normalizeDeviceRecord (recordGpu input))) with
    ⟨c, hclaim, hno⟩ | ⟨current, -, -, -, -, hclaim⟩
  · rw [hclaim, hno] at hsend
    exact absurd hsend (by simp)
  · rw [hclaim]
    exact pageState_sending pid now

/-! ### Publications -/

namespace Publication

variable (p : Publication) (gpu : Gpu)

/-- The places that a publication writes, if it is about the GPU. -/
def writes : Place → Prop
  | .device => p.files = true ∧ isPhysical p.record = true
  | .deviceHash => p.gpuHash.isSome = true
  | .file path => p.files = true ∧ path = workerLatchPath p.worker
  | .hash worker => p.workerHash = true ∧ worker = p.worker

end Publication

theorem deviceScoped_complete (hgpu : gpu.named = true) (h : Complete gpu r) :
    deviceScoped r = isPhysical r ∧ recordGpu r = gpu := by
  have hrecord : recordGpu r = gpu := by
    simp [recordGpu, text, h.hostname, h.device]
  rw [deviceScoped, hrecord, hgpu, Bool.and_true]
  exact ⟨rfl, rfl⟩

/-- A publication of a complete record writes copies of it to its places and nothing elsewhere. -/
theorem copyAt_publish (store : Store) (hgpu : gpu.named = true) (h : Complete gpu p.record)
    (hhash : ∀ written, p.gpuHash = some written → written = gpu) (place : Place) :
    (¬p.writes place ∧ (store.publish p).copyAt gpu place = store.copyAt gpu place) ∨
      p.writes place ∧ ∃ r, (store.publish p).copyAt gpu place = some r ∧ SameCore r p.record ∧
        ∀ worker, place.ownedBy worker → workerLatchPath worker = workerLatchPath p.worker ∧
          r.get "worker_id" = some p.worker := by
  obtain ⟨hscoped, hrecord⟩ := deviceScoped_complete hgpu h
  cases place with
  | device =>
      rw [Store.copyAt, Store.gpuFiles_publish, hscoped, hrecord, Store.copyAt]
      by_cases hwrites : p.files = true ∧ isPhysical p.record = true
      · rw [if_pos ⟨hwrites.1, hwrites.2, rfl⟩]
        exact Or.inr ⟨hwrites, _, rfl, .refl _, fun _ howned => howned.elim⟩
      · rw [if_neg fun hboth => hwrites ⟨hboth.1, hboth.2.1⟩]
        exact Or.inl ⟨hwrites, rfl⟩
  | deviceHash =>
      rw [Store.copyAt, Store.copyAt]
      cases hp : p.gpuHash with
      | none =>
          refine Or.inl ⟨by simp [Publication.writes, hp], ?_⟩
          unfold Store.publish Store.hsetWorker
          rw [hp]
          split_ifs <;> simp [Store.hashes_writeDurable]
      | some written =>
          obtain rfl := hhash written hp
          refine Or.inr ⟨by simp [Publication.writes, hp], _, ?_, sameCore_update h
            (store.gpuHash written), fun _ howned => howned.elim⟩
          unfold Store.publish Store.hsetWorker Store.hsetGpu
          rw [hp]
          split_ifs <;> simp [Store.gpuHash, Store.hashes_writeDurable]
  | file path =>
      rw [Store.copyAt, Store.workerFiles_publish, Store.copyAt]
      by_cases hwrites : p.files = true ∧ path = workerLatchPath p.worker
      · rw [if_pos hwrites]
        exact Or.inr ⟨hwrites, _, rfl, sameCore_alias, fun worker howned =>
          ⟨howned.symm.trans hwrites.2, worker_alias⟩⟩
      · rw [if_neg hwrites]
        exact Or.inl ⟨hwrites, rfl⟩
  | hash worker =>
      rw [Store.copyAt, Store.workerHashes_publish, Store.copyAt]
      by_cases hwrites : p.workerHash = true ∧ worker = p.worker
      · rw [if_pos hwrites]
        refine Or.inr ⟨hwrites, _, rfl,
          (sameCore_update (sameCore_alias.symm.complete h) _).trans sameCore_alias,
          fun id howned => ?_⟩
        rw [Dict.get_update, worker_alias, Option.some_or, ← howned.symm.trans hwrites.2]
        exact ⟨rfl, rfl⟩
      · rw [if_neg hwrites]
        exact Or.inl ⟨hwrites, rfl⟩

end KernelGym.Quarantine
