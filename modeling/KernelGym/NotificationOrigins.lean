import KernelGym.NotificationCalls
import KernelGym.QuarantineCleared

/-! Where the record that an operation writes into latch files comes from: a device file, the latch file
of its worker, or a new event. -/

namespace KernelGym.Quarantine

open Library

variable {store : Store} {worker : WorkerId} {gpu : Gpu} {r d e : Record} {s t : State} {a : Action}

theorem isSent_pendingPage : isSent (pendingPage r) ↔ isSent r := by
  rw [isSent, isSent, pageState, pageState, pendingPage, Dict.get_setDefault, if_pos rfl]
  cases r.get "page_user_state" <;> simp

theorem isSent_normalizeDevice : isSent (normalizeDeviceRecord gpu r) ↔ isSent r := by
  rw [isSent, isSent, pageState, pageState, normalizeDeviceRecord, Dict.get_set_of_ne _ (by decide),
    Dict.get_set_of_ne _ (by decide), Dict.get_set_of_ne _ (by decide)]

theorem normalizeDevice_of_same (h : samePhysicalGpu gpu r = true) :
    SameEvent (normalizeDeviceRecord gpu r) r := fun key _ => get_normalizeDevice h key

/-- Records with the same event id and time are of the same generation, or both of a legacy one. -/
theorem generation_same_or_legacy {r' : Record} (hevent : text r "event_id" = text r' "event_id")
    (hcreated : text r "created_at" = text r' "created_at") :
    generation r = generation r' ∨ (generation r = .legacy (legacyIdentity r) ∧
      generation r' = .legacy (legacyIdentity r')) := by
  rw [generation, generation, hevent, hcreated]
  split_ifs
  · exact Or.inl rfl
  · exact Or.inl rfl
  · exact Or.inr ⟨rfl, rfl⟩

/-! ### Origins -/

/-- `r` continues the record `old`: it is of the same event, its page stays sent, and it becomes sent
only if the operation marks it so. -/
structure Continues (marked : Prop) (r old : Record) : Prop where
  event : SameEvent r old
  sent : isSent old → isSent r
  origin : isSent r → isSent old ∨ marked

/-- `r` continues the device file of the GPU. -/
def FromDevice (store : Store) (gpu : Gpu) (marked : Prop) (r : Record) : Prop :=
  gpu.named = true ∧ ∃ d, store.gpuFiles.get (deviceLatchPath gpu) = some d ∧
    Continues marked r (normalizeDeviceRecord gpu d)

/-- `r` continues the latch file of the worker. -/
def FromFile (store : Store) (worker : WorkerId) (marked : Prop) (r : Record) : Prop :=
  ∃ e, store.workerFiles.get (workerLatchPath worker) = some e ∧ Continues marked r e

/-- The operation marks the latch that it writes as sent. -/
def Action.marksSent : Action → Prop
  | .update _ _ _ _ outcome _ _ => outcome = .sent
  | .finish _ sent _ _ => sent = true
  | _ => False

/-- A device file is always preserved. -/
theorem noDeviceFile_of_not_preserved {existing : Option Record} {physicalScope : Bool}
    (h : store.existingDurableRecord worker gpu = .ok existing)
    (hkept : existing.filter (preserves worker gpu physicalScope) = none) : NoDeviceFile store gpu := by
  intro hgpu
  unfold Store.existingDurableRecord at h
  rw [if_pos hgpu] at h
  cases hfile : store.gpuFiles.get (deviceLatchPath gpu) with
  | none => rfl
  | some d =>
      rw [hfile, readJson] at h
      split_ifs at h
      · simp only [bind, Except.bind, pure, Except.pure, Except.ok.injEq] at h
        have hsame := samePhysicalGpu_normalizeDevice (r := d) hgpu
        rw [← h, Option.filter_some, if_pos (by simp [preserves, isPhysical_of_same hsame, hsame])]
          at hkept
        exact absurd hkept (by simp)
      · exact absurd h (by simp [bind, Except.bind])

/-- What `write_gpu_quarantine` writes into files. -/
theorem writing_origin {fault : Fault} {physicalScope : Bool} {eventId now : String}
    (hfiles : (store.writing worker gpu fault physicalScope eventId now).files = true) :
    let p := store.writing worker gpu fault physicalScope eventId now
    p.worker = worker ∧ (FromDevice store gpu False p.record ∨
      (NoDeviceFile store gpu ∧ FromFile store worker False p.record ∧
        (isPhysical p.record = true → gpu.named = true → samePhysicalGpu gpu p.record = true)) ∨
      (NoDeviceFile store gpu ∧ recordGpu p.record = gpu ∧
        (strip eventId ≠ "" → generation p.record = .event (strip eventId)))) := by
  cases hexisting : store.existingDurableRecord worker gpu with
  | error error => simp [Store.writing, hexisting] at hfiles
  | ok existing =>
      rw [Store.writing_ok fault physicalScope eventId now hexisting]
      refine ⟨rfl, ?_⟩
      change FromDevice store gpu False (pendingPage _) ∨ (NoDeviceFile store gpu ∧
        FromFile store worker False (pendingPage _) ∧ (isPhysical (pendingPage _) = true →
          gpu.named = true → samePhysicalGpu gpu (pendingPage _) = true)) ∨ (NoDeviceFile store gpu ∧
            recordGpu (pendingPage _) = gpu ∧
            (strip eventId ≠ "" → generation (pendingPage _) = .event (strip eventId)))
      cases hkept : existing.filter (preserves worker gpu physicalScope) with
      | none =>
          rw [Option.getD_none]
          refine Or.inr (Or.inr ⟨noDeviceFile_of_not_preserved hexisting hkept, ?_,
            new_generation worker gpu fault physicalScope now⟩)
          rw [(sameEvent_pendingPage _).recordGpu]
          rfl
      | some old =>
          obtain ⟨hold, hpreserved⟩ := Option.filter_eq_some_iff.mp hkept
          rw [hold] at hexisting
          rw [Option.getD_some]
          have hcontinues : Continues False (pendingPage old) old :=
            ⟨sameEvent_pendingPage old, isSent_pendingPage.mpr,
              fun hsent => Or.inl (isSent_pendingPage.mp hsent)⟩
          rcases existingDurableRecord_cases hexisting with ⟨hgpu, d, hd, hrd⟩ | ⟨hnone, hfile⟩
          · left
            refine ⟨hgpu, d, hd, ?_⟩
            rw [← hrd]
            exact hcontinues
          · refine Or.inr (Or.inl ⟨hnone, ⟨old, hfile, hcontinues⟩, fun hphysical hgpu => ?_⟩)
            rw [hcontinues.event.physical] at hphysical
            rw [hcontinues.event.samePhysicalGpu]
            have hscope : old.get "scope" = some "physical_gpu" := of_decide_eq_true hphysical
            simpa [preserves, hphysical, hgpu, hscope] using hpreserved

theorem continues_delivered {outcome : PageOutcome} {error now : String}
    (h : pageState r ≠ some "sent" ∨ outcome = .sent) :
    Continues (outcome = .sent) (delivered outcome error now r) r := by
  refine ⟨sameEvent_delivered outcome error now, fun hsent => ?_, fun hsent => Or.inr ?_⟩
  · rcases h with hunsent | rfl
    · exact absurd hsent hunsent
    · exact pageState_delivered .sent error now
  · rw [isSent, pageState_delivered] at hsent
    cases outcome <;> first | rfl | exact absurd hsent (by decide)

/-- What an update of the notification state writes. -/
theorem updatedRecord_origin {scope : Scope} {expected : Generation} {outcome : PageOutcome}
    {error now : String} (h : store.updatedRecord worker gpu scope expected outcome error now = some r) :
    r.get "scope" = some scope.text ∧ generation r = expected ∧
      (outcome = .sent → isSent r) ∧
      ((isPhysical r = true ∧ FromDevice store gpu (outcome = .sent) r) ∨
        (isPhysical r = true ∧ NoDeviceFile store gpu ∧ FromFile store worker (outcome = .sent) r) ∨
        (isPhysical r = false ∧ FromFile store worker (outcome = .sent) r)) := by
  unfold Store.updatedRecord at h
  split at h
  · rename_i old hold
    rw [Option.ite_none_right_eq_some] at h
    obtain ⟨⟨hscope, hgen⟩, h⟩ := h
    rw [Option.some.injEq] at h
    have hcontinues : Continues (outcome = .sent) r old := by
      rw [← h]
      split_ifs with hcase
      · exact continues_delivered hcase
      · exact ⟨SameEvent.refl old, id, Or.inl⟩
    have hmarked : outcome = .sent → isSent r := by
      intro hsent
      rw [← h, if_pos (Or.inr hsent), hsent]
      exact pageState_delivered .sent error now
    refine ⟨(hcontinues.event "scope" (by decide)).trans hscope, hcontinues.event.generation.trans hgen,
      hmarked, ?_⟩
    have hrscope : isPhysical r = isPhysical old := hcontinues.event.physical
    cases scope with
    | workerProcess =>
        refine Or.inr (Or.inr ⟨?_, old, (readJson_ok_iff.mp hold).1.symm, hcontinues⟩)
        rw [hrscope, isPhysical, hscope]
        decide
    | physicalGpu =>
        have hphysical : isPhysical r = true := by
          rw [hrscope, isPhysical, hscope]
          decide
        rcases existingDurableRecord_cases hold with ⟨hgpu, d, hd, hrd⟩ | ⟨hnone, hfile⟩
        · refine Or.inl ⟨hphysical, hgpu, d, hd, ?_⟩
          rw [← hrd]
          exact hcontinues
        · exact Or.inr (Or.inl ⟨hphysical, hnone, old, hfile, hcontinues⟩)
  · exact absurd h (by simp)

/-- What a claim that sends marks as being sent, and where it comes from. -/
theorem acquireClaim_origin {input : Record} {pid now : String} {result : Store × Claim}
    (h : store.acquireClaim input pid now = some result)
    (hscope : claimableScope input = true) (hsend : result.2.shouldSend = true) :
    result.2.workerId = text input "worker_id" ∧
      generation result.2.record = generation input ∧
      pageState result.2.record = some "sending" ∧
      ((∃ d, store.gpuFiles.get (deviceLatchPath (recordGpu input)) = some d ∧ ¬isSent d ∧
          SameEvent result.2.record (normalizeDeviceRecord (recordGpu input) d)) ∨
        (store.gpuFiles.get (deviceLatchPath (recordGpu input)) = none ∧
          ∃ e, store.workerFiles.get (workerLatchPath (text input "worker_id")) = some e ∧ ¬isSent e ∧
            e.get "scope" = some "worker_process" ∧ SameEvent result.2.record e)) := by
  obtain ⟨durableWorker, durableDevice, hworker, hdevice, rfl⟩ := Store.acquireClaim_eq_some h
  rcases Store.claimLatch_cases input pid now durableWorker
    (durableDevice.map (normalizeDeviceRecord (recordGpu input))) with
    ⟨c, hclaim, hno⟩ | ⟨current, hcurrent, hstale, hgen, hunsent, hclaim⟩
  · rw [hclaim, hno] at hsend
    exact absurd hsend (by simp)
  · rw [hclaim]
    have hevent := sameEvent_sending (r := current) pid now
    refine ⟨rfl, hevent.generation.trans hgen, pageState_sending pid now, ?_⟩
    unfold claimedLatch at hcurrent
    split_ifs at hcurrent with hphysical
    · obtain ⟨d, rfl, rfl⟩ := Option.map_eq_some_iff.mp hcurrent
      exact Or.inl ⟨d, (readJson_ok_iff.mp hdevice).1.symm,
        fun hsent => hunsent (isSent_normalizeDevice.mpr hsent), hevent⟩
    · obtain ⟨hfile, hsame⟩ := Option.filter_eq_some_iff.mp hcurrent
      have hnone : durableDevice = none := by
        simpa using hstale.resolve_left hphysical
      have hinput : input.get "scope" = some "worker_process" := by
        simpa [claimableScope, hphysical] using hscope
      refine Or.inr ⟨?_, current, ?_, hunsent, ?_, hevent⟩
      · rw [hnone] at hdevice
        exact (readJson_ok_iff.mp hdevice).1.symm
      · rw [hfile] at hworker
        exact (readJson_ok_iff.mp hworker).1.symm
      · rw [of_decide_eq_true hsame, hinput]

/-! ### Steps -/

/-- What a step keeps of a latch: it is durable only if it was, and a page that was sent stays so. -/
structure Follows (l : Latch) (s : State) (a : Action) (t : State) : Prop where
  durable : l.Durable t.store → l.Durable s.store
  sent : l.Sent s.store → l.Durable t.store → l.Sent t.store
  origin : l.Sent t.store → l.Sent s.store ∨
    a.marksSent ∧ ∃ p, s.publication a = some p ∧ generation p.record = l.generation

/-- A worker file that a clear leaves was there before, and holds no physical latch of the GPU. -/
theorem workerFile_of_clear {seen : List WorkerId} {path : WorkerPath}
    (h : (store.clear worker gpu seen).workerFiles.get path = some r) :
    store.workerFiles.get path = some r ∧ path ≠ workerLatchPath worker ∧
      (gpu.named = true → clearsFile gpu r = false) := by
  rw [workerFiles_clear, Option.ite_none_left_eq_some] at h
  obtain ⟨hpath, h⟩ := h
  obtain ⟨hold, hkept⟩ := Option.filter_eq_some_iff.mp h
  refine ⟨hold, hpath, fun hgpu => ?_⟩
  simpa [hgpu] using hkept

/-- The claim that a call leaves in its lock is the one that it made, over the store that it leaves. -/
theorem claim_result {input : Record} {pid now : String} {c : Claim}
    (h : step s (.claim input pid now) = some t)
    (hc : t.held (deviceLatchPath (recordGpu input)) = some c) :
    s.store.acquireClaim input pid now = some (t.store, c) := by
  obtain ⟨-, result, hresult, rfl⟩ := step_claim.mp h
  dsimp only at hc
  rw [Function.update_self, Option.some.injEq] at hc
  rw [hresult, ← hc]

theorem claim_published {input : Record} {pid now : String} {c : Claim}
    (h : step s (.claim input pid now) = some t)
    (hc : t.held (deviceLatchPath (recordGpu input)) = some c) (hsend : c.shouldSend = true) :
    t.store = s.store.publish { worker := c.workerId, record := c.record } := by
  have hresult := claim_result h hc
  refine (Store.acquireClaim_eq hresult).trans ?_
  rw [Store.claiming, hresult, Option.bind_some, if_pos hsend]
  rfl

/-- A claim that may still send is new, or was held before the step, which has not completed it. -/
theorem held_step {path : GpuPath} {c : Claim} (h : step s a = some t)
    (hc : t.held path = some c) (hactive : c.active) :
    (∃ input pid now, a = .claim input pid now ∧ path = deviceLatchPath (recordGpu input)) ∨
      (s.held path = some c ∧ ∀ sent error now, a ≠ .finish path sent error now) := by
  cases a with
  | claim input pid now =>
      obtain ⟨-, result, -, rfl⟩ := step_claim.mp h
      by_cases hpath : path = deviceLatchPath (recordGpu input)
      · exact Or.inl ⟨input, pid, now, rfl, hpath⟩
      · change Function.update s.held _ _ path = some c at hc
        rw [Function.update_of_ne hpath] at hc
        exact Or.inr ⟨hc, fun _ _ _ => by simp⟩
  | finish path' sent error now =>
      obtain ⟨c', -, -, rfl⟩ := step_finish.mp h
      dsimp only at hc
      by_cases hpath : path = path'
      · rw [hpath, Function.update_self, Option.some.injEq] at hc
        rw [← hc] at hactive
        exact absurd hactive.2 (by simp)
      · rw [Function.update_of_ne hpath] at hc
        refine Or.inr ⟨hc, fun _ _ _ heq => hpath ?_⟩
        injection heq with heq
        exact heq.symm
  | release path' =>
      obtain ⟨c', -, rfl⟩ := step_release.mp h
      dsimp only at hc
      by_cases hpath : path = path'
      · rw [hpath, Function.update_self] at hc
        exact absurd hc (by simp)
      · rw [Function.update_of_ne hpath] at hc
        exact Or.inr ⟨hc, fun _ _ _ => by simp⟩
  | read worker gpu =>
      obtain ⟨-, rfl⟩ := step_read.mp h
      exact Or.inr ⟨hc, fun _ _ _ => by simp⟩
  | write worker gpu fault physicalScope eventId now =>
      obtain ⟨-, rfl⟩ := step_write.mp h
      exact Or.inr ⟨hc, fun _ _ _ => by simp⟩
  | update worker gpu scope expected outcome error now =>
      obtain ⟨-, rfl⟩ := step_update.mp h
      exact Or.inr ⟨hc, fun _ _ _ => by simp⟩
  | clear worker gpu seen =>
      obtain ⟨-, rfl⟩ := step_clear.mp h
      exact Or.inr ⟨hc, fun _ _ _ => by simp⟩

end KernelGym.Quarantine
