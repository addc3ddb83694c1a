import KernelGym.PoolAdmission

/-! When payloads are dispatched. A payload leaves for a worker's executor thread in the block in which
`_get_idle_worker` hands that worker to `execute_task`, so the admission check and the dispatch are one
step. -/

namespace KernelGym.WorkerPool

open Library

def Action.dispatches : Action → Bool
  | .call (.checkout _) => true
  | _ => false

section Run

variable {p : Pool} {r : Reap}

/-- A worker is added by the registration of its replacement or by a recovery that is current. -/
theorem run_workers (m : Move) {w : Handle} (hw : w ∈ (m.run p r).pool.roster.workers) :
    w ∈ p.roster.workers ∨ (∃ g v, m = .register g v w ∧ p.registration g v = .added) ∨
      ∃ x e g, m = .settleProbe x e g (some w) ∧ p.recoveryCurrent g = true := by
  cases m with
  | contextFault x e =>
      cases h : p.contextFaultAnswer e <;> rw [Move.run, h] at hw <;> exact .inl hw
  | recycle x e => exact .inl (List.mem_of_mem_erase hw)
  | recycleFaulted x e g => exact .inl (List.mem_of_mem_erase hw)
  | recoverOnce x e =>
      revert hw
      simp only [Move.run]
      split_ifs <;> intro hw
      · exact .inl hw
      · exact .inl hw
      · exact .inl hw
      · cases hw
  | quarantineOld x e g =>
      revert hw
      simp only [Move.run, Move.endRecovery, Pool.quarantineOldWorkers]
      split <;> exact .inl
  | settleProbe x e g v =>
      revert hw
      simp only [Move.run]
      split
      · rename_i hcurrent
        cases v with
        | none => exact .inl
        | some v =>
            intro hw
            rcases List.mem_append.mp hw with hw | hw
            · exact .inl hw
            · obtain rfl := List.mem_singleton.mp hw
              exact .inr (.inr ⟨x, e, g, rfl, hcurrent⟩)
      · cases v <;> exact .inl
  | contain x e g | quarantine extra resume | shutdownSnapshot stopped => cases hw
  | register g v x =>
      cases h : p.registration g v with
      | stale | surplus =>
          rw [Move.run, h] at hw
          exact .inl hw
      | added =>
          rw [Move.run, h] at hw
          rcases List.mem_append.mp hw with hw | hw
          · exact .inl hw
          · obtain rfl := List.mem_singleton.mp hw
            exact .inr (.inl ⟨g, v, rfl, h⟩)
  | markFailed g v physical =>
      cases h : p.failure g physical <;> rw [Move.run, h] at hw
      · exact .inl hw
      · cases hw
      · exact .inl hw
      · exact .inl hw
  | _ => revert hw; simp only [Move.run]; (repeat' split) <;> exact .inl

/-- Only the start of a check gives the pool a speculative dispatch. -/
theorem run_speculative (m : Move) :
    (m.run p r).pool.admission.speculativeDispatchesRemaining ≤
        p.admission.speculativeDispatchesRemaining ∨
      p.admission.healthState = .healthy ∧
        (m.run p r).pool.admission.speculativeDispatchesRemaining = 1 := by
  cases m with
  | contextFault w e =>
      cases h : p.contextFaultAnswer e with
      | stale | refused =>
          rw [Move.run, h]
          exact .inl (Nat.le_refl _)
      | validating g =>
          rw [Move.run, h]
          exact .inr ⟨(Pool.contextFaultAnswer_validating h).2.2.1, rfl⟩
  | recoverOnce w e =>
      simp only [Move.run]
      split_ifs
      · exact .inl (Nat.le_refl _)
      · exact .inl (Nat.le_refl _)
      · exact .inl (Nat.le_refl _)
      · exact .inl (Nat.zero_le _)
  | quarantineOld w e g =>
      simp only [Move.run, Move.endRecovery, Pool.quarantineOldWorkers]
      split
      · exact .inl (Nat.zero_le _)
      · exact .inl (Nat.le_refl _)
  | settleProbe w e g v =>
      simp only [Move.run]
      split
      · cases v <;> exact .inl (Nat.zero_le _)
      · cases v <;> exact .inl (Nat.le_refl _)
  | contain w e g | quarantine extra resume => exact .inl (Nat.zero_le _)
  | register g v w =>
      cases h : p.registration g v <;> rw [Move.run, h]
      · exact .inl (Nat.le_refl _)
      · cases v
        · exact .inl (Nat.le_refl _)
        · exact .inl (Nat.zero_le _)
      · exact .inl (Nat.le_refl _)
  | markFailed g v physical =>
      cases h : p.failure g physical <;> rw [Move.run, h]
      · exact .inl (Nat.le_refl _)
      · exact .inl (Nat.zero_le _)
      · exact .inl (Nat.zero_le _)
      · exact .inl (Nat.le_refl _)
  | _ =>
      rw [run_admission p r _ rfl]
      exact .inl (Nat.le_refl _)

end Run

theorem finish_workers (r : Result) (activities : List Activity) :
    (r.finish activities).pool.roster.workers = r.pool.roster.workers := by
  rw [Result.finish_eq]
  split <;> rfl

/-! ### One step -/

variable {s t : Sys} {c : Action}

/-- The pool dispatches only while it serves and is not closing. -/
theorem dispatch_admitted (hstep : step s c = some t) (hc : c.dispatches = true) :
    s.pool.admission.closing = false ∧
      (s.pool.admission.healthState = .healthy ∨
        s.pool.admission.healthState = .degradedCheck ∧
          0 < s.pool.admission.speculativeDispatchesRemaining) := by
  cases c with
  | call c =>
      cases c with
      | checkout w =>
          have hready := (step_call hstep).1
          simp only [Call.ready, Bool.and_eq_true, Bool.not_eq_true', Pool.mayDispatch,
            Bool.or_eq_true, decide_eq_true_eq] at hready
          exact ⟨(Pool.admissionBlocked_eq_false hready.1.1.1.1).1, hready.1.2.2⟩
      | poll | reconcile | foundOrphan | shutdown => cases hc
  | move i m => cases hc
  | stopped i w proven => cases hc
  | dies w => cases hc

/-- No step adds a worker to a quarantined pool. -/
theorem quarantined_workers (hstep : step s c = some t)
    (hq : s.pool.admission.healthState = .quarantined) {w : Handle}
    (hw : w ∈ t.pool.roster.workers) : w ∈ s.pool.roster.workers := by
  cases c with
  | move i m =>
      obtain ⟨r, -, -, rfl⟩ := step_move hstep
      rw [finish_workers] at hw
      rcases run_workers m hw with hw | ⟨g, v, rfl, hadded⟩ | ⟨x, e, g, rfl, hcurrent⟩
      · exact hw
      · obtain ⟨-, -, hstate⟩ := Pool.registration_fresh (p := s.pool) (g := g) (v := v)
          (by rw [hadded]; decide)
        rw [hq] at hstate
        cases v <;> cases hstate
      · have hsuspect := (Pool.recoveryCurrent_iff.mp hcurrent).2.2
        rw [hq] at hsuspect
        cases hsuspect
  | call c =>
      obtain ⟨-, rfl⟩ := step_call hstep
      rw [finish_workers] at hw
      cases c with
      | checkout x | poll => exact hw
      | reconcile => exact List.mem_of_mem_filter hw
      | foundOrphan | shutdown => cases hw
  | stopped i x proven =>
      obtain ⟨a, -, -, rfl⟩ := step_stopped hstep
      exact hw
  | dies x =>
      obtain rfl := step_dies hstep
      exact hw

theorem finish_speculative (r : Result) (activities : List Activity) :
    (r.finish activities).pool.admission.speculativeDispatchesRemaining =
      r.pool.admission.speculativeDispatchesRemaining := by
  rw [finish_admission]

/-- During a check no step adds a speculative dispatch, and a dispatch uses one up. -/
theorem speculative_step (hstep : step s c = some t)
    (hcheck : s.pool.admission.healthState = .degradedCheck) :
    t.pool.admission.speculativeDispatchesRemaining + c.dispatches.toNat ≤
      s.pool.admission.speculativeDispatchesRemaining := by
  cases c with
  | move i m =>
      obtain ⟨r, -, -, rfl⟩ := step_move hstep
      rw [finish_speculative]
      rcases run_speculative (p := s.pool) (r := r) m with hle | ⟨hhealthy, -⟩
      · exact hle
      · rw [hcheck] at hhealthy
        cases hhealthy
  | call c =>
      obtain ⟨-, ht⟩ := step_call hstep
      cases c with
      | checkout w =>
          have hpos := (dispatch_admitted hstep rfl).2
          simp only [hcheck, reduceCtorEq, false_or, true_and] at hpos
          rw [ht, finish_speculative]
          simp only [Call.run, Pool.dispatch, hcheck, if_true, Action.dispatches,
            Bool.toNat_true]
          omega
      | poll | reconcile | shutdown =>
          rw [ht, finish_speculative]
          exact Nat.le_refl _
      | foundOrphan =>
          rw [ht, finish_speculative]
          exact Nat.zero_le _
  | stopped i w proven =>
      obtain ⟨a, -, -, rfl⟩ := step_stopped hstep
      exact Nat.le_refl _
  | dies w =>
      obtain rfl := step_dies hstep
      exact Nat.le_refl _

/-- There is never more than one speculative dispatch left. -/
theorem speculative_preserved :
    Preserved fun s => s.pool.admission.speculativeDispatchesRemaining ≤ 1 where
  move {s} _ m r h _ _ := by
    rcases run_speculative (p := s.pool) (r := r) m with hle | ⟨-, hone⟩
    · exact Nat.le_trans hle h
    · exact Nat.le_of_eq hone
  call {s} c h _ := by
    cases c with
    | checkout w =>
        refine Nat.le_trans ?_ h
        simp only [Result.base, Call.run, Pool.dispatch]
        split <;> omega
    | poll | reconcile | shutdown => exact h
    | foundOrphan => exact Nat.zero_le _
  topUp h := h
  stopped _ h _ _ := h
  dies _ h := h

/-! ### Runs -/

/-- The steps taken while the pool is in one check: each starts in that state. -/
def checking (s : Sys) (c : Action) : Option Sys :=
  if s.pool.admission.healthState = .degradedCheck then step s c else none

theorem dispatches_le_speculative {cs : List Action} (hrun : execute checking cs s = some t) :
    cs.countP Action.dispatches ≤ s.pool.admission.speculativeDispatchesRemaining := by
  induction cs generalizing s with
  | nil => exact Nat.zero_le _
  | cons c cs ih =>
      simp only [execute, Option.bind_eq_some_iff, checking,
        Option.ite_none_right_eq_some] at hrun
      obtain ⟨mid, ⟨hcheck, hstep⟩, hrest⟩ := hrun
      have hc := speculative_step hstep hcheck
      have hrest := ih hrest
      rw [List.countP_cons]
      cases hd : c.dispatches <;>
        simp only [hd, Bool.toNat_false, Bool.toNat_true, Bool.false_eq_true, if_true,
          if_false] at hc ⊢ <;> omega

theorem quarantine_persists {cs : List Action} (h : Admitted s) (hrun : execute step cs s = some t)
    (hq : s.pool.admission.healthState = .quarantined) :
    t.pool.admission.healthState = .quarantined ∧
      (∀ w ∈ t.pool.roster.workers, w ∈ s.pool.roster.workers) ∧
      ∀ c ∈ cs, c.dispatches = false := by
  induction cs generalizing s with
  | nil =>
      obtain rfl := Option.some.inj hrun
      exact ⟨hq, fun _ => id, fun _ hc => by cases hc⟩
  | cons c cs ih =>
      simp only [execute, Option.bind_eq_some_iff] at hrun
      obtain ⟨mid, hstep, hrest⟩ := hrun
      have hmid := (step_advances h hstep).quarantined hq
      obtain ⟨hend, hworkers, hnone⟩ := ih (Admitted.preserved.step h hstep) hrest hmid
      refine ⟨hend, fun w hw => quarantined_workers hstep hq (hworkers w hw), fun a ha => ?_⟩
      rcases List.mem_cons.mp ha with rfl | ha
      · cases hd : a.dispatches with
        | false => rfl
        | true =>
            have hserves := (dispatch_admitted hstep hd).2
            simp [hq] at hserves
      · exact hnone a ha

/-- **The admission state machine.** A quarantine is final: after it no payload is dispatched and no
worker is added. A payload is dispatched only while the pool is open and serves, and during one check
at most one. -/
theorem admission_state_machine {n : Nat} (hs : Reachable n s) :
    (s.pool.admission.healthState = .quarantined → ∀ cs t, execute step cs s = some t →
      t.pool.admission.healthState = .quarantined ∧
        (∀ w ∈ t.pool.roster.workers, w ∈ s.pool.roster.workers) ∧
        ∀ c ∈ cs, c.dispatches = false) ∧
    (∀ c t, step s c = some t → c.dispatches = true →
      s.pool.admission.closing = false ∧ (s.pool.admission.healthState = .healthy ∨
        s.pool.admission.healthState = .degradedCheck)) ∧
    ∀ cs t, execute checking cs s = some t → cs.countP Action.dispatches ≤ 1 := by
  refine ⟨fun hq cs t hrun => ?_, fun c t hstep hc => ?_, fun cs t hrun => ?_⟩
  · exact quarantine_persists (Admitted.reachable hs) hrun hq
  · obtain ⟨hopen, hhealthy | hcheck⟩ := dispatch_admitted hstep hc
    · exact ⟨hopen, .inl hhealthy⟩
    · exact ⟨hopen, .inr hcheck.1⟩
  · have hone := speculative_preserved.reachable (n := n) (Nat.zero_le _) hs
    exact Nat.le_trans (dispatches_le_speculative hrun) hone

/-- A pool of two whose first task met a context fault. -/
def degraded : Sys :=
  (execute step [.call (.checkout 0), .move 0 (.contextFault 0 0)] (init 2)).getD (init 2)

theorem degraded_reachable : Reachable 2 degraded := reachable_execute (by decide)

theorem admission_state_machine_degraded :
    degraded.pool.admission.healthState = .degradedCheck ∧
      ∀ cs t, execute checking cs degraded = some t → cs.countP Action.dispatches ≤ 1 :=
  ⟨by decide, (admission_state_machine degraded_reachable).2.2⟩

end KernelGym.WorkerPool
