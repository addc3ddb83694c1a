import KernelGym.PoolOwnership

/-! Hard recoveries and the epoch of the fault that each of them answers. A recovery moves the hard epoch
on when it gates the pool; the recovery lock keeps it there until the recovery has ended, unless the
pool is quarantined in between. -/

namespace KernelGym.WorkerPool

open Library

/-- The hard epoch in which the worker of the task was checked out. -/
def Stage.epoch : Stage → Option Nat
  | .executing _ e | .faulted _ e _ | .recycling _ e _ _ | .recycled _ e _ _ _ | .toppingUp _ e
  | .reporting _ e | .admitted _ e | .retiring _ e _ | .unreapedOld _ e _ | .draining _ e _
  | .drained _ e _ | .probing _ e _ | .probed _ e _ _ | .staleProbe _ e _ _ | .unsafeRecovery _ e _
  | .failing _ e _ | .containing _ e _ | .recovered _ e | .awaitingShutdown _ e
  | .returning _ e _ => some e
  | .unreaped _ resume | .quarantining resume => resume.epoch
  | _ => none

def Pool.quarantined (p : Pool) : Prop := p.admission.healthState = .quarantined

/-- How the pool stands to a recovery that holds the recovery lock. -/
def Stage.Recovers (p : Pool) : Stage → Prop
  | .admitted _ e => e = p.admission.hardRecoveryEpoch ∨ p.quarantined
  | .retiring _ e g | .unreapedOld _ e g | .draining _ e g | .drained _ e g =>
    (e + 1 = p.admission.hardRecoveryEpoch ∧ e ∉ p.probes ∨ p.quarantined) ∧
      (g = p.admission.poolGeneration ∨ p.quarantined ∨ p.admission.closing = true)
  | .probing _ e _ | .probed _ e _ _ | .staleProbe _ e _ _ | .unsafeRecovery _ e _ | .failing _ e _
  | .recovered _ e => e + 1 = p.admission.hardRecoveryEpoch ∨ p.quarantined
  | .containing _ _ _ => p.quarantined
  | .awaitingShutdown _ _ => p.admission.closing = true
  | .unreaped _ resume | .quarantining resume => resume.Recovers p
  | _ => True

/-- The stages at which an unsafe reason has been recorded. -/
def Stage.alarmed : Stage → Bool
  | .unreapedOld _ _ _ | .unsafeRecovery _ _ _ | .quarantining _ => true
  | _ => false

/-- An old worker was not proven reaped, and the pool is not quarantined for it yet. -/
def Stage.findsOld : Stage → Bool
  | .unreapedOld _ _ _ => true
  | _ => false

theorem epoch_unreapedEach (ws : List Handle) (last : Stage) :
    (unreapedEach ws last).epoch = last.epoch := by
  induction ws with
  | nil => rfl
  | cons w ws ih => exact ih

theorem recovers_unreapedEach {p : Pool} (ws : List Handle) {last : Stage} (h : last.Recovers p) :
    (unreapedEach ws last).Recovers p := by
  induction ws with
  | nil => exact h
  | cons w ws ih => exact ih

/-- Who does not hold the recovery lock relies on nothing. -/
theorem Stage.Recovers.of_unlocked {p : Pool} {stage : Stage} (h : stage.locks = false) :
    stage.Recovers p := by
  induction stage with
  | unreaped extra resume ih => exact ih h
  | quarantining resume ih => exact ih h
  | _ => trivial

/-- What a recovery relies on survives whatever leaves its epoch, its generation and the history of
probes alone, or quarantines the pool. -/
theorem Stage.Recovers.mono {p p' : Pool} {stage : Stage} (h : stage.Recovers p)
    (hadvances : p.admission.Advances p'.admission)
    (hepoch : p'.admission.hardRecoveryEpoch = p.admission.hardRecoveryEpoch ∨ p'.quarantined)
    (hprobes : p'.probes = p.probes)
    (hgen : ∀ g, stage.gates = some g → g = p.admission.poolGeneration →
      g = p'.admission.poolGeneration ∨ p'.quarantined ∨ p'.admission.closing = true) :
    stage.Recovers p' := by
  have hkeep : ∀ e, e = p.admission.hardRecoveryEpoch ∨ p.quarantined →
      e = p'.admission.hardRecoveryEpoch ∨ p'.quarantined := by
    intro e he
    rcases he with he | hq
    · rcases hepoch with hsame | hq
      · exact .inl (he.trans hsame.symm)
      · exact .inr hq
    · exact .inr (hadvances.quarantined hq)
  induction stage with
  | admitted w e => exact hkeep e h
  | retiring w e g | unreapedOld w e g | draining w e g | drained w e g =>
      obtain ⟨hopen, hcurrent⟩ := h
      constructor
      · rcases hopen with ⟨he, hfresh⟩ | hq
        · rcases hkeep (e + 1) (.inl he) with he | hq
          · rw [hprobes]
            exact .inl ⟨he, hfresh⟩
          · exact .inr hq
        · exact .inr (hadvances.quarantined hq)
      · rcases hcurrent with hg | hq | hclosing
        · exact hgen g rfl hg
        · exact .inr (.inl (hadvances.quarantined hq))
        · exact .inr (.inr (hadvances.closing hclosing))
  | probing w e g | unsafeRecovery w e g | failing w e g => exact hkeep (e + 1) h
  | probed w e g v | staleProbe w e g v => exact hkeep (e + 1) h
  | recovered w e => exact hkeep (e + 1) h
  | containing w e g => exact hadvances.quarantined h
  | awaitingShutdown w e => exact hadvances.closing h
  | unreaped extra resume ih => exact ih h hgen
  | quarantining resume ih => exact ih h hgen
  | _ => trivial

/-! ### One block -/

section Run

variable {p : Pool} {r : Reap}

/-- A task keeps the epoch of its checkout. -/
theorem run_epoch (m : Move) {e : Nat} (h : (m.run p r).activity.stage.epoch = some e) :
    m.source.epoch = some e := by
  cases m with
  | reapFailure g =>
      rw [Move.run, epoch_unreapedEach] at h
      cases h
  | contextFault w e' => cases hanswer : p.contextFaultAnswer e' <;> rw [Move.run, hanswer] at h <;> exact h
  | settleProbe w e' g v =>
      revert h
      cases v <;> simp only [Move.run] <;> split <;> exact id
  | markFailed g v physical =>
      cases hdecision : p.failure g physical <;> rw [Move.run, hdecision] at h <;> cases h
  | _ =>
      revert h
      simp only [Move.run]
      (repeat' split) <;> intro h <;> first | exact h | cases h

/-- Without the recovery lock the hard epoch moves only into quarantine, and the history of probes not
at all. -/
theorem run_unlocked (m : Move) (hfree : m.source.locks = false) :
    ((m.run p r).pool.admission.hardRecoveryEpoch = p.admission.hardRecoveryEpoch ∨
        (m.run p r).pool.quarantined) ∧
      (m.run p r).pool.probes = p.probes := by
  cases m with
  | contextFault w e =>
      cases h : p.contextFaultAnswer e <;> rw [Move.run, h] <;> exact ⟨.inl rfl, rfl⟩
  | quarantine extra resume => exact ⟨.inr rfl, rfl⟩
  | register g v w =>
      cases h : p.registration g v <;> rw [Move.run, h] <;> cases v <;> exact ⟨.inl rfl, rfl⟩
  | markFailed g v physical =>
      cases h : p.failure g physical <;> rw [Move.run, h] <;> exact ⟨.inl rfl, rfl⟩
  | recoverOnce | retire | quarantineOld | drain | drainTimeout | drainError | startProbe
  | probeReady | probeFailed | settleProbe | reapStaleProbe | raiseUnsafe | contain
  | raiseContained | reportContained | recheck | shutdownProof => cases hfree
  | _ =>
      first
      | exact ⟨.inl rfl, rfl⟩
      | (simp only [Move.run]; (repeat' split) <;> exact ⟨.inl rfl, rfl⟩)

/-- While the pool is suspended, only a quarantine and the holder of the recovery lock move the
generation. -/
theorem run_generation (m : Move) (hfree : m.source.locks = false)
    (hsuspect : p.admission.healthState = .suspect)
    (hreplenish : ∀ g, m.source.replenishes = some g → g = p.admission.poolGeneration →
      p.admission.healthState.serves) :
    (m.run p r).pool.admission.poolGeneration = p.admission.poolGeneration ∨
      (m.run p r).pool.quarantined := by
  by_cases hquiet : m.admits = false
  · rw [run_admission p r m hquiet]
    exact .inl rfl
  cases m with
  | contextFault w e =>
      cases h : p.contextFaultAnswer e with
      | stale | refused =>
          rw [Move.run, h]
          exact .inl rfl
      | validating g =>
          obtain ⟨-, -, hhealthy, -⟩ := Pool.contextFaultAnswer_validating h
          rw [hsuspect] at hhealthy
          cases hhealthy
  | quarantine extra resume => exact .inr rfl
  | register g v w =>
      cases h : p.registration g v <;> rw [Move.run, h] <;> cases v <;> exact .inl rfl
  | markFailed g v physical =>
      cases h : p.failure g physical with
      | stale | retry =>
          rw [Move.run, h]
          exact .inl rfl
      | quarantine =>
          rw [Move.run, h]
          exact .inr rfl
      | exhausted =>
          have hfresh : p.failure g physical ≠ .stale := by
            rw [h]
            decide
          have hserves := hreplenish g rfl (Pool.failure_fresh hfresh).2
          simp [HealthState.serves, hsuspect] at hserves
  | recoverOnce | quarantineOld | settleProbe | contain => cases hfree
  | _ => exact absurd rfl hquiet

/-- A recovery goes on in the epoch that it has opened. -/
theorem run_recovers (m : Move) (h : m.source.Recovers p)
    (hadvances : p.admission.Advances (m.run p r).pool.admission)
    (hseen : ∀ e ∈ p.probes, e < p.admission.hardRecoveryEpoch) :
    (m.run p r).activity.stage.Recovers (m.run p r).pool := by
  cases m with
  | enterRecovery w e =>
      simp only [Move.run]
      split_ifs with hclosing hq hwarned hepoch
      · exact hclosing
      · trivial
      · trivial
      · trivial
      · exact .inl (not_not.mp hepoch)
  | recoverOnce w e =>
      simp only [Move.run]
      split_ifs with hclosing hq hwarned
      · exact hclosing
      · trivial
      · exact .inr hq
      · have he : e = p.admission.hardRecoveryEpoch := h.resolve_right hq
        refine ⟨.inl ⟨congrArg (· + 1) he, fun hmem => ?_⟩, .inl rfl⟩
        exact Nat.lt_irrefl _ (he ▸ hseen e hmem)
  | retire w e g =>
      simp only [Move.run]
      split <;> exact h
  | drain w e g => exact h
  | drainTimeout w e g | drainError w e g =>
      rcases h.1 with ⟨he, -⟩ | hq
      · exact .inl he
      · exact .inr hq
  | startProbe w e g =>
      have hopen : e + 1 = p.admission.hardRecoveryEpoch ∨ p.quarantined := by
        rcases h.1 with ⟨he, -⟩ | hq
        · exact .inl he
        · exact .inr hq
      simp only [Move.run]
      split_ifs
      · exact hopen
      · trivial
      · exact hopen
  | probeReady w e g => exact h
  | probeFailed w e g reaped => cases reaped <;> exact h
  | settleProbe w e g v =>
      simp only [Move.run]
      split
      · rename_i hcurrent
        have hsuspect := (Pool.recoveryCurrent_iff.mp hcurrent).2.2
        have he : e + 1 = p.admission.hardRecoveryEpoch := by
          refine h.resolve_right fun hq => ?_
          rw [Pool.quarantined, hsuspect] at hq
          cases hq
        cases v <;> exact .inl he
      · cases v <;> exact h
  | reapStaleProbe w e g v => simp only [Move.run]; split <;> exact h
  | contain w e g => exact rfl
  | recheck w e =>
      simp only [Move.run]
      split_ifs with hwarned hclosing
      · trivial
      · exact hclosing
      · trivial
  | quarantine extra resume =>
      refine Stage.Recovers.mono h hadvances (.inr rfl) rfl fun _ _ _ => .inr (.inl rfl)
  | endQuarantine resume => exact Stage.Recovers.mono h hadvances (.inl rfl) rfl fun _ _ => .inl
  | contextFault w e => cases hanswer : p.contextFaultAnswer e <;> rw [Move.run, hanswer] <;> trivial
  | reapFailure g => exact recovers_unreapedEach _ trivial
  | markFailed g v physical =>
      cases hdecision : p.failure g physical <;> rw [Move.run, hdecision] <;> trivial
  | _ => simp only [Move.run]; (repeat' split) <;> trivial

/-- A probe is started by the recovery of the epoch that was open before. -/
theorem run_probes (m : Move) (h : m.source.Recovers p) :
    (m.run p r).pool.probes = p.probes ∨ ∃ w e g, m = .startProbe w e g ∧
      e + 1 = p.admission.hardRecoveryEpoch ∧ e ∉ p.probes ∧
        (m.run p r).pool.probes = e :: p.probes := by
  cases m with
  | startProbe w e g =>
      simp only [Move.run]
      split_ifs with hcurrent
      · have hsuspect := (Pool.recoveryCurrent_iff.mp hcurrent).2.2
        rcases h.1 with ⟨he, hfresh⟩ | hq
        · exact .inr ⟨w, e, g, rfl, he, hfresh, rfl⟩
        · rw [Pool.quarantined, hsuspect] at hq
          cases hq
      · exact .inl rfl
      · exact .inl rfl
  | contextFault w e => cases h : p.contextFaultAnswer e <;> rw [Move.run, h] <;> exact .inl rfl
  | quarantineOld w e g =>
      simp only [Move.run, Move.endRecovery, Pool.quarantineOldWorkers]
      split <;> exact .inl rfl
  | settleProbe w e g v => cases v <;> simp only [Move.run] <;> split <;> exact .inl rfl
  | register g v w => cases h : p.registration g v <;> rw [Move.run, h] <;> exact .inl rfl
  | markFailed g v physical => cases h : p.failure g physical <;> rw [Move.run, h] <;> exact .inl rfl
  | _ =>
      simp only [Move.run]
      (repeat' split) <;> first | exact .inl rfl | exact .inl trivial

/-- An unsafe reason is never withdrawn, and is written in quarantine, at the end of the shutdown, or by
a recovery that will see to the quarantine. -/
theorem run_unsafe (m : Move) (hrecovers : m.source.Recovers p) (hattached : m.source.Attached p) :
    (p.unsafeShutdown = true → (m.run p r).pool.unsafeShutdown = true) ∧
      ((m.run p r).pool.unsafeShutdown = true → p.unsafeShutdown = true ∨
        (m.run p r).pool.quarantined ∨ (m.run p r).pool.admission.closing = true ∨
          (m.run p r).activity.stage.findsOld = true) := by
  cases m with
  | contextFault w e =>
      cases h : p.contextFaultAnswer e <;> rw [Move.run, h] <;> exact ⟨id, .inl⟩
  | retire w e g =>
      simp only [Move.run]
      split
      · exact ⟨id, .inl⟩
      · exact ⟨fun _ => rfl, fun _ => .inr (.inr (.inr rfl))⟩
  | quarantineOld w e g =>
      simp only [Move.run, Move.endRecovery, Pool.quarantineOldWorkers]
      split <;> exact ⟨id, .inl⟩
  | raiseContained w e g | reportContained w e g =>
      refine ⟨fun h => ?_, fun _ => .inr (.inl hrecovers)⟩
      exact Bool.or_eq_true_iff.mpr (.inl h)
  | settleProbe w e g v => cases v <;> simp only [Move.run] <;> split <;> exact ⟨id, .inl⟩
  | register g v w => cases h : p.registration g v <;> rw [Move.run, h] <;> exact ⟨id, .inl⟩
  | markFailed g v physical => cases h : p.failure g physical <;> rw [Move.run, h] <;> exact ⟨id, .inl⟩
  | quarantine extra resume => exact ⟨fun _ => rfl, fun _ => .inr (.inl rfl)⟩
  | shutdownEnd stopped =>
      refine ⟨fun h => ?_, fun _ => .inr (.inr (.inl hattached))⟩
      change (p.unsafeShutdown || !stopped || !r.results.all Prod.snd) = true
      rw [h]
      rfl
  | _ => simp only [Move.run]; (repeat' split) <;> exact ⟨id, .inl⟩

/-- A recovery that leaves the finding of an old worker behind has quarantined the pool. -/
theorem run_findsOld (m : Move) (h : m.source.Recovers p) (hfinds : m.source.findsOld = true) :
    (m.run p r).pool.quarantined ∨ (m.run p r).pool.admission.closing = true := by
  cases m with
  | quarantineOld w e g =>
      simp only [Move.run, Move.endRecovery, Pool.quarantineOldWorkers]
      split_ifs with hcurrent
      · exact .inl rfl
      · rcases h.2 with hg | hq | hclosing
        · cases hclosing : p.admission.closing with
          | true => exact .inr hclosing
          | false => exact absurd ⟨hg, hclosing⟩ hcurrent
        · exact .inl hq
        · exact .inr hclosing
  | _ => cases hfinds

theorem run_alarmed (m : Move) (h : (m.run p r).activity.stage.alarmed = true)
    (hold : m.source.alarmed = true → p.unsafeShutdown = true) :
    (m.run p r).pool.unsafeShutdown = true := by
  cases m with
  | retire w e g =>
      revert h
      simp only [Move.run]
      split
      · exact fun h => Bool.noConfusion h
      · exact fun _ => rfl
  | quarantine extra resume => rfl
  | endQuarantine resume => exact hold rfl
  | contextFault w e => cases hanswer : p.contextFaultAnswer e <;> rw [Move.run, hanswer] at h <;> cases h
  | settleProbe w e g v =>
      revert h
      cases v <;> simp only [Move.run] <;> split <;> exact fun h => Bool.noConfusion h
  | markFailed g v physical =>
      cases hdecision : p.failure g physical <;> rw [Move.run, hdecision] at h <;> cases h
  | reapFailure g =>
      revert h
      cases hunproven : r.unproven <;> simp only [Move.run, hunproven] <;>
        exact fun h => Bool.noConfusion h
  | _ =>
      revert h
      simp only [Move.run]
      (repeat' split) <;> exact fun h => Bool.noConfusion h

end Run

/-! ### The invariant -/

structure Epochal (s : Sys) : Prop where
  accounted : Accounted s
  nodup : s.pool.probes.Nodup
  seen : ∀ e ∈ s.pool.probes, e < s.pool.admission.hardRecoveryEpoch
  epochs : ∀ a ∈ s.activities, ∀ e, a.stage.epoch = some e →
    e ≤ s.pool.admission.hardRecoveryEpoch
  recovers : ∀ a ∈ s.activities, a.stage.Recovers s.pool
  alarmed : ∀ a ∈ s.activities, a.stage.alarmed = true → s.pool.unsafeShutdown = true
  unsafeReason : s.pool.unsafeShutdown = true → s.pool.quarantined ∨
    s.pool.admission.closing = true ∨ ∃ a ∈ s.activities, a.stage.findsOld = true
  answered : s.pool.shutdownTask = .finished false → s.pool.unsafeShutdown = true

theorem epochal_init (n : Nat) : Epochal (init n) where
  accounted := ⟨admitted_init n, structured_init n, bounded_init n⟩
  nodup := List.nodup_nil
  seen e he := by cases he
  epochs a ha := by cases ha
  recovers a ha := by cases ha
  alarmed a ha := by cases ha
  unsafeReason h := by cases h
  answered h := by cases h

/-- What a recovery relies on does not depend on the rest of the pool. -/
theorem Stage.Recovers.of_same {p p' : Pool} {stage : Stage} (h : stage.Recovers p)
    (hadmission : p'.admission = p.admission) (hprobes : p'.probes = p.probes) :
    stage.Recovers p' := by
  refine h.mono ?_ (.inl ?_) hprobes fun g _ hg => .inl ?_
  · rw [hadmission]
    exact .refl _
  · rw [hadmission]
  · rw [hadmission]
    exact hg

/-- How the shutdown may end. -/
theorem run_answered (p : Pool) (r : Reap) (m : Move)
    (hold : p.shutdownTask = .finished false → p.unsafeShutdown = true)
    (hkeeps : p.unsafeShutdown = true → (m.run p r).pool.unsafeShutdown = true)
    (h : (m.run p r).pool.shutdownTask = .finished false) :
    (m.run p r).pool.unsafeShutdown = true := by
  cases m with
  | shutdownEnd stopped =>
      simp only [Move.run, Pool.endShutdown, ShutdownTask.finished.injEq] at h
      change (p.unsafeShutdown || !stopped || !r.results.all Prod.snd) = true
      cases stopped <;> cases hall : r.results.all Prod.snd <;> cases hwarned : p.unsafeShutdown <;>
        simp_all
  | contextFault w e =>
      refine hkeeps (hold ?_)
      cases hanswer : p.contextFaultAnswer e <;> rw [Move.run, hanswer] at h <;> exact h
  | quarantineOld w e g =>
      refine hkeeps (hold ?_)
      revert h
      simp only [Move.run, Move.endRecovery, Pool.quarantineOldWorkers]
      split <;> exact id
  | settleProbe w e g v =>
      refine hkeeps (hold ?_)
      revert h
      cases v <;> simp only [Move.run] <;> split <;> exact id
  | register g v w =>
      refine hkeeps (hold ?_)
      cases hdecision : p.registration g v <;> rw [Move.run, hdecision] at h <;> exact h
  | markFailed g v physical =>
      refine hkeeps (hold ?_)
      cases hdecision : p.failure g physical <;> rw [Move.run, hdecision] at h <;> exact h
  | _ =>
      refine hkeeps (hold ?_)
      revert h
      simp only [Move.run]
      (repeat' split) <;> exact id

namespace Epochal

variable {s : Sys}

theorem run_advances_of (h : Epochal s) {i : Nat} {m : Move} {r : Reap}
    (ha : s.activities[i]? = some ⟨m.source, r⟩) :
    s.pool.admission.Advances (m.run s.pool r).pool.admission :=
  run_advances (h.accounted.admitted.replenishes_of ha) (h.accounted.admitted.gates_of ha)

/-- The block of one activity leaves the recovery of another one as it is. -/
theorem recovers_other (h : Epochal s) {i j : Nat} {m : Move} {r : Reap} {b : Activity} (hij : j ≠ i)
    (ha : s.activities[i]? = some ⟨m.source, r⟩) (hb : s.activities[j]? = some b) :
    b.stage.Recovers (m.run s.pool r).pool := by
  cases hlocks : b.stage.locks with
  | false => exact .of_unlocked hlocks
  | true =>
      have hfree : m.source.locks = false :=
        h.accounted.admitted.unlocked (fun heq => hij heq.symm) hb ha hlocks
      obtain ⟨hepoch, hprobes⟩ := run_unlocked (p := s.pool) (r := r) m hfree
      have hmem := List.mem_of_getElem? hb
      refine (h.recovers b hmem).mono (h.run_advances_of ha) hepoch hprobes fun g hg hcurrent => ?_
      have hsuspect := (h.accounted.admitted.gating b hmem g hg).2 hcurrent
      rcases run_generation (r := r) m hfree hsuspect (h.accounted.admitted.replenishes_of ha) with
        hsame | hq
      · exact .inl (hcurrent.trans hsame.symm)
      · exact .inr (.inl hq)

theorem move (h : Epochal s) {i : Nat} (m : Move) (r : Reap)
    (ha : s.activities[i]? = some ⟨m.source, r⟩) (hready : m.ready s.pool r = true) :
    Epochal ((m.run s.pool r).base (s.activities.set i (m.run s.pool r).activity)) := by
  have hmem : (⟨m.source, r⟩ : Activity) ∈ s.activities := List.mem_of_getElem? ha
  have hadvances := h.run_advances_of ha
  have hrecovers := h.recovers _ hmem
  obtain ⟨hkeeps, hwrites⟩ :=
    run_unsafe (r := r) m hrecovers (h.accounted.bounded.attached _ hmem)
  refine ⟨Accounted.preserved.move m r h.accounted ha hready, ?_, fun e he => ?_, fun b hb e he => ?_,
    fun b hb => ?_, fun b hb halarm => ?_, fun hwarned => ?_, ?_⟩
  · rcases run_probes (r := r) m hrecovers with hsame | ⟨w, e, g, -, -, hfresh, hnew⟩
    · rw [Result.base, hsame]
      exact h.nodup
    · rw [Result.base, hnew]
      exact List.nodup_cons.mpr ⟨hfresh, h.nodup⟩
  · rcases run_probes (r := r) m hrecovers with hsame | ⟨w, e', g, -, hopen, -, hnew⟩
    · rw [Result.base, hsame] at he
      exact Nat.lt_of_lt_of_le (h.seen e he) hadvances.epoch
    · rw [Result.base, hnew] at he
      refine Nat.lt_of_lt_of_le ?_ hadvances.epoch
      rcases List.mem_cons.mp he with rfl | he
      · omega
      · exact h.seen e he
  · refine Nat.le_trans ?_ hadvances.epoch
    rcases List.mem_append.mp hb with hb | hb
    · rcases List.mem_or_eq_of_mem_set hb with hb | rfl
      · exact h.epochs b hb e he
      · exact h.epochs _ hmem e (run_epoch m he)
    · obtain ⟨w, e', t, g, v, -, rfl⟩ := run_started s.pool r m hb
      cases he
  · rcases List.mem_append.mp hb with hb | hb
    · rcases mem_set_cases hb with rfl | ⟨j, hj, hb⟩
      · exact run_recovers m hrecovers hadvances h.seen
      · exact h.recovers_other hj ha hb
    · obtain ⟨w, e, t, g, v, -, rfl⟩ := run_started s.pool r m hb
      trivial
  · rcases List.mem_append.mp hb with hb | hb
    · rcases List.mem_or_eq_of_mem_set hb with hb | rfl
      · exact hkeeps (h.alarmed b hb halarm)
      · exact run_alarmed m halarm (h.alarmed _ hmem)
    · obtain ⟨w, e, t, g, v, -, rfl⟩ := run_started s.pool r m hb
      cases halarm
  · rcases hwrites hwarned with hold | hq | hclosing | hfinds
    · rcases h.unsafeReason hold with hq | hclosing | ⟨b, hb, hfinds⟩
      · exact .inl (hadvances.quarantined hq)
      · exact .inr (.inl (hadvances.closing hclosing))
      · by_cases hb' : b = ⟨m.source, r⟩
        · subst hb'
          rcases run_findsOld (r := r) m hrecovers hfinds with hq | hclosing
          · exact .inl hq
          · exact .inr (.inl hclosing)
        · exact .inr (.inr ⟨b, List.mem_append_left _ (mem_set_of_ne ha hb hb'), hfinds⟩)
    · exact .inl hq
    · exact .inr (.inl hclosing)
    · exact .inr (.inr ⟨_, List.mem_append_left _ (mem_set_self _ ha), hfinds⟩)
  · exact run_answered s.pool r m h.answered hkeeps

theorem call (h : Epochal s) (c : Call) (hready : c.ready s.pool = true) :
    Epochal ((c.run s.pool).base (s.activities ++ [(c.run s.pool).activity])) := by
  have hadvances := call_advances (p := s.pool) c
  have hprobes : (c.run s.pool).pool.probes = s.pool.probes := by cases c <;> rfl
  have hwarned : (c.run s.pool).pool.unsafeShutdown = s.pool.unsafeShutdown := by cases c <;> rfl
  have hbase : ∀ b ∈ ((c.run s.pool).base (s.activities ++ [(c.run s.pool).activity])).activities,
      b ∈ s.activities ∨ b = (c.run s.pool).activity := by
    intro b hb
    rw [Result.base, (call_activity c).2.2.2, List.append_nil] at hb
    simpa using hb
  refine ⟨Accounted.preserved.call c h.accounted hready, ?_, fun e he => ?_, fun b hb e he => ?_,
    fun b hb => ?_, fun b hb halarm => ?_, fun hreason => ?_, fun hended => ?_⟩
  · rw [Result.base, hprobes]
    exact h.nodup
  · rw [Result.base, hprobes] at he
    exact Nat.lt_of_lt_of_le (h.seen e he) hadvances.epoch
  · refine Nat.le_trans ?_ hadvances.epoch
    rcases hbase b hb with hb | rfl
    · exact h.epochs b hb e he
    · cases c with
      | checkout w => exact Nat.le_of_eq (Option.some.inj he).symm
      | poll | reconcile | foundOrphan | shutdown => cases he
  · rcases hbase b hb with hb | rfl
    · refine (h.recovers b hb).mono hadvances ?_ hprobes fun g _ hcurrent => ?_
      · cases c with
        | foundOrphan => exact .inr rfl
        | checkout w | poll | reconcile | shutdown => exact .inl rfl
      · cases c with
        | foundOrphan => exact .inr (.inl rfl)
        | shutdown => exact .inr (.inr rfl)
        | checkout w | poll | reconcile => exact .inl hcurrent
    · exact .of_unlocked (call_activity c).1
  · rw [Result.base, hwarned]
    rcases hbase b hb with hb | rfl
    · exact h.alarmed b hb halarm
    · cases c <;> cases halarm
  · rw [Result.base, hwarned] at hreason
    rcases h.unsafeReason hreason with hq | hclosing | ⟨b, hb, hfinds⟩
    · exact .inl (hadvances.quarantined hq)
    · exact .inr (.inl (hadvances.closing hclosing))
    · refine .inr (.inr ⟨b, ?_, hfinds⟩)
      exact List.mem_append_left _ (List.mem_append_left _ hb)
  · rw [Result.base, hwarned]
    cases c with
    | shutdown => cases hended
    | checkout w | poll | reconcile | foundOrphan => exact h.answered hended

theorem topUp (h : Epochal s) : Epochal s.topUp := by
  have hthread : ∀ b ∈ s.topUp.activities,
      b ∈ s.activities ∨ b = ⟨.replenishing s.pool.admission.poolGeneration false, {}⟩ := by
    intro b hb
    rcases List.mem_append.mp hb with hb | hb
    · exact .inl hb
    · exact .inr (List.mem_replicate.mp hb).2
  refine ⟨Accounted.preserved.topUp h.accounted, h.nodup, h.seen, fun b hb e he => ?_,
    fun b hb => ?_, fun b hb halarm => ?_, fun hwarned => ?_, h.answered⟩
  · rcases hthread b hb with hb | rfl
    · exact h.epochs b hb e he
    · cases he
  · rcases hthread b hb with hb | rfl
    · exact (h.recovers b hb).of_same rfl rfl
    · trivial
  · rcases hthread b hb with hb | rfl
    · exact h.alarmed b hb halarm
    · cases halarm
  · rcases h.unsafeReason hwarned with hq | hclosing | ⟨b, hb, hfinds⟩
    · exact .inl hq
    · exact .inr (.inl hclosing)
    · exact .inr (.inr ⟨b, List.mem_append_left _ hb, hfinds⟩)

theorem preserved : Preserved Epochal where
  move m r h ha hready := h.move m r ha hready
  call c h hready := h.call c hready
  topUp h := h.topUp
  stopped {s i a w} proven h ha hw := by
    have hmem := List.mem_of_getElem? ha
    refine ⟨Accounted.preserved.stopped proven h.accounted ha hw, h.nodup, h.seen,
      forall_mem_set h.epochs (h.epochs a hmem), ?_, forall_mem_set h.alarmed (h.alarmed a hmem),
      fun hwarned => ?_, h.answered⟩
    · refine forall_mem_set (fun b hb => (h.recovers b hb).of_same rfl rfl) ?_
      exact (h.recovers a hmem).of_same rfl rfl
    · rcases h.unsafeReason hwarned with hq | hclosing | ⟨b, hb, hfinds⟩
      · exact .inl hq
      · exact .inr (.inl hclosing)
      · refine .inr (.inr ?_)
        by_cases hb' : b = a
        · subst hb'
          exact ⟨_, mem_set_self _ ha, hfinds⟩
        · exact ⟨b, mem_set_of_ne ha hb hb', hfinds⟩
  dies w h := by
    refine ⟨Accounted.preserved.dies w h.accounted, h.nodup, h.seen, h.epochs, fun b hb => ?_,
      h.alarmed, h.unsafeReason, h.answered⟩
    exact (h.recovers b hb).of_same rfl rfl

theorem reachable {n : Nat} (hs : Reachable n s) : Epochal s :=
  preserved.reachable (epochal_init n) hs

end Epochal

/-! ### Reports -/

/-- The epoch of the fault whose report is being dealt with. -/
def Stage.reports : Stage → Option Nat
  | .reporting _ e | .admitted _ e | .retiring _ e _ | .unreapedOld _ e _ | .draining _ e _
  | .drained _ e _ | .probing _ e _ | .probed _ e _ _ | .staleProbe _ e _ _ | .unsafeRecovery _ e _
  | .failing _ e _ | .containing _ e _ | .recovered _ e | .awaitingShutdown _ e => some e
  | .unreaped _ resume | .quarantining resume => resume.reports
  | _ => none

def Move.reports : Move → Option Nat
  | .contextFault _ e => some e
  | m => m.source.reports

/-- What a report comes to in a pool that has no recovery in progress. -/
def Pool.verdict (p : Pool) : Outcome :=
  if p.unsafeShutdown then .unsafeContainment
  else if p.admission.closing then .shutdownContainment
  else .returned

theorem Stage.Recovers.current {p : Pool} {stage : Stage} {e : Nat} (h : stage.Recovers p)
    (hdeclares : stage.Declares) (hticket : stage.ticket ≠ none) (he : stage.reports = some e) :
    e + 1 = p.admission.hardRecoveryEpoch ∨ p.quarantined := by
  induction stage with
  | retiring w e' g | unreapedOld w e' g | draining w e' g | drained w e' g =>
      obtain rfl := Option.some.inj he
      exact h.1.imp_left And.left
  | probing w e' g | unsafeRecovery w e' g | failing w e' g =>
      obtain rfl := Option.some.inj he
      exact h
  | probed w e' g v | staleProbe w e' g v =>
      obtain rfl := Option.some.inj he
      exact h
  | containing w e' g => exact .inr h
  | unreaped extra resume ih => exact ih h hdeclares.2 hdeclares.1 he
  | quarantining resume ih => exact ih h hdeclares.2 hdeclares.1 he
  | reporting | admitted | recovered | awaitingShutdown => exact absurd rfl hticket
  | _ => cases he

section Run

variable {p : Pool} {r : Reap}

/-- A report changes the health of the pool in its own epoch or in the one that its recovery opened. -/
theorem run_health (m : Move) {e : Nat} (he : m.reports = some e) (h : m.source.Recovers p)
    (hdeclares : m.source.Declares)
    (hchange : (m.run p r).pool.admission.healthState ≠ p.admission.healthState) :
    e = p.admission.hardRecoveryEpoch ∨ e + 1 = p.admission.hardRecoveryEpoch := by
  by_cases hquiet : m.admits = false
  · rw [run_admission p r m hquiet] at hchange
    exact absurd rfl hchange
  cases m with
  | contextFault w e' =>
      obtain rfl := Option.some.inj he
      cases hanswer : p.contextFaultAnswer e' with
      | stale | refused =>
          rw [Move.run, hanswer] at hchange
          exact absurd rfl hchange
      | validating g => exact .inl (Pool.contextFaultAnswer_validating hanswer).1
  | recoverOnce w e' =>
      obtain rfl := Option.some.inj he
      refine .inl (h.resolve_right fun hq => hchange ?_)
      simp only [Move.run]
      split_ifs with hclosing hne hwarned
      · rfl
      · rfl
      · rfl
      · exact absurd hq hne
  | quarantineOld w e' g =>
      obtain rfl := Option.some.inj he
      rcases h.1 with ⟨hopen, -⟩ | hq
      · exact .inr hopen
      · refine absurd ?_ hchange
        simp only [Move.run, Move.endRecovery, Pool.quarantineOldWorkers]
        split
        · exact hq.symm
        · rfl
  | settleProbe w e' g v =>
      obtain rfl := Option.some.inj he
      by_cases hcurrent : p.recoveryCurrent g = true
      · have hsuspect := (Pool.recoveryCurrent_iff.mp hcurrent).2.2
        refine .inr (h.resolve_right fun hq => ?_)
        rw [Pool.quarantined, hsuspect] at hq
        cases hq
      · refine absurd ?_ hchange
        simp only [Move.run, hcurrent]
        cases v <;> rfl
  | contain w e' g =>
      obtain rfl := Option.some.inj he
      exact .inr (h.resolve_right fun hq => hchange hq.symm)
  | quarantine extra resume =>
      refine .inr ((h.current hdeclares hdeclares.1 he).resolve_right fun hq => hchange hq.symm)
  | register | markFailed => cases he
  | _ => exact absurd rfl hquiet

/-- A report that has fallen behind only waits for the shutdown, or returns. -/
theorem run_stale {w : Handle} {e : Nat} (he : e ≠ p.admission.hardRecoveryEpoch) :
    ((Move.enterRecovery w e).run p r).pool.admission = p.admission ∧
      ((∃ o, ((Move.enterRecovery w e).run p r).activity = ⟨.returning w e o, {}⟩) ∨
        p.admission.closing = true ∧
          ((Move.enterRecovery w e).run p r).activity = ⟨.awaitingShutdown w e, {}⟩) := by
  simp only [Move.run]
  split_ifs with hclosing hq
  · exact ⟨rfl, .inr ⟨hclosing, rfl⟩⟩
  · exact ⟨rfl, .inl ⟨_, rfl⟩⟩
  · exact ⟨rfl, .inl ⟨_, rfl⟩⟩
  · exact ⟨rfl, .inl ⟨_, rfl⟩⟩

end Run

/-- A report of epoch `e` goes back with `o`: no recovery is in progress, the epoch has been dealt with,
and `o` is the verdict of the pool. -/
structure Pool.Answers (p : Pool) (e : Nat) (o : Outcome) : Prop where
  unlocked : p.recoveryLock = false
  dealt : e < p.admission.hardRecoveryEpoch ∨ p.quarantined ∨ p.admission.closing = true
  verdict : o = p.verdict

theorem Pool.verdict_unsafe {p : Pool} (h : p.unsafeShutdown = true) :
    p.verdict = .unsafeContainment := if_pos h

theorem Pool.dealt_of_opened {p : Pool} {e : Nat}
    (h : e + 1 = p.admission.hardRecoveryEpoch ∨ p.quarantined) :
    e < p.admission.hardRecoveryEpoch ∨ p.quarantined ∨ p.admission.closing = true := by
  rcases h with hopen | hq
  · exact .inl (Nat.lt_of_succ_le (Nat.le_of_eq hopen))
  · exact .inr (.inl hq)

namespace Epochal

variable {s : Sys} {p : Pool} {r : Reap}

/-- No recovery is in progress, and no unsafe reason waits to be acted upon. -/
theorem safe_of_unlocked (h : Epochal s) (hfree : s.pool.recoveryLock = false)
    (hq : ¬s.pool.quarantined) (hopen : s.pool.admission.closing = false) :
    s.pool.unsafeShutdown = false := by
  cases hwarned : s.pool.unsafeShutdown with
  | false => rfl
  | true =>
      rcases h.unsafeReason hwarned with hq' | hclosing | ⟨b, hb, hfinds⟩
      · exact absurd hq' hq
      · rw [hopen] at hclosing
        cases hclosing
      · have hlocks : b.stage.locks = true := by
          cases hstage : b.stage <;> rw [hstage] at hfinds <;> first | rfl | cases hfinds
        have hlock := h.accounted.admitted.locked hb hlocks
        rw [hfree] at hlock
        cases hlock

/-- A report leaves at the door of the recovery. -/
theorem enterRecovery_answers (h : Epochal s) {x : Handle} {e : Nat} (hfree : s.pool.recoveryLock = false)
    (hle : e ≤ s.pool.admission.hardRecoveryEpoch) {w : Handle} {e' : Nat} {o : Outcome}
    (hreturn : ((Move.enterRecovery x e).run s.pool r).activity.stage = .returning w e' o) :
    ((Move.enterRecovery x e).run s.pool r).pool.Answers e o := by
  revert hreturn
  simp only [Move.run]
  split_ifs with hclosing hq hwarned hepoch <;> intro hreturn
  · cases hreturn
  · obtain ⟨-, -, rfl⟩ := Stage.returning.inj hreturn
    exact ⟨hfree, .inr (.inl hq), (Pool.verdict_unsafe hwarned).symm⟩
  · obtain ⟨-, -, rfl⟩ := Stage.returning.inj hreturn
    refine ⟨hfree, .inr (.inl hq), ?_⟩
    rw [Pool.verdict, if_neg hwarned, if_neg hclosing]
  · obtain ⟨-, -, rfl⟩ := Stage.returning.inj hreturn
    have hsafe := h.safe_of_unlocked hfree hq (by simpa using hclosing)
    refine ⟨hfree, .inl (Nat.lt_of_le_of_ne hle hepoch), ?_⟩
    rw [Pool.verdict, hsafe, if_neg (by decide), if_neg hclosing]
  · cases hreturn

theorem recoverOnce_answers {x : Handle} {e : Nat} {w : Handle} {e' : Nat} {o : Outcome}
    (hreturn : ((Move.recoverOnce x e).run p r).activity.stage = .returning w e' o) :
    ((Move.recoverOnce x e).run p r).pool.Answers e o := by
  revert hreturn
  simp only [Move.run]
  split_ifs with hclosing hq hwarned <;> intro hreturn
  · cases hreturn
  · obtain ⟨-, -, rfl⟩ := Stage.returning.inj hreturn
    refine ⟨rfl, .inr (.inl hq), ?_⟩
    rw [Pool.verdict, Pool.releaseRecoveryLock, if_pos hwarned]
  · cases hreturn
  · cases hreturn

theorem quarantineOld_answers {x : Handle} {e g : Nat} (hwarned : p.unsafeShutdown = true)
    (hopened : e + 1 = p.admission.hardRecoveryEpoch ∨ p.quarantined)
    (hadvances : p.admission.Advances ((Move.quarantineOld x e g).run p r).pool.admission) :
    ((Move.quarantineOld x e g).run p r).pool.Answers e .unsafeContainment := by
  refine ⟨rfl, ?_, (Pool.verdict_unsafe ?_).symm⟩
  · rcases hopened with hopen | hq
    · refine .inl (Nat.lt_of_lt_of_le ?_ hadvances.epoch)
      omega
    · exact .inr (.inl (hadvances.quarantined hq))
  · simp only [Move.run, Move.endRecovery, Pool.quarantineOldWorkers]
    split <;> exact hwarned

theorem startProbe_answers {x : Handle} {e g : Nat}
    (hopened : e + 1 = p.admission.hardRecoveryEpoch ∨ p.quarantined) {w : Handle} {e' : Nat}
    {o : Outcome} (hreturn : ((Move.startProbe x e g).run p r).activity.stage = .returning w e' o) :
    ((Move.startProbe x e g).run p r).pool.Answers e o := by
  revert hreturn
  simp only [Move.run]
  split_ifs with hcurrent hwarned <;> intro hreturn
  · cases hreturn
  · obtain ⟨-, -, rfl⟩ := Stage.returning.inj hreturn
    exact ⟨rfl, Pool.dealt_of_opened hopened, (Pool.verdict_unsafe hwarned).symm⟩
  · cases hreturn

theorem recheck_answers {x : Handle} {e : Nat}
    (hopened : e + 1 = p.admission.hardRecoveryEpoch ∨ p.quarantined) {w : Handle} {e' : Nat}
    {o : Outcome} (hreturn : ((Move.recheck x e).run p r).activity.stage = .returning w e' o) :
    ((Move.recheck x e).run p r).pool.Answers e o := by
  revert hreturn
  simp only [Move.run]
  split_ifs with hwarned hclosing <;> intro hreturn
  · obtain ⟨-, -, rfl⟩ := Stage.returning.inj hreturn
    exact ⟨rfl, Pool.dealt_of_opened hopened, (Pool.verdict_unsafe hwarned).symm⟩
  · cases hreturn
  · obtain ⟨-, -, rfl⟩ := Stage.returning.inj hreturn
    refine ⟨rfl, Pool.dealt_of_opened hopened, ?_⟩
    change Outcome.returned = p.verdict
    rw [Pool.verdict, if_neg hwarned, if_neg hclosing]

/-- A report that the shutdown overtakes has waited for its end. -/
theorem shutdownProof_answers {x : Handle} {e : Nat} (hclosing : p.admission.closing = true)
    (hended : p.shutdownTask ≠ .notStarted ∧ p.shutdownTask ≠ .running)
    (hanswered : p.shutdownTask = .finished false → p.unsafeShutdown = true) :
    ((Move.shutdownProof x e).run p r).pool.Answers e
      (if p.shutdownTask = .finished true ∧ p.unsafeShutdown = false then
        .shutdownContainment else .unsafeContainment) := by
  refine ⟨rfl, .inr (.inr hclosing), ?_⟩
  change _ = p.verdict
  split
  · rename_i hproof
    rw [Pool.verdict, hproof.2, if_neg (by decide), if_pos hclosing]
  · rename_i hproof
    refine (Pool.verdict_unsafe ?_).symm
    cases hwarned : p.unsafeShutdown with
    | true => rfl
    | false =>
        cases htask : p.shutdownTask with
        | notStarted => exact absurd htask hended.1
        | running => exact absurd htask hended.2
        | finished safe =>
            cases safe with
            | true => exact absurd ⟨htask, hwarned⟩ hproof
            | false =>
                rw [hanswered htask] at hwarned
                cases hwarned

/-- The error of the recovery is raised to the caller, unless an unsafe reason overtakes it. -/
theorem raiseContained_returns {x : Handle} {e g : Nat} (hq : p.quarantined) {w : Handle} {e' : Nat}
    {o : Outcome} (hreturn : ((Move.raiseContained x e g).run p r).activity.stage = .returning w e' o) :
    ((Move.raiseContained x e g).run p r).pool.Answers e o ∨
      o = .recoveryError ∧ ((Move.raiseContained x e g).run p r).pool.recoveryLock = false ∧
        ((Move.raiseContained x e g).run p r).pool.quarantined := by
  have hout : (if (p.unsafeShutdown || r.unproven ≠ [] : Bool) = true then
      Outcome.unsafeContainment else .recoveryError) = o := (Stage.returning.inj hreturn).2.2
  by_cases hwarned : (p.unsafeShutdown || r.unproven ≠ [] : Bool) = true
  · rw [if_pos hwarned] at hout
    exact .inl ⟨rfl, .inr (.inl hq), hout.symm.trans (Pool.verdict_unsafe hwarned).symm⟩
  · rw [if_neg hwarned] at hout
    exact .inr ⟨hout.symm, rfl, hq⟩

/-- A recovery whose error is taken for one more device fault returns for an unsafe reason only. -/
theorem reportContained_answers {x : Handle} {e g : Nat} (hq : p.quarantined) {w : Handle} {e' : Nat}
    {o : Outcome} (hreturn : ((Move.reportContained x e g).run p r).activity.stage = .returning w e' o) :
    ((Move.reportContained x e g).run p r).pool.Answers e o := by
  by_cases hwarned : (p.unsafeShutdown || r.unproven ≠ [] : Bool) = true
  · have hstage : Stage.returning x e .unsafeContainment = .returning w e' o :=
      (if_pos hwarned).symm.trans hreturn
    obtain ⟨-, -, rfl⟩ := Stage.returning.inj hstage
    exact ⟨rfl, .inr (.inl hq), (Pool.verdict_unsafe hwarned).symm⟩
  · have hstage : Stage.reporting x e = .returning w e' o := (if_neg hwarned).symm.trans hreturn
    cases hstage

/-- How a report leaves the recovery. -/
theorem returns (h : Epochal s) (howned : Owned s) {i : Nat} (m : Move) (r : Reap)
    (ha : s.activities[i]? = some ⟨m.source, r⟩) (hready : m.ready s.pool r = true) {e : Nat}
    (he : m.source.reports = some e) {w : Handle} {e' : Nat} {o : Outcome}
    (hreturn : (m.run s.pool r).activity.stage = .returning w e' o) :
    (m.run s.pool r).pool.Answers e o ∨ o = .recoveryError ∧ (∃ x g, m = .raiseContained x e g) ∧
      (m.run s.pool r).pool.recoveryLock = false ∧ (m.run s.pool r).pool.quarantined := by
  have hmem : (⟨m.source, r⟩ : Activity) ∈ s.activities := List.mem_of_getElem? ha
  have hrecovers := h.recovers _ hmem
  cases m with
  | enterRecovery x e' =>
      obtain rfl := Option.some.inj he
      have hfree : s.pool.recoveryLock = false := by simpa [Move.ready] using hready
      exact .inl (h.enterRecovery_answers hfree (h.epochs _ hmem e' rfl) hreturn)
  | recoverOnce x e' =>
      obtain rfl := Option.some.inj he
      exact .inl (recoverOnce_answers hreturn)
  | quarantineOld x e' g =>
      obtain rfl := Option.some.inj he
      obtain ⟨-, -, rfl⟩ := Stage.returning.inj hreturn
      have hopened := hrecovers.1.imp_left And.left
      exact .inl (quarantineOld_answers (h.alarmed _ hmem rfl) hopened (h.run_advances_of ha))
  | startProbe x e' g =>
      obtain rfl := Option.some.inj he
      exact .inl (startProbe_answers (hrecovers.1.imp_left And.left) hreturn)
  | raiseUnsafe x e' g =>
      obtain rfl := Option.some.inj he
      obtain ⟨-, -, rfl⟩ := Stage.returning.inj hreturn
      have hwarned : s.pool.unsafeShutdown = true := h.alarmed _ hmem rfl
      exact .inl ⟨rfl, Pool.dealt_of_opened hrecovers, (Pool.verdict_unsafe hwarned).symm⟩
  | raiseContained x e' g =>
      obtain rfl := Option.some.inj he
      rcases raiseContained_returns hrecovers hreturn with hanswers | ⟨ho, hfree, hq⟩
      · exact .inl hanswers
      · exact .inr ⟨ho, ⟨x, g, rfl⟩, hfree, hq⟩
  | reportContained x e' g =>
      obtain rfl := Option.some.inj he
      exact .inl (reportContained_answers hrecovers hreturn)
  | recheck x e' =>
      obtain rfl := Option.some.inj he
      exact .inl (recheck_answers hrecovers hreturn)
  | shutdownProof x e' =>
      obtain rfl := Option.some.inj he
      obtain ⟨-, -, rfl⟩ := Stage.returning.inj hreturn
      have hended : s.pool.shutdownTask ≠ .notStarted ∧ s.pool.shutdownTask ≠ .running := by
        simpa [Move.ready] using hready
      exact .inl (shutdownProof_answers hrecovers hended h.answered)
  | endQuarantine resume =>
      have hdeclares := (howned.diligent _ hmem).declares
      rw [Move.run] at hreturn
      obtain rfl := hreturn
      exact absurd rfl hdeclares.1
  | retire x e' g =>
      revert hreturn
      simp only [Move.run]
      split <;> exact fun h => Stage.noConfusion h
  | settleProbe x e' g v =>
      revert hreturn
      cases v <;> simp only [Move.run] <;> split <;> exact fun h => Stage.noConfusion h
  | reapStaleProbe x e' g v =>
      revert hreturn
      simp only [Move.run]
      split <;> exact fun h => Stage.noConfusion h
  | probeFailed x e' g reaped => cases reaped <;> cases hreturn
  | drain | drainTimeout | drainError | probeReady | contain | quarantine => cases hreturn
  | _ => cases he

end Epochal

/-- **One recovery per epoch.** At most one probe is started for an epoch, by a recovery of that very
epoch. A report changes the health of the pool in its own epoch or in the one that its recovery has
opened; a report that has fallen behind changes nothing. A report returns only when no recovery is in
progress and its epoch has been dealt with, with the verdict of the pool at that moment; the one that
ran a recovery into an unexpected failure gets that failure instead. -/
theorem one_recovery_per_epoch {n : Nat} {s : Sys} (hs : Reachable n s) :
    s.pool.probes.Nodup ∧ (∀ e ∈ s.pool.probes, e < s.pool.admission.hardRecoveryEpoch) ∧
    ∀ i m t e, step s (.move i m) = some t → m.reports = some e →
      (t.pool.probes ≠ s.pool.probes → e + 1 = s.pool.admission.hardRecoveryEpoch ∧
        t.pool.probes = e :: s.pool.probes ∧ e ∉ s.pool.probes) ∧
      (t.pool.admission.healthState ≠ s.pool.admission.healthState →
        e = s.pool.admission.hardRecoveryEpoch ∨ e + 1 = s.pool.admission.hardRecoveryEpoch) ∧
      (∀ w, m = .enterRecovery w e → e ≠ s.pool.admission.hardRecoveryEpoch →
        t.pool.admission = s.pool.admission ∧
          ((∃ o, t.activities[i]? = some ⟨.returning w e o, {}⟩) ∨
            s.pool.admission.closing = true ∧
              t.activities[i]? = some ⟨.awaitingShutdown w e, {}⟩)) ∧
      ∀ w e' o r, t.activities[i]? = some ⟨.returning w e' o, r⟩ →
        t.pool.recoveryLock = false ∧
        (e < t.pool.admission.hardRecoveryEpoch ∨ t.pool.quarantined ∨
          t.pool.admission.closing = true) ∧
        (o = t.pool.verdict ∨ o = .recoveryError ∧ ∃ x g, m = .raiseContained x e g) := by
  have h := Epochal.reachable hs
  have howned := Owned.reachable hs
  refine ⟨h.nodup, h.seen, fun i m t e hstep he => ?_⟩
  obtain ⟨r, ha, hready, rfl⟩ := step_move hstep
  have hmem : (⟨m.source, r⟩ : Activity) ∈ s.activities := List.mem_of_getElem? ha
  have hrecovers := h.recovers _ hmem
  obtain ⟨hwarned, hlock, hprobes⟩ :=
    finish_pool (m.run s.pool r) (s.activities.set i (m.run s.pool r).activity)
  have hnext := finish_activity (m.run s.pool r) ha
  simp only [finish_admission, Pool.verdict, Pool.quarantined, hwarned, hlock, hprobes, hnext,
    Option.some.injEq]
  refine ⟨fun hchange => ?_, ?_, fun w hm hstale => ?_, fun w e' o r' hreturn => ?_⟩
  · rcases run_probes (r := r) m hrecovers with hsame | ⟨w, e', g, rfl, hopen, hfresh, hnew⟩
    · exact absurd hsame hchange
    · obtain rfl := Option.some.inj he
      exact ⟨hopen, hnew, hfresh⟩
  · exact run_health m he hrecovers (howned.diligent _ hmem).declares
  · subst hm
    exact run_stale hstale
  · have hstage : (m.run s.pool r).activity.stage = .returning w e' o := by rw [hreturn]
    have hsource : m.source.reports = some e := by
      cases m with
      | contextFault x e'' =>
          revert hstage
          cases hanswer : s.pool.contextFaultAnswer e'' <;> rw [Move.run, hanswer] <;>
            exact fun h => Stage.noConfusion h
      | _ => exact he
    rcases h.returns howned m r ha hready hsource hstage with hanswers | ⟨ho, hraised, hfree, hq⟩
    · exact ⟨hanswers.unlocked, hanswers.dealt, .inl hanswers.verdict⟩
    · exact ⟨hfree, .inr (.inl hq), .inr ⟨ho, hraised⟩⟩

/-- Two reports of epoch 0. The first runs the recovery, which succeeds; the second comes back after the
pool has been shut down. -/
def lateReport : Sys :=
  (execute step [.call (.checkout 0), .call (.checkout 1), .move 0 (.deviceFault 0 0),
    .move 1 (.deviceFault 1 0), .move 0 (.enterRecovery 0 0), .move 0 (.recoverOnce 0 0),
    .stopped 0 0 true, .stopped 0 1 true, .move 0 (.retire 0 0 1), .move 0 (.drain 0 0 1),
    .move 0 (.startProbe 0 0 1), .move 0 (.probeReady 0 0 1), .move 0 (.settleProbe 0 0 1 (some 2)),
    .move 0 (.recheck 0 0), .call .shutdown, .stopped 3 2 true, .move 2 (.threadStarts 1 false),
    .move 3 .shutdownReaped, .move 3 (.shutdownDrain true), .move 3 (.shutdownSnapshot true),
    .move 3 (.shutdownEnd true), .move 1 (.enterRecovery 1 0), .move 1 (.shutdownProof 1 0)]
    (init 2)).getD (init 2)

/-- The two reporters of one epoch obtain different outcomes. -/
theorem one_recovery_per_epoch_late : Reachable 2 lateReport ∧ lateReport.pool.probes = [0] ∧
    lateReport.activities[0]? = some ⟨.returning 0 0 .returned, {}⟩ ∧
    lateReport.activities[1]? = some ⟨.returning 1 0 .shutdownContainment, {}⟩ :=
  ⟨reachable_execute (by decide), by decide⟩

theorem lateReport_reachable : Reachable 2 lateReport := reachable_execute (by decide)

theorem one_recovery_per_epoch_nodup :
    lateReport.pool.probes.Nodup ∧ lateReport.pool.probes = [0] :=
  ⟨(one_recovery_per_epoch lateReport_reachable).1, by decide⟩

end KernelGym.WorkerPool
