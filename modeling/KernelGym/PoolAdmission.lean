import KernelGym.PoolRules

/-! The admission state of the pool. It is written by tasks, recoveries and replenishment callbacks that
may be stale; what keeps them apart is the recovery lock, the generation that a replenishment carries,
and the generation for which a recovery gated the pool. -/

namespace KernelGym.WorkerPool

open Library

/-- The recovery lock is held by the activity. -/
def Stage.locks : Stage → Bool
  | .admitted _ _ | .retiring _ _ _ | .unreapedOld _ _ _ | .draining _ _ _ | .drained _ _ _
  | .probing _ _ _ | .probed _ _ _ _ | .staleProbe _ _ _ _ | .unsafeRecovery _ _ _
  | .failing _ _ _ | .containing _ _ _ | .recovered _ _ | .awaitingShutdown _ _ => true
  | .unreaped _ resume | .quarantining resume => resume.locks
  | _ => false

/-- The generation of a replacement that is to be built, is being built, or is yet to be registered. -/
def Stage.replenishes : Stage → Option Nat
  | .recycling _ _ _ next => next.map Prod.fst
  | .replenishing g _ | .awaitingOlder g | .checked g _ | .constructing g _ | .ready g _ _
  | .failed g _ _ | .retrying g => some g
  | .unreaped _ resume | .quarantining resume => resume.replenishes
  | _ => none

/-- The generation for which a recovery has gated the pool and is still to decide. -/
def Stage.gates : Stage → Option Nat
  | .retiring _ _ g | .unreapedOld _ _ g | .draining _ _ g | .drained _ _ g | .probing _ _ g
  | .probed _ _ g _ => some g
  | .unreaped _ resume | .quarantining resume => resume.gates
  | _ => none

/-- The task's payload may be dispatched, or a replacement built, in these states only. -/
def HealthState.serves (state : HealthState) : Prop := state = .healthy ∨ state = .degradedCheck

def lockShare (a : Activity) : Nat := a.stage.locks.toNat

structure Admitted (s : Sys) : Prop where
  lock : tally lockShare s.activities = s.pool.recoveryLock.toNat
  replenishing : ∀ a ∈ s.activities, ∀ g, a.stage.replenishes = some g →
    g ≤ s.pool.admission.poolGeneration ∧
      (g = s.pool.admission.poolGeneration → s.pool.admission.healthState.serves)
  gating : ∀ a ∈ s.activities, ∀ g, a.stage.gates = some g →
    g ≤ s.pool.admission.poolGeneration ∧
      (g = s.pool.admission.poolGeneration → s.pool.admission.healthState = .suspect)

theorem Stage.locks_of_gates {stage : Stage} {g : Nat} (h : stage.gates = some g) :
    stage.locks = true := by
  induction stage with
  | unreaped extra resume ih => exact ih h
  | quarantining resume ih => exact ih h
  | _ => first | rfl | cases h

/-- Two activities never hold the recovery lock together. -/
theorem Admitted.unlocked {s : Sys} (h : Admitted s) {i j : Nat} {a b : Activity} (hij : j ≠ i)
    (ha : s.activities[i]? = some a) (hb : s.activities[j]? = some b)
    (hlocks : a.stage.locks = true) : b.stage.locks = false := by
  have hle : lockShare a + lockShare b ≤ tally lockShare s.activities :=
    add_le_tally (fun h => hij h.symm) ha hb
  have hone : tally lockShare s.activities ≤ 1 := by
    rw [h.lock]
    exact Bool.toNat_le _
  rw [lockShare, hlocks, Bool.toNat_true] at hle
  cases hfree : b.stage.locks with
  | false => rfl
  | true =>
      rw [lockShare, hfree, Bool.toNat_true] at hle
      omega

theorem Admitted.locked {s : Sys} (h : Admitted s) {a : Activity} (ha : a ∈ s.activities)
    (hlocks : a.stage.locks = true) : s.pool.recoveryLock = true := by
  have hle : lockShare a ≤ tally lockShare s.activities := le_tally ha
  rw [h.lock] at hle
  rw [lockShare, hlocks] at hle
  cases hlock : s.pool.recoveryLock with
  | true => rfl
  | false => simp [hlock] at hle

theorem locks_unreapedEach (ws : List Handle) (last : Stage) :
    (unreapedEach ws last).locks = last.locks := by
  induction ws with
  | nil => rfl
  | cons w ws ih => exact ih

theorem replenishes_unreapedEach (ws : List Handle) (last : Stage) :
    (unreapedEach ws last).replenishes = last.replenishes := by
  induction ws with
  | nil => rfl
  | cons w ws ih => exact ih

theorem gates_unreapedEach (ws : List Handle) (last : Stage) :
    (unreapedEach ws last).gates = last.gates := by
  induction ws with
  | nil => rfl
  | cons w ws ih => exact ih

section Run

variable (p : Pool) (r : Reap)

/-- A block that takes the recovery lock found it free, and one that releases it held it. -/
theorem run_lock (m : Move) (hready : m.ready p r = true)
    (hheld : m.source.locks = true → p.recoveryLock = true) :
    lockShare (m.run p r).activity + p.recoveryLock.toNat =
      lockShare ⟨m.source, r⟩ + (m.run p r).pool.recoveryLock.toNat := by
  cases m with
  | contextFault w e => cases h : p.contextFaultAnswer e <;> simp only [Move.run, h] <;> rfl
  | enterRecovery w e =>
      have hfree : p.recoveryLock = false := by simpa [Move.ready] using hready
      simp only [Move.run]
      (repeat' split) <;> simp_all [lockShare, Stage.locks, Move.source]
  | recoverOnce w e =>
      have hlock := hheld rfl
      simp only [Move.run]
      (repeat' split) <;>
        simp_all [lockShare, Stage.locks, Move.source, Pool.releaseRecoveryLock,
          Pool.gateDeviceFault, Pool.registerReplenishmentTicket]
  | quarantineOld w e g | raiseUnsafe w e g | raiseContained w e g | shutdownProof w e =>
      have hlock := hheld rfl
      simp [Move.run, Move.endRecovery, lockShare, Stage.locks, Move.source, hlock,
        Pool.releaseRecoveryLock]
  | startProbe w e g | recheck w e | reportContained w e g =>
      have hlock := hheld rfl
      simp only [Move.run]
      (repeat' split) <;>
        simp_all [lockShare, Stage.locks, Move.source, Move.endRecovery,
          Pool.releaseRecoveryLock, Pool.finishReplenishmentTicket]
  | reapFailure g =>
      simp [Move.run, lockShare, locks_unreapedEach, Stage.locks, Move.source,
        Pool.recordReapResults]
  | settleProbe w e g v =>
      have hlock := hheld rfl
      cases v <;> simp only [Move.run] <;> split <;> rfl
  | register g v w =>
      cases h : p.registration g v <;> simp only [Move.run, h] <;> rfl
  | markFailed g v physical =>
      cases h : p.failure g physical <;> simp only [Move.run, h] <;> rfl
  | _ => simp only [Move.run]; (repeat' split) <;> rfl

/-- A replacement is on its way after a block because it was before, or since a restart decided so. -/
theorem run_replenishes (m : Move) {g : Nat}
    (h : (m.run p r).activity.stage.replenishes = some g) :
    m.source.replenishes = some g ∨ (∃ w e, m = .recycle w e) ∨
      ∃ w e v, m = .recycleFaulted w e v := by
  cases m with
  | recycle w e => exact .inr (.inl ⟨w, e, rfl⟩)
  | recycleFaulted w e v => exact .inr (.inr ⟨w, e, v, rfl⟩)
  | reapFailure g' =>
      rw [Move.run, replenishes_unreapedEach] at h
      cases h
  | _ => revert h; simp only [Move.run]; (repeat' split) <;> intro h <;> first | exact .inl h | cases h

/-- The blocks that write the admission state. -/
def Move.admits : Move → Bool
  | .contextFault _ _ | .recoverOnce _ _ | .quarantineOld _ _ _ | .settleProbe _ _ _ _
  | .contain _ _ _ | .register _ _ _ | .markFailed _ _ _ | .quarantine _ _ => true
  | _ => false

/-- A recovery that is still to decide was to decide before, and its block left the admission state
alone or to a newer generation; or it has just gated the pool. -/
theorem run_gates (m : Move) {g : Nat} (h : (m.run p r).activity.stage.gates = some g) :
    m.source.gates = some g ∧ (m.admits = false ∨
      p.admission.poolGeneration < (m.run p r).pool.admission.poolGeneration) ∨
    g = (m.run p r).pool.admission.poolGeneration ∧
      (m.run p r).pool.admission.healthState = .suspect := by
  cases m with
  | recoverOnce w e =>
      revert h
      simp only [Move.run]
      split_ifs <;> intro h
      · cases h
      · cases h
      · cases h
      · obtain rfl := Option.some.inj h
        exact .inr ⟨rfl, rfl⟩
  | quarantine extra resume => exact .inl ⟨h, .inr (Nat.lt_succ_self _)⟩
  | reapFailure g' =>
      rw [Move.run, gates_unreapedEach] at h
      cases h
  | _ =>
      revert h
      simp only [Move.run]
      (repeat' split) <;> intro h <;> first | exact .inl ⟨h, .inl rfl⟩ | cases h

/-- The only thread a block starts itself is the replacement that its restart decided on. -/
theorem run_started (m : Move) {b : Activity} (hb : b ∈ (m.run p r).started) :
    ∃ w e t g v, m = .reapRecycled w e t (some (g, v)) ∧ b = ⟨.replenishing g v, {}⟩ := by
  cases m with
  | reapRecycled w e t next =>
      simp only [Move.run] at hb
      split at hb
      · cases next with
        | some x => exact ⟨w, e, t, x.1, x.2, rfl, List.mem_singleton.mp hb⟩
        | none => cases hb
      · cases hb
  | _ => revert hb; simp only [Move.run]; (repeat' split) <;> intro hb <;> cases hb

theorem run_admission (m : Move) (h : m.admits = false) :
    (m.run p r).pool.admission = p.admission := by
  cases m with
  | contextFault | recoverOnce | quarantineOld | settleProbe | contain | register | markFailed
  | quarantine => cases h
  | _ => first | rfl | (simp only [Move.run]; (repeat' split) <;> rfl)

end Run

/-! ### How the admission state moves -/

/-- What any code of the pool may do to the admission state. -/
structure Admission.Advances (a b : Admission) : Prop where
  generation : a.poolGeneration ≤ b.poolGeneration
  epoch : a.hardRecoveryEpoch ≤ b.hardRecoveryEpoch
  closing : a.closing = true → b.closing = true
  serves : a.poolGeneration = b.poolGeneration → a.healthState.serves → b.healthState.serves
  quarantined : a.healthState = .quarantined → b.healthState = .quarantined

theorem Admission.Advances.refl (a : Admission) : a.Advances a :=
  ⟨(Nat.le_refl _), (Nat.le_refl _), id, fun _ => id, id⟩

/-- Moving to a new generation closes the chapter for everything that carries an older one. -/
theorem Admission.Advances.of_newer {a b : Admission} (hgen : a.poolGeneration < b.poolGeneration)
    (hepoch : a.hardRecoveryEpoch ≤ b.hardRecoveryEpoch)
    (hclosing : a.closing = true → b.closing = true)
    (hq : a.healthState = .quarantined → b.healthState = .quarantined) : a.Advances b :=
  ⟨Nat.le_of_lt hgen, hepoch, hclosing, fun heq => absurd heq (Nat.ne_of_lt hgen), hq⟩

section Moves

variable {p : Pool} {r : Reap}

/-- No block weakens a quarantine or takes away the service of its own generation, provided that a
replacement of the current generation means service and a gating recovery means suspicion. -/
theorem run_advances {m : Move}
    (hreplenish : ∀ g, m.source.replenishes = some g → g = p.admission.poolGeneration →
      p.admission.healthState.serves)
    (hgate : ∀ g, m.source.gates = some g → g = p.admission.poolGeneration →
      p.admission.healthState = .suspect) :
    p.admission.Advances (m.run p r).pool.admission := by
  cases m with
  | contextFault w e =>
      cases h : p.contextFaultAnswer e with
      | stale | refused =>
          simp only [Move.run, h]
          exact .refl _
      | validating g =>
          obtain ⟨-, -, hhealthy, rfl⟩ := Pool.contextFaultAnswer_validating h
          simp only [Move.run, h]
          refine .of_newer (Nat.lt_succ_self _) (Nat.le_refl _) id fun hq => ?_
          simp [hhealthy] at hq
  | recoverOnce w e =>
      simp only [Move.run]
      split_ifs with hclosing hq hwarned
      · exact .refl _
      · exact .refl _
      · exact .refl _
      · exact .of_newer (Nat.lt_succ_self _) (Nat.le_succ _) id fun h => absurd h hq
  | quarantineOld w e g =>
      simp only [Move.run, Move.endRecovery, Pool.quarantineOldWorkers]
      split_ifs with hcurrent
      · refine ⟨Nat.le_refl _, Nat.le_refl _, id, fun _ hserves => ?_, fun _ => rfl⟩
        have hsuspect := hgate g rfl hcurrent.1
        simp [HealthState.serves, hsuspect] at hserves
      · exact .refl _
  | settleProbe w e g v =>
      simp only [Move.run]
      split_ifs with hcurrent
      · obtain ⟨-, -, hsuspect⟩ := Pool.recoveryCurrent_iff.mp hcurrent
        cases v with
        | none =>
            refine ⟨Nat.le_refl _, Nat.le_refl _, id, fun _ hserves => ?_, fun _ => rfl⟩
            simp [HealthState.serves, hsuspect] at hserves
        | some v =>
            refine ⟨Nat.le_refl _, Nat.le_refl _, id, fun _ _ => .inl rfl, fun hq => ?_⟩
            simp [hsuspect] at hq
      · cases v <;> exact .refl _
  | contain w e g | quarantine extra resume =>
      exact .of_newer (Nat.lt_succ_self _) (Nat.le_succ _) id fun _ => rfl
  | register g v w =>
      cases h : p.registration g v with
      | stale | surplus =>
          simp only [Move.run, h]
          exact .refl _
      | added =>
          obtain ⟨-, -, hstate⟩ := Pool.registration_fresh (g := g) (v := v) (by rw [h]; decide)
          simp only [Move.run, h]
          cases v with
          | true =>
              refine ⟨Nat.le_refl _, Nat.le_refl _, id, fun _ _ => .inl rfl, fun hq => ?_⟩
              simp [hstate, Pool.registrableState] at hq
          | false => exact ⟨Nat.le_refl _, Nat.le_refl _, id, fun _ => id, id⟩
  | markFailed g v physical =>
      cases h : p.failure g physical with
      | stale =>
          simp only [Move.run, h]
          exact .refl _
      | quarantine =>
          simp only [Move.run, h]
          exact .of_newer (Nat.lt_succ_self _) (Nat.le_refl _) id fun _ => rfl
      | exhausted =>
          -- A constructor of the current generation fails only while the pool serves.
          obtain ⟨-, hgen⟩ := Pool.failure_fresh (by rw [h]; decide)
          simp only [Move.run, h]
          refine .of_newer (Nat.lt_succ_self _) (Nat.le_refl _) id fun hq => ?_
          have hserves := hreplenish g rfl hgen
          simp [HealthState.serves, hq] at hserves
      | retry =>
          simp only [Move.run, h]
          exact ⟨Nat.le_refl _, Nat.le_refl _, id, fun _ => id, id⟩
  | _ =>
      rw [run_admission p r _ rfl]
      exact .refl _

/-- A gate of the current generation stays unless the recovery that set it decides. -/
theorem run_suspect {m : Move} (hsuspect : p.admission.healthState = .suspect)
    (hgen : p.admission.poolGeneration = (m.run p r).pool.admission.poolGeneration)
    (hreplenish : ∀ g, m.source.replenishes = some g → g = p.admission.poolGeneration →
      p.admission.healthState.serves) :
    (m.run p r).pool.admission.healthState = .suspect ∨ m.source.locks = true := by
  cases m with
  | contextFault w e =>
      cases h : p.contextFaultAnswer e with
      | stale | refused =>
          simp only [Move.run, h]
          exact .inl hsuspect
      | validating g =>
          obtain ⟨-, -, hhealthy, -⟩ := Pool.contextFaultAnswer_validating h
          rw [hsuspect] at hhealthy
          cases hhealthy
  | quarantine extra resume => exact absurd hgen (Nat.ne_of_lt (Nat.lt_succ_self _))
  | register g v w =>
      cases h : p.registration g v with
      | stale | surplus =>
          simp only [Move.run, h]
          exact .inl hsuspect
      | added =>
          obtain ⟨-, -, hstate⟩ := Pool.registration_fresh (g := g) (v := v) (by rw [h]; decide)
          rw [hsuspect] at hstate
          cases v <;> cases hstate
  | markFailed g v physical =>
      cases h : p.failure g physical with
      | stale =>
          simp only [Move.run, h]
          exact .inl hsuspect
      | quarantine | exhausted | retry =>
          have hfresh : p.failure g physical ≠ .stale := by
            rw [h]
            decide
          have hcurrent := (Pool.failure_fresh hfresh).2
          have hserves := hreplenish g rfl hcurrent
          simp [HealthState.serves, hsuspect] at hserves
  | recoverOnce | quarantineOld | settleProbe | contain => exact .inr rfl
  | _ =>
      rw [run_admission p r _ rfl]
      exact .inl hsuspect

end Moves

/-! ### The invariant -/

theorem admitted_init (n : Nat) : Admitted (init n) where
  lock := rfl
  replenishing a ha := by cases ha
  gating a ha := by cases ha

namespace Admitted

variable {s : Sys}

theorem replenishes_of (h : Admitted s) {i : Nat} {a : Activity} (ha : s.activities[i]? = some a) :
    ∀ g, a.stage.replenishes = some g → g = s.pool.admission.poolGeneration →
      s.pool.admission.healthState.serves := by
  intro g hg
  exact (h.replenishing a (List.mem_of_getElem? ha) g hg).2

theorem gates_of (h : Admitted s) {i : Nat} {a : Activity} (ha : s.activities[i]? = some a) :
    ∀ g, a.stage.gates = some g → g = s.pool.admission.poolGeneration →
      s.pool.admission.healthState = .suspect := by
  intro g hg
  exact (h.gating a (List.mem_of_getElem? ha) g hg).2

theorem restart_replenishes {p : Pool} {w : Handle} {vg : Option Nat} {g : Nat} {v : Bool}
    (h : (p.restartWorker w vg).2 = some (g, v)) :
    g = p.admission.poolGeneration ∧ p.admission.healthState.serves := by
  simp only [Pool.restartWorker, Option.ite_none_right_eq_some, Option.some.injEq,
    Prod.mk.injEq] at h
  obtain ⟨hreplenish, rfl, -⟩ := h
  cases vg with
  | none =>
      simp only [Pool.shouldReplenish, Bool.and_eq_true, decide_eq_true_eq] at hreplenish
      exact ⟨rfl, .inl hreplenish.1⟩
  | some g =>
      simp only [Pool.shouldReplenish, Bool.and_eq_true, decide_eq_true_eq] at hreplenish
      exact ⟨hreplenish.1, .inr hreplenish.2⟩

theorem move {i : Nat} (m : Move) (r : Reap) (h : Admitted s)
    (ha : s.activities[i]? = some ⟨m.source, r⟩) (hready : m.ready s.pool r = true) :
    Admitted ((m.run s.pool r).base (s.activities.set i (m.run s.pool r).activity)) := by
  have hmem : (⟨m.source, r⟩ : Activity) ∈ s.activities := List.mem_of_getElem? ha
  have hadvances : s.pool.admission.Advances (m.run s.pool r).pool.admission :=
    run_advances (h.replenishes_of ha) (h.gates_of ha)
  have hstable : ∀ g, g ≤ s.pool.admission.poolGeneration ∧
      (g = s.pool.admission.poolGeneration → s.pool.admission.healthState.serves) →
      g ≤ (m.run s.pool r).pool.admission.poolGeneration ∧
      (g = (m.run s.pool r).pool.admission.poolGeneration →
        (m.run s.pool r).pool.admission.healthState.serves) := by
    intro g hg
    refine ⟨Nat.le_trans hg.1 hadvances.generation, fun heq => ?_⟩
    have hsame : s.pool.admission.poolGeneration = (m.run s.pool r).pool.admission.poolGeneration :=
      Nat.le_antisymm hadvances.generation (heq ▸ hg.1)
    exact hadvances.serves hsame (hg.2 (heq.trans hsame.symm))
  constructor
  · have hset := tally_set (f := lockShare) ha (m.run s.pool r).activity
    have hrun := run_lock s.pool r m hready (h.locked hmem)
    have hstarted : tally lockShare (m.run s.pool r).started = 0 := by
      refine tally_eq_zero fun b hb => ?_
      obtain ⟨w, e, t, g, v, -, rfl⟩ := run_started s.pool r m hb
      rfl
    have hlock := h.lock
    simp only [Result.base, tally_append]
    omega
  · intro b hb g hg
    rcases List.mem_append.mp hb with hb | hb
    · rcases List.mem_or_eq_of_mem_set hb with hb | rfl
      · exact hstable g (h.replenishing b hb g hg)
      · rcases run_replenishes s.pool r m hg with hg | ⟨w, e, rfl⟩ | ⟨w, e, v, rfl⟩
        · exact hstable g (h.replenishing _ hmem g hg)
        all_goals
          simp only [Move.run, Stage.replenishes, Option.map_eq_some_iff] at hg
          obtain ⟨⟨g, v⟩, hnext, rfl⟩ := hg
          obtain ⟨hgen, hserves⟩ := restart_replenishes hnext
          exact ⟨Nat.le_of_eq hgen, fun _ => hserves⟩
    · obtain ⟨w, e, t, g', v, rfl, rfl⟩ := run_started s.pool r m hb
      exact hstable g (h.replenishing _ hmem g hg)
  · intro b hb g hg
    rcases List.mem_append.mp hb with hb | hb
    · rcases mem_set_cases hb with rfl | ⟨j, hj, hb⟩
      · rcases run_gates s.pool r m hg with ⟨hg, hkept | hnewer⟩ | ⟨heq, hsuspect⟩
        · rw [Result.base, run_admission s.pool r m hkept]
          exact h.gating _ hmem g hg
        · have hle := (h.gating _ hmem g hg).1
          refine ⟨Nat.le_trans hle hadvances.generation, fun heq => ?_⟩
          exact absurd (heq ▸ hle) (Nat.not_le_of_lt hnewer)
        · exact ⟨Nat.le_of_eq heq, fun _ => hsuspect⟩
      · obtain ⟨hle, hsuspect⟩ := h.gating b (List.mem_of_getElem? hb) g hg
        refine ⟨Nat.le_trans hle hadvances.generation, fun heq => ?_⟩
        have hsame : s.pool.admission.poolGeneration =
            (m.run s.pool r).pool.admission.poolGeneration :=
          Nat.le_antisymm hadvances.generation (heq ▸ hle)
        rcases run_suspect (hsuspect (heq.trans hsame.symm)) hsame (h.replenishes_of ha) with
          hkept | hlocks
        · exact hkept
        · have hfree := h.unlocked hj ha hb hlocks
          rw [Stage.locks_of_gates hg] at hfree
          cases hfree
    · obtain ⟨w, e, t, g', v, rfl, rfl⟩ := run_started s.pool r m hb
      cases hg

theorem topUps_pos {p : Pool} (h : 0 < p.topUps) :
    p.admission.closing = false ∧ p.admission.healthState = .healthy := by
  rw [Pool.topUps] at h
  split at h
  · assumption
  · exact absurd h (Nat.lt_irrefl 0)

theorem topUp (h : Admitted s) : Admitted s.topUp where
  lock := by
    have hthreads : tally lockShare (topUpThreads s.pool) = 0 := by
      rw [topUpThreads, tally_replicate]
      rfl
    rw [Sys.topUp, tally_append, hthreads]
    exact h.lock
  replenishing b hb g hg := by
    rcases List.mem_append.mp hb with hb | hb
    · exact h.replenishing b hb g hg
    · obtain ⟨hpos, rfl⟩ := List.mem_replicate.mp hb
      obtain rfl := Option.some.inj hg
      exact ⟨Nat.le_refl _, fun _ => .inl (topUps_pos (Nat.pos_of_ne_zero hpos)).2⟩
  gating b hb g hg := by
    rcases List.mem_append.mp hb with hb | hb
    · exact h.gating b hb g hg
    · obtain ⟨-, rfl⟩ := List.mem_replicate.mp hb
      cases hg

end Admitted

theorem call_advances {p : Pool} (c : Call) : p.admission.Advances (c.run p).pool.admission := by
  cases c with
  | checkout w => exact ⟨Nat.le_refl _, Nat.le_refl _, id, fun _ => id, id⟩
  | poll | reconcile => exact .refl _
  | foundOrphan => exact .of_newer (Nat.lt_succ_self _) (Nat.le_succ _) id fun _ => rfl
  | shutdown => exact .of_newer (Nat.lt_succ_self _) (Nat.le_refl _) (fun _ => rfl) id

/-- The activity that a call starts neither decides about the pool nor brings a replacement. -/
theorem call_activity {p : Pool} (c : Call) :
    (c.run p).activity.stage.locks = false ∧ (c.run p).activity.stage.replenishes = none ∧
      (c.run p).activity.stage.gates = none ∧ (c.run p).started = [] := by
  cases c <;> exact ⟨rfl, rfl, rfl, rfl⟩

namespace Admitted

variable {s : Sys}

theorem call (c : Call) (h : Admitted s) :
    Admitted ((c.run s.pool).base (s.activities ++ [(c.run s.pool).activity])) := by
  obtain ⟨hlocks, hreplenishes, hgates, hstarted⟩ := call_activity (p := s.pool) c
  have hadvances := call_advances (p := s.pool) c
  have hbase : ∀ b ∈ ((c.run s.pool).base (s.activities ++ [(c.run s.pool).activity])).activities,
      b ∈ s.activities ∨ b = (c.run s.pool).activity := by
    intro b hb
    rw [Result.base, hstarted, List.append_nil] at hb
    simpa using hb
  constructor
  · have hlock : (c.run s.pool).pool.recoveryLock = s.pool.recoveryLock := by cases c <;> rfl
    rw [Result.base, hstarted, List.append_nil, tally_append, h.lock, tally_cons, lockShare, hlocks,
      hlock]
    rfl
  · intro b hb g hg
    rcases hbase b hb with hb | rfl
    · obtain ⟨hle, hserves⟩ := h.replenishing b hb g hg
      refine ⟨Nat.le_trans hle hadvances.generation, fun heq => ?_⟩
      have hsame := Nat.le_antisymm hadvances.generation (heq ▸ hle)
      exact hadvances.serves hsame (hserves (heq.trans hsame.symm))
    · rw [hreplenishes] at hg
      cases hg
  · intro b hb g hg
    rcases hbase b hb with hb | rfl
    · obtain ⟨hle, hsuspect⟩ := h.gating b hb g hg
      refine ⟨Nat.le_trans hle hadvances.generation, fun heq => ?_⟩
      have hsame := Nat.le_antisymm hadvances.generation (heq ▸ hle)
      have hold := hsuspect (heq.trans hsame.symm)
      cases c with
      | foundOrphan | shutdown => exact absurd hsame (Nat.ne_of_lt (Nat.lt_succ_self _))
      | checkout | poll | reconcile => exact hold
    · rw [hgates] at hg
      cases hg

/-- The return of a shutdown changes no stage. -/
theorem stopped {i : Nat} {a : Activity} {w : Handle} (proven : Bool) (h : Admitted s)
    (ha : s.activities[i]? = some a) : Admitted (s.stopped i a w proven) where
  lock := by
    have hset := tally_set (f := lockShare) ha
      { a with reap :=
          { todo := a.reap.todo.erase w
            results := a.reap.results ++ [(w, (s.pool.registry.shutdown w proven).2)] } }
    exact (Nat.add_right_cancel hset).trans h.lock
  replenishing := forall_mem_set h.replenishing (h.replenishing a (List.mem_of_getElem? ha))
  gating := forall_mem_set h.gating (h.gating a (List.mem_of_getElem? ha))

theorem preserved : Preserved Admitted where
  move m r h ha hready := h.move m r ha hready
  call c h _ := h.call c
  topUp h := h.topUp
  stopped proven h ha _ := h.stopped proven ha
  dies _ h := ⟨h.lock, h.replenishing, h.gating⟩

theorem reachable {n : Nat} (hs : Reachable n s) : Admitted s :=
  preserved.reachable (admitted_init n) hs

end Admitted

/-! ### Every step -/

theorem finish_admission (r : Result) (activities : List Activity) :
    (r.finish activities).pool.admission = r.pool.admission := by
  rw [Result.finish_eq]
  split <;> rfl

theorem step_advances {s t : Sys} {c : Action} (h : Admitted s) (hstep : step s c = some t) :
    s.pool.admission.Advances t.pool.admission := by
  cases c with
  | move i m =>
      obtain ⟨r, ha, -, rfl⟩ := step_move hstep
      rw [finish_admission]
      exact run_advances (h.replenishes_of ha) (h.gates_of ha)
  | call c =>
      obtain ⟨-, rfl⟩ := step_call hstep
      rw [finish_admission]
      exact call_advances c
  | stopped i w proven =>
      obtain ⟨a, -, -, rfl⟩ := step_stopped hstep
      exact .refl _
  | dies w =>
      obtain rfl := step_dies hstep
      exact .refl _

end KernelGym.WorkerPool
