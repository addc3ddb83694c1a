import KernelGym.PoolStructure

/-! The capacity of the pool. A worker that is executing, or whose context fault is being validated,
can leave `workers` only together with its hard epoch or its generation; this is why a replacement of
such a worker takes the place that the worker itself gives up. -/

namespace KernelGym.WorkerPool

open Library

/-- What an activity may rely on about the worker it holds, or about the shutdown it carries out. -/
def Stage.Attached (p : Pool) : Stage → Prop
  | .executing w e =>
    e ≤ p.admission.hardRecoveryEpoch ∧ (e = p.admission.hardRecoveryEpoch →
      w ∈ p.roster.workers ∨ p.admission.closing = true ∨ p.admission.healthState = .quarantined)
  | .faulted w _ g =>
    g ≤ p.admission.poolGeneration ∧ (g = p.admission.poolGeneration → w ∈ p.roster.workers)
  | .shutdownReaping | .shutdownDraining | .shutdownDrained _ | .shutdownLate _ =>
    p.admission.closing = true
  | .unreaped _ resume | .quarantining resume => resume.Attached p
  | _ => True

structure Bounded (s : Sys) : Prop where
  capacity : s.pool.roster.workers.length + s.pool.roster.pendingReplacements ≤
    s.pool.roster.poolSize
  suspended : s.pool.admission.healthState = .suspect → s.pool.roster.workers = []
  closed : s.pool.admission.closing = true → s.pool.roster.workers = []
  room : ∀ a ∈ s.activities, a.stage.holds ≠ none → 0 < s.pool.roster.poolSize
  attached : ∀ a ∈ s.activities, a.stage.Attached s.pool

/-- `p'` has closed a chapter of `p`, for good reason. -/
def Pool.Supersedes (p' p : Pool) : Prop :=
  p.admission.poolGeneration < p'.admission.poolGeneration ∧
    (p.admission.hardRecoveryEpoch < p'.admission.hardRecoveryEpoch ∨
      p'.admission.closing = true ∨ p'.admission.healthState = .quarantined)

/-- What an activity relies on survives as long as its worker leaves only with the chapter. -/
theorem Stage.Attached.mono {p p' : Pool} (hadvances : p.admission.Advances p'.admission)
    {stage : Stage} (h : stage.Attached p)
    (hkeep : ∀ w, stage.holds = some w → w ∈ p.roster.workers →
      w ∈ p'.roster.workers ∨ p'.Supersedes p) : stage.Attached p' := by
  induction stage with
  | executing w e =>
      obtain ⟨hle, hmember⟩ := h
      refine ⟨Nat.le_trans hle hadvances.epoch, fun heq => ?_⟩
      have hsame : e = p.admission.hardRecoveryEpoch :=
        Nat.le_antisymm hle (heq ▸ hadvances.epoch)
      rcases hmember hsame with hw | hclosing | hq
      · rcases hkeep w rfl hw with hw | ⟨-, hepoch | hrest⟩
        · exact .inl hw
        · exact absurd (heq ▸ hle) (Nat.not_le_of_lt hepoch)
        · exact .inr hrest
      · exact .inr (.inl (hadvances.closing hclosing))
      · exact .inr (.inr (hadvances.quarantined hq))
  | faulted w e g =>
      obtain ⟨hle, hmember⟩ := h
      refine ⟨Nat.le_trans hle hadvances.generation, fun heq => ?_⟩
      have hsame : g = p.admission.poolGeneration :=
        Nat.le_antisymm hle (heq ▸ hadvances.generation)
      rcases hkeep w rfl (hmember hsame) with hw | ⟨hnewer, -⟩
      · exact hw
      · exact absurd (heq ▸ hle) (Nat.not_le_of_lt hnewer)
  | shutdownReaping | shutdownDraining => exact hadvances.closing h
  | shutdownDrained stopped | shutdownLate stopped => exact hadvances.closing h
  | unreaped extra resume ih => exact ih h hkeep
  | quarantining resume ih => exact ih h hkeep
  | _ => trivial

theorem Stage.Attached.of_same {p p' : Pool} {stage : Stage} (h : stage.Attached p)
    (hadmission : p'.admission = p.admission) (hworkers : p'.roster.workers = p.roster.workers) :
    stage.Attached p' := by
  refine h.mono ?_ fun w _ hw => .inl ?_
  · rw [hadmission]
    exact .refl _
  · rw [hworkers]
    exact hw

theorem attached_unreapedEach {p : Pool} {ws : List Handle} (last : Stage)
    (h : last.Attached p) : (unreapedEach ws last).Attached p := by
  induction ws with
  | nil => exact h
  | cons w ws ih => exact ih

/-! ### One block -/

section Run

variable {p : Pool} {r : Reap}

/-- A worker that another task holds is removed only with the chapter. -/
theorem run_keeps (m : Move) {w : Handle} (hw : w ∈ p.roster.workers)
    (hother : m.source.holds ≠ some w)
    (hclosed : (∃ b, m = .shutdownSnapshot b) → p.roster.workers = []) :
    w ∈ (m.run p r).pool.roster.workers ∨ (m.run p r).pool.Supersedes p := by
  have hlater : p.admission.poolGeneration < p.admission.poolGeneration + 1 := Nat.lt_succ_self _
  by_cases hquiet : m.rearranges = false
  · rw [(run_lists p hquiet).1]
    exact .inl hw
  cases m with
  | recycle x e | recycleFaulted x e g =>
      have hne : w ≠ x := fun heq => hother (heq ▸ rfl)
      exact .inl ((List.mem_erase_of_ne hne).mpr hw)
  | returnWorker x e o => exact .inl hw
  | recoverOnce x e =>
      simp only [Move.run]
      split_ifs
      · exact .inl hw
      · exact .inl hw
      · exact .inl hw
      · exact .inr ⟨hlater, .inl (Nat.lt_succ_self _)⟩
  | settleProbe x e g v =>
      refine .inl ?_
      simp only [Move.run]
      split
      · cases v
        · exact hw
        · exact List.mem_append_left _ hw
      · cases v <;> exact hw
  | contain x e g | quarantine extra resume => exact .inr ⟨hlater, .inl (Nat.lt_succ_self _)⟩
  | register g v x =>
      refine .inl ?_
      cases h : p.registration g v <;> rw [Move.run, h]
      · exact hw
      · exact List.mem_append_left _ hw
      · exact hw
  | markFailed g v physical =>
      cases h : p.failure g physical <;> rw [Move.run, h]
      · exact .inl hw
      · exact .inr ⟨hlater, .inr (.inr rfl)⟩
      · exact .inl hw
      · exact .inl hw
  | shutdownSnapshot stopped =>
      rw [hclosed ⟨stopped, rfl⟩] at hw
      cases hw
  | _ => exact absurd rfl hquiet

/-- Where a block leaves its own activity. -/
theorem run_attached (m : Move) (hadvances : p.admission.Advances (m.run p r).pool.admission)
    (h : m.source.Attached p) : (m.run p r).activity.stage.Attached (m.run p r).pool := by
  cases m with
  | contextFault w e =>
      cases hanswer : p.contextFaultAnswer e with
      | stale | refused =>
          rw [Move.run, hanswer]
          trivial
      | validating g =>
          obtain ⟨hepoch, hopen, hhealthy, rfl⟩ := Pool.contextFaultAnswer_validating hanswer
          rw [Move.run, hanswer]
          refine ⟨Nat.le_refl _, fun _ => ?_⟩
          rcases h.2 hepoch with hw | hclosing | hq
          · exact hw
          · rw [hopen] at hclosing
            cases hclosing
          · rw [hhealthy] at hq
            cases hq
  | shutdownReaped | shutdownDrain stopped | shutdownSnapshot stopped => exact h
  | quarantine extra resume =>
      exact Stage.Attached.mono hadvances h fun _ _ _ =>
        .inr ⟨Nat.lt_succ_self _, .inl (Nat.lt_succ_self _)⟩
  | endQuarantine resume => exact Stage.Attached.of_same h rfl rfl
  | reapFailure g => exact attached_unreapedEach (.failureDone g) trivial
  | _ => simp only [Move.run]; (repeat' split) <;> trivial

theorem run_poolSize (m : Move) : (m.run p r).pool.roster.poolSize = p.roster.poolSize := by
  cases m with
  | contextFault w e => cases h : p.contextFaultAnswer e <;> rw [Move.run, h] <;> rfl
  | quarantineOld w e g =>
      simp only [Move.run, Move.endRecovery, Pool.quarantineOldWorkers]
      split <;> rfl
  | settleProbe w e g v => cases v <;> simp only [Move.run] <;> split <;> rfl
  | register g v w => cases h : p.registration g v <;> rw [Move.run, h] <;> rfl
  | markFailed g v physical => cases h : p.failure g physical <;> rw [Move.run, h] <;> rfl
  | _ => first | rfl | (simp only [Move.run]; (repeat' split) <;> rfl)

/-- The blocks that count replacements in or out. -/
def Move.accounts : Move → Bool
  | .contextFault _ _ | .recycle _ _ | .recycleFaulted _ _ _ | .recoverOnce _ _
  | .quarantineOld _ _ _ | .settleProbe _ _ _ _ | .contain _ _ _ | .register _ _ _
  | .markFailed _ _ _ | .retry _ | .shutdownSnapshot _ | .quarantine _ _ => true
  | _ => false

theorem run_accounts (m : Move) (hm : m.accounts = false) :
    (m.run p r).pool.roster.workers = p.roster.workers ∧
      (m.run p r).pool.roster.pendingReplacements = p.roster.pendingReplacements := by
  cases m with
  | contextFault | recycle | recycleFaulted | recoverOnce | quarantineOld | settleProbe | contain
  | register | markFailed | retry | shutdownSnapshot | quarantine => cases hm
  | _ => first | exact ⟨rfl, rfl⟩ | (simp only [Move.run]; (repeat' split) <;> exact ⟨rfl, rfl⟩)

theorem restart_capacity {w : Handle} {vg : Option Nat}
    (hcapacity : p.roster.workers.length + p.roster.pendingReplacements ≤ p.roster.poolSize)
    (hmember : ∀ g, vg = some g → g = p.admission.poolGeneration → w ∈ p.roster.workers) :
    (p.restartWorker w vg).1.roster.workers.length +
      (p.restartWorker w vg).1.roster.pendingReplacements ≤ p.roster.poolSize := by
  have hle : (p.roster.workers.erase w).length ≤ p.roster.workers.length :=
    List.length_erase_le
  change (p.roster.workers.erase w).length + (p.roster.pendingReplacements +
    if (p.removeWorker w).shouldReplenish vg = true then 1 else 0) ≤ p.roster.poolSize
  split
  · rename_i hreplenish
    cases vg with
    | none =>
        have hfree : (p.roster.workers.erase w).length + p.roster.pendingReplacements +
            p.roster.pendingRetirements < p.roster.poolSize :=
          of_decide_eq_true (Bool.and_eq_true_iff.mp hreplenish).2
        omega
    | some g =>
        simp only [Pool.shouldReplenish, Bool.and_eq_true, decide_eq_true_eq] at hreplenish
        have hw := hmember g rfl hreplenish.1
        have hpos := List.length_pos_of_mem hw
        rw [List.length_erase_of_mem hw]
        omega
  · omega

/-- Whatever a block adds to the pool it takes from the room that is free. -/
theorem run_capacity (m : Move)
    (hcapacity : p.roster.workers.length + p.roster.pendingReplacements ≤ p.roster.poolSize)
    (hsuspended : p.admission.healthState = .suspect → p.roster.workers = [])
    (hroom : m.source.holds ≠ none → 0 < p.roster.poolSize) (hattached : m.source.Attached p) :
    (m.run p r).pool.roster.workers.length + (m.run p r).pool.roster.pendingReplacements ≤
      p.roster.poolSize := by
  by_cases hquiet : m.accounts = false
  · rw [(run_accounts m hquiet).1, (run_accounts m hquiet).2]
    exact hcapacity
  cases m with
  | contextFault w e =>
      cases h : p.contextFaultAnswer e <;> rw [Move.run, h]
      · exact hcapacity
      · exact hcapacity
      · exact Nat.le_trans (Nat.le_add_right _ _) hcapacity
  | recycle w e => exact restart_capacity hcapacity fun _ hg => by cases hg
  | recycleFaulted w e g =>
      refine restart_capacity hcapacity fun g' hg => ?_
      obtain rfl := Option.some.inj hg
      exact hattached.2
  | recoverOnce w e =>
      simp only [Move.run]
      split_ifs
      · exact hcapacity
      · exact hcapacity
      · exact hcapacity
      · exact hroom (Option.some_ne_none w)
  | quarantineOld w e g =>
      simp only [Move.run, Move.endRecovery, Pool.quarantineOldWorkers]
      split
      · exact Nat.le_trans (Nat.le_add_right _ _) hcapacity
      · exact hcapacity
  | settleProbe w e g v =>
      have hone : 0 < p.roster.poolSize := hroom (Option.some_ne_none w)
      simp only [Move.run]
      split
      · rename_i hcurrent
        have hnone := hsuspended (Pool.recoveryCurrent_iff.mp hcurrent).2.2
        cases v with
        | none => exact Nat.le_trans (Nat.le_add_right _ _) hcapacity
        | some v =>
            simp only [Pool.settleProbe, Pool.finishReplenishmentTicket, hnone]
            exact hone
      · cases v <;> exact hcapacity
  | contain w e g | quarantine extra resume => exact Nat.zero_le _
  | register g v w =>
      cases h : p.registration g v <;> rw [Move.run, h]
      · exact hcapacity
      · have hfree := Pool.registration_added h
        simp only [Pool.register, List.length_append, List.length_singleton]
        omega
      · simp only [Pool.register]
        omega
  | markFailed g v physical =>
      cases h : p.failure g physical <;> rw [Move.run, h]
      · exact hcapacity
      · exact Nat.zero_le _
      · exact Nat.le_trans (Nat.le_add_right _ _) hcapacity
      · exact hcapacity
  | retry g =>
      simp only [Move.run, Pool.retryCapacity]
      split
      · exact hcapacity
      · simp only
        omega
  | shutdownSnapshot stopped =>
      refine Nat.le_trans ?_ hcapacity
      exact Nat.add_le_add_right (Nat.zero_le _) _
  | _ => exact absurd rfl hquiet

theorem run_closing (m : Move) :
    (m.run p r).pool.admission.closing = p.admission.closing := by
  by_cases hquiet : m.admits = false
  · rw [run_admission p r m hquiet]
  cases m with
  | contextFault w e => cases h : p.contextFaultAnswer e <;> rw [Move.run, h] <;> rfl
  | recoverOnce w e => simp only [Move.run]; split_ifs <;> rfl
  | quarantineOld w e g =>
      simp only [Move.run, Move.endRecovery, Pool.quarantineOldWorkers]
      split <;> rfl
  | settleProbe w e g v => cases v <;> simp only [Move.run] <;> split <;> rfl
  | contain w e g | quarantine extra resume => rfl
  | register g v w => cases h : p.registration g v <;> rw [Move.run, h] <;> cases v <;> rfl
  | markFailed g v physical => cases h : p.failure g physical <;> rw [Move.run, h] <;> rfl
  | _ => exact absurd rfl hquiet

/-- Only the gate of a recovery suspends the pool, and it removes every worker. -/
theorem run_suspends (m : Move) (h : (m.run p r).pool.admission.healthState = .suspect) :
    p.admission.healthState = .suspect ∨ (m.run p r).pool.roster.workers = [] := by
  by_cases hquiet : m.admits = false
  · rw [run_admission p r m hquiet] at h
    exact .inl h
  cases m with
  | contextFault w e =>
      cases hanswer : p.contextFaultAnswer e <;> rw [Move.run, hanswer] at h
      · exact .inl h
      · exact .inl h
      · cases h
  | recoverOnce w e =>
      revert h
      simp only [Move.run]
      split_ifs <;> intro h
      · exact .inl h
      · exact .inl h
      · exact .inl h
      · exact .inr rfl
  | quarantineOld w e g =>
      revert h
      simp only [Move.run, Move.endRecovery, Pool.quarantineOldWorkers]
      split <;> intro h
      · cases h
      · exact .inl h
  | settleProbe w e g v =>
      revert h
      simp only [Move.run]
      split
      · rename_i hcurrent
        exact fun _ => .inl (Pool.recoveryCurrent_iff.mp hcurrent).2.2
      · cases v <;> exact .inl
  | contain w e g | quarantine extra resume => cases h
  | register g v w =>
      cases hdecision : p.registration g v <;> rw [Move.run, hdecision] at h
      · exact .inl h
      · cases v
        · exact .inl h
        · cases h
      · exact .inl h
  | markFailed g v physical =>
      cases hdecision : p.failure g physical <;> rw [Move.run, hdecision] at h
      · exact .inl h
      · cases h
      · cases h
      · exact .inl h
  | _ => exact absurd rfl hquiet

/-- A pool that is suspended or closing gains no worker. -/
theorem run_empty (m : Move) (hnone : p.roster.workers = [])
    (h : (m.run p r).pool.admission.healthState = .suspect ∨ p.admission.closing = true) :
    (m.run p r).pool.roster.workers = [] := by
  refine List.eq_nil_iff_forall_not_mem.mpr fun w hw => ?_
  rcases run_workers m hw with hw | ⟨g, v, rfl, hadded⟩ | ⟨x, e, g, rfl, hcurrent⟩
  · rw [hnone] at hw
    cases hw
  · obtain ⟨hopen, -, hstate⟩ := Pool.registration_fresh (p := p) (g := g) (v := v)
      (by rw [hadded]; decide)
    rw [Move.run, hadded] at h
    rcases h with hsuspect | hclosing
    · cases v
      · exact absurd (hstate.symm.trans hsuspect) (by decide)
      · cases hsuspect
    · rw [hopen] at hclosing
      cases hclosing
  · obtain ⟨hopen, -, -⟩ := Pool.recoveryCurrent_iff.mp hcurrent
    simp only [Move.run, hcurrent, if_true] at h
    rcases h with hsuspect | hclosing
    · cases hsuspect
    · rw [hopen] at hclosing
      cases hclosing

end Run

/-! ### The invariant -/

theorem bounded_init (n : Nat) : Bounded (init n) where
  capacity := by simp [init]
  suspended h := by cases h
  closed h := by cases h
  room a ha := by cases ha
  attached a ha := by cases ha

/-- The two invariants from which the capacity follows, with the capacity. -/
structure Accounted (s : Sys) : Prop where
  admitted : Admitted s
  structured : Structured s
  bounded : Bounded s

namespace Accounted

variable {s : Sys}

/-- No worker has a second holder. -/
theorem holder_unique (h : Accounted s) {i j : Nat} {a b : Activity} {w : Handle} (hij : j ≠ i)
    (ha : s.activities[i]? = some a) (hb : s.activities[j]? = some b)
    (hw : b.stage.holds = some w) : a.stage.holds ≠ some w := by
  intro heq
  have hle := add_le_tally (f := marks (fun a : Activity => a.stage.holds) w)
    (fun heq => hij heq.symm) ha hb
  have hone := (h.structured.fits w).exclusive
  rw [← Sys.holders] at hle
  simp only [marks, heq, hw, if_true] at hle
  omega

/-- A worker that is held and not removed is busy, and not idle. -/
theorem held_busy (h : Accounted s) {a : Activity} (ha : a ∈ s.activities) {w : Handle}
    (hw : a.stage.holds = some w) :
    w ∉ s.pool.roster.idleWorkers ∧
      (w ∈ s.pool.roster.workers → w ∈ s.pool.roster.busyWorkers) := by
  have hpos : 0 < s.holders w := tally_pos.mpr ⟨a, ha, by simp [marks, hw]⟩
  obtain ⟨honce, hviews, hheld, hexclusive⟩ := h.structured.fits w
  refine ⟨List.count_eq_zero.mp (by omega), fun hworker => ?_⟩
  have hcount := List.count_pos_iff.mpr hworker
  exact List.count_pos_iff.mp (by omega)

theorem bounded_move (h : Accounted s) {i : Nat} (m : Move) (r : Reap)
    (ha : s.activities[i]? = some ⟨m.source, r⟩) :
    Bounded ((m.run s.pool r).base (s.activities.set i (m.run s.pool r).activity)) := by
  have hmem : (⟨m.source, r⟩ : Activity) ∈ s.activities := List.mem_of_getElem? ha
  have hattached := h.bounded.attached _ hmem
  have hadvances : s.pool.admission.Advances (m.run s.pool r).pool.admission :=
    run_advances (h.admitted.replenishes_of ha) (h.admitted.gates_of ha)
  have hsize := run_poolSize (p := s.pool) (r := r) m
  constructor
  · rw [Result.base, hsize]
    exact run_capacity m h.bounded.capacity h.bounded.suspended (h.bounded.room _ hmem) hattached
  · intro hsuspect
    rcases run_suspends m hsuspect with hold | hnone
    · exact run_empty m (h.bounded.suspended hold) (.inl hsuspect)
    · exact hnone
  · intro hclosing
    rw [Result.base, run_closing] at hclosing
    exact run_empty m (h.bounded.closed hclosing) (.inr hclosing)
  · intro b hb hholds
    rw [Result.base, hsize]
    rcases List.mem_append.mp hb with hb | hb
    · rcases List.mem_or_eq_of_mem_set hb with hb | rfl
      · exact h.bounded.room b hb hholds
      · refine h.bounded.room _ hmem fun hnone => hholds ?_
        rw [run_holds]
        cases m with
        | returnWorker w e o => rfl
        | _ => exact hnone
    · obtain ⟨w, e, t, g, v, -, rfl⟩ := run_started s.pool r m hb
      exact absurd rfl hholds
  · intro b hb
    rcases List.mem_append.mp hb with hb | hb
    · rcases mem_set_cases hb with rfl | ⟨j, hj, hb⟩
      · exact run_attached m hadvances hattached
      · refine (h.bounded.attached b (List.mem_of_getElem? hb)).mono hadvances fun w hw hworker => ?_
        refine run_keeps m hworker (h.holder_unique hj ha hb hw) fun hclosed => ?_
        obtain ⟨stopped, rfl⟩ := hclosed
        exact h.bounded.closed hattached
    · obtain ⟨w, e, t, g, v, -, rfl⟩ := run_started s.pool r m hb
      trivial

/-- A call removes no worker that a task holds, unless it closes the chapter. -/
theorem call_keeps (h : Accounted s) (c : Call) {a : Activity} (ha : a ∈ s.activities) {w : Handle}
    (hw : a.stage.holds = some w) (hworker : w ∈ s.pool.roster.workers) :
    w ∈ (c.run s.pool).pool.roster.workers ∨ (c.run s.pool).pool.Supersedes s.pool := by
  cases c with
  | checkout x | poll => exact .inl hworker
  | reconcile =>
      have hbusy := (h.held_busy ha hw).2 hworker
      have hlive : w ∉ s.pool.deadWorkers := fun hdead => Structured.detached_not_busy hdead hbusy
      exact .inl (List.mem_filter.mpr ⟨hworker, by simpa using hlive⟩)
  | foundOrphan => exact .inr ⟨Nat.lt_succ_self _, .inl (Nat.lt_succ_self _)⟩
  | shutdown => exact .inr ⟨Nat.lt_succ_self _, .inr (.inl rfl)⟩

theorem bounded_call (h : Accounted s) (c : Call) (hready : c.ready s.pool = true) :
    Bounded ((c.run s.pool).base (s.activities ++ [(c.run s.pool).activity])) := by
  have hadvances := call_advances (p := s.pool) c
  have hbase : ∀ b ∈ ((c.run s.pool).base (s.activities ++ [(c.run s.pool).activity])).activities,
      b ∈ s.activities ∨ b = (c.run s.pool).activity := by
    intro b hb
    rw [Result.base, (call_activity c).2.2.2, List.append_nil] at hb
    simpa using hb
  have hsize : (c.run s.pool).pool.roster.poolSize = s.pool.roster.poolSize := by cases c <;> rfl
  have hfirst : ∀ x, c = .checkout x → x ∈ s.pool.roster.workers := by
    rintro x rfl
    simp only [Call.ready, Bool.and_eq_true, decide_eq_true_eq] at hready
    have hidle := List.count_pos_iff.mpr (List.mem_of_mem_head? hready.2)
    have hviews := (h.structured.fits x).views
    exact List.count_pos_iff.mp (by omega)
  constructor
  · cases c with
    | checkout x | poll => exact h.bounded.capacity
    | reconcile =>
        refine Nat.le_trans ?_ h.bounded.capacity
        exact Nat.add_le_add_right (List.length_filter_le _ _) _
    | foundOrphan | shutdown => exact Nat.zero_le _
  · intro hsuspect
    cases c with
    | checkout x | poll => exact h.bounded.suspended hsuspect
    | reconcile =>
        have hnone := h.bounded.suspended hsuspect
        simp [Result.base, Call.run, Pool.detachDeadWorkers, Pool.registerReplenishmentTicket, hnone]
    | foundOrphan | shutdown => rfl
  · intro hclosing
    cases c with
    | checkout x | poll => exact h.bounded.closed hclosing
    | reconcile =>
        have hnone := h.bounded.closed hclosing
        simp [Result.base, Call.run, Pool.detachDeadWorkers, Pool.registerReplenishmentTicket, hnone]
    | foundOrphan | shutdown => rfl
  · intro b hb hholds
    rw [Result.base, hsize]
    rcases hbase b hb with hb | rfl
    · exact h.bounded.room b hb hholds
    · cases c with
      | checkout x =>
          have hpos := List.length_pos_of_mem (hfirst x rfl)
          have hcapacity := h.bounded.capacity
          omega
      | poll | reconcile | foundOrphan | shutdown => exact absurd rfl hholds
  · intro b hb
    rcases hbase b hb with hb | rfl
    · exact (h.bounded.attached b hb).mono hadvances fun w hw hworker =>
        h.call_keeps c hb hw hworker
    · cases c with
      | checkout x => exact ⟨Nat.le_refl _, fun _ => .inl (hfirst x rfl)⟩
      | shutdown => exact (rfl : true = true)
      | poll | reconcile | foundOrphan => trivial

theorem bounded_topUp (h : Bounded s) : Bounded s.topUp where
  capacity := by
    have hcapacity := h.capacity
    simp only [Sys.topUp, Pool.ensureCapacity, Pool.topUps]
    split <;> omega
  suspended := h.suspended
  closed := h.closed
  room b hb hholds := by
    rcases List.mem_append.mp hb with hb | hb
    · exact h.room b hb hholds
    · obtain ⟨-, rfl⟩ := List.mem_replicate.mp hb
      exact absurd rfl hholds
  attached b hb := by
    rcases List.mem_append.mp hb with hb | hb
    · exact (h.attached b hb).of_same rfl rfl
    · obtain ⟨-, rfl⟩ := List.mem_replicate.mp hb
      trivial

theorem preserved : Preserved Accounted where
  move m r h ha hready :=
    ⟨h.admitted.move m r ha hready, Structured.preserved.move m r h.structured ha hready,
      h.bounded_move m r ha⟩
  call c h hready :=
    ⟨h.admitted.call c, Structured.preserved.call c h.structured hready, h.bounded_call c hready⟩
  topUp h := ⟨h.admitted.topUp, h.structured.topUp, bounded_topUp h.bounded⟩
  stopped {s i a w} proven h ha hw := by
    refine ⟨h.admitted.stopped proven ha, h.structured.stopped proven ha, ?_⟩
    obtain ⟨hcapacity, hsuspended, hclosed, hroom, hattached⟩ := h.bounded
    have hmem := List.mem_of_getElem? ha
    refine ⟨hcapacity, hsuspended, hclosed, forall_mem_set hroom (hroom a hmem), ?_⟩
    refine forall_mem_set (fun b hb => ?_) ?_
    · exact (hattached b hb).of_same rfl rfl
    · exact (hattached a hmem).of_same rfl rfl
  dies w h := by
    refine ⟨Admitted.preserved.dies w h.admitted, Structured.preserved.dies w h.structured, ?_⟩
    obtain ⟨hcapacity, hsuspended, hclosed, hroom, hattached⟩ := h.bounded
    exact ⟨hcapacity, hsuspended, hclosed, hroom, fun b hb => (hattached b hb).of_same rfl rfl⟩

theorem reachable {n : Nat} (hs : Reachable n s) : Accounted s :=
  preserved.reachable ⟨admitted_init n, structured_init n, bounded_init n⟩ hs

end Accounted

/-- The size of the pool is the size it was built with. -/
theorem poolSize_preserved (n : Nat) : Preserved fun s => s.pool.roster.poolSize = n where
  move m _ h _ _ := (run_poolSize m).trans h
  call c h _ := by cases c <;> exact h
  topUp h := h
  stopped _ h _ _ := h
  dies _ h := h

/-- **Capacity and structure.** Workers and pending replacements fit in the pool, the two views share
its members without repetition, and a worker that was handed out is busy and not idle until it is
returned, unless it has been removed. -/
theorem capacity_and_structure {n : Nat} {s : Sys} (hs : Reachable n s) :
    s.pool.roster.poolSize = n ∧
    s.pool.roster.workers.length + s.pool.roster.pendingReplacements ≤ s.pool.roster.poolSize ∧
    (∀ w ∈ s.pool.roster.idleWorkers, w ∈ s.pool.roster.workers ∧ w ∉ s.pool.roster.busyWorkers) ∧
    (∀ w ∈ s.pool.roster.busyWorkers, w ∈ s.pool.roster.workers) ∧
    s.pool.roster.workers.Nodup ∧ s.pool.roster.idleWorkers.Nodup ∧
    s.pool.roster.busyWorkers.Nodup ∧
    ∀ a ∈ s.activities, ∀ w, a.stage.holds = some w →
      w ∉ s.pool.roster.idleWorkers ∧
        (w ∈ s.pool.roster.busyWorkers ∨ w ∉ s.pool.roster.workers) := by
  have h := Accounted.reachable hs
  have hfits := h.structured.fits
  refine ⟨(poolSize_preserved n).reachable rfl hs, h.bounded.capacity, fun w hw => ?_,
    fun w hw => ?_, ?_, ?_, ?_, fun a ha w hw => ?_⟩
  · have hidle := List.count_pos_iff.mpr hw
    obtain ⟨honce, hviews, -, -⟩ := hfits w
    exact ⟨List.count_pos_iff.mp (by omega), List.count_eq_zero.mp (by omega)⟩
  · have hbusy := List.count_pos_iff.mpr hw
    have hviews := (hfits w).views
    exact List.count_pos_iff.mp (by omega)
  · exact List.nodup_iff_count.mpr fun w => by have honce := (hfits w).once; omega
  · exact List.nodup_iff_count.mpr fun w => by
      obtain ⟨honce, hviews, -, -⟩ := hfits w
      omega
  · exact List.nodup_iff_count.mpr fun w => by
      obtain ⟨honce, hviews, -, -⟩ := hfits w
      omega
  · obtain ⟨hidle, hbusy⟩ := h.held_busy ha hw
    refine ⟨hidle, ?_⟩
    by_cases hworker : w ∈ s.pool.roster.workers
    · exact .inl (hbusy hworker)
    · exact .inr hworker

theorem capacity_and_structure_degraded :
    degraded.pool.roster.poolSize = 2 ∧
      ∀ w ∈ degraded.pool.roster.busyWorkers, w ∈ degraded.pool.roster.workers :=
  ⟨(capacity_and_structure degraded_reachable).1, (capacity_and_structure degraded_reachable).2.2.2.1⟩

end KernelGym.WorkerPool
