import KernelGym.PoolDispatch

/-! Where each worker object stands. For every handle the model counts its entries in the three lists
of the pool, the tasks that hold it, and the activities that are about to add it. Four inequalities
between these counts say all there is to say about the lists. -/

namespace KernelGym.WorkerPool

open Library

/-- A worker that has been built and may still be added to the pool. -/
def Stage.candidate : Stage → Option Handle
  | .probed _ _ _ v => v
  | .ready _ _ w => some w
  | .unreaped _ resume | .quarantining resume => resume.candidate
  | _ => none

/-- How many tasks hold `w`. -/
def Sys.holders (s : Sys) (w : Handle) : Nat :=
  tally (marks (fun a : Activity => a.stage.holds) w) s.activities

/-- How many activities are about to add `w`. -/
def Sys.candidates (s : Sys) (w : Handle) : Nat :=
  tally (marks (fun a : Activity => a.stage.candidate) w) s.activities

/-- The counts of one handle in `workers`, `idle_workers` and `busy_workers`, among the holders and
among the candidates. -/
structure Fits (workers idle busy holders candidates : Nat) : Prop where
  once : workers + candidates ≤ 1
  views : idle + busy ≤ workers
  held : holders + workers ≤ 1 + busy
  exclusive : idle + holders + candidates ≤ 1

namespace Fits

variable {W I B H K : Nat}

theorem of_le (h : Fits W I B H K) {K' : Nat} (hK : K' ≤ K) : Fits W I B H K' := by
  obtain ⟨h1, h2, h3, h4⟩ := h
  constructor <;> omega

theorem clear (h : Fits W I B H K) : Fits 0 0 0 H K := by
  obtain ⟨h1, h2, h3, h4⟩ := h
  constructor <;> omega

theorem remove (h : Fits W I B H K) : Fits (W - 1) (I - 1) (B - 1) H K := by
  obtain ⟨h1, h2, h3, h4⟩ := h
  constructor <;> omega

theorem add (h : Fits W I B H K) (hK : 0 < K) : Fits (W + 1) (I + 1) B H (K - 1) := by
  obtain ⟨h1, h2, h3, h4⟩ := h
  constructor <;> omega

theorem giveBack (h : Fits W I B H K) (hH : 0 < H) : Fits W I (B - 1) (H - 1) K := by
  obtain ⟨h1, h2, h3, h4⟩ := h
  constructor <;> omega

theorem giveBackIdle (h : Fits W I B H K) (hH : 0 < H) (hW : 0 < W) (hI : I = 0) :
    Fits W (I + 1) (B - 1) (H - 1) K := by
  obtain ⟨h1, h2, h3, h4⟩ := h
  constructor <;> omega

theorem handOut (h : Fits W I B H K) (hI : 0 < I) : Fits W (I - 1) (B + 1) (H + 1) K := by
  obtain ⟨h1, h2, h3, h4⟩ := h
  constructor <;> omega

end Fits

/-- The counts of every handle fit, and a handle that is not in use yet has none. -/
structure Structured (s : Sys) : Prop where
  fits : ∀ w, Fits (s.pool.roster.workers.count w) (s.pool.roster.idleWorkers.count w)
    (s.pool.roster.busyWorkers.count w) (s.holders w) (s.candidates w)
  fresh : ∀ w, s.pool.registry.constructed ≤ w →
    s.pool.roster.workers.count w = 0 ∧ s.holders w = 0 ∧ s.candidates w = 0

theorem candidate_unreapedEach (ws : List Handle) (last : Stage) :
    (unreapedEach ws last).candidate = last.candidate := by
  induction ws with
  | nil => rfl
  | cons w ws ih => exact ih

/-! ### How a block changes the counts -/

section Counts

variable {s : Sys} {i : Nat} {m : Move} {r : Reap}

/-- The sum over the activities after a block. -/
theorem base_tally (f : Activity → Nat) (hf : ∀ g v, f ⟨.replenishing g v, {}⟩ = 0)
    (ha : s.activities[i]? = some ⟨m.source, r⟩) :
    tally f ((m.run s.pool r).base (s.activities.set i (m.run s.pool r).activity)).activities +
      f ⟨m.source, r⟩ = tally f s.activities + f (m.run s.pool r).activity := by
  have hset := tally_set (f := f) ha (m.run s.pool r).activity
  have hstarted : tally f (m.run s.pool r).started = 0 := by
    refine tally_eq_zero fun b hb => ?_
    obtain ⟨w, e, t, g, v, -, rfl⟩ := run_started s.pool r m hb
    exact hf g v
  rw [Result.base, tally_append, hstarted]
  exact hset

/-- Every block but `_return_worker` keeps the holders. -/
theorem base_holders (ha : s.activities[i]? = some ⟨m.source, r⟩)
    (hm : ∀ w e o, m ≠ .returnWorker w e o) (w : Handle) :
    ((m.run s.pool r).base (s.activities.set i (m.run s.pool r).activity)).holders w =
      s.holders w := by
  have htally := base_tally (marks (fun a : Activity => a.stage.holds) w) (fun _ _ => rfl) ha
  have hsame : (m.run s.pool r).activity.stage.holds = m.source.holds := by
    rw [run_holds]
    cases m with
    | returnWorker x e o => exact absurd rfl (hm x e o)
    | _ => rfl
  have hmarks : marks (fun a : Activity => a.stage.holds) w (m.run s.pool r).activity =
      marks (fun a : Activity => a.stage.holds) w ⟨m.source, r⟩ := by
    rw [marks, marks, hsame]
  rw [hmarks] at htally
  exact Nat.add_right_cancel htally

theorem base_holders_returned {x : Handle} {e : Nat} {o : Outcome}
    (ha : s.activities[i]? = some ⟨(Move.returnWorker x e o).source, r⟩) (w : Handle) :
    (((Move.returnWorker x e o).run s.pool r).base
      (s.activities.set i ((Move.returnWorker x e o).run s.pool r).activity)).holders w =
      s.holders w - if x = w then 1 else 0 := by
  have htally := base_tally (marks (fun a : Activity => a.stage.holds) w) (fun _ _ => rfl) ha
  have hnew : marks (fun a : Activity => a.stage.holds) w
      ((Move.returnWorker x e o).run s.pool r).activity = 0 := rfl
  have hold : marks (fun a : Activity => a.stage.holds) w ⟨(Move.returnWorker x e o).source, r⟩ =
      if x = w then 1 else 0 := by
    simp [marks, Move.source, Stage.holds]
  rw [hnew, hold] at htally
  simp only [Sys.holders]
  omega

/-- A candidate is built, stays one, or is given up. -/
theorem run_candidate {p : Pool} {w : Handle}
    (h : (m.run p r).activity.stage.candidate = some w) :
    m.source.candidate = some w ∨ w = p.registry.constructed ∧
      (m.run p r).pool.registry.constructed = w + 1 := by
  cases m with
  | reapFailure g =>
      rw [Move.run, candidate_unreapedEach] at h
      cases h
  | probeReady x e g => exact .inr ⟨(Option.some.inj h).symm, congrArg Nat.succ (Option.some.inj h)⟩
  | constructed g v => exact .inr ⟨(Option.some.inj h).symm, congrArg Nat.succ (Option.some.inj h)⟩
  | _ => revert h; simp only [Move.run]; (repeat' split) <;> intro h <;> first | exact .inl h | cases h

theorem run_constructed (p : Pool) :
    p.registry.constructed ≤ (m.run p r).pool.registry.constructed := by
  rcases run_registry p r m with h | h | ⟨w, e, -, h⟩ | ⟨g, v, w, -, -, h⟩ | ⟨w, e, g, -, h⟩ |
    ⟨g, v, -, h⟩ | ⟨b, -, h⟩
  · exact Nat.le_of_eq (congrArg Registry.constructed h).symm
  · simp [h]
  · simp [h]
  · simp [h]
  · simp [h, Registry.construct]
  · simp [h, Registry.construct]
  · simp [h]

theorem base_candidates (ha : s.activities[i]? = some ⟨m.source, r⟩) (w : Handle) :
    ((m.run s.pool r).base (s.activities.set i (m.run s.pool r).activity)).candidates w +
        marks (fun a : Activity => a.stage.candidate) w ⟨m.source, r⟩ =
      s.candidates w + marks (fun a : Activity => a.stage.candidate) w (m.run s.pool r).activity :=
  base_tally _ (fun _ _ => rfl) ha

/-- A handle gains a candidate only when its worker has just been built. -/
theorem base_candidates_le (ha : s.activities[i]? = some ⟨m.source, r⟩) (w : Handle) :
    ((m.run s.pool r).base (s.activities.set i (m.run s.pool r).activity)).candidates w ≤
        s.candidates w ∨
      w = s.pool.registry.constructed ∧ (m.run s.pool r).pool.registry.constructed = w + 1 ∧
        ((m.run s.pool r).base (s.activities.set i (m.run s.pool r).activity)).candidates w ≤
          s.candidates w + 1 := by
  have htally := base_candidates ha w
  by_cases hnew : (m.run s.pool r).activity.stage.candidate = some w
  · rcases run_candidate hnew with hold | ⟨hw, hbuilt⟩
    · simp only [marks, hnew, hold] at htally
      exact .inl (by omega)
    · refine .inr ⟨hw, hbuilt, ?_⟩
      simp only [marks, hnew, if_true] at htally
      omega
  · simp only [marks, hnew, if_false] at htally
    exact .inl (by omega)

/-- The blocks that change the members of the pool or their views. -/
def Move.rearranges : Move → Bool
  | .recycle _ _ | .recycleFaulted _ _ _ | .returnWorker _ _ _ | .recoverOnce _ _
  | .settleProbe _ _ _ _ | .contain _ _ _ | .register _ _ _ | .markFailed _ _ _
  | .shutdownSnapshot _ | .quarantine _ _ => true
  | _ => false

theorem run_lists (p : Pool) (hm : m.rearranges = false) :
    (m.run p r).pool.roster.workers = p.roster.workers ∧
      (m.run p r).pool.roster.idleWorkers = p.roster.idleWorkers ∧
      (m.run p r).pool.roster.busyWorkers = p.roster.busyWorkers := by
  cases m with
  | recycle | recycleFaulted | returnWorker | recoverOnce | settleProbe | contain | register
  | markFailed | shutdownSnapshot | quarantine => cases hm
  | contextFault w e =>
      cases h : p.contextFaultAnswer e <;> rw [Move.run, h] <;> exact ⟨rfl, rfl, rfl⟩
  | quarantineOld w e g =>
      simp only [Move.run, Move.endRecovery, Pool.quarantineOldWorkers]
      split <;> exact ⟨rfl, rfl, rfl⟩
  | _ =>
      first
      | exact ⟨rfl, rfl, rfl⟩
      | (simp only [Move.run]; (repeat' split) <;> exact ⟨rfl, rfl, rfl⟩)

end Counts

namespace Structured

variable {s : Sys}

/-- A handle that is not in use yet fits with up to one candidate. -/
theorem fits_unused (h : Structured s) {w : Handle} {K : Nat}
    (hw : s.pool.registry.constructed ≤ w) (hK : K ≤ 1) :
    Fits (s.pool.roster.workers.count w) (s.pool.roster.idleWorkers.count w)
      (s.pool.roster.busyWorkers.count w) (s.holders w) K := by
  obtain ⟨hW, hH, -⟩ := h.fresh w hw
  obtain ⟨h1, h2, h3, h4⟩ := h.fits w
  constructor <;> omega

theorem candidates_le {i : Nat} {m : Move} {r : Reap} {w : Handle}
    (ha : s.activities[i]? = some ⟨m.source, r⟩)
    (hbuilt : (m.run s.pool r).pool.registry.constructed = s.pool.registry.constructed) :
    ((m.run s.pool r).base (s.activities.set i (m.run s.pool r).activity)).candidates w ≤
      s.candidates w := by
  rcases base_candidates_le ha w with hle | ⟨hw, hgrown, -⟩
  · exact hle
  · rw [hbuilt, hw] at hgrown
    exact absurd hgrown.symm (Nat.succ_ne_self _)

/-- A candidate that is added leaves the candidates. -/
theorem fits_added (h : Structured s) {i : Nat} {m : Move} {r : Reap} {v : Handle}
    (ha : s.activities[i]? = some ⟨m.source, r⟩) (hsource : m.source.candidate = some v)
    (hspent : (m.run s.pool r).activity.stage.candidate = none) (w : Handle) :
    Fits ((s.pool.roster.workers ++ [v]).count w) ((s.pool.roster.idleWorkers ++ [v]).count w)
      (s.pool.roster.busyWorkers.count w) (s.holders w)
      (((m.run s.pool r).base (s.activities.set i (m.run s.pool r).activity)).candidates w) := by
  have htally := base_candidates ha w
  have hfit := h.fits w
  by_cases hv : v = w
  · subst hv
    simp only [marks, hsource, hspent, reduceCtorEq, if_false, if_true] at htally
    have hK : 0 < s.candidates v := by omega
    have hadd := hfit.add hK
    simp only [List.count_append, List.count_singleton_self]
    have heq : ((m.run s.pool r).base
        (s.activities.set i (m.run s.pool r).activity)).candidates v = s.candidates v - 1 := by
      omega
    rw [heq]
    exact hadd
  · simp only [marks, hsource, hspent, Option.some.injEq, reduceCtorEq, hv, if_false] at htally
    have hcount : [v].count w = 0 := List.count_eq_zero_of_not_mem (by simpa using fun h => hv h.symm)
    rw [List.count_append, List.count_append, hcount]
    exact hfit.of_le (Nat.le_of_eq htally)

theorem fits_removed (h : Structured s) (w x : Handle) {K : Nat} (hK : K ≤ s.candidates w) :
    Fits ((s.pool.roster.workers.erase x).count w) ((s.pool.roster.idleWorkers.erase x).count w)
      ((s.pool.roster.busyWorkers.erase x).count w) (s.holders w) K := by
  have hfit := (h.fits w).of_le hK
  by_cases hx : x = w
  · subst hx
    rw [List.count_erase_self, List.count_erase_self, List.count_erase_self]
    exact hfit.remove
  · have hne : w ≠ x := fun heq => hx heq.symm
    rw [List.count_erase_of_ne hne, List.count_erase_of_ne hne, List.count_erase_of_ne hne]
    exact hfit

theorem fits_returned (h : Structured s) {i : Nat} {r : Reap} {x : Handle} {e : Nat} {o : Outcome}
    (ha : s.activities[i]? = some ⟨(Move.returnWorker x e o).source, r⟩) (w : Handle) :
    Fits ((s.pool.returnWorker x).roster.workers.count w)
      ((s.pool.returnWorker x).roster.idleWorkers.count w)
      ((s.pool.returnWorker x).roster.busyWorkers.count w)
      (s.holders w - if x = w then 1 else 0) (s.candidates w) := by
  have hfit := h.fits w
  by_cases hx : x = w
  · subst hx
    have hH : 0 < s.holders x := by
      refine tally_pos.mpr ⟨_, List.mem_of_getElem? ha, ?_⟩
      simp [marks, Move.source, Stage.holds]
    simp only [Pool.returnWorker, List.count_erase_self, if_true]
    split
    · rename_i hback
      rw [List.count_append, List.count_singleton_self]
      exact hfit.giveBackIdle hH (List.count_pos_iff.mpr hback.1)
        (List.count_eq_zero.mpr hback.2.2)
    · exact hfit.giveBack hH
  · have hne : w ≠ x := fun heq => hx heq.symm
    simp only [Pool.returnWorker, List.count_erase_of_ne hne, hx, if_false, Nat.sub_zero]
    split
    · have hcount : [x].count w = 0 := List.count_eq_zero.mpr (by simpa using hne)
      rw [List.count_append, hcount]
      exact hfit
    · exact hfit

theorem fits_move (h : Structured s) {i : Nat} (m : Move) (r : Reap)
    (ha : s.activities[i]? = some ⟨m.source, r⟩) (w : Handle) :
    Fits ((m.run s.pool r).pool.roster.workers.count w)
      ((m.run s.pool r).pool.roster.idleWorkers.count w)
      ((m.run s.pool r).pool.roster.busyWorkers.count w)
      (((m.run s.pool r).base (s.activities.set i (m.run s.pool r).activity)).holders w)
      (((m.run s.pool r).base (s.activities.set i (m.run s.pool r).activity)).candidates w) := by
  by_cases hquiet : m.rearranges = false
  · have hm : ∀ x e o, m ≠ .returnWorker x e o := by
      rintro x e o rfl
      cases hquiet
    obtain ⟨hworkers, hidle, hbusy⟩ := run_lists (r := r) s.pool hquiet
    rw [base_holders ha hm, hworkers, hidle, hbusy]
    rcases base_candidates_le ha w with hle | ⟨hw, -, hle⟩
    · exact (h.fits w).of_le hle
    · have hnone := (h.fresh w (Nat.le_of_eq hw.symm)).2.2
      exact h.fits_unused (Nat.le_of_eq hw.symm) (by omega)
  cases m with
  | returnWorker x e o =>
      rw [base_holders_returned ha]
      exact (h.fits_returned ha w).of_le (candidates_le ha rfl)
  | recycle x e | recycleFaulted x e g =>
      rw [base_holders ha (fun _ _ _ => Move.noConfusion)]
      exact h.fits_removed w x (candidates_le ha rfl)
  | contain x e g | quarantine extra resume | shutdownSnapshot stopped =>
      rw [base_holders ha (fun _ _ _ => Move.noConfusion)]
      exact ((h.fits w).of_le (candidates_le ha rfl)).clear
  | recoverOnce x e =>
      rw [base_holders ha (fun _ _ _ => Move.noConfusion)]
      have hle := candidates_le (w := w) ha (by simp only [Move.run]; split_ifs <;> rfl)
      generalize Sys.candidates _ w = K at hle ⊢
      simp only [Move.run]
      split_ifs
      · exact (h.fits w).of_le hle
      · exact (h.fits w).of_le hle
      · exact (h.fits w).of_le hle
      · exact ((h.fits w).of_le hle).clear
  | settleProbe x e g v =>
      rw [base_holders ha (fun _ _ _ => Move.noConfusion)]
      by_cases hcurrent : s.pool.recoveryCurrent g = true
      · cases v with
        | none =>
            have hle := candidates_le (w := w) ha (by simp only [Move.run, hcurrent]; rfl)
            generalize Sys.candidates _ w = K at hle ⊢
            simp only [Move.run, hcurrent, if_true]
            exact (h.fits w).of_le hle
        | some v =>
            have hfit := h.fits_added ha rfl (by simp only [Move.run, hcurrent]; rfl) w
            generalize Sys.candidates _ w = K at hfit ⊢
            simp only [Move.run, hcurrent, if_true]
            exact hfit
      · have hle := candidates_le (w := w) ha (by simp only [Move.run, hcurrent]; cases v <;> rfl)
        generalize Sys.candidates _ w = K at hle ⊢
        simp only [Move.run, hcurrent]
        cases v <;> exact (h.fits w).of_le hle
  | register g v x =>
      rw [base_holders ha (fun _ _ _ => Move.noConfusion)]
      cases hdecision : s.pool.registration g v with
      | stale | surplus =>
          have hle := candidates_le (w := w) ha (by rw [Move.run, hdecision]; rfl)
          generalize Sys.candidates _ w = K at hle ⊢
          rw [Move.run, hdecision]
          exact (h.fits w).of_le hle
      | added =>
          have hfit := h.fits_added ha rfl (by rw [Move.run, hdecision]; rfl) w
          generalize Sys.candidates _ w = K at hfit ⊢
          rw [Move.run, hdecision]
          exact hfit
  | markFailed g v physical =>
      rw [base_holders ha (fun _ _ _ => Move.noConfusion)]
      have hle := candidates_le (w := w) ha
        (by cases hdecision : s.pool.failure g physical <;> rw [Move.run, hdecision] <;> rfl)
      generalize Sys.candidates _ w = K at hle ⊢
      cases hdecision : s.pool.failure g physical <;> rw [Move.run, hdecision]
      · exact (h.fits w).of_le hle
      · exact ((h.fits w).of_le hle).clear
      · exact (h.fits w).of_le hle
      · exact (h.fits w).of_le hle
  | _ => exact absurd rfl hquiet

theorem fresh_move (h : Structured s) {i : Nat} (m : Move) (r : Reap)
    (ha : s.activities[i]? = some ⟨m.source, r⟩) (w : Handle)
    (hw : (m.run s.pool r).pool.registry.constructed ≤ w) :
    (m.run s.pool r).pool.roster.workers.count w = 0 ∧
      ((m.run s.pool r).base (s.activities.set i (m.run s.pool r).activity)).holders w = 0 ∧
      ((m.run s.pool r).base (s.activities.set i (m.run s.pool r).activity)).candidates w = 0 := by
  have hold : s.pool.registry.constructed ≤ w := Nat.le_trans (run_constructed s.pool) hw
  obtain ⟨hW, hH, hK⟩ := h.fresh w hold
  have hsource : m.source.candidate ≠ some w := by
    intro hcandidate
    have hle : marks (fun a : Activity => a.stage.candidate) w ⟨m.source, r⟩ ≤ s.candidates w :=
      le_tally (List.mem_of_getElem? ha)
    rw [marks, hcandidate, if_pos rfl, hK] at hle
    exact absurd hle (by decide)
  refine ⟨?_, ?_, ?_⟩
  · refine List.count_eq_zero.mpr fun hmem => ?_
    rcases run_workers m hmem with hmem | ⟨g, v, rfl, -⟩ | ⟨x, e, g, rfl, -⟩
    · exact List.count_eq_zero.mp hW hmem
    · exact hsource rfl
    · exact hsource rfl
  · cases m with
    | returnWorker x e o =>
        rw [base_holders_returned ha, hH]
        exact Nat.zero_sub _
    | _ =>
        rw [base_holders ha (fun _ _ _ => Move.noConfusion)]
        exact hH
  · rcases base_candidates_le ha w with hle | ⟨-, hgrown, -⟩
    · omega
    · rw [hgrown] at hw
      exact absurd hw (Nat.not_succ_le_self w)

/-! ### Calls -/

theorem detached_not_busy {p : Pool} {w : Handle} (hw : w ∈ p.deadWorkers) :
    w ∉ p.roster.busyWorkers := by
  simp only [Pool.deadWorkers, List.mem_filter, Bool.and_eq_true, decide_eq_true_eq] at hw
  exact hw.2.1.1

theorem call_holders (c : Call) (w : Handle) :
    ((c.run s.pool).base (s.activities ++ [(c.run s.pool).activity])).holders w =
      s.holders w + marks (fun a : Activity => a.stage.holds) w (c.run s.pool).activity := by
  rw [Sys.holders, Result.base, (call_activity c).2.2.2, List.append_nil, tally_append]
  rfl

theorem call_candidates (c : Call) (w : Handle) :
    ((c.run s.pool).base (s.activities ++ [(c.run s.pool).activity])).candidates w =
      s.candidates w := by
  rw [Sys.candidates, Result.base, (call_activity c).2.2.2, List.append_nil, tally_append]
  cases c <;> rfl

theorem fits_call (h : Structured s) (c : Call) (hready : c.ready s.pool = true) (w : Handle) :
    Fits ((c.run s.pool).pool.roster.workers.count w)
      ((c.run s.pool).pool.roster.idleWorkers.count w)
      ((c.run s.pool).pool.roster.busyWorkers.count w)
      (((c.run s.pool).base (s.activities ++ [(c.run s.pool).activity])).holders w)
      (((c.run s.pool).base (s.activities ++ [(c.run s.pool).activity])).candidates w) := by
  have hfit := h.fits w
  rw [call_holders, call_candidates]
  cases c with
  | checkout x =>
      simp only [Call.ready, Bool.and_eq_true, decide_eq_true_eq] at hready
      obtain ⟨rest, hidle⟩ := List.head?_eq_some_iff.mp hready.2
      simp only [Call.run, Pool.dispatch, hidle, List.tail_cons, List.count_append]
      rw [hidle] at hfit
      by_cases hx : x = w
      · subst hx
        rw [List.count_cons_self] at hfit
        simp only [marks, Stage.holds, if_true, List.count_singleton_self]
        exact hfit.handOut (Nat.succ_pos _)
      · have hcount : [x].count w = 0 := List.count_eq_zero.mpr (by simpa using fun h => hx h.symm)
        rw [List.count_cons_of_ne hx] at hfit
        simp only [marks, Stage.holds, Option.some.injEq, hx, if_false, hcount, Nat.add_zero]
        exact hfit
  | poll => exact hfit
  | reconcile =>
      simp only [Call.run, Pool.detachDeadWorkers, Pool.registerReplenishmentTicket]
      by_cases hdead : w ∈ s.pool.deadWorkers
      · have hzero : ∀ l : List Handle, (l.filter (· ∉ s.pool.deadWorkers)).count w = 0 :=
          fun l => List.count_eq_zero.mpr (by simp [hdead])
        rw [hzero, hzero, hzero]
        exact hfit.clear
      · have hkeep : ∀ l : List Handle, (l.filter (· ∉ s.pool.deadWorkers)).count w = l.count w :=
          fun l => List.count_filter (by simpa using hdead)
        rw [hkeep, hkeep, hkeep]
        exact hfit
  | foundOrphan | shutdown => exact hfit.clear

theorem fresh_call (h : Structured s) (c : Call) (hready : c.ready s.pool = true) (w : Handle)
    (hw : s.pool.registry.constructed ≤ w) :
    (c.run s.pool).pool.roster.workers.count w = 0 ∧
      ((c.run s.pool).base (s.activities ++ [(c.run s.pool).activity])).holders w = 0 ∧
      ((c.run s.pool).base (s.activities ++ [(c.run s.pool).activity])).candidates w = 0 := by
  obtain ⟨hW, hH, hK⟩ := h.fresh w hw
  have hfit := h.fits w
  rw [call_holders, call_candidates]
  cases c with
  | checkout x =>
      refine ⟨hW, ?_, hK⟩
      simp only [Call.ready, Bool.and_eq_true, decide_eq_true_eq] at hready
      have hidle : x ∈ s.pool.roster.idleWorkers := List.mem_of_mem_head? hready.2
      have hx : x ≠ w := by
        rintro rfl
        have hpos := List.count_pos_iff.mpr hidle
        have hviews := hfit.views
        omega
      simp [hH, marks, Call.run, Stage.holds, hx]
  | poll => exact ⟨hW, hH, hK⟩
  | reconcile =>
      refine ⟨?_, hH, hK⟩
      exact List.count_eq_zero.mpr fun hmem =>
        List.count_eq_zero.mp hW (List.mem_of_mem_filter hmem)
  | foundOrphan | shutdown => exact ⟨rfl, hH, hK⟩

/-- The return of a shutdown changes no count. -/
theorem stopped {i : Nat} {a : Activity} {x : Handle} (proven : Bool) (h : Structured s)
    (ha : s.activities[i]? = some a) : Structured (s.stopped i a x proven) := by
  have hholders : ∀ w, (s.stopped i a x proven).holders w = s.holders w := by
    intro w
    exact Nat.add_right_cancel (tally_set (f := marks (fun a : Activity => a.stage.holds) w) ha _)
  have hcandidates : ∀ w, (s.stopped i a x proven).candidates w = s.candidates w := by
    intro w
    exact Nat.add_right_cancel
      (tally_set (f := marks (fun a : Activity => a.stage.candidate) w) ha _)
  refine ⟨fun w => ?_, fun w hw => ?_⟩
  · rw [hholders, hcandidates]
    exact h.fits w
  · rw [hholders, hcandidates]
    refine h.fresh w ?_
    rwa [Sys.stopped, Registry.shutdown_constructed] at hw

theorem topUp (h : Structured s) : Structured s.topUp := by
  have hholders : ∀ w, s.topUp.holders w = s.holders w := by
    intro w
    rw [Sys.holders, Sys.topUp, tally_append, topUpThreads, tally_replicate]
    exact (Nat.add_eq_left).mpr (Nat.mul_zero _)
  have hcandidates : ∀ w, s.topUp.candidates w = s.candidates w := by
    intro w
    rw [Sys.candidates, Sys.topUp, tally_append, topUpThreads, tally_replicate]
    exact (Nat.add_eq_left).mpr (Nat.mul_zero _)
  refine ⟨fun w => ?_, fun w hw => ?_⟩
  · rw [hholders, hcandidates]
    exact h.fits w
  · rw [hholders, hcandidates]
    exact h.fresh w hw

theorem preserved : Preserved Structured where
  move m r h ha _ := ⟨h.fits_move m r ha, h.fresh_move m r ha⟩
  call {s} c h hready := by
    refine ⟨h.fits_call c hready, fun w hw => h.fresh_call c hready w ?_⟩
    cases c <;> exact hw
  topUp h := h.topUp
  stopped proven h ha _ := h.stopped proven ha
  dies _ h := ⟨h.fits, h.fresh⟩

end Structured

theorem structured_init (n : Nat) : Structured (init n) where
  fits w := by
    have hone : (List.range n).count w ≤ 1 := List.nodup_iff_count.mp List.nodup_range w
    refine ⟨hone, Nat.le_refl _, ?_, hone⟩
    rw [show (init n).holders w = 0 from rfl, Nat.zero_add]
    exact hone
  fresh w hw := by
    refine ⟨List.count_eq_zero.mpr fun hmem => ?_, rfl, rfl⟩
    exact absurd (List.mem_range.mp hmem) (Nat.not_lt_of_le hw)

end KernelGym.WorkerPool
