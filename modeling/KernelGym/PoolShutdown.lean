import KernelGym.PoolOwnership

/-! The shutdown of the pool. Once its drain has found no open ticket, no constructor is running and none
can start; the second snapshot then names every process that the first one could have missed. -/

namespace KernelGym.WorkerPool

open Library

/-- A constructor of the pool is running. -/
def Stage.builds : Stage → Bool
  | .constructing _ _ | .probing _ _ _ => true
  | .unreaped _ resume | .quarantining resume => resume.builds
  | _ => false

def shutShare (a : Activity) : Nat := a.stage.shutsDown.toNat

/-- The pool is closing and runs no constructor. -/
structure Sealed (s : Sys) : Prop where
  closing : s.pool.admission.closing = true
  still : ∀ a ∈ s.activities, a.stage.builds = false

theorem builds_unreapedEach (ws : List Handle) (last : Stage) :
    (unreapedEach ws last).builds = last.builds := by
  induction ws with
  | nil => rfl
  | cons w ws ih => exact ih

theorem Stage.ticket_of_builds {stage : Stage} (h : stage.builds = true) : stage.ticket ≠ none := by
  induction stage with
  | unreaped extra resume ih => exact ih h
  | quarantining resume ih => exact ih h
  | _ => first | exact Option.some_ne_none _ | cases h

section Run

variable {p : Pool} {r : Reap}

/-- A closing pool starts no constructor. -/
theorem run_builds_closing (m : Move) (hclosing : p.admission.closing = true)
    (hstill : m.source.builds = false) : (m.run p r).activity.stage.builds = false := by
  cases m with
  | startProbe w e g =>
      have hcurrent : p.recoveryCurrent g = false := by simp [Pool.recoveryCurrent, hclosing]
      simp only [Move.run, hcurrent, Bool.false_eq_true, if_false]
      split <;> rfl
  | startConstructor g v =>
      have hstale : p.replenishmentStale g = true := by simp [Pool.replenishmentStale, hclosing]
      simp only [Move.run, hstale]
      rfl
  | contextFault w e => cases h : p.contextFaultAnswer e <;> rw [Move.run, h] <;> rfl
  | settleProbe w e g v => cases v <;> simp only [Move.run] <;> split <;> rfl
  | markFailed g v physical => cases h : p.failure g physical <;> rw [Move.run, h] <;> rfl
  | reapFailure g => exact builds_unreapedEach _ _
  | quarantine extra resume | endQuarantine resume => exact hstill
  | _ => simp only [Move.run]; (repeat' split) <;> rfl

/-- Without a running constructor nothing is built. -/
theorem run_constructed_still (m : Move) (hstill : m.source.builds = false) :
    (m.run p r).pool.registry.constructed = p.registry.constructed := by
  rcases run_registry p r m with h | h | ⟨w, e, -, h⟩ | ⟨g, v, w, -, -, h⟩ | ⟨w, e, g, rfl, h⟩ |
    ⟨g, v, rfl, h⟩ | ⟨b, ⟨w, e, g, rfl⟩ | ⟨g, v, c, rfl⟩, h⟩
  · rw [h]
  · rw [h, Registry.recordResults_constructed]
  · rw [h, Registry.retain_constructed]
  · rw [h, Registry.release_constructed]
  · cases hstill
  · cases hstill
  · cases hstill
  · cases hstill

/-- Only `_shutdown_once` itself writes the result of the shutdown. -/
theorem run_shutShare (m : Move) (hdeclares : m.source.Declares) :
    (shutShare (m.run p r).activity = shutShare ⟨m.source, r⟩ ∧
      (m.run p r).pool.shutdownTask = p.shutdownTask) ∨ ∃ stopped, m = .shutdownEnd stopped := by
  cases m with
  | shutdownEnd stopped => exact .inr ⟨stopped, rfl⟩
  | contextFault w e =>
      refine .inl ?_
      cases h : p.contextFaultAnswer e <;> rw [Move.run, h] <;> exact ⟨rfl, rfl⟩
  | settleProbe w e g v =>
      refine .inl ?_
      cases v <;> simp only [Move.run] <;> split <;> exact ⟨rfl, rfl⟩
  | markFailed g v physical =>
      refine .inl ?_
      cases h : p.failure g physical <;> rw [Move.run, h] <;> exact ⟨rfl, rfl⟩
  | register g v w =>
      refine .inl ?_
      cases h : p.registration g v <;> rw [Move.run, h] <;> exact ⟨rfl, rfl⟩
  | quarantineOld w e g =>
      refine .inl ?_
      simp only [Move.run, Move.endRecovery, Pool.quarantineOldWorkers]
      split <;> exact ⟨rfl, rfl⟩
  | reapFailure g =>
      refine .inl ⟨?_, rfl⟩
      cases h : r.unproven <;> simp only [Move.run, h] <;> rfl
  | endQuarantine resume =>
      refine .inl ⟨?_, rfl⟩
      cases resume <;> first | rfl | exact absurd rfl hdeclares.1
  | _ =>
      refine .inl ?_
      simp only [Move.run]
      (repeat' split) <;> first | exact ⟨rfl, rfl⟩ | exact ⟨rfl, trivial⟩

/-- Where the last stages of the shutdown are entered. -/
theorem run_concludes (m : Move) (hdeclares : m.source.Declares) {stopped : Bool} :
    ((m.run p r).activity.stage = .shutdownDrained stopped → m = .shutdownDrain stopped) ∧
      ((m.run p r).activity.stage = .shutdownLate stopped → m = .shutdownSnapshot stopped) := by
  cases m with
  | contextFault w e =>
      cases h : p.contextFaultAnswer e <;> rw [Move.run, h] <;>
        exact ⟨fun h => Stage.noConfusion h, fun h => Stage.noConfusion h⟩
  | settleProbe w e g v =>
      cases v <;> simp only [Move.run] <;> split <;>
        exact ⟨fun h => Stage.noConfusion h, fun h => Stage.noConfusion h⟩
  | markFailed g v physical =>
      cases h : p.failure g physical <;> rw [Move.run, h] <;>
        exact ⟨fun h => Stage.noConfusion h, fun h => Stage.noConfusion h⟩
  | reapFailure g =>
      cases h : r.unproven <;> simp only [Move.run, h] <;>
        exact ⟨fun h => Stage.noConfusion h, fun h => Stage.noConfusion h⟩
  | endQuarantine resume =>
      refine ⟨fun h => ?_, fun h => ?_⟩ <;>
        (rw [Move.run] at h; obtain rfl := h; exact absurd rfl hdeclares.1)
  | shutdownDrain b => exact ⟨fun h => congrArg _ (Stage.shutdownDrained.inj h),
      fun h => Stage.noConfusion h⟩
  | shutdownSnapshot b => exact ⟨fun h => Stage.noConfusion h,
      fun h => congrArg _ (Stage.shutdownLate.inj h)⟩
  | _ =>
      simp only [Move.run]
      (repeat' split) <;> exact ⟨fun h => Stage.noConfusion h, fun h => Stage.noConfusion h⟩

end Run

/-! ### One shutdown -/

/-- At most one activity shuts the pool down. -/
def Single (s : Sys) : Prop :=
  tally shutShare s.activities = if s.pool.shutdownTask = .running then 1 else 0

/-- The shutdown is about to end, and what it has waited for so far. -/
structure Concluding (s : Sys) : Prop where
  owned : Owned s
  single : Single s
  drained : ∀ a ∈ s.activities, a.stage = .shutdownDrained true → Sealed s ∧
    ∀ w < s.pool.registry.constructed, w ∈ s.pool.registry.reaped ∨ w ∈ s.pool.registry.unreaped
  late : ∀ a ∈ s.activities, a.stage = .shutdownLate true → Sealed s ∧
    ∀ w < s.pool.registry.constructed, w ∈ s.pool.registry.reaped ∨ w ∈ a.reap.workers
  ended : s.pool.shutdownTask = .finished true → Sealed s ∧
    ∀ w < s.pool.registry.constructed, w ∈ s.pool.registry.reaped

theorem Single.alone {s : Sys} (h : Single s) {i j : Nat} {a b : Activity} (hij : j ≠ i)
    (ha : s.activities[i]? = some a) (hb : s.activities[j]? = some b)
    (hshuts : a.stage.shutsDown = true) : b.stage.shutsDown = false := by
  have hle : shutShare a + shutShare b ≤ tally shutShare s.activities :=
    add_le_tally (fun h => hij h.symm) ha hb
  rw [h, shutShare, hshuts, Bool.toNat_true] at hle
  cases hfree : b.stage.shutsDown with
  | false => rfl
  | true =>
      rw [shutShare, hfree, Bool.toNat_true] at hle
      split at hle <;> omega

theorem Single.running {s : Sys} (h : Single s) {a : Activity} (ha : a ∈ s.activities)
    (hshuts : a.stage.shutsDown = true) : s.pool.shutdownTask = .running := by
  by_contra hne
  have hle : shutShare a ≤ tally shutShare s.activities := le_tally ha
  rw [h, if_neg hne, shutShare, hshuts] at hle
  exact absurd hle (by decide)

namespace Sealed

variable {s : Sys}

theorem move (h : Sealed s) {i : Nat} (m : Move) (r : Reap)
    (ha : s.activities[i]? = some ⟨m.source, r⟩) :
    Sealed ((m.run s.pool r).base (s.activities.set i (m.run s.pool r).activity)) where
  closing := (run_closing m).trans h.closing
  still b hb := by
    rcases List.mem_append.mp hb with hb | hb
    · exact forall_mem_set h.still
        (run_builds_closing m h.closing (h.still _ (List.mem_of_getElem? ha))) b hb
    · obtain ⟨w, e, t, g, v, -, rfl⟩ := run_started s.pool r m hb
      rfl

theorem topUp (h : Sealed s) : Sealed s.topUp where
  closing := h.closing
  still b hb := by
    rcases List.mem_append.mp hb with hb | hb
    · exact h.still b hb
    · obtain ⟨-, rfl⟩ := List.mem_replicate.mp hb
      rfl

theorem stopped (h : Sealed s) {i : Nat} {a : Activity} {w : Handle} (proven : Bool)
    (ha : s.activities[i]? = some a) : Sealed (s.stopped i a w proven) where
  closing := h.closing
  still := forall_mem_set h.still (h.still a (List.mem_of_getElem? ha))

theorem call (h : Sealed s) (c : Call) (hready : c.ready s.pool = true) :
    Sealed ((c.run s.pool).base (s.activities ++ [(c.run s.pool).activity])) where
  closing := (call_advances c).closing h.closing
  still b hb := by
    rw [Result.base, (call_activity c).2.2.2, List.append_nil] at hb
    rcases List.mem_append.mp hb with hb | hb
    · exact h.still b hb
    · obtain rfl := List.mem_singleton.mp hb
      cases c <;> rfl

end Sealed

theorem shutShare_started {p : Pool} {r : Reap} (m : Move) : tally shutShare (m.run p r).started = 0 := by
  refine tally_eq_zero fun b hb => ?_
  obtain ⟨w, e, t, g, v, -, rfl⟩ := run_started p r m hb
  rfl

theorem single_init (n : Nat) : Single (init n) := rfl

namespace Concluding

variable {s : Sys}

theorem single_move (h : Concluding s) {i : Nat} (m : Move) (r : Reap)
    (ha : s.activities[i]? = some ⟨m.source, r⟩) :
    Single ((m.run s.pool r).base (s.activities.set i (m.run s.pool r).activity)) := by
  have hmem : (⟨m.source, r⟩ : Activity) ∈ s.activities := List.mem_of_getElem? ha
  have hset := tally_set (f := shutShare) ha (m.run s.pool r).activity
  have hold := h.single
  rw [Single, Result.base, tally_append, shutShare_started, Nat.add_zero]
  rcases run_shutShare (p := s.pool) (r := r) m (h.owned.diligent _ hmem).declares with
    ⟨hsame, htask⟩ | ⟨stopped, rfl⟩
  · simp only [htask]
    rw [hsame] at hset
    exact (Nat.add_right_cancel hset).trans hold
  · have hrunning := h.single.running hmem rfl
    rw [Single, hrunning, if_pos rfl] at hold
    rw [hold] at hset
    exact Nat.add_right_cancel (hset.trans (Nat.add_comm 1 0))

/-- The drain of the shutdown has found every ticket closed. -/
theorem sealed_drain (h : Concluding s) {i : Nat} {r : Reap}
    (ha : s.activities[i]? = some ⟨.shutdownDraining, r⟩) (hempty : r.todo = [])
    (hdrained : s.pool.activeReplenishments = []) :
    Sealed s ∧ ∀ w < s.pool.registry.constructed,
      w ∈ s.pool.registry.reaped ∨ w ∈ s.pool.registry.unreaped := by
  have hmem := List.mem_of_getElem? ha
  have hclosing : s.pool.admission.closing = true := h.owned.accounted.bounded.attached _ hmem
  have hnone : ∀ a ∈ s.activities, a.stage.ticket = none := by
    intro a ha
    by_contra hne
    obtain ⟨t, ht⟩ := Option.ne_none_iff_exists'.mp hne
    have hactive := h.owned.counted.active ha ht
    rw [hdrained] at hactive
    cases hactive
  refine ⟨⟨hclosing, fun a ha => ?_⟩, fun w hw => ?_⟩
  · cases hbuilds : a.stage.builds with
    | false => rfl
    | true => exact absurd (hnone a ha) (Stage.ticket_of_builds hbuilds)
  · rcases h.owned.covered w hw with hgone | hmember | hkept | ⟨b, hb, hmine⟩
    · exact .inl hgone
    · rw [h.owned.accounted.bounded.closed hclosing] at hmember
      cases hmember
    · exact .inr hkept
    · rcases h.owned.responsible hb hmine with ⟨t, ht, -⟩ | hshuts
      · rw [hnone b hb] at ht
        cases ht
      · obtain ⟨j, hj⟩ := List.mem_iff_getElem?.mp hb
        by_cases hij : j = i
        · subst hij
          obtain rfl := Option.some.inj (hj.symm.trans ha)
          simp [Activity.custody, hempty, Stage.built] at hmine
        · have hfree := h.single.alone hij ha hj rfl
          rw [hshuts] at hfree
          cases hfree

theorem constructed_move (hsealed : Sealed s) {i : Nat} {m : Move} {r : Reap}
    (ha : s.activities[i]? = some ⟨m.source, r⟩) :
    (m.run s.pool r).pool.registry.constructed = s.pool.registry.constructed :=
  run_constructed_still m (hsealed.still _ (List.mem_of_getElem? ha))

theorem kept_move (h : Concluding s) (hsealed : Sealed s) {i : Nat} {m : Move} {r : Reap}
    (ha : s.activities[i]? = some ⟨m.source, r⟩) (hready : m.ready s.pool r = true) {w : Handle}
    (hw : w ∈ s.pool.registry.reaped ∨ w ∈ s.pool.registry.unreaped) :
    w ∈ (m.run s.pool r).pool.registry.reaped ∨ w ∈ (m.run s.pool r).pool.registry.unreaped := by
  have hmem : (⟨m.source, r⟩ : Activity) ∈ s.activities := List.mem_of_getElem? ha
  rcases hw with hgone | hkept
  · exact .inl (run_reaped m hgone)
  · rcases run_retained m hkept (h.owned.diligent _ hmem).proven with hgone | hmember | hkept
    · exact .inl hgone
    · have hclosed := (Owned.preserved.move m r h.owned ha hready).accounted.bounded.closed
        ((run_closing m).trans hsealed.closing)
      rw [Result.base] at hclosed
      rw [hclosed] at hmember
      cases hmember
    · exact .inr hkept

/-- The second snapshot takes in what the first one has missed. -/
theorem late_snapshot {p : Pool} {r : Reap} {w : Handle} (hempty : r.todo = [])
    (hw : w ∈ p.registry.unreaped) :
    w ∈ ((Move.shutdownSnapshot true).run p r).activity.reap.workers := by
  by_cases hseen : w ∈ r.workers
  · rw [Reap.workers, hempty, List.nil_append] at hseen
    exact List.mem_append_right _ hseen
  · refine List.mem_append_left _ (List.mem_filter.mpr ⟨?_, by simpa using hseen⟩)
    exact Pool.mem_trackedWorkers.mpr (.inr (.inr (.inr (.inl hw))))

theorem ended_finish {p : Pool} {stopped : Bool} {results : List (Handle × Bool)}
    (h : (p.endShutdown stopped results).shutdownTask = .finished true) :
    stopped = true ∧ ∀ x ∈ results, x.2 = true := by
  simp only [Pool.endShutdown, ShutdownTask.finished.injEq, Bool.and_eq_true] at h
  exact ⟨h.1.1, List.all_eq_true.mp h.1.2⟩

theorem drained_move (h : Concluding s) {i : Nat} (m : Move) (r : Reap)
    (ha : s.activities[i]? = some ⟨m.source, r⟩) (hready : m.ready s.pool r = true) {b : Activity}
    (hb : b ∈ s.activities.set i (m.run s.pool r).activity) (hstage : b.stage = .shutdownDrained true) :
    Sealed ((m.run s.pool r).base (s.activities.set i (m.run s.pool r).activity)) ∧
      ∀ w < (m.run s.pool r).pool.registry.constructed,
        w ∈ (m.run s.pool r).pool.registry.reaped ∨ w ∈ (m.run s.pool r).pool.registry.unreaped := by
  have hmem : (⟨m.source, r⟩ : Activity) ∈ s.activities := List.mem_of_getElem? ha
  have hold : Sealed s ∧ ∀ w < s.pool.registry.constructed,
      w ∈ s.pool.registry.reaped ∨ w ∈ s.pool.registry.unreaped := by
    rcases List.mem_or_eq_of_mem_set hb with hb | rfl
    · exact h.drained b hb hstage
    · have hm := (run_concludes (p := s.pool) (r := r) m (h.owned.diligent _ hmem).declares).1 hstage
      subst hm
      have hactive : true = (s.pool.activeReplenishments = [] : Bool) := of_decide_eq_true hready
      exact h.sealed_drain ha (h.owned.ready_empty ha hready) (of_decide_eq_true hactive.symm)
  refine ⟨hold.1.move m r ha, fun w hw => ?_⟩
  rw [constructed_move hold.1 ha] at hw
  exact h.kept_move hold.1 ha hready (hold.2 w hw)

theorem late_move (h : Concluding s) {i : Nat} (m : Move) (r : Reap)
    (ha : s.activities[i]? = some ⟨m.source, r⟩) (hready : m.ready s.pool r = true) {b : Activity}
    (hb : b ∈ s.activities.set i (m.run s.pool r).activity) (hstage : b.stage = .shutdownLate true) :
    Sealed ((m.run s.pool r).base (s.activities.set i (m.run s.pool r).activity)) ∧
      ∀ w < (m.run s.pool r).pool.registry.constructed,
        w ∈ (m.run s.pool r).pool.registry.reaped ∨ w ∈ b.reap.workers := by
  have hmem : (⟨m.source, r⟩ : Activity) ∈ s.activities := List.mem_of_getElem? ha
  rcases List.mem_or_eq_of_mem_set hb with hb | rfl
  · obtain ⟨hsealed, hall⟩ := h.late b hb hstage
    refine ⟨hsealed.move m r ha, fun w hw => ?_⟩
    rw [constructed_move hsealed ha] at hw
    exact (hall w hw).imp_left (run_reaped m)
  · have hm := (run_concludes (p := s.pool) (r := r) m (h.owned.diligent _ hmem).declares).2 hstage
    subst hm
    obtain ⟨hsealed, hall⟩ := h.drained _ hmem rfl
    refine ⟨hsealed.move _ r ha, fun w hw => ?_⟩
    exact (hall w hw).imp_right (late_snapshot (h.owned.ready_empty ha hready))

theorem ended_move (h : Concluding s) {i : Nat} (m : Move) (r : Reap)
    (ha : s.activities[i]? = some ⟨m.source, r⟩) (hready : m.ready s.pool r = true)
    (hended : (m.run s.pool r).pool.shutdownTask = .finished true) :
    Sealed ((m.run s.pool r).base (s.activities.set i (m.run s.pool r).activity)) ∧
      ∀ w < (m.run s.pool r).pool.registry.constructed,
        w ∈ (m.run s.pool r).pool.registry.reaped := by
  have hmem : (⟨m.source, r⟩ : Activity) ∈ s.activities := List.mem_of_getElem? ha
  rcases run_shutShare (p := s.pool) (r := r) m (h.owned.diligent _ hmem).declares with
    ⟨-, htask⟩ | ⟨stopped, rfl⟩
  · obtain ⟨hsealed, hall⟩ := h.ended (htask.symm.trans hended)
    refine ⟨hsealed.move m r ha, fun w hw => ?_⟩
    rw [constructed_move hsealed ha] at hw
    exact run_reaped m (hall w hw)
  · obtain ⟨rfl, hresults⟩ := ended_finish hended
    obtain ⟨hsealed, hall⟩ := h.late _ hmem rfl
    refine ⟨hsealed.move _ r ha, fun w hw => ?_⟩
    rw [constructed_move hsealed ha] at hw
    rcases hall w hw with hgone | hmine
    · exact run_reaped _ hgone
    · -- Every shutdown that was awaited has come back, each with a proof.
      rw [Reap.workers, h.owned.ready_empty ha hready, List.nil_append] at hmine
      obtain ⟨⟨x, proven⟩, hx, rfl⟩ := List.mem_map.mp hmine
      have hproven : proven = true := hresults _ hx
      subst hproven
      exact run_reaped _ ((h.owned.diligent _ hmem).proven x hx)

theorem single_call (h : Concluding s) (c : Call) (hready : c.ready s.pool = true) :
    Single ((c.run s.pool).base (s.activities ++ [(c.run s.pool).activity])) := by
  have hold := h.single
  rw [Single, Result.base, (call_activity c).2.2.2, List.append_nil, tally_append, hold]
  cases c with
  | shutdown =>
      have hfirst : s.pool.shutdownTask = .notStarted := of_decide_eq_true hready
      rw [hfirst]
      rfl
  | checkout w | poll | reconcile | foundOrphan => rfl

/-- A call changes nothing that the last stages of the shutdown rely on. -/
theorem call_old {c : Call} {b : Activity}
    (hb : b ∈ ((c.run s.pool).base (s.activities ++ [(c.run s.pool).activity])).activities)
    (hstage : (∃ stopped, b.stage = .shutdownDrained stopped) ∨
      ∃ stopped, b.stage = .shutdownLate stopped) : b ∈ s.activities := by
  rw [Result.base, (call_activity c).2.2.2, List.append_nil] at hb
  rcases List.mem_append.mp hb with hb | hb
  · exact hb
  · obtain rfl := List.mem_singleton.mp hb
    rcases hstage with ⟨stopped, hstage⟩ | ⟨stopped, hstage⟩ <;> cases c <;> cases hstage

theorem preserved : Preserved Concluding where
  move {s i} m r h ha hready := by
    have hstarted : ∀ b ∈ (m.run s.pool r).started,
        b.stage ≠ .shutdownDrained true ∧ b.stage ≠ .shutdownLate true := by
      intro b hb
      obtain ⟨w, e, t, g, v, -, rfl⟩ := run_started s.pool r m hb
      exact ⟨Stage.noConfusion, Stage.noConfusion⟩
    refine ⟨Owned.preserved.move m r h.owned ha hready, h.single_move m r ha,
      fun b hb hstage => ?_, fun b hb hstage => ?_, h.ended_move m r ha hready⟩
    · rcases List.mem_append.mp hb with hb | hb
      · exact h.drained_move m r ha hready hb hstage
      · exact absurd hstage (hstarted b hb).1
    · rcases List.mem_append.mp hb with hb | hb
      · exact h.late_move m r ha hready hb hstage
      · exact absurd hstage (hstarted b hb).2
  call {s} c h hready := by
    have hregistry : (c.run s.pool).pool.registry = s.pool.registry := by cases c <;> rfl
    refine ⟨Owned.preserved.call c h.owned hready, h.single_call c hready,
      fun b hb hstage => ?_, fun b hb hstage => ?_, fun hended => ?_⟩
    · obtain ⟨hsealed, hall⟩ := h.drained b (call_old hb (.inl ⟨true, hstage⟩)) hstage
      refine ⟨hsealed.call c hready, ?_⟩
      rw [Result.base, hregistry]
      exact hall
    · obtain ⟨hsealed, hall⟩ := h.late b (call_old hb (.inr ⟨true, hstage⟩)) hstage
      refine ⟨hsealed.call c hready, ?_⟩
      rw [Result.base, hregistry]
      exact hall
    · have hold : s.pool.shutdownTask = .finished true := by
        cases c with
        | shutdown => cases hended
        | checkout w | poll | reconcile | foundOrphan => exact hended
      obtain ⟨hsealed, hall⟩ := h.ended hold
      refine ⟨hsealed.call c hready, ?_⟩
      rw [Result.base, hregistry]
      exact hall
  topUp {s} h := by
    have hthread : ∀ b ∈ topUpThreads s.pool,
        b.stage ≠ .shutdownDrained true ∧ b.stage ≠ .shutdownLate true := by
      intro b hb
      obtain ⟨-, rfl⟩ := List.mem_replicate.mp hb
      exact ⟨Stage.noConfusion, Stage.noConfusion⟩
    refine ⟨Owned.preserved.topUp h.owned, ?_, fun b hb hstage => ?_, fun b hb hstage => ?_,
      fun hended => ?_⟩
    · rw [Single, Sys.topUp, tally_append, topUpThreads, tally_replicate]
      exact (Nat.add_zero _).trans h.single
    · rcases List.mem_append.mp hb with hb | hb
      · exact (h.drained b hb hstage).imp_left Sealed.topUp
      · exact absurd hstage (hthread b hb).1
    · rcases List.mem_append.mp hb with hb | hb
      · exact (h.late b hb hstage).imp_left Sealed.topUp
      · exact absurd hstage (hthread b hb).2
    · exact (h.ended hended).imp_left Sealed.topUp
  stopped {s i a w} proven h ha hw := by
    have hmem := List.mem_of_getElem? ha
    have hkept : ∀ x, x ∈ s.pool.registry.reaped ∨ x ∈ s.pool.registry.unreaped →
        x ∈ (s.pool.registry.shutdown w proven).1.reaped ∨
          x ∈ (s.pool.registry.shutdown w proven).1.unreaped := by
      intro x hx
      exact hx.elim (fun h => .inl (Registry.shutdown_reaped h)) Registry.shutdown_unreaped
    refine ⟨Owned.preserved.stopped proven h.owned ha hw, ?_, fun b hb hstage => ?_,
      fun b hb hstage => ?_, fun hended => ?_⟩
    · have hset : ∀ r : Reap, tally shutShare (s.activities.set i { a with reap := r }) =
          tally shutShare s.activities :=
        fun r => Nat.add_right_cancel (tally_set (f := shutShare) ha { a with reap := r })
      exact (hset _).trans h.single
    · have hold : ∃ b ∈ s.activities, b.stage = .shutdownDrained true := by
        rcases List.mem_or_eq_of_mem_set hb with hb | rfl
        · exact ⟨b, hb, hstage⟩
        · exact ⟨a, hmem, hstage⟩
      obtain ⟨b, hb, hstage⟩ := hold
      obtain ⟨hsealed, hall⟩ := h.drained b hb hstage
      refine ⟨hsealed.stopped proven ha, fun x hx => ?_⟩
      rw [Sys.stopped, Registry.shutdown_constructed] at hx
      exact hkept x (hall x hx)
    · rcases List.mem_or_eq_of_mem_set hb with hb | rfl
      · obtain ⟨hsealed, hall⟩ := h.late b hb hstage
        refine ⟨hsealed.stopped proven ha, fun x hx => ?_⟩
        rw [Sys.stopped, Registry.shutdown_constructed] at hx
        exact (hall x hx).imp_left Registry.shutdown_reaped
      · obtain ⟨hsealed, hall⟩ := h.late a hmem hstage
        refine ⟨hsealed.stopped proven ha, fun x hx => ?_⟩
        rw [Sys.stopped, Registry.shutdown_constructed] at hx
        refine (hall x hx).imp Registry.shutdown_reaped fun hmine => ?_
        rcases List.mem_append.mp hmine with hmine | hmine
        · by_cases hxw : x = w
          · subst hxw
            simp [Reap.workers]
          · exact List.mem_append_left _ ((List.mem_erase_of_ne hxw).mpr hmine)
        · refine List.mem_append_right _ ?_
          rw [List.map_append]
          exact List.mem_append_left _ hmine
    · obtain ⟨hsealed, hall⟩ := h.ended hended
      refine ⟨hsealed.stopped proven ha, fun x hx => ?_⟩
      rw [Sys.stopped, Registry.shutdown_constructed] at hx
      exact Registry.shutdown_reaped (hall x hx)
  dies w h := by
    refine ⟨Owned.preserved.dies w h.owned, h.single, fun b hb hstage => ?_,
      fun b hb hstage => ?_, fun hended => ?_⟩
    · obtain ⟨hsealed, hall⟩ := h.drained b hb hstage
      exact ⟨⟨hsealed.closing, hsealed.still⟩, hall⟩
    · obtain ⟨hsealed, hall⟩ := h.late b hb hstage
      exact ⟨⟨hsealed.closing, hsealed.still⟩, hall⟩
    · obtain ⟨hsealed, hall⟩ := h.ended hended
      exact ⟨⟨hsealed.closing, hsealed.still⟩, hall⟩

theorem reachable {n : Nat} (hs : Reachable n s) : Concluding s := by
  refine preserved.reachable ⟨owned_init n, single_init n, ?_, ?_, fun h => by cases h⟩ hs
  · intro a ha
    cases ha
  · intro a ha
    cases ha

/-- Once the shutdown has succeeded, nothing is built any more and the answer stands. -/
theorem ended_stays (s : Sys) :
    Preserved fun t => Concluding t ∧ (s.pool.shutdownTask = .finished true →
      t.pool.shutdownTask = .finished true ∧
        t.pool.registry.constructed = s.pool.registry.constructed) where
  move {t i} m r ht ha hready := by
    refine ⟨preserved.move m r ht.1 ha hready, fun hended => ?_⟩
    obtain ⟨htask, hbuilt⟩ := ht.2 hended
    have hsealed := (ht.1.ended htask).1
    have hmem : (⟨m.source, r⟩ : Activity) ∈ t.activities := List.mem_of_getElem? ha
    refine ⟨?_, (constructed_move hsealed ha).trans hbuilt⟩
    rcases run_shutShare (p := t.pool) (r := r) m (ht.1.owned.diligent _ hmem).declares with
      ⟨-, hsame⟩ | ⟨stopped, rfl⟩
    · exact hsame.trans htask
    · have hrunning := ht.1.single.running hmem rfl
      rw [htask] at hrunning
      cases hrunning
  call {t} c ht hready := by
    refine ⟨preserved.call c ht.1 hready, fun hended => ?_⟩
    obtain ⟨htask, hbuilt⟩ := ht.2 hended
    cases c with
    | shutdown =>
        have hfirst : t.pool.shutdownTask = .notStarted := of_decide_eq_true hready
        rw [htask] at hfirst
        cases hfirst
    | checkout w | poll | reconcile | foundOrphan => exact ⟨htask, hbuilt⟩
  topUp ht := ⟨preserved.topUp ht.1, ht.2⟩
  stopped {t i a w} proven ht ha hw := by
    refine ⟨preserved.stopped proven ht.1 ha hw, fun hended => ?_⟩
    obtain ⟨htask, hbuilt⟩ := ht.2 hended
    exact ⟨htask, (t.pool.registry.shutdown_constructed w proven).trans hbuilt⟩
  dies w ht := ⟨preserved.dies w ht.1, ht.2⟩

end Concluding

/-- **Nothing is left behind.** At any time a process that is not proven gone is a member of the pool,
or its handle is retained, or its shutdown is awaited by the owner of an open ticket or by the
shutdown of the pool. If that shutdown succeeds, every process ever constructed is proven gone, and
from then on nothing is constructed and nothing is added. -/
theorem shutdown_leaves_nothing {n : Nat} {s : Sys} (hs : Reachable n s) :
    (∀ w < s.pool.registry.constructed, w ∈ s.pool.registry.reaped ∨ w ∈ s.pool.roster.workers ∨
      w ∈ s.pool.registry.unreaped ∨ ∃ a ∈ s.activities, w ∈ a.custody ∧
        ((∃ t, a.stage.ticket = some t ∧ t ∈ s.pool.activeReplenishments) ∨
          a.stage.shutsDown = true)) ∧
    (s.pool.shutdownTask = .finished true → ∀ t, Run step s t →
      t.pool.shutdownTask = .finished true ∧
        t.pool.registry.constructed = s.pool.registry.constructed ∧
        (∀ w < t.pool.registry.constructed, w ∈ t.pool.registry.reaped) ∧
        t.pool.roster.workers = [] ∧ ∀ a ∈ t.activities, a.stage.builds = false) := by
  have h := Concluding.reachable hs
  refine ⟨fun w hw => ?_, fun hended t hrun => ?_⟩
  · rcases h.owned.covered w hw with hgone | hmember | hkept | ⟨a, ha, hmine⟩
    · exact .inl hgone
    · exact .inr (.inl hmember)
    · exact .inr (.inr (.inl hkept))
    · exact .inr (.inr (.inr ⟨a, ha, hmine, h.owned.responsible ha hmine⟩))
  · obtain ⟨ht, hstays⟩ := (Concluding.ended_stays s).run hrun ⟨h, fun hended => ⟨hended, rfl⟩⟩
    obtain ⟨htask, hbuilt⟩ := hstays hended
    obtain ⟨hsealed, hall⟩ := ht.ended htask
    exact ⟨htask, hbuilt, hall, ht.owned.accounted.bounded.closed hsealed.closing, hsealed.still⟩

/-- A pool of one whose shutdown has just begun. -/
def closingPool : Sys := (execute step [.call .shutdown] (init 1)).getD (init 1)

theorem closingPool_reachable : Reachable 1 closingPool := reachable_execute (by decide)

/-- The shutdown takes over the workers without a ticket and without retaining their handles. -/
theorem shutdown_leaves_nothing_gap : Reachable 1 closingPool ∧
    0 < closingPool.pool.registry.constructed ∧ 0 ∉ closingPool.pool.registry.reaped ∧
      0 ∉ closingPool.pool.roster.workers ∧ 0 ∉ closingPool.pool.registry.unreaped ∧
      closingPool.pool.activeReplenishments = [] :=
  ⟨closingPool_reachable, by decide⟩

/-- The same pool when its shutdown has succeeded. -/
def closedPool : Sys :=
  (execute step [.call .shutdown, .stopped 0 0 true, .move 0 .shutdownReaped,
    .move 0 (.shutdownDrain true), .move 0 (.shutdownSnapshot true), .move 0 (.shutdownEnd true)]
    (init 1)).getD (init 1)

theorem closedPool_reachable : Reachable 1 closedPool := reachable_execute (by decide)

theorem shutdown_leaves_nothing_closed : closedPool.pool.shutdownTask = .finished true ∧
    ∀ w < closedPool.pool.registry.constructed, w ∈ closedPool.pool.registry.reaped :=
  ⟨by decide, ((shutdown_leaves_nothing closedPool_reachable).2 (by decide) closedPool
    Relation.ReflTransGen.refl).2.2.1⟩

end KernelGym.WorkerPool
