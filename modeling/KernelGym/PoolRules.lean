import KernelGym.Library.Slots
import KernelGym.PoolSystem

/-! Rules for invariants of the pool: what a step is, and which five facts make a property of states
an invariant of every run. -/

namespace KernelGym.WorkerPool

open Library

/-- `_ensure_capacity_locked` with the threads that it starts. -/
def Sys.topUp (s : Sys) : Sys :=
  { pool := s.pool.ensureCapacity, activities := s.activities ++ topUpThreads s.pool }

/-- The state after a block, before a top-up. -/
def Result.base (r : Result) (activities : List Activity) : Sys :=
  { pool := r.pool, activities := activities ++ r.started }

theorem Result.finish_eq (r : Result) (activities : List Activity) :
    r.finish activities = if r.topUp then (r.base activities).topUp else r.base activities := rfl

/-- A block leaves its activity where it says. -/
theorem finish_activity {s : Sys} {i : Nat} {a : Activity} (r : Result)
    (ha : s.activities[i]? = some a) :
    (r.finish (s.activities.set i r.activity)).activities[i]? = some r.activity := by
  have hlt : i < (s.activities.set i r.activity).length := by
    simpa using (List.getElem?_eq_some_iff.mp ha).1
  have hself : (s.activities.set i r.activity)[i]? = some r.activity :=
    List.getElem?_set_self (by simpa using hlt)
  rw [Result.finish_eq]
  split <;> simp only [Sys.topUp, Result.base, List.append_assoc, List.getElem?_append_left hlt] <;>
    exact hself

theorem finish_pool (r : Result) (activities : List Activity) :
    (r.finish activities).pool.unsafeShutdown = r.pool.unsafeShutdown ∧
      (r.finish activities).pool.recoveryLock = r.pool.recoveryLock ∧
      (r.finish activities).pool.probes = r.pool.probes := by
  rw [Result.finish_eq]
  split <;> exact ⟨rfl, rfl, rfl⟩

/-- The state after the shutdown of `w` came back to activity `i`. -/
def Sys.stopped (s : Sys) (i : Nat) (a : Activity) (w : Handle) (proven : Bool) : Sys :=
  { pool := { s.pool with registry := (s.pool.registry.shutdown w proven).1 }
    activities := s.activities.set i
      { a with reap :=
          { todo := a.reap.todo.erase w
            results := a.reap.results ++ [(w, (s.pool.registry.shutdown w proven).2)] } } }

/-- The state after the process of `w` died. -/
def Sys.dies (s : Sys) (w : Handle) : Sys :=
  { s with pool := { s.pool with
      registry := { s.pool.registry with dead := w :: s.pool.registry.dead } } }

variable {s t : Sys}

theorem step_move {i : Nat} {m : Move} (h : step s (.move i m) = some t) :
    ∃ r, s.activities[i]? = some ⟨m.source, r⟩ ∧ m.ready s.pool r = true ∧
      t = (m.run s.pool r).finish (s.activities.set i (m.run s.pool r).activity) := by
  simp only [step] at h
  cases ha : s.activities[i]? with
  | none => simp [ha] at h
  | some a =>
      simp only [ha, Option.ite_none_right_eq_some, Option.some.injEq] at h
      obtain ⟨⟨hstage, hready⟩, ht⟩ := h
      refine ⟨a.reap, ?_, hready, ht.symm⟩
      rw [← hstage]

theorem step_call {c : Call} (h : step s (.call c) = some t) :
    c.ready s.pool = true ∧
      t = (c.run s.pool).finish (s.activities ++ [(c.run s.pool).activity]) := by
  simp only [step, Option.ite_none_right_eq_some, Option.some.injEq] at h
  exact ⟨h.1, h.2.symm⟩

theorem step_stopped {i : Nat} {w : Handle} {proven : Bool}
    (h : step s (.stopped i w proven) = some t) :
    ∃ a, s.activities[i]? = some a ∧ w ∈ a.reap.todo ∧ t = s.stopped i a w proven := by
  simp only [step] at h
  cases ha : s.activities[i]? with
  | none => simp [ha] at h
  | some a =>
      simp only [ha, Option.ite_none_right_eq_some, Option.some.injEq] at h
      exact ⟨a, rfl, h.1, h.2.symm⟩

theorem step_dies {w : Handle} (h : step s (.dies w) = some t) : t = s.dies w :=
  (Option.some.inj h).symm

theorem reachable_execute {n : Nat} {cs : List Action} (h : (execute step cs (init n)).isSome) :
    Reachable n ((execute step cs (init n)).getD (init n)) := by
  have hrun : Run step (init n) ((execute step cs (init n)).getD (init n)) :=
    execute_run_getD (fun _ _ => trivial) h
  exact hrun

/-- What an invariant owes to each kind of step, up to `_ensure_capacity_locked`. -/
structure Preserved (I : Sys → Prop) : Prop where
  move : ∀ {s : Sys} {i : Nat} (m : Move) (r : Reap), I s →
    s.activities[i]? = some ⟨m.source, r⟩ → m.ready s.pool r = true →
    I ((m.run s.pool r).base (s.activities.set i (m.run s.pool r).activity))
  call : ∀ {s : Sys} (c : Call), I s → c.ready s.pool = true →
    I ((c.run s.pool).base (s.activities ++ [(c.run s.pool).activity]))
  topUp : ∀ {s : Sys}, I s → I s.topUp
  stopped : ∀ {s : Sys} {i : Nat} {a : Activity} {w : Handle} (proven : Bool), I s →
    s.activities[i]? = some a → w ∈ a.reap.todo → I (s.stopped i a w proven)
  dies : ∀ {s : Sys} (w : Handle), I s → I (s.dies w)

namespace Preserved

variable {I : Sys → Prop}

theorem finish (h : Preserved I) {r : Result} {activities : List Activity}
    (hbase : I (r.base activities)) : I (r.finish activities) := by
  rw [Result.finish_eq]
  split
  · exact h.topUp hbase
  · exact hbase

theorem step (h : Preserved I) {c : Action} (hs : I s) (hstep : step s c = some t) : I t := by
  cases c with
  | move i m =>
      obtain ⟨r, ha, hready, ht⟩ := step_move hstep
      rw [ht]
      exact h.finish (h.move m r hs ha hready)
  | call c =>
      obtain ⟨hready, ht⟩ := step_call hstep
      rw [ht]
      exact h.finish (h.call c hs hready)
  | stopped i w proven =>
      obtain ⟨a, ha, hw, ht⟩ := step_stopped hstep
      rw [ht]
      exact h.stopped proven hs ha hw
  | dies w =>
      rw [step_dies hstep]
      exact h.dies w hs

theorem run (h : Preserved I) (hrun : Run WorkerPool.step s t) (hs : I s) : I t :=
  hrun.invariant (fun _ _ _ hs _ hstep => h.step hs hstep) hs

theorem reachable (h : Preserved I) {n : Nat} (hinit : I (init n)) (hs : Reachable n s) : I s :=
  h.run hs hinit

end Preserved

/-! ### What the handles keep -/

namespace Registry

variable (r : Registry)

theorem mem_retain {w x : Handle} : x ∈ (r.retain w).unreaped ↔ x ∈ r.unreaped ∨ x = w := by
  simp only [retain]
  split
  · rename_i hmem
    exact ⟨.inl, fun h => h.elim id fun heq => heq ▸ hmem⟩
  · simp

theorem mem_release {w x : Handle} : x ∈ (r.release w).unreaped ↔ x ∈ r.unreaped ∧ x ≠ w := by
  simp [release]

@[simp] theorem retain_reaped (w : Handle) : (r.retain w).reaped = r.reaped := rfl

@[simp] theorem release_reaped (w : Handle) : (r.release w).reaped = r.reaped := rfl

@[simp] theorem retain_constructed (w : Handle) : (r.retain w).constructed = r.constructed := rfl

@[simp] theorem release_constructed (w : Handle) : (r.release w).constructed = r.constructed := rfl

@[simp] theorem recordResult_reaped (x : Handle × Bool) : (r.recordResult x).reaped = r.reaped := by
  rw [recordResult]
  split <;> rfl

@[simp] theorem recordResult_constructed (x : Handle × Bool) :
    (r.recordResult x).constructed = r.constructed := by
  rw [recordResult]
  split <;> rfl

theorem recordResults_cons (x : Handle × Bool) (results : List (Handle × Bool)) :
    r.recordResults (x :: results) = (r.recordResult x).recordResults results := rfl

@[simp] theorem recordResults_reaped (results : List (Handle × Bool)) :
    (r.recordResults results).reaped = r.reaped := by
  induction results generalizing r with
  | nil => rfl
  | cons x results ih => rw [recordResults_cons, ih, recordResult_reaped]

@[simp] theorem recordResults_constructed (results : List (Handle × Bool)) :
    (r.recordResults results).constructed = r.constructed := by
  induction results generalizing r with
  | nil => rfl
  | cons x results ih => rw [recordResults_cons, ih, recordResult_constructed]

@[simp] theorem shutdown_constructed (w : Handle) (stopped : Bool) :
    (r.shutdown w stopped).1.constructed = r.constructed := by
  rw [shutdown]
  (repeat' split) <;> rfl

@[simp] theorem constructFailed_constructed (reapConfirmed : Bool) :
    (r.constructFailed reapConfirmed).constructed = r.constructed + 1 := by
  rw [constructFailed, shutdown_constructed]
  rfl

theorem mem_recordResult {x : Handle × Bool} {w : Handle} :
    w ∈ (r.recordResult x).unreaped ↔
      if x.2 then w ∈ r.unreaped ∧ w ≠ x.1 else w ∈ r.unreaped ∨ w = x.1 := by
  rw [recordResult]
  split
  · exact r.mem_release
  · exact r.mem_retain

/-- Recording drops a handle only on a proof, and adds one only for want of a proof. -/
theorem mem_recordResults {results : List (Handle × Bool)} {w : Handle} :
    (w ∈ r.unreaped → w ∈ (r.recordResults results).unreaped ∨ (w, true) ∈ results) ∧
      (w ∈ (r.recordResults results).unreaped → w ∈ r.unreaped ∨ (w, false) ∈ results) := by
  induction results generalizing r with
  | nil => exact ⟨.inl, .inl⟩
  | cons x results ih =>
      rw [recordResults_cons]
      obtain ⟨hkeep, hgain⟩ := ih (r.recordResult x)
      have hx := r.mem_recordResult (x := x) (w := w)
      obtain ⟨x, proven⟩ := x
      cases proven <;> simp only [Bool.false_eq_true, if_false, if_true] at hx <;>
        simp only [List.mem_cons, Prod.mk.injEq]
      · refine ⟨fun h => ?_, fun h => ?_⟩
        · rcases hkeep (hx.mpr (.inl h)) with h | h
          · exact .inl h
          · exact .inr (.inr h)
        · rcases hgain h with h | h
          · rcases hx.mp h with h | rfl
            · exact .inl h
            · exact .inr (.inl ⟨rfl, trivial⟩)
          · exact .inr (.inr h)
      · refine ⟨fun h => ?_, fun h => ?_⟩
        · by_cases heq : w = x
          · exact .inr (.inl ⟨heq, trivial⟩)
          · rcases hkeep (hx.mpr ⟨h, heq⟩) with h | h
            · exact .inl h
            · exact .inr (.inr h)
        · rcases hgain h with h | h
          · exact .inl (hx.mp h).1
          · exact .inr (.inr h)

end Registry

/-! ### What the decisions of the pool tell -/

namespace Pool

variable {p : Pool} {g e : Nat} {v physical : Bool}

theorem contextFaultAnswer_validating (h : p.contextFaultAnswer e = .validating g) :
    e = p.admission.hardRecoveryEpoch ∧ p.admission.closing = false ∧
      p.admission.healthState = .healthy ∧ g = p.admission.poolGeneration + 1 := by
  simp only [contextFaultAnswer] at h
  split_ifs at h with hepoch hrefuse
  obtain rfl := ContextFault.validating.inj h
  simp only [not_or, Bool.not_eq_true, not_not] at hrefuse
  exact ⟨not_not.mp hepoch, hrefuse.1, hrefuse.2, rfl⟩

theorem recoveryCurrent_iff :
    p.recoveryCurrent g = true ↔ p.admission.closing = false ∧ g = p.admission.poolGeneration ∧
      p.admission.healthState = .suspect := by
  simp [recoveryCurrent, and_assoc]

theorem replenishmentStale_eq_false :
    p.replenishmentStale g = false ↔
      p.admission.closing = false ∧ g = p.admission.poolGeneration := by
  simp [replenishmentStale]

theorem registration_fresh (h : p.registration g v ≠ .stale) :
    p.admission.closing = false ∧ g = p.admission.poolGeneration ∧
      p.admission.healthState = registrableState v := by
  rw [registration] at h
  split at h
  · exact absurd rfl h
  · rename_i hstale
    split at h
    · exact absurd rfl h
    · rename_i hstate
      obtain ⟨hclosing, hgen⟩ := replenishmentStale_eq_false.mp (by simpa using hstale)
      exact ⟨hclosing, hgen, not_not.mp hstate⟩

theorem registration_added (h : p.registration g v = .added) :
    p.roster.workers.length < p.roster.poolSize := by
  rw [registration] at h
  split at h
  · cases h
  · split at h
    · cases h
    · split at h
      · assumption
      · cases h

theorem failure_fresh (h : p.failure g physical ≠ .stale) :
    p.admission.closing = false ∧ g = p.admission.poolGeneration := by
  rw [failure] at h
  split at h
  · exact absurd rfl h
  · rename_i hstale
    exact replenishmentStale_eq_false.mp (by simpa using hstale)

theorem admissionBlocked_eq_false (h : p.admissionBlocked = false) :
    p.admission.closing = false ∧
      (p.admission.healthState = .healthy ∨ p.admission.healthState = .degradedCheck) := by
  simp only [admissionBlocked, Bool.or_eq_false_iff, decide_eq_false_iff_not] at h
  obtain ⟨⟨⟨hclosing, hsuspect⟩, hfailed⟩, hquarantined⟩ := h
  refine ⟨hclosing, ?_⟩
  cases hstate : p.admission.healthState <;> simp_all

end Pool

/-! ### Where a block leaves its activity -/

section Run

variable (p : Pool) (r : Reap)

theorem holds_unreapedEach (ws : List Handle) (last : Stage) :
    (unreapedEach ws last).holds = last.holds := by
  induction ws with
  | nil => rfl
  | cons w ws ih => exact ih

theorem ticket_unreapedEach (ws : List Handle) (last : Stage) :
    (unreapedEach ws last).ticket = last.ticket := by
  induction ws with
  | nil => rfl
  | cons w ws ih => exact ih

/-- A task lets go of its worker in `_return_worker` only. -/
theorem run_holds (m : Move) :
    (m.run p r).activity.stage.holds =
      match m with
      | .returnWorker _ _ _ => none
      | m => m.source.holds := by
  cases m with
  | reapFailure g => exact holds_unreapedEach _ _
  | _ => simp only [Move.run]; (repeat' split) <;> rfl

/-- What a block does to the handles: nothing, recording the results it waited for, retaining the worker
that a restart detaches, releasing the one that is registered, or building a worker. -/
theorem run_registry (m : Move) :
    (m.run p r).pool.registry = p.registry ∨
    (m.run p r).pool.registry = p.registry.recordResults r.results ∨
    (∃ w e, (m = .recycle w e ∨ ∃ g, m = .recycleFaulted w e g) ∧
      (m.run p r).pool.registry = p.registry.retain w) ∨
    (∃ g v w, m = .register g v w ∧ p.registration g v = .added ∧
      (m.run p r).pool.registry = p.registry.release w) ∨
    (∃ w e g, m = .probeReady w e g ∧ (m.run p r).pool.registry = p.registry.construct.1) ∨
    (∃ g v, m = .constructed g v ∧
      (m.run p r).pool.registry = p.registry.construct.1.retain p.registry.constructed) ∨
    ∃ b, ((∃ w e g, m = .probeFailed w e g b) ∨ ∃ g v c, m = .constructorFailed g v c b) ∧
      (m.run p r).pool.registry = p.registry.constructFailed b := by
  cases m with
  | contextFault w e => cases h : p.contextFaultAnswer e <;> rw [Move.run, h] <;> exact .inl rfl
  | recycle w e => exact .inr (.inr (.inl ⟨w, e, .inl rfl, rfl⟩))
  | recycleFaulted w e g => exact .inr (.inr (.inl ⟨w, e, .inr ⟨g, rfl⟩, rfl⟩))
  | quarantineOld w e g =>
      simp only [Move.run, Move.endRecovery, Pool.quarantineOldWorkers]
      split <;> exact .inl rfl
  | probeReady w e g => exact .inr (.inr (.inr (.inr (.inl ⟨w, e, g, rfl, rfl⟩))))
  | probeFailed w e g b =>
      exact .inr (.inr (.inr (.inr (.inr (.inr ⟨b, .inl ⟨w, e, g, rfl⟩, rfl⟩)))))
  | settleProbe w e g v =>
      cases v <;> simp only [Move.run] <;> split <;> exact .inl rfl
  | constructed g v => exact .inr (.inr (.inr (.inr (.inr (.inl ⟨g, v, rfl, rfl⟩)))))
  | constructorFailed g v c b =>
      exact .inr (.inr (.inr (.inr (.inr (.inr ⟨b, .inr ⟨g, v, c, rfl⟩, rfl⟩)))))
  | register g v w =>
      cases h : p.registration g v with
      | stale | surplus =>
          rw [Move.run, h]
          exact .inl rfl
      | added =>
          rw [Move.run, h]
          exact .inr (.inr (.inr (.inl ⟨g, v, w, rfl, h, rfl⟩)))
  | markFailed g v physical =>
      cases h : p.failure g physical <;> rw [Move.run, h] <;> exact .inl rfl
  | _ =>
      first
      | exact .inl rfl
      | exact .inr (.inl rfl)
      | (simp only [Move.run]
         (repeat' split) <;> first | exact .inl trivial | exact .inl rfl | exact .inr (.inl rfl))

end Run

end KernelGym.WorkerPool
