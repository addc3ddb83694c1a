import KernelGym.QueuedOnce

/-! The first terminal outcome. A publication that presents a claim token cannot meet a terminal
record, because a terminal record has no token. The publication of a process without a claim compares
nothing: it writes over whatever record it finds. -/

namespace KernelGym

variable {s s' : Sys} {a : Action} {m : KeyPrefix} {k : TaskId} {C' : Cell}

/-- A `complete_task` or `fail_task` call without a claim reaches its pipeline when the record is
already terminal. -/
def Sys.overwritesOutcome (s : Sys) : Action → Prop
  | .publishUnclaimed _ pre id _ _ _ => ((s.spaces pre).hgetall id).terminal = true
  | _ => False

/-- The actions that may replace a terminal record of `k`: a force refresh, an accept, a discard, an
expiry. -/
def Action.replaces (m : KeyPrefix) (k : TaskId) : Action → Prop
  | .submit pre d _ force _ _ => pre = m ∧ d.taskId = k ∧ force = true
  | .accept pre id _ _ _ _ _ _ => pre = m ∧ id = k
  | .discardWorkflow pre id _ _ | .deleteRecords pre id => pre = m ∧ id = k
  | .expireTask pre id | .expireResult pre id => pre = m ∧ id = k
  | _ => False

theorem CellStep.outcome_kept (hcell : CellStep s m k (s.cell m k) a C') (hcv : s.CellValid m k)
    (hnot : ¬s.overwritesOutcome a) (hkeep : ¬a.replaces m k) {h : TaskHash}
    (hh : (s.cell m k).view.hash = some h) (hterminal : h.terminal = true) :
    C'.hash.status = h.status ∧ C'.view.result = (s.cell m k).view.result := by
  have hhash : (s.cell m k).hash = h := Cell.hash_of_some hh
  have hsound := hcv.sound h hh
  have hheld : ∀ {t}, (s.cell m k).hash.claim.token = some t → False := by
    intro t ht
    rw [hhash, hsound.unclaimed hterminal] at ht
    exact absurd ht (by simp)
  have hactive : ∀ h' : TaskHash, h'.status = (s.cell m k).hash.status →
      h'.active = true → False := by
    intro h' hstatus hactive
    have hsame : h'.terminal = true := by rw [TaskHash.terminal, hstatus, hhash]; exact hterminal
    rw [TaskHash.not_active_of_terminal hsame] at hactive
    exact absurd hactive (by simp)
  have hpending : (s.cell m k).hash.status = some .pending → False := fun hpending =>
    hactive _ rfl ((TaskHash.active_iff _).mpr (Or.inl hpending))
  have hunstoppable : ∀ h' : TaskHash, h'.status = (s.cell m k).hash.status →
      ¬h'.stoppable = true := by
    intro h' hstatus hstop
    simp only [TaskHash.stoppable, Bool.and_eq_true, beq_iff_eq] at hstop
    exact hpending (hstatus ▸ hstop.1)
  have hkept : (s.cell m k).hash.status = h.status := by rw [hhash]
  cases hcell with
  | idle | forgotten | loaded | checked | observed | adopted | superseded | finalizeSuperseded
  | entryDropped | staleCopy | cpuPopped | cpuPushed => exact ⟨hkept, rfl⟩
  | debris _ hlow =>
      obtain ⟨n, -, rfl⟩ := hlow
      exact ⟨hkept, rfl⟩
  | submitted hpayload hid hallowed hnone =>
      rw [hh] at hnone
      exact absurd hnone (by simp)
  | refreshed hpayload hid => exact absurd ⟨rfl, hid, rfl⟩ hkeep
  | claimed hfresh hlane hclaimable =>
      obtain ⟨task, htask, hstatus, -, -⟩ := claimable_data hcv hclaimable
      rw [← show (s.cell m k).hash = task from Cell.hash_of_some htask] at hstatus
      exact (hpending hstatus).elim
  | marked hc hstage hd ht => exact (hheld ht).elim
  | markRefused hc hstage hd ht => exact (hheld ht).elim
  | returned hc hstage ht => exact (hheld ht).elim
  | acked hc hack ht => exact (hheld ht).elim
  | requeued hc hd hseen ht => exact (hheld ht).elim
  | requeueRefused hc hd ht => exact (hheld ht).elim
  | frozen hc hstage ht => exact (hheld ht).elim
  | finalized hc hterm ht => exact (hheld ht).elim
  | stamped hstamped =>
      obtain rfl := Option.some.inj (hh.symm.trans hstamped)
      exact ⟨rfl, rfl⟩
  | stampedAbsent hnone =>
      rw [hh] at hnone
      exact absurd hnone (by simp)
  | @cancelled now retention h' hstamped hchildren =>
      rw [← Cell.hash_of_some hstamped]
      have hstop := hunstoppable ((s.cell m k).hash.cancelStamped now) rfl
      rw [Cell.hash, Cell.withView_view, TaskView.withdrawn_hash_of_not _ hstop,
        TaskView.withdrawn, if_neg hstop, TaskView.purgeLanes_result]
      exact ⟨hkept, rfl⟩
  | swept hne hmem =>
      have hstop := hunstoppable ((s.cell m k).view.hash.getD {}) rfl
      rw [Cell.hash, Cell.withView_view, TaskView.swept, TaskView.withdrawn_hash_of_not _ hstop,
        TaskView.withdrawn, if_neg hstop, TaskView.purgeLanes_result]
      exact ⟨hkept, rfl⟩
  | accepted | taskExpired | resultExpired | discarded | deleted => exact absurd ⟨rfl, rfl⟩ hkeep
  | @renewed g now hallowed =>
      have hrecord := (workflowAllowed_parent rfl rfl rfl hallowed).2.1
      exact (hactive ((s.spaces m).hgetall k) rfl hrecord).elim
  | committed hissued hpre hid hterm hreason hgen hactive' => exact (hactive _ rfl hactive').elim
  | moved hdata hassigned hstatus => exact (hpending hstatus).elim
  | cpuMarked hpre hid hstatus => exact (hpending hstatus).elim
  | published hpublishing hterm =>
      exact absurd (show (s.cell m k).hash.terminal = true by rw [hhash, hterminal]) hnot

/-- In every run in which no publication without a claim meets a terminal record, a terminal outcome
stays as it is until a force refresh, an accept, a discard or an expiry replaces the record. -/
theorem first_outcome_wins (hs : Reachable s) {h : TaskHash} (hh : (s.spaces m).tasks k = some h)
    (hterminal : h.terminal = true)
    (hrun : Library.RunWhen step (fun u a => ¬u.overwritesOutcome a ∧ ¬a.replaces m k) s s') :
    (∃ h', (s'.spaces m).tasks k = some h' ∧ h'.status = h.status) ∧
      (s'.spaces m).results k = (s.spaces m).results k := by
  have hinv : s'.Valid ∧ (s'.cell m k).hash.status = h.status ∧
      (s'.cell m k).view.result = (s.cell m k).view.result := by
    refine Library.RunWhen.invariant (I := fun u => u.Valid ∧ (u.cell m k).hash.status = h.status ∧
      (u.cell m k).view.result = (s.cell m k).view.result) ?_ hrun
      ⟨ReachableWhen.valid hs, by rw [show (s.cell m k).hash = h from Cell.hash_of_some hh], rfl⟩
    rintro u b u' ⟨hv, hstatus, hresult⟩ ⟨hnot, hkeep⟩ hstep
    obtain ⟨status, hsome, hterm⟩ := (TaskHash.terminal_iff h).mp hterminal
    have hexists := Cell.exists_of_status (hstatus.trans hsome)
    obtain ⟨hstatus', hresult'⟩ := (cellStep_of_step m k hstep).outcome_kept (hv.cell m k) hnot
      hkeep hexists (by rw [TaskHash.terminal, hstatus]; exact hterminal)
    exact ⟨hv.step hstep, hstatus'.trans hstatus, hresult'.trans hresult⟩
  obtain ⟨status, hsome, -⟩ := (TaskHash.terminal_iff h).mp hterminal
  exact ⟨⟨_, Cell.exists_of_status (hinv.2.1.trans hsome), hinv.2.1⟩, hinv.2.2⟩

/-- A replacement recovers the fenced claim of a worker that is proven safe, and completes the task. -/
def replacedWorker : List Action :=
  markedTask ++ [.recoverScan "new" "kernelgym" "gpu0" 32,
    .recoverRead "new" ⟨"kernelgym", "gpu0", "first", "task"⟩ true, .snapshot "new" "task",
    .requeue "new" "task" true .all "worker_process_recovered_inflight_claim" "2",
    .claim "new" "kernelgym" "gpu0" (.resource .gpu) "second" 32, .load "new" "task",
    .mark "new" "task" "3",
    .finalize "new" "task" { status := .completed, completedAt := some "4" }
      { result := some { taskId := "task", status := some .completed }, completedAt := some "4" }
      {} false]

/-- The first process shuts down: freezing finds its claim superseded and forgets it, so that
`fail_task` takes the path without a claim. -/
def workerShutdown : List Action :=
  [.freeze "old" "task" "shutdown" "5", .readUnclaimed "old" "kernelgym" "task",
    .publishUnclaimed "old" "kernelgym" "task" { status := .failed, failedAt := some "6" }
      { error := some "Worker shutdown", errorCode := some .unknownError, failedAt := some "6" } {}]

theorem first_outcome_wins_recovery :
    (((Sys.after replacedWorker).follow [.recoverScan "late" "kernelgym" "gpu0" 32,
      .cancel "kernelgym" "task" "5" {}, .tick 7]).spaces "kernelgym").results "task" =
      ((Sys.after replacedWorker).spaces "kernelgym").results "task" := by
  have hs : Reachable (Sys.after replacedWorker) :=
    Library.execute_run_getD (fun _ _ => trivial)
      (show (Library.execute step replacedWorker {}).isSome by decide)
  have hrun : Library.RunWhen step
      (fun u a => ¬u.overwritesOutcome a ∧ ¬a.replaces "kernelgym" "task") (Sys.after replacedWorker)
      ((Sys.after replacedWorker).follow [.recoverScan "late" "kernelgym" "gpu0" 32,
        .cancel "kernelgym" "task" "5" {}, .tick 7]) :=
    Library.RunWhen.mono
      (fun u a (h : (∀ v : Sys, ¬v.overwritesOutcome a) ∧ ¬a.replaces "kernelgym" "task") =>
        ⟨h.1 u, h.2⟩)
      (Library.execute_run_getD (by simp [Sys.overwritesOutcome, Action.replaces]) (by decide))
  exact (first_outcome_wins (m := "kernelgym") (k := "task") hs rfl rfl hrun).2

/-- The replacement's completed task ends as failed with the error "Worker shutdown". -/
theorem worker_shutdown_overwrites :
    Reachable (Sys.after replacedWorker) ∧
    Library.Run step (Sys.after replacedWorker) ((Sys.after replacedWorker).follow workerShutdown) ∧
    (((Sys.after replacedWorker).spaces "kernelgym").hgetall "task").status = some .completed ∧
    ((((Sys.after replacedWorker).follow workerShutdown).spaces "kernelgym").hgetall "task").status =
      some .failed ∧
    ((((Sys.after replacedWorker).follow workerShutdown).spaces "kernelgym").results "task").bind
      ResultHash.error = some "Worker shutdown" := by
  refine ⟨?_, ?_, by decide, by decide, by decide⟩
  · exact Library.execute_run_getD (fun _ _ => trivial)
      (show (Library.execute step replacedWorker {}).isSome by decide)
  · exact Library.execute_run_getD (fun _ _ => trivial)
      (show (Library.execute step workerShutdown (Sys.after replacedWorker)).isSome by decide)

end KernelGym
