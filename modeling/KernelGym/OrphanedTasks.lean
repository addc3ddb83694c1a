import KernelGym.FencedOwnership

/-! Whether a processing task always has a claim. One branch breaks it: a conditional requeue that is
refused because the task is no longer admitted clears the claim and leaves the status, so a task that
was already marked stays `processing` with no claim, no queue entry and no result. -/

namespace KernelGym

variable {s s' : Sys} {a : Action} {m : KeyPrefix} {k : TaskId}

/-- Every processing task with a payload carries a claim token, and its entry is in the inflight list
its hash names. Workflow parents have no payload. -/
def Store.NoOrphan (S : Store) : Prop :=
  ∀ k h, S.tasks k = some h → h.data.isSome → h.status = some .processing →
    ∃ t w, h.claim.token = some t ∧ h.claim.inflightQueue = some w ∧ (t, k) ∈ S.inflight w

/-- The action requeues a marked task under its live token, with a mode that releases its fence, while
the task is cancelled or its workflow no longer admits it. -/
def Sys.orphans (s : Sys) : Action → Prop
  | .requeue p id _ mode _ _ => ∃ c d, s.attempt p id = some c ∧ c.loaded = some d ∧
      ((s.spaces c.pre).hgetall id).claim.token = some c.token ∧
      mode.releases ((s.spaces c.pre).hgetall id).claim.recoveryState = true ∧
      ((s.spaces c.pre).hgetall id).status = some .processing ∧
      (s.spaces c.pre).admits id id (parentCancelId id d) = false
  | _ => False

/-- A processing task with a payload carries a claim. -/
def Cell.Claimed (C : Cell) : Prop :=
  C.hash.data.isSome → C.hash.status = some .processing → C.hash.claim.token.isSome

theorem CellStep.claimed_kept {C' : Cell} (hcell : CellStep s m k (s.cell m k) a C')
    (hcore : a.transactional = true) (hv : s.Valid) (hs : (s.cell m k).Settled)
    (hnot : ¬s.orphans a) (hclaimed : (s.cell m k).Claimed) : C'.Claimed := by
  have hcv := hv.cell m k
  -- The status of a task whose claim was not marked yet, and the end of a claim in that status.
  have hpending : ∀ {p c}, (s.cell m k).attempts p = some c → c.stage = .dequeued →
      (s.cell m k).hash.claim.token = some c.token →
      (s.cell m k).hash.status ≠ some .processing := by
    intro p c hc hstage ht hprocessing
    exact hs.fenced hprocessing _ ht
      ((hcv.matching _ _ _ hc (Cell.exists_of_token ht) ht).dequeued hstage)
  intro hdata hstatus
  cases hcell with
  | idle | forgotten | loaded | checked | observed | adopted | superseded | finalizeSuperseded
  | entryDropped | staleCopy | resultExpired => exact hclaimed hdata hstatus
  | cpuPopped | cpuPushed | cpuMarked | published | deleted =>
      exact absurd hcore (by simp [Action.transactional])
  | debris _ hlow =>
      obtain ⟨n, -, rfl⟩ := hlow
      exact hclaimed hdata hstatus
  | submitted | refreshed | requeued | moved =>
      exact absurd (show some TaskStatus.pending = some .processing from hstatus) (by simp)
  | claimed => rfl
  | marked hc hstage hd ht => exact Option.isSome_iff_exists.mpr ⟨_, ht⟩
  | markRefused hc hstage hd ht => exact (hpending hc hstage ht hstatus).elim
  | returned hc hstage ht =>
      refine (hpending hc hstage ht ?_).elim
      unfold TaskView.returned at hstatus
      split_ifs at hstatus <;> exact hstatus
  | acked hc hack ht hfence =>
      -- Only an attempt that is not marked, or one that knows no payload, is acknowledged.
      have hmatch := hcv.matching _ _ _ hc (Cell.exists_of_token ht) ht
      unfold Attempt.acknowledges at hack
      split at hack
      · rename_i hstage
        exact (hpending hc hstage ht hstatus).elim
      · rw [hmatch.unloadable] at hack
        exact absurd hack (by simp)
      · exact absurd hack (by simp)
  | requeueRefused hc hd ht hmode hrefused =>
      obtain ⟨hattempt, hpre⟩ := Sys.attempt_of_cell hc
      subst hpre
      rcases hrefused with hnone | hterminal | hadmits
      · exact absurd (hnone.symm.trans hstatus) (by simp)
      · rw [TaskHash.terminal, show (s.cell _ k).hash.status = some .processing from hstatus]
          at hterminal
        exact absurd hterminal (by simp [TaskStatus.terminal])
      · exact absurd ⟨_, _, hattempt, hd, ht, hmode, hstatus, hadmits⟩ hnot
  | finalized hc hterminal ht =>
      rw [show TaskStatus.terminal _ = TaskStatus.terminal .processing from
        congrArg _ (Option.some.inj hstatus)] at hterminal
      exact absurd hterminal (by simp [TaskStatus.terminal])
  | frozen hc hstage ht => exact Option.isSome_iff_exists.mpr ⟨_, ht⟩
  | stamped hh =>
      rw [← Cell.hash_of_some hh] at hdata hstatus ⊢
      exact hclaimed hdata hstatus
  | stampedAbsent => exact absurd hdata (by simp [Cell.hash, TaskView.setHash, TaskHash.cancelStamped])
  | @cancelled now retention h hh hchildren =>
      rw [← Cell.hash_of_some hh] at hdata hstatus ⊢
      by_cases hstop : ((s.cell m k).hash.cancelStamped now).stoppable = true
      · rw [Cell.hash, Cell.withView_view, TaskView.withdrawn, if_pos hstop] at hstatus
        exact absurd hstatus (by simp [TaskHash.stopped])
      · rw [Cell.hash, Cell.withView_view, TaskView.withdrawn_hash_of_not _ hstop]
          at hdata hstatus ⊢
        exact hclaimed hdata hstatus
  | swept hne hmem =>
      by_cases hstop : ((s.cell m k).view.hash.getD {}).stoppable = true
      · rw [Cell.hash, Cell.withView_view, TaskView.swept, TaskView.withdrawn, if_pos hstop]
          at hstatus
        exact absurd hstatus (by simp [TaskHash.stopped])
      · rw [Cell.hash, Cell.withView_view, TaskView.swept, TaskView.withdrawn_hash_of_not _ hstop]
          at hdata hstatus ⊢
        exact hclaimed hdata hstatus
  | accepted | taskExpired | discarded =>
      exact absurd hdata (by simp [Cell.hash, parentRecord])
  | renewed hallowed hgen =>
      obtain ⟨issue, hissued, -, hid⟩ :=
        hv.lease m k _ (workflowAllowed_parent rfl rfl rfl hallowed).2.2
      have hparent := (hcv.sound _ (Cell.exists_of_generation hgen)).kind.isParent_of_issued
        hgen hissued hid
      change (s.cell m k).hash.data.isSome at hdata
      rw [hparent.data] at hdata
      exact absurd hdata (by simp)
  | committed hissued hpre hid hterminal hreason hgen =>
      have hparent := (hcv.sound _ (Cell.exists_of_generation hgen)).kind.isParent_of_issued
        hgen hissued hid
      rw [Cell.hash, Cell.withView_view] at hdata
      change ((TaskView.purgeLanes _ _).hash.getD {}).data.isSome at hdata
      rw [TaskView.purgeLanes_hash] at hdata
      change (s.cell m k).hash.data.isSome at hdata
      rw [hparent.data] at hdata
      exact absurd hdata (by simp)

/-- In every run of the claim transactions in which no conditional requeue withdraws the claim of a
marked task that is no longer admitted, every processing task has its claim and its inflight entry. -/
theorem processing_task_claimed
    (hs : ReachableWhen (fun u a => a.transactional = true ∧ ¬u.orphans a) s) :
    ∀ m, (s.spaces m).NoOrphan := by
  intro m k h hh hdata hstatus
  have hinv : s.Valid ∧ (s.cell m k).Settled ∧ (s.cell m k).Claimed := by
    refine Library.RunWhen.invariant (I := fun u => u.Valid ∧ (u.cell m k).Settled ∧
      (u.cell m k).Claimed) ?_ hs ⟨Sys.valid_empty,
      Cell.Settled.of_idle rfl (fun _ _ => rfl) fun _ => rfl, fun hdata => absurd hdata Bool.false_ne_true⟩
    rintro u b u' ⟨hv, hsettled, hclaimed⟩ ⟨hcore, hnot⟩ hstep
    have hcell := cellStep_of_step m k hstep
    exact ⟨hv.step hstep, hcell.settled hcore hv hsettled,
      hcell.claimed_kept hcore hv hsettled hnot hclaimed⟩
  obtain ⟨hv, hsettled, hclaimed⟩ := hinv
  have hhash : (s.cell m k).hash = h := Cell.hash_of_some hh
  have hconsistent := hsettled.claimConsistent (hv.cell m k)
  rw [Cell.Claimed, hhash] at hclaimed
  obtain ⟨t, ht⟩ := Option.isSome_iff_exists.mp (hclaimed hdata hstatus)
  obtain ⟨w, hw, hone, -⟩ := (hconsistent.entry t).mp
    (by rw [show (s.spaces m).hgetall k = h from hhash, ht])
  rw [show (s.spaces m).hgetall k = h from hhash] at hw
  exact ⟨t, w, ht, hw, List.count_pos_iff.mp (by rw [hone]; exact Nat.one_pos)⟩

theorem processing_task_claimed_marked :
    ((Sys.after markedTask).spaces "kernelgym").NoOrphan := by
  have hrun : Library.RunWhen step (fun u a => a.transactional = true ∧ ¬u.orphans a) {}
      (Sys.after markedTask) :=
    Library.RunWhen.mono
      (fun u a (h : a.transactional = true ∧ ∀ v : Sys, ¬v.orphans a) => ⟨h.1, h.2 u⟩)
      (Library.execute_run_getD (by simp [markedTask, Action.transactional, Sys.orphans])
        (show (Library.execute step markedTask {}).isSome by decide))
  exact processing_task_claimed hrun "kernelgym"

/-- A cancellation lands between the processing mark and the requeue of a worker whose admission
gate has closed. -/
def orphaned : List Action :=
  markedTask ++ [.cancel "kernelgym" "task" "2" {}, .snapshot "old" "task",
    .requeue "old" "task" false .execution "gpu_admission_closed_after_dequeue" "3"]

theorem orphaned_task_processing :
    TransactionRun {} (Sys.after orphaned) ∧
    (((Sys.after orphaned).spaces "kernelgym").hgetall "task").status = some .processing ∧
    (((Sys.after orphaned).spaces "kernelgym").hgetall "task").claim = {} ∧
    ((Sys.after orphaned).spaces "kernelgym").results "task" = none ∧
    (∀ lane ∈ [Lane.resource .gpu, .resource .cpu, .worker "gpu0"],
      ((Sys.after orphaned).spaces "kernelgym").queues lane = []) ∧
    ¬((Sys.after orphaned).spaces "kernelgym").NoOrphan := by
  have hnone : (((Sys.after orphaned).spaces "kernelgym").hgetall "task").claim.token = none := by
    decide
  refine ⟨TransactionRun.after (by decide) (by decide), by decide, by decide, by decide, by decide,
    fun hclaimed => ?_⟩
  obtain ⟨t, w, ht, -⟩ := hclaimed "task" _ rfl (by decide) (by decide)
  exact absurd (hnone.symm.trans ht) (by simp)

end KernelGym
