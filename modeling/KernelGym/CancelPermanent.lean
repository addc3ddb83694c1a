import KernelGym.GuardAbsorbing

/-! Cancellation is permanent. The tombstone of a cancelled id is never removed, and it is among the
cancellation keys of every task of that id, of that base, of that source and of that parent, so the
guard of every processing mark refuses them. -/

namespace KernelGym

variable {s s' s'' : Sys} {a : Action} {m : KeyPrefix} {k x : TaskId}

/-- The task is `x`, or names `x` as its base, its source or its workflow parent. -/
def TaskHash.belongsTo (x k : TaskId) (h : TaskHash) : Prop :=
  k = x ∨ (∃ d, h.data = some d ∧ x ≠ "" ∧ (d.baseTaskId = x ∨ d.workflowSourceTaskId = x)) ∨
    h.workflow.parentKey = some x

/-- A record becomes `processing` by a worker's mark behind the guard, or by a renewal. -/
theorem CellStep.processing_cases {C' : Cell} (hcell : CellStep s m k (s.cell m k) a C')
    {h' : TaskHash} (hh' : C'.view.hash = some h') (hstatus' : h'.status = some .processing) :
    (∃ h, (s.cell m k).view.hash = some h ∧ h.status = some .processing) ∨
    (∃ h, (s.cell m k).view.hash = some h ∧ h.status = some .pending ∧ h.data = h'.data ∧
      h.workflow = h'.workflow ∧ h.cancellationKeys = h'.cancellationKeys ∧
      (s.spaces m).workflowAllowed h'.cancellationKeys h'.workflow = true) ∨
    (∃ h g, (s.cell m k).view.hash = some h ∧ h.workflow.generation = some g ∧
      h.data = h'.data ∧ h.workflow = h'.workflow ∧
      (s.spaces m).workflowAllowed []
        { generation := some g
          parentKey := some k
          leaseKey := some k
          deadline := h.workflow.deadline } = true) := by
  have hguard : ∀ {own base}, (s.spaces m).admits k own base = true →
      (s.spaces m).workflowAllowed (s.cell m k).hash.cancellationKeys
        (s.cell m k).hash.workflow = true := fun hadmits => by
    simp only [Store.admits, Bool.and_eq_true] at hadmits
    exact hadmits.1.1
  cases hcell with
  | idle | forgotten | loaded | checked | observed | adopted | superseded | finalizeSuperseded
  | entryDropped | staleCopy | resultExpired | cpuPopped | cpuPushed =>
      exact Or.inl ⟨h', hh', hstatus'⟩
  | debris _ hlow =>
      obtain ⟨n, -, rfl⟩ := hlow
      exact Or.inl ⟨h', hh', hstatus'⟩
  | submitted | refreshed | accepted | requeued | moved =>
      obtain rfl := Option.some.inj hh'
      exact absurd hstatus' (by simp [taskMapping, parentRecord, TaskHash.requeued, TaskHash.moved])
  | taskExpired | discarded | deleted => exact absurd hh' (by simp)
  | claimed hfresh hlane hclaimable hqueued =>
      obtain rfl := Option.some.inj hh'
      exact Or.inl ⟨_, Cell.exists_of_status hstatus', hstatus'⟩
  | marked hc hstage hd ht hstatus hadmits =>
      obtain rfl := Option.some.inj hh'
      exact Or.inr (Or.inl
        ⟨_, Cell.exists_of_status hstatus, hstatus, rfl, rfl, rfl, hguard hadmits⟩)
  | cpuMarked hpre hid hstatus hadmits =>
      obtain rfl := Option.some.inj hh'
      exact Or.inr (Or.inl
        ⟨_, Cell.exists_of_status hstatus, hstatus, rfl, rfl, rfl, hguard hadmits⟩)
  | renewed hallowed hgen =>
      obtain rfl := Option.some.inj hh'
      exact Or.inr (Or.inr ⟨_, _, Cell.exists_of_generation hgen, hgen, rfl, rfl, hallowed⟩)
  | markRefused hc hstage hd ht =>
      obtain rfl := Option.some.inj hh'
      exact Or.inl ⟨_, Cell.exists_of_token ht, hstatus'⟩
  | acked hc hack ht =>
      obtain rfl := Option.some.inj hh'
      exact Or.inl ⟨_, Cell.exists_of_token ht, hstatus'⟩
  | requeueRefused hc hd ht =>
      obtain rfl := Option.some.inj hh'
      exact Or.inl ⟨_, Cell.exists_of_token ht, hstatus'⟩
  | returned hc hstage ht =>
      obtain rfl := Option.some.inj hh'
      exact Or.inl ⟨_, Cell.exists_of_token ht, hstatus'⟩
  | frozen hc hstage ht =>
      obtain rfl := Option.some.inj hh'
      exact Or.inl ⟨_, Cell.exists_of_token ht, hstatus'⟩
  | finalized hc hterminal ht =>
      obtain rfl := Option.some.inj hh'
      rw [TerminalMapping.apply, Option.some.injEq] at hstatus'
      rw [hstatus'] at hterminal
      exact absurd hterminal (by simp [TaskStatus.terminal])
  | published hpublishing hterminal =>
      obtain rfl := Option.some.inj hh'
      rw [TerminalMapping.apply, Option.some.injEq] at hstatus'
      rw [hstatus'] at hterminal
      exact absurd hterminal (by simp [TaskStatus.terminal])
  | stamped hh =>
      obtain rfl := Option.some.inj hh'
      exact Or.inl ⟨_, hh, hstatus'⟩
  | stampedAbsent hnone =>
      obtain rfl := Option.some.inj hh'
      exact absurd hstatus' (by simp [TaskHash.cancelStamped])
  | cancelled hh hchildren =>
      unfold TaskView.withdrawn at hh'
      split_ifs at hh' with hstop
      · obtain rfl := Option.some.inj hh'
        exact absurd hstatus' (by simp [TaskHash.stopped])
      · rw [Cell.withView_view, TaskView.purgeLanes_hash] at hh'
        obtain rfl := Option.some.inj hh'
        exact Or.inl ⟨_, hh, hstatus'⟩
  | swept hne hmem =>
      unfold TaskView.swept TaskView.withdrawn at hh'
      split_ifs at hh' with hstop
      · obtain rfl := Option.some.inj hh'
        exact absurd hstatus' (by simp [TaskHash.stopped])
      · rw [Cell.withView_view, TaskView.purgeLanes_hash] at hh'
        exact Or.inl ⟨h', hh', hstatus'⟩
  | @committed g issue payload reason now retention lanes hissued hpre hid hterminal =>
      change (TaskView.purgeLanes _ _).hash = some h' at hh'
      rw [TaskView.purgeLanes_hash] at hh'
      obtain rfl := Option.some.inj hh'
      have hpayload := finishPayload_terminal k g reason (s.spaces m) hterminal
      rw [show (finishPayload k g payload reason (s.spaces m)).2.status = some .processing from
        hstatus'] at hpayload
      exact absurd hpayload (by simp [TaskStatus.terminal])

/-- A task that may be marked has every id it belongs to among its cancellation keys. -/
theorem TaskHash.Sound.mem_cancellationKeys {issued : Generation → Option Issue}
    {used : Token → Prop} {h : TaskHash} (hs : h.Sound issued used m k) {S : Store}
    (hactive : h.active = true) (hallowed : S.workflowAllowed h.cancellationKeys h.workflow = true)
    (hbelongs : h.belongsTo x k) : x ∈ h.cancellationKeys := by
  have hdata : h.data.isSome := by
    cases hs.kind with
    | standalone _ _ hdata => exact hdata hactive
    | child _ _ _ _ _ _ _ _ _ hdata => exact hdata hactive
    | parent g issue _ _ _ hworkflow _ _ _ _ _ =>
        obtain ⟨parent, _, _, hp, -⟩ := (workflowAllowed_iff.mp hallowed).2 g (by rw [hworkflow])
        rw [hworkflow] at hp
        exact absurd hp (by simp)
  obtain ⟨d, hd⟩ := Option.isSome_iff_exists.mp hdata
  obtain ⟨hid, hkeys, -⟩ := hs.payload d hd
  rcases hbelongs with rfl | ⟨d', hd', hne, hbase | hsource⟩ | hparent
  · rw [hkeys, ← hid]
    exact taskId_mem_cancellationKeys d
  · obtain rfl := Option.some.inj (hd.symm.trans hd')
    rw [hkeys, ← hbase]
    exact base_mem_cancellationKeys (hbase ▸ hne)
  · obtain rfl := Option.some.inj (hd.symm.trans hd')
    rw [hkeys, ← hsource]
    exact source_mem_cancellationKeys (hsource ▸ hne)
  · cases hs.kind with
    | standalone hworkflow _ _ =>
        rw [hworkflow] at hparent
        exact absurd hparent (by simp)
    | child g issue _ _ _ _ hworkflow _ hchild _ =>
        obtain ⟨original, -, hchildKeys⟩ := hchild
        rw [hworkflow] at hparent
        obtain rfl := Option.some.inj hparent
        rw [hchildKeys]
        simp [childKeys]
    | parent g issue _ _ _ hworkflow _ _ _ _ _ =>
        rw [hworkflow] at hparent
        exact absurd hparent (by simp)

theorem tombstone_run {ok : Sys → Action → Prop} (h : Library.RunWhen step ok s s')
    (htomb : (s.spaces m).tombstones x = true) : (s'.spaces m).tombstones x = true :=
  Library.RunWhen.invariant (I := fun t => (t.spaces m).tombstones x = true)
    (fun _ _ _ ht _ hstep => ((stepFrame_of_step hstep).fences m).tombstones x ht) h htomb

theorem cancel_tombstone {now : Timestamp} {retention : Retention}
    (h : step s (.cancel m x now retention) = some s') : (s'.spaces m).tombstones x = true := by
  obtain rfl := Option.some.inj h
  change (Function.update s.spaces m _ m).tombstones x = true
  rw [Function.update_self]
  exact cancelTask_fences_self.1

/-- A tombstone stops every transition into `processing` of the tasks that belong to its id. -/
theorem no_processing_of_tombstone (hv : s.Valid) (htomb : (s.spaces m).tombstones x = true)
    (hstep : step s a = some s') {h' : TaskHash} (hh' : (s'.spaces m).tasks k = some h')
    (hbelongs : h'.belongsTo x k) (hstatus : h'.status = some .processing) :
    ∃ h, (s.spaces m).tasks k = some h ∧ h.status = some .processing := by
  rcases (cellStep_of_step m k hstep).processing_cases hh' hstatus with
    hsame | ⟨h, hh, hpending, hdata, hworkflow, hkeys, hallowed⟩ |
    ⟨h, g, hh, hg, hdata, hworkflow, hallowed⟩
  · exact hsame
  · rw [← hkeys, ← hworkflow] at hallowed
    have hbefore : h.belongsTo x k := by
      simpa only [TaskHash.belongsTo, hdata, hworkflow] using hbelongs
    have hmem := ((hv.cell m k).sound h hh).mem_cancellationKeys
      (h.active_iff.mpr (Or.inl hpending)) hallowed hbefore
    rw [(workflowAllowed_iff.mp hallowed).1 x hmem] at htomb
    exact absurd htomb (by simp)
  · -- A renewal is of a workflow parent, whose own tombstone the guard reads.
    obtain ⟨parent, lease, record, hp, hl, hadmits, -⟩ :=
      (workflowAllowed_iff.mp hallowed).2 g rfl
    obtain rfl := Option.some.inj hp
    obtain rfl := Option.some.inj hl
    obtain ⟨issue, hissued, -, hid⟩ := hv.lease m k g hadmits.lease
    have hparent := ((hv.cell m k).sound h hh).kind.isParent_of_issued hg hissued hid
    have hrecord : record = h := Option.some.inj (hadmits.stored.symm.trans hh)
    subst hrecord
    rcases hbelongs with rfl | ⟨d, hd, -⟩ | hkey
    · rw [hadmits.tombstone k (hid ▸ hparent.cancellationKey)] at htomb
      exact absurd htomb (by simp)
    · rw [← hdata, hparent.data] at hd
      exact absurd hd (by simp)
    · rw [← hworkflow, hparent.workflow] at hkey
      exact absurd hkey (by simp)

/-- After the cancellation of `x` has committed, whether or not `x` had a record then, no step of any
continuation turns `x`, or a task with base, source or parent `x`, into a processing task. -/
theorem cancellation_permanent {s₀ : Sys} {now : Timestamp} {retention : Retention}
    (hs : Reachable s₀) (hcancel : step s₀ (.cancel m x now retention) = some s)
    (hrun : Library.Run step s s') (hstep : step s' a = some s'') :
    ∀ k h'', (s''.spaces m).tasks k = some h'' → h''.belongsTo x k →
      h''.status = some .processing →
      ∃ h', (s'.spaces m).tasks k = some h' ∧ h'.status = some .processing := by
  intro k h'' hh'' hbelongs hstatus
  have hv := (ReachableWhen.valid hs).step hcancel
  exact no_processing_of_tombstone (hv.run hrun) (tombstone_run hrun (cancel_tombstone hcancel))
    hstep hh'' hbelongs hstatus

/-- A worker has claimed and loaded a task. -/
def loadedTask : List Action :=
  [.submit "kernelgym" { taskId := "task" } none false [] "0",
    .claim "p" "kernelgym" "gpu0" (.resource .gpu) "token" 32, .load "p" "task"]

theorem cancellation_permanent_loaded :
    ∃ s s', step (Sys.after loadedTask) (.cancel "kernelgym" "task" "1" {}) = some s ∧
      step s (.mark "p" "task" "2") = some s' ∧
      ∀ h, (s'.spaces "kernelgym").tasks "task" = some h → h.status ≠ some .processing := by
  have hs : Reachable (Sys.after loadedTask) :=
    Library.execute_run_getD (fun _ _ => trivial)
      (show (Library.execute step loadedTask {}).isSome by decide)
  refine ⟨_, _, Library.step_getD (by decide), Library.step_getD (by decide), ?_⟩
  intro h hh hstatus
  obtain ⟨h', hh', hprocessing⟩ := cancellation_permanent hs (Library.step_getD (by decide))
    Relation.ReflTransGen.refl (Library.step_getD (by decide)) "task" h hh (Or.inl rfl) hstatus
  have hfailed : ((((step (Sys.after loadedTask) (.cancel "kernelgym" "task" "1" {})).getD
      (Sys.after loadedTask)).spaces "kernelgym").tasks "task").all
        fun h => h.status ≠ some .processing := by decide
  rw [hh'] at hfailed
  exact absurd hprocessing (by simpa using hfailed)

end KernelGym
