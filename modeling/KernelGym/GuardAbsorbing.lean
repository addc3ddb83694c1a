import KernelGym.SystemValid

/-! The admission guard never turns from false to true. Tombstones and the clock only go one way, a
lease is only given to a new generation, and a parent record that admits its generation after a step
admitted it before. So a generation that has ended once admits nothing any more. -/

namespace KernelGym

variable {s s' s'' : Sys} {a : Action} {m : KeyPrefix} {k : TaskId} {g : Generation} {issue : Issue}

/-- The part of the guard that concerns the parent of a generation. -/
structure Store.AdmitsGeneration (S : Store) (parent lease : TaskId) (g : Generation)
    (record : TaskHash) : Prop where
  stored : S.tasks parent = some record
  generation : record.workflow.generation = some g
  active : record.active = true
  tombstone : ∀ key, record.parent.cancellationKey = some key → S.tombstones key = false
  lease : S.leases lease = some g
  deadline : S.now < record.workflow.deadline.getD 0

theorem workflowAllowed_iff {S : Store} {keys : List TaskId} {w : WorkflowFields} :
    S.workflowAllowed keys w = true ↔
      (∀ key ∈ keys, S.tombstones key = false) ∧
      ∀ g, w.generation = some g → ∃ parent lease record, w.parentKey = some parent ∧
        w.leaseKey = some lease ∧ S.AdmitsGeneration parent lease g record ∧
        S.now < w.deadline.getD 0 := by
  unfold Store.workflowAllowed
  by_cases hkeys : keys.any S.tombstones = true
  · rw [if_pos hkeys]
    obtain ⟨key, hmem, hkey⟩ := List.any_eq_true.mp hkeys
    refine ⟨fun h => absurd h (by simp), fun h => ?_⟩
    rw [h.1 key hmem] at hkey
    exact hkey
  · have hall : ∀ key ∈ keys, S.tombstones key = false := by
      simpa [List.any_eq_true] using hkeys
    rw [if_neg hkeys]
    cases hg : w.generation with
    | none => exact ⟨fun _ => ⟨hall, fun g hg' => absurd hg' (by simp)⟩, fun _ => rfl⟩
    | some g =>
        cases hp : w.parentKey with
        | none =>
            refine ⟨fun h => absurd h (by simp), fun h => ?_⟩
            obtain ⟨parent, _, _, hparent, -⟩ := h.2 g rfl
            exact absurd hparent (by simp)
        | some parent =>
            cases hl : w.leaseKey with
            | none =>
                refine ⟨fun h => absurd h (by simp), fun h => ?_⟩
                obtain ⟨_, lease, _, -, hlease, -⟩ := h.2 g rfl
                exact absurd hlease (by simp)
            | some lease =>
                simp only [Bool.and_eq_true, beq_iff_eq, decide_eq_true_eq, Bool.not_eq_true']
                constructor
                · rintro ⟨⟨⟨⟨⟨hcancel, hgen⟩, hactive⟩, hlease⟩, hdeadline⟩, hown⟩
                  refine ⟨hall, fun g' hg' => ?_⟩
                  obtain rfl := Option.some.inj hg'
                  have hrecord : S.tasks parent = some (S.hgetall parent) := by
                    cases htask : S.tasks parent with
                    | none =>
                        rw [Store.hgetall, htask] at hgen
                        exact absurd hgen (by simp)
                    | some task => rw [Store.hgetall_of_some htask]
                  refine ⟨parent, lease, _, rfl, rfl, ⟨hrecord, hgen, hactive, ?_, hlease,
                    hdeadline⟩, hown⟩
                  intro key hkey
                  rw [hkey, Option.any_some] at hcancel
                  exact hcancel
                · rintro ⟨-, hparent⟩
                  obtain ⟨parent', lease', record, hp', hl', hadmits, hown⟩ := hparent g rfl
                  obtain rfl := Option.some.inj hp'
                  obtain rfl := Option.some.inj hl'
                  rw [Store.hgetall_of_some hadmits.stored]
                  refine ⟨⟨⟨⟨⟨?_, hadmits.generation⟩, hadmits.active⟩, hadmits.lease⟩,
                    hadmits.deadline⟩, hown⟩
                  cases hkey : record.parent.cancellationKey with
                  | none => rfl
                  | some key => simpa using hadmits.tombstone key hkey

/-- Where an active record comes from: it was active before, or the step has created it. -/
theorem CellStep.active_cases {C' : Cell} (hcell : CellStep s m k (s.cell m k) a C')
    (hv : s.CellValid m k) {h' : TaskHash} (hh' : C'.view.hash = some h')
    (hactive : h'.active = true) :
    (∃ h, (s.cell m k).view.hash = some h ∧ h.active = true ∧ h.workflow = h'.workflow ∧
      h.parent = h'.parent ∧ h.cancellationKeys = h'.cancellationKeys) ∨
    (∃ d d₀ child force known now, a = .submit m d₀ child force known now ∧
      submissionPayload s m d₀ child = some d ∧ d.taskId = k ∧ h' = taskMapping d now) ∨
    (∃ g, s.issued g = none ∧ h'.workflow.generation = some g ∧ h'.data = none) := by
  have hheld : ∀ {t}, (s.cell m k).hash.claim.token = some t →
      (s.cell m k).view.hash = some (s.cell m k).hash ∧ (s.cell m k).hash.active = true :=
    fun ht => ⟨Cell.exists_of_token ht, ((hv.sound _ (Cell.exists_of_token ht)).claimed _ ht).1⟩
  cases hcell with
  | idle | forgotten | loaded | checked | observed | adopted | superseded | finalizeSuperseded
  | entryDropped | staleCopy | resultExpired | cpuPopped | cpuPushed =>
      exact Or.inl ⟨h', hh', hactive, rfl, rfl, rfl⟩
  | debris _ hlow =>
      obtain ⟨n, -, rfl⟩ := hlow
      exact Or.inl ⟨h', hh', hactive, rfl, rfl, rfl⟩
  | submitted hpayload hid hallowed hnone =>
      obtain rfl := Option.some.inj hh'
      exact Or.inr (Or.inl ⟨_, _, _, _, _, _, rfl, hpayload, hid, rfl⟩)
  | refreshed hpayload hid hallowed hold hlanes =>
      obtain rfl := Option.some.inj hh'
      exact Or.inr (Or.inl ⟨_, _, _, _, _, _, rfl, hpayload, hid, rfl⟩)
  | accepted hid hfresh hreply =>
      obtain rfl := Option.some.inj hh'
      exact Or.inr (Or.inr ⟨_, hfresh, rfl, rfl⟩)
  | taskExpired | discarded | deleted => exact absurd hh' (by simp)
  | claimed hfresh hlane hclaimable hqueued =>
      obtain rfl := Option.some.inj hh'
      obtain ⟨task, htask, hstatus, -, -⟩ := claimable_data hv hclaimable
      rw [Cell.hash_of_some htask]
      exact Or.inl ⟨task, htask, (TaskHash.active_iff _).mpr (Or.inl hstatus), rfl, rfl, rfl⟩
  | marked hc hstage hd ht =>
      obtain rfl := Option.some.inj hh'
      exact Or.inl ⟨_, (hheld ht).1, (hheld ht).2, rfl, rfl, rfl⟩
  | markRefused hc hstage hd ht =>
      obtain rfl := Option.some.inj hh'
      exact Or.inl ⟨_, (hheld ht).1, (hheld ht).2, rfl, rfl, rfl⟩
  | returned hc hstage ht =>
      obtain rfl := Option.some.inj hh'
      exact Or.inl ⟨_, (hheld ht).1, (hheld ht).2, rfl, rfl, rfl⟩
  | acked hc hack ht =>
      obtain rfl := Option.some.inj hh'
      exact Or.inl ⟨_, (hheld ht).1, (hheld ht).2, rfl, rfl, rfl⟩
  | requeued hc hd hseen ht =>
      obtain rfl := Option.some.inj hh'
      exact Or.inl ⟨_, (hheld ht).1, (hheld ht).2, rfl, rfl, rfl⟩
  | requeueRefused hc hd ht =>
      obtain rfl := Option.some.inj hh'
      exact Or.inl ⟨_, (hheld ht).1, (hheld ht).2, rfl, rfl, rfl⟩
  | frozen hc hstage ht =>
      obtain rfl := Option.some.inj hh'
      exact Or.inl ⟨_, (hheld ht).1, (hheld ht).2, rfl, rfl, rfl⟩
  | finalized hc hterminal ht =>
      obtain rfl := Option.some.inj hh'
      exact Or.inl ⟨_, (hheld ht).1, (hheld ht).2, rfl, rfl, rfl⟩
  | stamped hh =>
      obtain rfl := Option.some.inj hh'
      exact Or.inl ⟨_, hh, hactive, rfl, rfl, rfl⟩
  | stampedAbsent hnone =>
      obtain rfl := Option.some.inj hh'
      exact absurd hactive (by simp [TaskHash.active, TaskHash.cancelStamped])
  | cancelled hh hchildren =>
      unfold TaskView.withdrawn at hh'
      split_ifs at hh' with hstop
      · obtain rfl := Option.some.inj hh'
        exact absurd hactive (by simp [TaskHash.active, TaskHash.stopped])
      · rw [Cell.withView_view, TaskView.purgeLanes_hash] at hh'
        obtain rfl := Option.some.inj hh'
        exact Or.inl ⟨_, hh, hactive, rfl, rfl, rfl⟩
  | swept hne hmem =>
      unfold TaskView.swept TaskView.withdrawn at hh'
      split_ifs at hh' with hstop
      · obtain rfl := Option.some.inj hh'
        exact absurd hactive (by simp [TaskHash.active, TaskHash.stopped])
      · rw [Cell.withView_view, TaskView.purgeLanes_hash] at hh'
        exact Or.inl ⟨h', hh', hactive, rfl, rfl, rfl⟩
  | renewed hallowed hgen =>
      obtain rfl := Option.some.inj hh'
      exact Or.inl ⟨_, Cell.exists_of_generation hgen,
        (workflowAllowed_parent rfl rfl rfl hallowed).2.1, rfl, rfl, rfl⟩
  | committed hissued hpre hid hterminal hreason hgen hactive' =>
      change (TaskView.purgeLanes _ _).hash = some h' at hh'
      rw [TaskView.purgeLanes_hash] at hh'
      obtain rfl := Option.some.inj hh'
      exact Or.inl ⟨_, Cell.exists_of_generation hgen, hactive', rfl, rfl, rfl⟩
  | moved hdata hassigned hstatus =>
      obtain rfl := Option.some.inj hh'
      exact Or.inl ⟨_, Cell.exists_of_status hstatus,
        (TaskHash.active_iff _).mpr (Or.inl hstatus), rfl, rfl, rfl⟩
  | cpuMarked hpre hid hstatus =>
      obtain rfl := Option.some.inj hh'
      exact Or.inl ⟨_, Cell.exists_of_status hstatus,
        (TaskHash.active_iff _).mpr (Or.inl hstatus), rfl, rfl, rfl⟩
  | published hpublishing hterminal =>
      obtain rfl := Option.some.inj hh'
      rw [TaskHash.not_active_of_terminal (TaskHash.Sound.apply_terminal hterminal _)] at hactive
      exact absurd hactive (by simp)

/-- A generation that the parent's fences admit after a step was admitted before it. -/
theorem admitsGeneration_antitone (hv : s.Valid) (h : step s a = some s')
    (hissued : s.issued g = some issue) {record : TaskHash}
    (hadmits : (s'.spaces issue.pre).AdmitsGeneration issue.id issue.id g record) :
    ∃ before, (s.spaces issue.pre).AdmitsGeneration issue.id issue.id g before ∧
      before.workflow = record.workflow := by
  have hframe := stepFrame_of_step h
  have hfences := hframe.fences issue.pre
  have hparent := (((hv.step h).cell issue.pre issue.id).sound record
    hadmits.stored).kind.isParent_of_issued hadmits.generation (hframe.issued g issue hissued) rfl
  have hlease : (s.spaces issue.pre).leases issue.id = some g := by
    rcases hfences.leases issue.id g hadmits.lease with hold | ⟨hnone, -⟩
    · exact hold
    · rw [hissued] at hnone
      exact absurd hnone (by simp)
  rcases (cellStep_of_step issue.pre issue.id h).active_cases (hv.cell issue.pre issue.id)
    hadmits.stored hadmits.active with
    ⟨before, hbefore, hactive, hworkflow, hfields, -⟩ |
    ⟨d, -, -, -, -, now, -, -, -, rfl⟩ | ⟨g', hnone, hg', -⟩
  · refine ⟨before, ⟨hbefore, hworkflow ▸ hadmits.generation, hactive, ?_, hlease, ?_⟩, hworkflow⟩
    · intro key hkey
      by_contra htomb
      have hlater := hfences.tombstones key (by simpa using htomb)
      rw [hadmits.tombstone key (hfields ▸ hkey)] at hlater
      exact absurd hlater (by simp)
    · rw [hworkflow]
      exact Nat.lt_of_le_of_lt hfences.now hadmits.deadline
  · exact absurd hparent.data (by simp [taskMapping])
  · -- A record accepted in this step has a new generation.
    rw [hadmits.generation] at hg'
    obtain rfl := Option.some.inj hg'
    rw [hissued] at hnone
    exact absurd hnone (by simp)

/-- What the guard of a child of `g` reads, apart from its own cancellation keys. -/
abbrev Issue.childWorkflow (issue : Issue) (g : Generation) : WorkflowFields :=
  KernelGym.childWorkflow issue.id g issue.deadline

theorem childAllowed_antitone (hv : s.Valid) (h : step s a = some s')
    (hissued : s.issued g = some issue) {keys : List TaskId}
    (hallowed : (s'.spaces issue.pre).workflowAllowed keys (issue.childWorkflow g) = true) :
    (s.spaces issue.pre).workflowAllowed keys (issue.childWorkflow g) = true := by
  have hfences := (stepFrame_of_step h).fences issue.pre
  obtain ⟨hkeys, hparent⟩ := workflowAllowed_iff.mp hallowed
  refine workflowAllowed_iff.mpr ⟨fun key hmem => ?_, fun g' hg' => ?_⟩
  · by_contra htomb
    have hlater := hfences.tombstones key (by simpa using htomb)
    rw [hkeys key hmem] at hlater
    exact absurd hlater (by simp)
  · obtain rfl := Option.some.inj hg'
    obtain ⟨parent, lease, record, hp, hl, hadmits, hown⟩ := hparent g rfl
    obtain rfl := Option.some.inj hp
    obtain rfl := Option.some.inj hl
    obtain ⟨before, hbefore, -⟩ := admitsGeneration_antitone hv h hissued hadmits
    exact ⟨issue.id, issue.id, before, rfl, rfl, hbefore, Nat.lt_of_le_of_lt hfences.now hown⟩

/-- A guard of a child that is false stays false along every run. -/
theorem childAllowed_false_run (hv : s.Valid) (hissued : s.issued g = some issue)
    {keys : List TaskId}
    (hfalse : (s.spaces issue.pre).workflowAllowed keys (issue.childWorkflow g) = false)
    (hrun : Library.Run step s s') :
    (s'.spaces issue.pre).workflowAllowed keys (issue.childWorkflow g) = false := by
  have hinv : s'.Valid ∧ s'.issued g = some issue ∧
      (s'.spaces issue.pre).workflowAllowed keys (issue.childWorkflow g) = false := by
    refine Library.RunWhen.invariant (I := fun t => t.Valid ∧ t.issued g = some issue ∧
      (t.spaces issue.pre).workflowAllowed keys (issue.childWorkflow g) = false) ?_ hrun
      ⟨hv, hissued, hfalse⟩
    rintro t b t' ⟨hvt, hissuedt, hfalset⟩ - hstep
    refine ⟨hvt.step hstep, (stepFrame_of_step hstep).issued g issue hissuedt, ?_⟩
    rw [← Bool.not_eq_true]
    intro hallowed
    rw [childAllowed_antitone hvt hstep hissuedt hallowed] at hfalset
    exact absurd hfalset (by simp)
  exact hinv.2.2

/-- What a record with a parent key is: a child of an issued generation. -/
theorem Sys.Valid.child (hv : s.Valid) {h : TaskHash} (hh : (s.spaces m).tasks k = some h)
    (hg : h.workflow.generation = some g) (hparent : h.workflow.parentKey.isSome) :
    ∃ issue, s.issued g = some issue ∧ issue.pre = m ∧ issue.id ≠ k ∧
      h.workflow = issue.childWorkflow g ∧ ∃ original, k = original ++ "_" ++ g ∧
        h.cancellationKeys = childKeys k issue.id original := by
  cases ((hv.cell m k).sound h hh).kind with
  | standalone hworkflow _ _ =>
      rw [hworkflow] at hg
      exact absurd hg (by simp)
  | child g' issue hissued hpre hne hid hworkflow _ hkeys _ =>
      rw [hworkflow] at hg
      obtain rfl := Option.some.inj hg
      exact ⟨issue, hissued, hpre, hne, hworkflow, hkeys⟩
  | parent g' issue _ _ _ hworkflow _ _ _ _ _ =>
      rw [hworkflow] at hparent
      exact absurd hparent (by simp)

/-- The generation can admit nothing: its record is finished, replaced or gone, its deadline has
passed, it has lost the lease, or its id was cancelled. -/
def Sys.GenerationEnded (s : Sys) (g : Generation) (issue : Issue) : Prop :=
  (∀ h, (s.spaces issue.pre).tasks issue.id = some h → h.workflow.generation = some g →
    h.active = false) ∨
  issue.deadline ≤ (s.spaces issue.pre).now ∨
  (s.spaces issue.pre).leases issue.id ≠ some g ∨
  (s.spaces issue.pre).tombstones issue.id = true

theorem Sys.GenerationEnded.refuses (hv : s.Valid) (hissued : s.issued g = some issue)
    (hended : s.GenerationEnded g issue) (keys : List TaskId) :
    (s.spaces issue.pre).workflowAllowed keys (issue.childWorkflow g) = false := by
  rw [← Bool.not_eq_true]
  intro hallowed
  obtain ⟨parent, lease, record, hp, hl, hadmits, hown⟩ :=
    (workflowAllowed_iff.mp hallowed).2 g rfl
  obtain rfl := Option.some.inj hp
  obtain rfl := Option.some.inj hl
  have hparent := ((hv.cell issue.pre issue.id).sound record
    hadmits.stored).kind.isParent_of_issued hadmits.generation hissued rfl
  rcases hended with hrecord | hdeadline | hlease | htomb
  · have hactive := hrecord record hadmits.stored hadmits.generation
    rw [hadmits.active] at hactive
    exact absurd hactive (by simp)
  · exact absurd hown (Nat.not_lt.mpr hdeadline)
  · exact hlease hadmits.lease
  · rw [hadmits.tombstone issue.id hparent.cancellationKey] at htomb
    exact absurd htomb (by simp)

/-- A step that did not dispatch the task: it was not marked processing or claimed, and no queue
got a copy of it, other than one a CPU worker had popped and pushed back. -/
structure Quiet (a : Action) (C C' : Cell) (h h' : TaskHash) : Prop where
  status : h'.status = some .processing → h.status = some .processing
  token : ∀ t, h'.claim.token = some t → h.claim.token = some t
  queued : (∀ p entry, a ≠ .cpuRepush p entry) → ∀ lane, C'.view.queued lane ≤ C.view.queued lane

namespace Quiet

variable {C C' : Cell} {h h' : TaskHash}

theorem refl (a : Action) (C : Cell) (h : TaskHash) : Quiet a C C h h :=
  ⟨fun hs => hs, fun _ ht => ht, fun _ _ => Nat.le_refl _⟩

/-- The record keeps its status and its claim, and the queues may lose copies. -/
theorem kept (hstatus : h'.status = h.status) (hclaim : h'.claim = h.claim)
    (hqueued : ∀ lane, C'.view.queued lane ≤ C.view.queued lane) : Quiet a C C' h h' where
  status hs := hstatus ▸ hs
  token t ht := by
    rw [hclaim] at ht
    exact ht
  queued _ lane := hqueued lane

/-- The record gives up its claim. -/
theorem unclaimed (hstatus : h'.status = h.status) (hnone : h'.claim.token = none)
    (hqueued : ∀ lane, C'.view.queued lane ≤ C.view.queued lane) : Quiet a C C' h h' where
  status hs := hstatus ▸ hs
  token t ht := by
    rw [hnone] at ht
    exact absurd ht (by simp)
  queued _ lane := hqueued lane

/-- The record is finished. -/
theorem ended {status : TaskStatus} (hterminal : status.terminal = true)
    (hstatus : h'.status = some status) (hnone : h'.claim.token = none)
    (hqueued : ∀ lane, C'.view.queued lane ≤ C.view.queued lane) : Quiet a C C' h h' where
  status hs := by
    obtain rfl := Option.some.inj (hstatus.symm.trans hs)
    exact absurd hterminal (by simp [TaskStatus.terminal])
  token t ht := by
    rw [hnone] at ht
    exact absurd ht (by simp)
  queued _ lane := hqueued lane

end Quiet

theorem TaskView.purgeLanes_queued_le (v : TaskView) (lanes : List Lane) (lane : Lane) :
    (v.purgeLanes lanes).queued lane ≤ v.queued lane := by
  rw [purgeLanes_queued]
  split_ifs
  · exact Nat.zero_le _
  · exact Nat.le_refl _

theorem TaskView.pullOne_queued_le (v : TaskView) (first lane : Lane) :
    (v.pullOne first).queued lane ≤ v.queued lane := by
  simp only [pullOne, Function.update_apply]
  split_ifs with hlane
  · rw [hlane]
    exact Nat.sub_le _ _
  · exact Nat.le_refl _

theorem TaskView.purge_queued_le (v : TaskView) (first lane : Lane) :
    (v.purge first).queued lane ≤ v.queued lane := by
  simp only [purge, Function.update_apply]
  split_ifs
  · exact Nat.zero_le _
  · exact Nat.le_refl _

theorem TaskView.lowered_queued_le {v v' : TaskView} {first : Lane} (h : v.lowered v' first)
    (lane : Lane) : v'.queued lane ≤ v.queued lane := by
  obtain ⟨n, hn, rfl⟩ := h
  simp only [Function.update_apply]
  split_ifs with hlane
  · rw [hlane]
    exact hn
  · exact Nat.le_refl _

theorem TaskView.withdrawn_queued_le (v : TaskView) (h : TaskHash) (now : Timestamp)
    (result : ResultMapping) (retention : Retention) (lane : Lane) :
    (v.withdrawn h now result retention).queued lane ≤ v.queued lane := by
  rw [withdrawn_queued]
  split_ifs
  · exact Nat.zero_le _
  · exact Nat.le_refl _

/-- Withdrawing a record dispatches nothing. -/
theorem TaskView.withdrawn_quiet {C : Cell} {v : TaskView} {h h' : TaskHash} {now : Timestamp}
    {result : ResultMapping} {retention : Retention} (hqueued : v.queued = C.view.queued)
    (hh : ¬h.stoppable = true → v.hash = some h)
    (hh' : (v.withdrawn h now result retention).hash = some h') :
    h'.workflow = h.workflow ∧
      Quiet a C (C.withView (v.withdrawn h now result retention)) h h' := by
  have hle : ∀ lane, (v.withdrawn h now result retention).queued lane ≤ C.view.queued lane := by
    intro lane
    rw [← hqueued]
    exact withdrawn_queued_le v h now result retention lane
  by_cases hstop : h.stoppable = true
  · rw [withdrawn, if_pos hstop] at hh'
    obtain rfl := Option.some.inj hh'
    exact ⟨rfl, .ended (rfl : TaskStatus.failed.terminal = true) rfl rfl hle⟩
  · rw [withdrawn_hash_of_not _ hstop, hh hstop] at hh'
    obtain rfl := Option.some.inj hh'
    exact ⟨rfl, .kept rfl rfl hle⟩

/-- The parent of a workflow is not a child of one. -/
theorem Sys.Valid.parentKey_of_parent (hv : s.Valid)
    (hgen : (s.cell m k).hash.workflow.generation = some g) (hissued : s.issued g = some issue)
    (hid : issue.id = k) : (s.cell m k).hash.workflow.parentKey = none := by
  have hself := ((hv.cell m k).sound _ (Cell.exists_of_generation hgen)).kind.isParent_of_issued
    hgen hissued hid
  rw [hself.workflow]

/-- A step on a child of a workflow dispatches nothing, or the guard of the child was true. -/
theorem CellStep.child_cases {C' : Cell} (hcell : CellStep s m k (s.cell m k) a C') (hv : s.Valid)
    {h' : TaskHash} (hh' : C'.view.hash = some h') (hparent : h'.workflow.parentKey.isSome) :
    (∃ h, (s.cell m k).view.hash = some h ∧ h.workflow = h'.workflow ∧
      Quiet a (s.cell m k) C' h h') ∨
    (s.spaces m).workflowAllowed h'.cancellationKeys h'.workflow = true := by
  have hguard : ∀ {own base}, (s.spaces m).admits k own base = true →
      (s.spaces m).workflowTaskAllowed k = true := fun hadmits => by
    simp only [Store.admits, Bool.and_eq_true] at hadmits
    exact hadmits.1.1
  have hfields : (s.spaces m).workflowTaskAllowed k =
      (s.spaces m).workflowAllowed (s.cell m k).hash.cancellationKeys
        (s.cell m k).hash.workflow := rfl
  cases hcell with
  | idle | forgotten | loaded | checked | observed | adopted | superseded | finalizeSuperseded
  | entryDropped | resultExpired =>
      exact Or.inl ⟨h', hh', rfl, .kept rfl rfl fun _ => Nat.le_refl _⟩
  | staleCopy | cpuPopped =>
      exact Or.inl ⟨h', hh', rfl, .kept rfl rfl (TaskView.pullOne_queued_le _ _)⟩
  | @cpuPushed p entry =>
      exact Or.inl ⟨h', hh', rfl, ⟨fun hs => hs, fun _ ht => ht,
        fun hne => absurd rfl (hne p entry)⟩⟩
  | debris _ hlow =>
      have hle := TaskView.lowered_queued_le hlow
      obtain ⟨n, -, rfl⟩ := hlow
      exact Or.inl ⟨h', hh', rfl, .kept rfl rfl hle⟩
  | submitted _ _ hallowed | refreshed _ _ hallowed =>
      obtain rfl := Option.some.inj hh'
      exact Or.inr hallowed
  | accepted =>
      obtain rfl := Option.some.inj hh'
      exact absurd hparent (by simp [parentRecord])
  | taskExpired | discarded | deleted => exact absurd hh' (by simp)
  | claimed _ _ hclaimable =>
      obtain rfl := Option.some.inj hh'
      obtain ⟨task, htask, -, -, hallowed⟩ := Store.claimable_iff.mp hclaimable
      exact Or.inr hallowed
  | marked _ _ _ _ _ hadmits | requeued _ _ _ _ _ hadmits | moved _ _ _ _ hadmits
  | cpuMarked _ _ _ hadmits =>
      obtain rfl := Option.some.inj hh'
      exact Or.inr (hguard hadmits)
  | markRefused _ _ _ ht | acked _ _ ht | requeueRefused _ _ ht =>
      obtain rfl := Option.some.inj hh'
      exact Or.inl ⟨_, Cell.exists_of_token ht, rfl, .unclaimed rfl rfl fun _ => Nat.le_refl _⟩
  | returned hc hstage ht =>
      obtain rfl := Option.some.inj hh'
      by_cases hallowed : (s.spaces m).workflowTaskAllowed k = true
      · exact Or.inr (hfields ▸ hallowed)
      · refine Or.inl ⟨_, Cell.exists_of_token ht, rfl, .unclaimed rfl rfl fun lane => ?_⟩
        rw [Cell.setAttempt_view, Cell.withView_view, TaskView.returned, if_neg hallowed]
        exact TaskView.purge_queued_le (TaskView.release _ _ _) _ lane
  | frozen hc hstage ht =>
      obtain rfl := Option.some.inj hh'
      exact Or.inl ⟨_, Cell.exists_of_token ht, rfl, ⟨fun hs => hs, fun _ ht' => ht',
        fun _ _ => Nat.le_refl _⟩⟩
  | finalized hc hterminal ht =>
      obtain rfl := Option.some.inj hh'
      exact Or.inl ⟨_, Cell.exists_of_token ht, rfl, .ended hterminal rfl rfl fun _ => Nat.le_refl _⟩
  | stamped hh =>
      obtain rfl := Option.some.inj hh'
      exact Or.inl ⟨_, hh, rfl, .kept rfl rfl fun _ => Nat.le_refl _⟩
  | stampedAbsent hnone =>
      obtain rfl := Option.some.inj hh'
      exact absurd hparent (by simp [TaskHash.cancelStamped])
  | cancelled hh =>
      obtain ⟨hworkflow, hquiet⟩ := TaskView.withdrawn_quiet (C := s.cell m k)
        (v := (s.cell m k).view.setHash _) rfl (fun _ => rfl) hh'
      exact Or.inl ⟨_, hh, hworkflow.symm, ⟨hquiet.status, hquiet.token, hquiet.queued⟩⟩
  | swept hne hmem =>
      have hstored : (s.cell m k).view.hash = some (s.cell m k).hash := by
        by_cases hstop : (s.cell m k).hash.stoppable = true
        · simp only [TaskHash.stoppable, Bool.and_eq_true, beq_iff_eq] at hstop
          exact Cell.exists_of_status hstop.1
        · have hsame := (TaskView.withdrawn_hash_of_not _ hstop _ _ _).symm.trans hh'
          rw [Cell.hash_of_some hsame]
          exact hsame
      obtain ⟨hworkflow, hquiet⟩ :=
        TaskView.withdrawn_quiet (C := s.cell m k) rfl (fun _ => hstored) hh'
      exact Or.inl ⟨_, hstored, hworkflow.symm, hquiet⟩
  | renewed hallowed hgen =>
      -- A lease on the record's own id makes it a workflow parent.
      obtain rfl := Option.some.inj hh'
      obtain ⟨issue, hissued, -, hid⟩ :=
        hv.lease m k _ (workflowAllowed_parent rfl rfl rfl hallowed).2.2
      change (s.cell m k).hash.workflow.parentKey.isSome at hparent
      rw [hv.parentKey_of_parent hgen hissued hid] at hparent
      exact absurd hparent (by simp)
  | committed hissued hpre hid hterminal hreason hgen =>
      change (TaskView.purgeLanes _ _).hash = some h' at hh'
      rw [TaskView.purgeLanes_hash] at hh'
      obtain rfl := Option.some.inj hh'
      change (s.cell m k).hash.workflow.parentKey.isSome at hparent
      rw [hv.parentKey_of_parent hgen hissued hid] at hparent
      exact absurd hparent (by simp)
  | published hpublishing hterminal =>
      obtain rfl := Option.some.inj hh'
      have hexists : (s.cell m k).view.hash = some (s.cell m k).hash := by
        refine Cell.exists_of_ne fun heq => ?_
        rw [heq] at hparent
        exact absurd hparent (by simp [TerminalMapping.apply])
      exact Or.inl ⟨_, hexists, rfl, .ended hterminal rfl rfl fun _ => Nat.le_refl _⟩

/-- The guard of a child record that is false stays false, for the fields it was read with and for
every record of the same generation that the id holds later. Once a generation has ended, no later
step submits, claims, marks or requeues a child of it. -/
theorem workflow_guard_absorbing (hs : Reachable s) :
    (∀ m k h g, (s.spaces m).tasks k = some h → h.workflow.generation = some g →
      h.workflow.parentKey.isSome → (s.spaces m).workflowTaskAllowed k = false →
      ∀ s', Library.Run step s s' →
        (s'.spaces m).workflowAllowed h.cancellationKeys h.workflow = false ∧
        ∀ h', (s'.spaces m).tasks k = some h' → h'.workflow.generation = some g →
          h'.workflow.parentKey.isSome → (s'.spaces m).workflowTaskAllowed k = false) ∧
    (∀ g issue, s.issued g = some issue → s.GenerationEnded g issue →
      ∀ s' a s'', Library.Run step s s' → step s' a = some s'' →
        ∀ m k h'', (s''.spaces m).tasks k = some h'' → h''.workflow.generation = some g →
          h''.workflow.parentKey.isSome →
          ∃ h', (s'.spaces m).tasks k = some h' ∧ h'.workflow = h''.workflow ∧
            Quiet a (s'.cell m k) (s''.cell m k) h' h'') := by
  have hv := ReachableWhen.valid hs
  refine ⟨?_, ?_⟩
  · intro m k h g hh hg hparent hfalse s' hrun
    obtain ⟨issue, hissued, rfl, -, hworkflow, original, hk, hkeys⟩ := hv.child hh hg hparent
    rw [Store.workflowTaskAllowed, Store.hgetall_of_some hh, hworkflow] at hfalse
    have hlater := childAllowed_false_run hv hissued hfalse hrun
    refine ⟨hworkflow ▸ hlater, fun h' hh' hg' hparent' => ?_⟩
    obtain ⟨issue', hissued', -, -, hworkflow', original', hk', hkeys'⟩ :=
      (hv.run hrun).child hh' hg' hparent'
    have hsame : issue' = issue :=
      Option.some.inj (hissued'.symm.trans (issued_run hrun hissued))
    subst hsame
    have horiginal : original' = original := by
      rw [hk] at hk'
      simpa using hk'.symm
    subst horiginal
    rw [Store.workflowTaskAllowed, Store.hgetall_of_some hh', hworkflow', hkeys', ← hkeys]
    exact hlater
  · intro g issue hissued hended s' a s'' hrun hstep m k h'' hh'' hg hparent
    have hv' := hv.run hrun
    have hmono := issued_run hrun hissued
    rcases (cellStep_of_step m k hstep).child_cases hv' hh'' hparent with
      ⟨h', hh', hworkflow, hquiet⟩ | hallowed
    · exact ⟨h', hh', hworkflow, hquiet⟩
    · obtain ⟨issue', hissued', rfl, -, hworkflow, -⟩ := (hv'.step hstep).child hh'' hg hparent
      have hsame : issue' = issue := by
        have hlast := (stepFrame_of_step hstep).issued g issue hmono
        exact Option.some.inj (hissued'.symm.trans hlast)
      subst hsame
      have hfalse := childAllowed_false_run hv hissued (hended.refuses hv hissued h''.cancellationKeys)
        hrun
      rw [hworkflow, hfalse] at hallowed
      exact absurd hallowed (by simp)

/-- A workflow with one submitted child is cancelled. -/
def cancelledWorkflow : List Action :=
  [.accept "kernelgym" "job" "g1" "hash" "kernelbench" 100 false "0",
    .submit "kernelgym" { taskId := "ref" } (some "g1") false [] "1",
    .cancel "kernelgym" "job" "2" {}]

theorem workflow_guard_absorbing_cancelled : ∃ h,
    ((Sys.after cancelledWorkflow).spaces "kernelgym").tasks "ref_g1" = some h ∧
    ∀ s', Library.Run step (Sys.after cancelledWorkflow) s' →
      (s'.spaces "kernelgym").workflowAllowed h.cancellationKeys h.workflow = false := by
  have hs : Reachable (Sys.after cancelledWorkflow) :=
    Library.execute_run_getD (fun _ _ => trivial)
      (show (Library.execute step cancelledWorkflow {}).isSome by decide)
  exact ⟨_, rfl, fun s' hrun => ((workflow_guard_absorbing hs).1 "kernelgym" "ref_g1" _ "g1" rfl rfl
    rfl (by decide) s' hrun).1⟩

end KernelGym
