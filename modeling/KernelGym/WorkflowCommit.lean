import KernelGym.TerminalOutcome

/-! The terminal commit of a workflow generation. `_FINISH` commits once for each generation and writes
one status into the task hash and the published JSON. What comes later leaves both alone, unless the
generic completion path without a claim writes over them on the strength of an older read. -/

namespace KernelGym

variable {s s' s₁ s₂ s₃ : Sys} {a : Action} {m : KeyPrefix} {k : TaskId} {g : Generation}
  {C' : Cell} {payload : ResultPayload} {reason : String} {now : Timestamp} {retention : Retention}

/-! ### The commit -/

theorem finishWorkflow_one_iff {S : Store} :
    (finishWorkflow k g payload reason now retention S).2 = 1 ↔
      (S.hgetall k).workflow.generation = some g ∧ (S.hgetall k).active = true := by
  unfold finishWorkflow
  dsimp only
  split_ifs with hgen hactive
  · exact ⟨fun h => absurd h (show (0 : Int) ≠ 1 by decide), fun h => absurd h.1 hgen⟩
  · refine ⟨fun h => absurd h (show (0 : Int) ≠ 1 by decide), fun h => ?_⟩
    rw [h.2] at hactive
    exact absurd hactive (by simp)
  · exact ⟨fun _ => ⟨not_not.mp hgen, by simpa using hactive⟩, fun _ => rfl⟩

/-- A commit publishes `completed` only within the deadline, under the lease, without a tombstone. -/
theorem finishPayload_completed {S : Store} (hreason : reason ≠ "" → payload.status ≠ some .completed)
    (h : (finishPayload k g payload reason S).2.status = some .completed) :
    (∀ key, (S.hgetall k).parent.cancellationKey = some key → S.tombstones key = false) ∧
      S.now < (S.hgetall k).workflow.deadline.getD 0 ∧ S.leases k = some g := by
  unfold finishPayload at h
  dsimp only at h
  by_cases htomb : (S.hgetall k).parent.cancellationKey.any S.tombstones = true
  · simp only [htomb, if_true] at h
    split_ifs at h <;> exact absurd h (by simp)
  · simp only [htomb, Bool.false_eq_true, if_false] at h
    by_cases hdeadline : (S.hgetall k).workflow.deadline.getD 0 ≤ S.now
    · simp only [hdeadline, if_true] at h
      split_ifs at h <;> exact absurd h (by simp)
    · simp only [hdeadline, if_false] at h
      refine ⟨fun key hkey => ?_, Nat.lt_of_not_le hdeadline, ?_⟩
      · simpa [hkey] using htomb
      · by_contra hlease
        split_ifs at h with hlost hreason' hreason'
        · exact absurd h (by simp)
        · exact absurd h (by simp)
        · exact hreason hreason' h
        · exact hlost ⟨hlease, not_not.mp hreason'⟩

/-- The task hash and the result hash of `k` after the commit of generation `g`. -/
structure Store.Outcome (S : Store) (k : TaskId) (g : Generation) (h : TaskHash) (r : ResultHash)
    (p : ResultPayload) : Prop where
  task : S.tasks k = some h
  result : S.results k = some r
  published : r.result = some p
  status : p.status = h.status
  terminal : h.terminal = true
  generation : h.workflow.generation = some g
  payloadGeneration : p.workflowGeneration = some g

/-- A sweep leaves a terminal record and its result alone. -/
theorem TaskView.swept_of_terminal {v : TaskView} {h : TaskHash} (hh : v.hash = some h)
    (hterminal : h.terminal = true) (id : TaskId) (now : Timestamp) (retention : Retention) :
    (v.swept id now retention).hash = v.hash ∧ (v.swept id now retention).result = v.result := by
  have hstop : ¬(v.hash.getD {}).stoppable = true := by
    rw [hh, Option.getD_some]
    intro hstop
    simp only [TaskHash.stoppable, Bool.and_eq_true, beq_iff_eq] at hstop
    rw [TaskHash.terminal, hstop.1] at hterminal
    exact absurd hterminal (by simp [TaskStatus.terminal])
  rw [swept, withdrawn, if_neg hstop]
  exact ⟨purgeLanes_hash _ _, purgeLanes_result _ _⟩

theorem outcome_of_finish (hstep : step s (.finish m k g payload reason now retention) = some s₁)
    (hreply : (finishWorkflow k g payload reason now retention (s.spaces m)).2 = 1) :
    ∃ r, (s₁.spaces m).Outcome k g
      (((s.spaces m).hgetall k).committed (finishPayload k g payload reason (s.spaces m)).2 now) r
      (finishPayload k g payload reason (s.spaces m)).2 := by
  obtain ⟨hgen, hactive⟩ := finishWorkflow_one_iff.mp hreply
  simp only [step, Option.ite_none_right_eq_some, Option.some.injEq] at hstep
  obtain ⟨⟨-, hterminal, -⟩, rfl⟩ := hstep
  have hpayload := finishPayload_terminal k g reason (s.spaces m) hterminal
  rcases finishWorkflow_cases k g payload reason now retention (s.spaces m) with
    ⟨-, hne⟩ | ⟨-, -, -, -, hself⟩
  · exact absurd hreply hne
  · have hswept := TaskView.swept_of_terminal
      (v := ((s.spaces m).view k).committed ((s.spaces m).hgetall k)
        (finishPayload k g payload reason (s.spaces m)).2 now) rfl hpayload k now retention
    have hspace : (s.setStore m (finishWorkflow k g payload reason now retention
        (s.spaces m)).1).spaces m = (finishWorkflow k g payload reason now retention
        (s.spaces m)).1 := Function.update_self _ _ _
    rw [hspace]
    have htask := congrArg TaskView.hash hself
    have hresult := congrArg TaskView.result hself
    refine ⟨(((s.spaces m).results k).getD {}).committed
      (finishPayload k g payload reason (s.spaces m)).2
      ((s.spaces m).hgetall k).parent.requestHash now, ⟨?_, ?_, rfl, rfl, hpayload, hgen, rfl⟩⟩
    · refine htask.trans ?_
      split_ifs
      · exact hswept.1
      · rfl
    · refine hresult.trans ?_
      split_ifs
      · exact hswept.2
      · rfl

/-! ### One commit for each generation -/

/-- Whatever record `k` holds with generation `g`, it is not active. -/
def Sys.Closed (s : Sys) (m : KeyPrefix) (k : TaskId) (g : Generation) : Prop :=
  ∀ h, (s.spaces m).tasks k = some h → h.workflow.generation = some g → h.active = false

/-- A generation that was issued to `k` and is closed is not opened again. -/
theorem Sys.Closed.step (hclosed : s.Closed m k g) (hv : s.Valid) {issue : Issue}
    (hissued : s.issued g = some issue) (hid : issue.id = k) (hstep : step s a = some s') :
    s'.Closed m k g := by
  intro h' hh' hg
  rw [← Bool.not_eq_true]
  intro hactive
  rcases (cellStep_of_step m k hstep).active_cases (hv.cell m k) hh' hactive with
    ⟨h, hh, hactive', hworkflow, -⟩ | ⟨d, -, -, -, -, now, -, -, -, rfl⟩ | ⟨g', hfresh, hg', -⟩
  · rw [hclosed h hh (hworkflow ▸ hg)] at hactive'
    exact absurd hactive' (by simp)
  · -- A submitted task is no workflow parent.
    have hparent := (((hv.step hstep).cell m k).sound _ hh').kind.isParent_of_issued hg
      ((stepFrame_of_step hstep).issued g issue hissued) hid
    exact absurd hparent.data (by simp [taskMapping])
  · rw [hg, Option.some.injEq] at hg'
    rw [← hg', hissued] at hfresh
    exact absurd hfresh (by simp)

theorem Sys.Closed.run (hclosed : s.Closed m k g) (hv : s.Valid) {issue : Issue}
    (hissued : s.issued g = some issue) (hid : issue.id = k) (hrun : Library.Run KernelGym.step s s') :
    s'.Closed m k g := by
  have hinv : s'.Valid ∧ s'.issued g = some issue ∧ s'.Closed m k g := by
    refine Library.RunWhen.invariant (I := fun u => u.Valid ∧ u.issued g = some issue ∧
      u.Closed m k g) ?_ hrun ⟨hv, hissued, hclosed⟩
    rintro u b u' ⟨hvu, hissuedu, hclosedu⟩ - hstep
    exact ⟨hvu.step hstep, (stepFrame_of_step hstep).issued g issue hissuedu,
      hclosedu.step hvu hissuedu hid hstep⟩
  exact hinv.2.2

theorem Sys.Closed.no_commit (hclosed : s.Closed m k g) :
    (finishWorkflow k g payload reason now retention (s.spaces m)).2 ≠ 1 := by
  intro hreply
  obtain ⟨hgen, hactive⟩ := finishWorkflow_one_iff.mp hreply
  have hh : (s.cell m k).view.hash = some ((s.spaces m).hgetall k) :=
    Cell.exists_of_generation (C := s.cell m k) hgen
  rw [hclosed _ hh hgen] at hactive
  exact absurd hactive (by simp)

/-! ### What comes after the commit -/

/-- A generation was issued to `k` under prefix `m`. -/
def Sys.accepted (s : Sys) (m : KeyPrefix) (k : TaskId) : Prop :=
  ∃ g issue, s.issued g = some issue ∧ issue.pre = m ∧ issue.id = k

/-- The action creates a new generation of `k`. -/
def Sys.reaccepts (s : Sys) (m : KeyPrefix) (k : TaskId) : Action → Prop
  | .accept pre id _ requestHash _ _ force _ =>
      pre = m ∧ id = k ∧ acceptReply id requestHash force (s.spaces pre) = 1
  | _ => False

/-- The step keeps the id `k` to its workflow: no call without a claim stands between its read and its
write when `k` is accepted, or reads `k` while its workflow record is gone, and `k` is not submitted
as an ordinary task once it was accepted. -/
def Sys.reserves (s : Sys) (m : KeyPrefix) (k : TaskId) : Action → Prop
  | .accept pre id g requestHash name timeout force now =>
      s.reaccepts m k (.accept pre id g requestHash name timeout force now) →
        ∀ p, (m, k) ∉ (s.procs p).publishing
  | .readUnclaimed _ pre id => pre = m → id = k → s.accepted m k →
      ((s.spaces m).hgetall k).workflow.generation.isSome ∧
        ((s.spaces m).hgetall k).workflow.parentKey = none
  | .submit pre d child _ _ _ => pre = m → s.accepted m k →
      ∀ d', submissionPayload s m d child = some d' → d'.taskId ≠ k
  | _ => True

/-- The calls that end a task, or keep a workflow alive, naming the id `k`. -/
def Action.endsTask (k : TaskId) : Action → Bool
  | .finish _ id _ _ _ _ _ | .renew _ id _ _ | .finalize _ id _ _ _ _ => id == k
  | .readUnclaimed _ _ id | .publishUnclaimed _ _ id _ _ _ => id == k
  | _ => false

/-- An id that was accepted is used by workflow records only, and no publication without a claim is
under way for it. -/
structure Sys.Reserved (s : Sys) (m : KeyPrefix) (k : TaskId) : Prop where
  record : ∀ h, (s.spaces m).tasks k = some h → h.active = true → h.data = none
  publishing : ∀ p, (m, k) ∉ (s.procs p).publishing

theorem accept_parentRecord {requestHash name : String} {timeout : Nat} {force : Bool}
    (hstep : step s (.accept m k g requestHash name timeout force now) = some s')
    (hreply : acceptReply k requestHash force (s.spaces m) = 1) :
    (s'.spaces m).tasks k =
      some (parentRecord k g requestHash name ((s.spaces m).now + timeout) now) := by
  simp only [step, Option.ite_none_right_eq_some, Option.some.injEq] at hstep
  obtain ⟨-, rfl⟩ := hstep
  rcases acceptWorkflow_cases k g requestHash name timeout force now (s.spaces m) with
    ⟨hne, -⟩ | ⟨-, hcode, -, hview⟩
  · exact absurd hreply hne
  · rw [if_pos hcode]
    change (Function.update s.spaces m _ m).tasks k = _
    rw [Function.update_self]
    exact congrArg TaskView.hash hview

/-- An active record without a payload is that of a workflow parent, and stays one. -/
theorem CellStep.data_none (hcell : CellStep s m k (s.cell m k) a C') (hcv : s.CellValid m k)
    {issued : Generation → Option Issue} {used : Token → Prop} {h' : TaskHash}
    (hsound' : h'.Sound issued used m k) (hh' : C'.view.hash = some h')
    (hactive : h'.active = true)
    (hrecord : ∀ h, (s.cell m k).view.hash = some h → h.active = true → h.data = none)
    (hsubmit : ∀ d d₀ child force known now, a = .submit m d₀ child force known now →
      submissionPayload s m d₀ child = some d → d.taskId ≠ k) : h'.data = none := by
  rcases hcell.active_cases hcv hh' hactive with
    ⟨h, hh, hactive', -, hparent, -⟩ | ⟨d, d₀, child, force, known, now, ha, hpayload, hid, -⟩ |
    ⟨-, -, -, hnone⟩
  · have hnone := hrecord h hh hactive'
    have hchildren : h.parent.children.isSome := by
      cases (hcv.sound h hh).kind with
      | standalone _ _ hdata =>
          rw [hnone] at hdata
          exact absurd (hdata hactive') (by simp)
      | child _ _ _ _ _ _ _ _ _ hdata =>
          rw [hnone] at hdata
          exact absurd (hdata hactive') (by simp)
      | parent _ _ _ _ _ _ _ _ hchildren _ _ => exact hchildren
    rw [hparent] at hchildren
    cases hsound'.kind with
    | standalone _ hblank _ =>
        rw [hblank] at hchildren
        exact absurd hchildren (by simp)
    | child _ _ _ _ _ _ _ hblank _ _ =>
        rw [hblank] at hchildren
        exact absurd hchildren (by simp)
    | parent _ _ _ _ _ _ _ _ _ hdata _ => exact hdata
  · exact absurd hid (hsubmit d d₀ child force known now ha hpayload)
  · exact hnone

theorem Sys.Reserved.step (hres : s.accepted m k → s.Reserved m k) (hv : s.Valid)
    (hreserves : s.reserves m k a) (hstep : step s a = some s') (hacc : s'.accepted m k) :
    s'.Reserved m k := by
  have hmemory := memoryAfter_of_step hstep
  have hvalid := hv.step hstep
  obtain ⟨g, issue, hissue, hpre, hid⟩ := hacc
  rcases (stepFrame_of_step hstep).created g issue hissue with
    hold | ⟨-, -, name, timeout, force, now, ha, hreply⟩
  · have hbefore : s.accepted m k := ⟨g, issue, hold, hpre, hid⟩
    obtain ⟨hrecord, hpublishing⟩ := hres hbefore
    refine ⟨fun h' hh' hactive => ?_, fun p hmem => ?_⟩
    · refine (cellStep_of_step m k hstep).data_none (hv.cell m k) ((hvalid.cell m k).sound h' hh')
        hh' hactive hrecord fun d d₀ child force known now ha hpayload => ?_
      rw [ha] at hreserves
      exact hreserves rfl hbefore d hpayload
    · rcases (hmemory p).publishing _ hmem with hbefore' | ⟨ha, hallowed⟩
      · exact hpublishing p hbefore'
      · -- A call without a claim that reads the record of a workflow parent is refused.
        rw [ha] at hreserves
        obtain ⟨hgen, hparent⟩ := hreserves rfl rfl hbefore
        simp [unclaimedPublicationAllowed, hgen, hparent] at hallowed
  · subst hpre hid
    rw [ha] at hreserves
    refine ⟨fun h' hh' _ => ?_, fun p hmem => ?_⟩
    · rw [ha] at hstep
      rw [accept_parentRecord hstep hreply, Option.some.injEq] at hh'
      rw [← hh']
      rfl
    · rcases (hmemory p).publishing _ hmem with hbefore | ⟨hread, -⟩
      · exact hreserves ⟨rfl, rfl, hreply⟩ p hbefore
      · rw [ha] at hread
        exact absurd hread (by simp)

/-- What a step does to the records of `k` while none of them is active: a call that ends tasks and
names `k` changes nothing, and other steps leave the status of a generation and the result as they
are, or remove them. -/
theorem CellStep.after_commit (hcell : CellStep s m k (s.cell m k) a C') (hcv : s.CellValid m k)
    (hpublishing : ∀ p, (m, k) ∉ (s.procs p).publishing)
    (hinactive : ∀ h, (s.cell m k).view.hash = some h → h.active = false)
    (haccept : ¬s.reaccepts m k a)
    (hsubmit : ∀ d d₀ child force known now, a = .submit m d₀ child force known now →
      submissionPayload s m d₀ child = some d → d.taskId ≠ k) :
    (C'.view.hash = (s.cell m k).view.hash ∧ C'.view.result = (s.cell m k).view.result) ∨
    (a.endsTask k = false ∧
      (C'.view.result = (s.cell m k).view.result ∨ C'.view.result = none) ∧
      ∀ h', C'.view.hash = some h' → h'.active = false ∧
        ((∃ h, (s.cell m k).view.hash = some h ∧ h'.status = h.status ∧
          h'.workflow = h.workflow) ∨ h'.workflow.generation = none)) := by
  have hpending : (s.cell m k).hash.status = some .pending → False := fun hstatus => by
    have hactive := (TaskHash.active_iff _).mpr (Or.inl hstatus)
    rw [hinactive _ (Cell.exists_of_status hstatus)] at hactive
    exact absurd hactive (by simp)
  have hheld : ∀ {t}, (s.cell m k).hash.claim.token = some t → False := fun ht => by
    have hactive := ((hcv.sound _ (Cell.exists_of_token ht)).claimed _ ht).1
    rw [hinactive _ (Cell.exists_of_token ht)] at hactive
    exact absurd hactive (by simp)
  have hunstoppable : ∀ {h : TaskHash}, h.status = (s.cell m k).hash.status →
      ¬h.stoppable = true := by
    intro h hstatus hstop
    simp only [TaskHash.stoppable, Bool.and_eq_true, beq_iff_eq] at hstop
    exact hpending (hstatus ▸ hstop.1)
  cases hcell with
  | idle | forgotten | loaded | checked | observed | adopted | superseded | finalizeSuperseded
  | entryDropped | staleCopy | cpuPopped | cpuPushed => exact Or.inl ⟨rfl, rfl⟩
  | debris _ hlow =>
      obtain ⟨n, -, rfl⟩ := hlow
      exact Or.inl ⟨rfl, rfl⟩
  | submitted hpayload hid => exact absurd hid (hsubmit _ _ _ _ _ _ rfl hpayload)
  | refreshed hpayload hid => exact absurd hid (hsubmit _ _ _ _ _ _ rfl hpayload)
  | claimed hfresh hlane hclaimable =>
      obtain ⟨task, htask, hstatus, -, -⟩ := claimable_data hcv hclaimable
      rw [← show (s.cell m k).hash = task from Cell.hash_of_some htask] at hstatus
      exact (hpending hstatus).elim
  | marked hc hstage hd ht => exact (hheld ht).elim
  | markRefused hc hstage hd ht => exact (hheld ht).elim
  | returned hc hstage ht => exact (hheld ht).elim
  | acked hc hack ht => exact (hheld ht).elim
  | requeued hc hd hseen ht => exact (hheld ht).elim
  | requeueRefused hc hd ht => exact (hheld ht).elim
  | frozen hc hstage ht => exact (hheld ht).elim
  | finalized hc hterm ht => exact (hheld ht).elim
  | @stamped _ h now hh hstamps =>
      refine Or.inr ⟨by cases a <;> simp_all [Action.stampsCancelled, Action.endsTask],
        Or.inl rfl, fun h' hh' => ?_⟩
      obtain rfl := Option.some.inj hh'
      exact ⟨hinactive h hh, Or.inl ⟨h, hh, rfl, rfl⟩⟩
  | stampedAbsent hnone =>
      refine Or.inr ⟨rfl, Or.inl rfl, fun h' hh' => ?_⟩
      obtain rfl := Option.some.inj hh'
      exact ⟨rfl, Or.inr rfl⟩
  | @cancelled now retention h hh hchildren =>
      have hhash := Cell.hash_of_some hh
      have hstop := hunstoppable (h := h.cancelStamped now) (by rw [hhash]; rfl)
      refine Or.inr ⟨rfl, Or.inl ?_, fun h' hh' => ?_⟩
      · rw [Cell.withView_view, TaskView.withdrawn, if_neg hstop, TaskView.purgeLanes_result]
        rfl
      · rw [Cell.withView_view, TaskView.withdrawn_hash_of_not _ hstop] at hh'
        obtain rfl := Option.some.inj hh'
        exact ⟨hinactive h hh, Or.inl ⟨h, hh, rfl, rfl⟩⟩
  | swept hne hmem =>
      have hstop := hunstoppable (h := (s.cell m k).view.hash.getD {}) rfl
      rw [Cell.withView_view, TaskView.swept, TaskView.withdrawn_hash_of_not _ hstop,
        TaskView.withdrawn, if_neg hstop, TaskView.purgeLanes_result]
      exact Or.inl ⟨rfl, rfl⟩
  | accepted hid hfresh hreply => exact absurd ⟨rfl, rfl, hreply⟩ haccept
  | renewed hallowed hgen =>
      have hactive : (s.cell m k).hash.active = true :=
        (workflowAllowed_parent rfl rfl rfl hallowed).2.1
      rw [hinactive _ (Cell.exists_of_generation hgen)] at hactive
      exact absurd hactive (by simp)
  | committed hissued hpre hid hterm hreason hgen hactive =>
      rw [hinactive _ (Cell.exists_of_generation hgen)] at hactive
      exact absurd hactive (by simp)
  | moved hdata hassigned hstatus => exact (hpending hstatus).elim
  | taskExpired => exact Or.inr ⟨rfl, Or.inl rfl, fun h' hh' => absurd hh' (by simp)⟩
  | resultExpired =>
      exact Or.inr ⟨rfl, Or.inr rfl, fun h' hh' => ⟨hinactive _ hh', Or.inl ⟨_, hh', rfl, rfl⟩⟩⟩
  | discarded => exact Or.inr ⟨rfl, Or.inr rfl, fun h' hh' => absurd hh' (by simp)⟩
  | deleted => exact Or.inr ⟨rfl, Or.inr rfl, fun h' hh' => absurd hh' (by simp)⟩
  | cpuMarked hpre hid hstatus => exact (hpending hstatus).elim
  | published hpub => exact absurd hpub (hpublishing _)

/-- What holds from the commit of generation `g` on, for as long as `k` is not accepted again. -/
structure Sys.AfterCommit (s : Sys) (m : KeyPrefix) (k : TaskId) (g : Generation)
    (status : Option TaskStatus) (r : ResultHash) : Prop where
  valid : s.Valid
  accepted : s.accepted m k
  reserved : s.Reserved m k
  inactive : ∀ h, (s.spaces m).tasks k = some h → h.active = false
  status : ∀ h, (s.spaces m).tasks k = some h → h.workflow.generation = some g → h.status = status
  result : (s.spaces m).results k = some r ∨ (s.spaces m).results k = none

theorem submits_other (hreserves : s.reserves m k a) (hacc : s.accepted m k) (d d₀ : TaskData)
    (child : Option Generation) (force : Bool) (known : List Lane) (now : Timestamp)
    (ha : a = .submit m d₀ child force known now) (hpayload : submissionPayload s m d₀ child = some d) :
    d.taskId ≠ k := by
  rw [ha] at hreserves
  exact hreserves rfl hacc d hpayload

theorem Sys.AfterCommit.step {status : Option TaskStatus} {r : ResultHash}
    (hi : s.AfterCommit m k g status r) (hreserves : s.reserves m k a)
    (haccept : ¬s.reaccepts m k a) (hstep : step s a = some s') :
    s'.AfterCommit m k g status r := by
  obtain ⟨g₀, issue, hissue, hpre, hid⟩ := hi.accepted
  have hacc : s'.accepted m k :=
    ⟨g₀, issue, (stepFrame_of_step hstep).issued g₀ issue hissue, hpre, hid⟩
  have hview := (cellStep_of_step m k hstep).after_commit (hi.valid.cell m k) hi.reserved.publishing
    hi.inactive haccept (submits_other hreserves hi.accepted)
  refine ⟨hi.valid.step hstep, hacc, Sys.Reserved.step (fun _ => hi.reserved) hi.valid hreserves
    hstep hacc, ?_, ?_, ?_⟩
  · intro h' hh'
    rcases hview with ⟨hhash, -⟩ | ⟨-, -, hnext⟩
    · exact hi.inactive h' (hhash.symm.trans hh')
    · exact (hnext h' hh').1
  · intro h' hh' hg
    rcases hview with ⟨hhash, -⟩ | ⟨-, -, hnext⟩
    · exact hi.status h' (hhash.symm.trans hh') hg
    · rcases (hnext h' hh').2 with ⟨h, hh, hsame, hworkflow⟩ | hnone
      · exact hsame.trans (hi.status h hh (hworkflow ▸ hg))
      · rw [hg] at hnone
        exact absurd hnone (by simp)
  · change (s'.cell m k).view.result = some r ∨ (s'.cell m k).view.result = none
    rcases hview with ⟨-, hresult⟩ | ⟨-, hresult | hnone, -⟩
    · rw [hresult]
      exact hi.result
    · rw [hresult]
      exact hi.result
    · exact Or.inr hnone

/-- The commit of a generation is its only one, and the records agree on its outcome: both carry the
generation and one status, which is `completed` only within the deadline, under the lease and without
a tombstone. From then on, until `k` is accepted again, no finish, renewal or completion that names
`k` changes its records, and no step changes the outcome. -/
theorem workflow_commit_final (hs : ReachableWhen (fun u a => u.reserves m k a) s)
    (hstep : step s (.finish m k g payload reason now retention) = some s₁)
    (hreply : (finishWorkflow k g payload reason now retention (s.spaces m)).2 = 1) :
    ∃ h r p, (s₁.spaces m).Outcome k g h r p ∧
      (h.status = some .completed → (s.spaces m).now < h.workflow.deadline.getD 0 ∧
        (s.spaces m).leases k = some g ∧ (s.spaces m).tombstones k = false) ∧
      (∀ s₂, Library.Run step s₁ s₂ → ∀ payload reason now retention,
        (finishWorkflow k g payload reason now retention (s₂.spaces m)).2 ≠ 1) ∧
      ∀ s₂, Library.RunWhen step (fun u b => u.reserves m k b ∧ ¬u.reaccepts m k b) s₁ s₂ →
        (∀ h₂, (s₂.spaces m).tasks k = some h₂ → h₂.workflow.generation = some g →
          h₂.status = h.status) ∧
        ((s₂.spaces m).results k = some r ∨ (s₂.spaces m).results k = none) ∧
        ∀ a s₃, a.endsTask k = true → step s₂ a = some s₃ →
          (s₃.spaces m).tasks k = (s₂.spaces m).tasks k ∧
          (s₃.spaces m).results k = (s₂.spaces m).results k := by
  have hinv : s.Valid ∧ (s.accepted m k → s.Reserved m k) := by
    refine Library.RunWhen.invariant (I := fun u => u.Valid ∧ (u.accepted m k → u.Reserved m k)) ?_
      hs ⟨Sys.valid_empty, fun ⟨_, _, hissue, _⟩ => absurd hissue (by simp)⟩
    rintro u b u' ⟨hv, hres⟩ hreserves hstep
    exact ⟨hv.step hstep, Sys.Reserved.step hres hv hreserves hstep⟩
  obtain ⟨hv, hres⟩ := hinv
  obtain ⟨hgen, hactive⟩ := finishWorkflow_one_iff.mp hreply
  have hguard := hstep
  simp only [step, Option.ite_none_right_eq_some, Option.any_eq_true, Bool.and_eq_true,
    beq_iff_eq] at hguard
  obtain ⟨⟨⟨issue, hissued, hpre, hid⟩, -, hreason⟩, -⟩ := hguard
  have hacc : s.accepted m k := ⟨g, issue, hissued, hpre, hid⟩
  have hissued₁ := (stepFrame_of_step hstep).issued g issue hissued
  have hparent := ((hv.cell m k).sound _
    (Cell.exists_of_generation (C := s.cell m k) hgen)).kind.isParent_of_issued hgen hissued hid
  obtain ⟨r, hout⟩ := outcome_of_finish hstep hreply
  have hinactive : ∀ h, (s₁.spaces m).tasks k = some h → h.active = false := fun h hh => by
    rw [← Option.some.inj (hout.task.symm.trans hh)]
    exact TaskHash.not_active_of_terminal hout.terminal
  refine ⟨_, r, _, hout, fun hcompleted => ?_, fun s₂ hrun payload' reason' now' retention' => ?_,
    fun s₂ hrun => ?_⟩
  · obtain ⟨htomb, hdeadline, hlease⟩ :=
      finishPayload_completed hreason (hout.status.trans hcompleted)
    exact ⟨hdeadline, hlease, htomb k (hid ▸ hparent.cancellationKey)⟩
  · have hclosed : s₁.Closed m k g := fun h hh _ => hinactive h hh
    exact (hclosed.run (hv.step hstep) hissued₁ hid hrun).no_commit
  · have hstart : s₁.AfterCommit m k g
        (((s.spaces m).hgetall k).committed (finishPayload k g payload reason (s.spaces m)).2
          now).status r :=
      { valid := hv.step hstep
        accepted := ⟨g, issue, hissued₁, hpre, hid⟩
        reserved := Sys.Reserved.step (a := .finish m k g payload reason now retention) hres hv
          trivial hstep ⟨g, issue, hissued₁, hpre, hid⟩
        inactive := hinactive
        status := fun h hh _ => by rw [← Option.some.inj (hout.task.symm.trans hh)]
        result := Or.inl hout.result }
    have hlast := Library.RunWhen.invariant
      (I := fun u => u.AfterCommit m k g
        (((s.spaces m).hgetall k).committed (finishPayload k g payload reason (s.spaces m)).2
          now).status r)
      (fun u b u' hi hok hstep => hi.step hok.1 hok.2 hstep) hrun hstart
    refine ⟨hlast.status, hlast.result, fun a s₃ hends hstep₃ => ?_⟩
    have hother : ¬s₂.reaccepts m k a := by
      cases a <;> first | exact fun h => h | exact absurd hends (by simp [Action.endsTask])
    rcases (cellStep_of_step m k hstep₃).after_commit (hlast.valid.cell m k)
      hlast.reserved.publishing hlast.inactive hother
      (fun d d₀ child force known now ha => absurd hends (by simp [ha, Action.endsTask])) with
      hsame | ⟨hnot, -⟩
    · exact hsame
    · rw [hends] at hnot
      exact absurd hnot (by simp)

/-- A workflow is accepted, renewed and finished. -/
def acceptJob : Action :=
  .accept "kernelgym" "job" "g1" "hash" "kernelbench" 100 false "0"

def runningWorkflow : List Action := [acceptJob, .renew "kernelgym" "job" "g1" "1"]

def completedPayload : ResultPayload := { status := some .completed, compiled := some true }

def finishJob : Action := .finish "kernelgym" "job" "g1" completedPayload "" "2" {}

theorem workflow_commit_final_completed :
    (finishWorkflow "job" "g1" {} "Workflow controller shutting down" "3" {}
      (((Sys.after runningWorkflow).follow [finishJob, .tick 200]).spaces "kernelgym")).2 ≠ 1 := by
  have hfirst : ReachableWhen (fun u a => u.reserves "kernelgym" "job" a)
      (Sys.after [acceptJob]) :=
    Library.RunWhen.single (a := acceptJob) (fun _ p => by simp) (Library.step_getD (by decide))
  have hs : ReachableWhen (fun u a => u.reserves "kernelgym" "job" a) (Sys.after runningWorkflow) :=
    hfirst.snoc (a := .renew "kernelgym" "job" "g1" "1") trivial rfl
  obtain ⟨h, r, p, -, -, honce, -⟩ := workflow_commit_final hs
    (Library.step_getD (show (step (Sys.after runningWorkflow) finishJob).isSome by decide))
    (by decide)
  exact honce _ (Library.RunWhen.single (a := .tick 200) trivial rfl) _ _ _ _

/-- A process reads the id before the workflow is accepted, and publishes after the commit. -/
def latePublication : List Action :=
  .readUnclaimed "cpu" "kernelgym" "job" :: runningWorkflow ++ [finishJob]

theorem late_publication_changes_commit :
    Reachable (Sys.after latePublication) ∧
    (((Sys.after latePublication).spaces "kernelgym").hgetall "job").workflow.generation =
      some "g1" ∧
    (((Sys.after latePublication).spaces "kernelgym").hgetall "job").status = some .completed ∧
    ((((Sys.after latePublication).follow [.publishUnclaimed "cpu" "kernelgym" "job"
      { status := .failed, failedAt := some "3" } { error := some "timeout", failedAt := some "3" }
      {}]).spaces "kernelgym").hgetall "job").status = some .failed ∧
    ((((Sys.after latePublication).follow [.publishUnclaimed "cpu" "kernelgym" "job"
      { status := .failed, failedAt := some "3" } { error := some "timeout", failedAt := some "3" }
      {}]).spaces "kernelgym").results "job").bind ResultHash.error = some "timeout" := by
  refine ⟨?_, by decide, by decide, by decide, by decide⟩
  exact Library.execute_run_getD (fun _ _ => trivial)
    (show (Library.execute step latePublication {}).isSome by decide)

end KernelGym
