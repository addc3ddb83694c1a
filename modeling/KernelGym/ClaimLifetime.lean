import KernelGym.QueuedOnce

/-! The lifetime of a claim: only `_claim_gpu_task` starts one, and a transaction that ends one leaves
the task on a queue or behind, for a reason it has found. Only its own process changes what a process
remembers. -/

namespace KernelGym

variable {s s' : Sys} {a : Action} {m : KeyPrefix} {k : TaskId} {t : Token} {p q : InstanceId}
  {C' : Cell}

/-- The process whose memory an action reads or writes. -/
def Action.process : Action → Option InstanceId
  | .claim p .. | .load p _ | .checkCancelled p _ | .mark p .. | .returnClaim p _ | .ack p _
  | .snapshot p _ | .requeue p .. | .freeze p .. | .finalize p .. | .recoverScan p ..
  | .recoverRead p .. | .recoverDrop p _ | .crash p | .cpuPop p .. | .cpuMark p .. | .cpuRepush p _
  | .readUnclaimed p .. | .publishUnclaimed p .. => some p
  | .submit .. | .stampCancelled .. | .queueWait .. | .cancel .. | .accept .. | .renew .. | .finish ..
  | .discardWorkflow .. | .tick .. | .expireTask .. | .expireResult .. | .expireCancel ..
  | .expireChildren .. | .expireLease .. | .deleteRecords .. => none

namespace Sys

variable {pre : KeyPrefix} {S : Store} {id : TaskId} {o : Option Attempt} {f : Process → Process}

theorem setProc_procs_of_ne (h : q ≠ p) : (s.setProc q f).procs p = s.procs p :=
  Function.update_of_ne (Ne.symm h) _ _

theorem setAttempt_procs_of_ne (h : q ≠ p) : (s.setAttempt q id o).procs p = s.procs p :=
  setProc_procs_of_ne h

@[simp] theorem setStore_procs : (s.setStore pre S).procs = s.procs := rfl

theorem setAttempt_attempt : (s.setAttempt p id o).attempt p id = o := by
  simp [setAttempt, setProc, attempt]

theorem setAttempt_attempt_of_ne (h : k ≠ id) :
    (s.setAttempt p id o).attempt p k = s.attempt p k := by
  simp [setAttempt, setProc, attempt, h]

@[simp] theorem setStore_attempt : (s.setStore pre S).attempt = s.attempt := rfl

@[simp] theorem setStore_spaces : (s.setStore pre S).spaces = Function.update s.spaces pre S := rfl

@[simp] theorem setAttempt_spaces : (s.setAttempt p id o).spaces = s.spaces := rfl

end Sys

/-- A process remembers what it did unless it acts itself. -/
theorem procs_of_step (h : step s a = some s') (hne : a.process ≠ some p) :
    s'.procs p = s.procs p := by
  have hother : ∀ {q}, a.process = some q → q ≠ p := fun hq heq => hne (hq.trans (congrArg _ heq))
  cases a with
  | submit pre d child force known now =>
      simp only [step] at h
      split_ifs at h
      simp only [Option.map_eq_some_iff] at h
      obtain ⟨payload, -, rfl⟩ := h
      rfl
  | claim q pre w lane token n =>
      simp only [step, Option.ite_none_right_eq_some, Option.some.injEq] at h
      obtain ⟨-, rfl⟩ := h
      unfold claimTask
      split
      · rfl
      · exact Sys.setAttempt_procs_of_ne (hother rfl)
  | load q id | snapshot q id =>
      simp only [step, Option.map_eq_some_iff] at h
      obtain ⟨c, -, rfl⟩ := h
      exact Sys.setAttempt_procs_of_ne (hother rfl)
  | checkCancelled q id =>
      simp only [step, Option.bind_eq_some_iff, Option.map_eq_some_iff] at h
      obtain ⟨c, -, d, -, rfl⟩ := h
      exact Sys.setAttempt_procs_of_ne (hother rfl)
  | mark q id now =>
      simp only [step, Option.bind_eq_some_iff, Option.ite_none_right_eq_some,
        Option.some.injEq] at h
      obtain ⟨c, -, d, -, -, rfl⟩ := h
      exact Sys.setAttempt_procs_of_ne (hother rfl)
  | returnClaim q id =>
      simp only [step, Option.bind_eq_some_iff, Option.ite_none_right_eq_some,
        Option.some.injEq] at h
      obtain ⟨c, -, -, rfl⟩ := h
      exact Sys.setAttempt_procs_of_ne (hother rfl)
  | ack q id | freeze q id | finalize q id =>
      simp only [step, Option.bind_eq_some_iff, Option.ite_none_right_eq_some,
        Option.some.injEq] at h
      obtain ⟨c, -, -, rfl⟩ := h
      split_ifs <;> first | rfl | exact Sys.setAttempt_procs_of_ne (hother rfl)
  | requeue q id restore mode reason now =>
      simp only [step, Option.bind_eq_some_iff, Option.map_eq_some_iff] at h
      obtain ⟨c, -, d, -, seen, -, rfl⟩ := h
      unfold requeueTask
      dsimp only
      split_ifs
      · rfl
      · exact Sys.setAttempt_procs_of_ne (hother rfl)
  | recoverScan q pre w n =>
      obtain rfl := Option.some.inj h
      exact Sys.setProc_procs_of_ne (hother rfl)
  | recoverRead q entry release =>
      simp only [step, Option.ite_none_right_eq_some, Option.some.injEq] at h
      obtain ⟨-, rfl⟩ := h
      unfold recoverRead
      split
      · exact Sys.setProc_procs_of_ne (hother rfl)
      · split_ifs <;> first
          | rfl
          | exact Sys.setProc_procs_of_ne (hother rfl)
  | recoverDrop q entry =>
      simp only [step, Option.ite_none_right_eq_some, Option.some.injEq] at h
      obtain ⟨-, rfl⟩ := h
      rfl
  | queueWait pre w id seen operation reason now moveToken =>
      simp only [step, Option.map_eq_some_iff] at h
      obtain ⟨d, -, rfl⟩ := h
      rfl
  | accept pre id g requestHash name timeout force now =>
      simp only [step, Option.ite_none_right_eq_some, Option.some.injEq] at h
      obtain ⟨-, rfl⟩ := h
      split_ifs <;> rfl
  | finish | expireTask | expireResult | expireCancel | expireChildren =>
      simp only [step, Option.ite_none_right_eq_some, Option.some.injEq] at h
      obtain ⟨-, rfl⟩ := h
      rfl
  | stampCancelled | cancel | renew | discardWorkflow | tick | expireLease | deleteRecords =>
      obtain rfl := Option.some.inj h
      rfl
  | crash q =>
      obtain rfl := Option.some.inj h
      exact Sys.setProc_procs_of_ne (hother rfl)
  | cpuPop q pre lane =>
      simp only [step, Option.map_eq_some_iff] at h
      obtain ⟨id, -, rfl⟩ := h
      exact Sys.setProc_procs_of_ne (hother rfl)
  | cpuMark q entry base now =>
      simp only [step, Option.ite_none_right_eq_some, Option.some.injEq] at h
      obtain ⟨-, rfl⟩ := h
      exact Sys.setProc_procs_of_ne (hother rfl)
  | cpuRepush q entry =>
      simp only [step, Option.ite_none_right_eq_some, Option.some.injEq] at h
      obtain ⟨-, rfl⟩ := h
      exact Sys.setProc_procs_of_ne (hother rfl)
  | readUnclaimed q pre id =>
      simp only [step, Option.ite_none_right_eq_some, Option.some.injEq] at h
      obtain ⟨-, rfl⟩ := h
      split_ifs
      · exact Sys.setProc_procs_of_ne (hother rfl)
      · rfl
  | publishUnclaimed q pre id task result retention =>
      simp only [step, Option.ite_none_right_eq_some, Option.some.injEq] at h
      obtain ⟨-, rfl⟩ := h
      exact Sys.setProc_procs_of_ne (hother rfl)

/-- A token that was not drawn before the step is put on a task by the claim that draws it. -/
theorem CellStep.claim_fresh (hcell : CellStep s m k (s.cell m k) a C') (hv : s.CellValid m k)
    {h' : TaskHash} (hh' : C'.view.hash = some h') (ht' : h'.claim.token = some t)
    (hfresh : ¬s.used t) :
    ∃ p w lane n, a = .claim p m w lane t n ∧ h'.claim.workerInstance = p := by
  have hold : ∀ {h : TaskHash}, (s.cell m k).view.hash = some h → h.claim.token = some t → False :=
    fun hh htoken => hfresh ((hv.sound _ hh).claimed t htoken).2.1
  have hhash : (s.cell m k).hash.claim.token = some t → False := fun htoken =>
    hold (Cell.exists_of_token htoken) htoken
  cases hcell with
  | idle | forgotten | loaded | checked | observed | adopted | superseded | finalizeSuperseded
  | entryDropped | staleCopy | resultExpired | cpuPopped | cpuPushed => exact (hold hh' ht').elim
  | debris _ hlow =>
      obtain ⟨n, -, rfl⟩ := hlow
      exact (hold hh' ht').elim
  | submitted | refreshed | markRefused | returned | acked | requeued | requeueRefused | finalized
  | moved | stampedAbsent | accepted | published =>
      obtain rfl := Option.some.inj hh'
      exact absurd ht' (by simp [taskMapping, parentRecord, TaskHash.clearClaim, TaskHash.requeued,
        TaskHash.moved, TerminalMapping.apply, TaskHash.cancelStamped])
  | taskExpired | discarded | deleted => exact absurd hh' (by simp)
  | claimed hnew hlane hclaimable hqueued =>
      obtain rfl := Option.some.inj hh'
      obtain rfl := Option.some.inj ht'
      exact ⟨_, _, _, _, rfl, rfl⟩
  | marked | frozen | renewed | cpuMarked =>
      obtain rfl := Option.some.inj hh'
      exact (hhash ht').elim
  | stamped hh =>
      obtain rfl := Option.some.inj hh'
      exact (hold hh ht').elim
  | cancelled hh hchildren =>
      unfold TaskView.withdrawn at hh'
      split_ifs at hh' with hstop
      · obtain rfl := Option.some.inj hh'
        exact absurd ht' (by simp [TaskHash.stopped, ClaimFields.cleared])
      · rw [Cell.withView_view, TaskView.purgeLanes_hash] at hh'
        obtain rfl := Option.some.inj hh'
        exact (hold hh ht').elim
  | swept hne hmem =>
      unfold TaskView.swept TaskView.withdrawn at hh'
      split_ifs at hh' with hstop
      · obtain rfl := Option.some.inj hh'
        exact absurd ht' (by simp [TaskHash.stopped, ClaimFields.cleared])
      · rw [Cell.withView_view, TaskView.purgeLanes_hash] at hh'
        exact (hold hh' ht').elim
  | committed hissued hpre hid hterminal hreason hgen hactive =>
      change (TaskView.purgeLanes _ _).hash = some h' at hh'
      rw [TaskView.purgeLanes_hash] at hh'
      obtain rfl := Option.some.inj hh'
      exact (hhash ht').elim

/-- What has become of a task whose claim has just ended. -/
inductive Cell.Released (s : Sys) (m : KeyPrefix) (k : TaskId) (t : Token) (C C' : Cell) : Prop
  /-- Back on the queue it was claimed from, or on its resource queue. -/
  | queued (lane : Lane) (hlane : C.hash.claim.sourceQueue = some lane ∨
      ∃ d, C.hash.data = some d ∧ lane = .resource (resolveRequiredResource d))
      (hqueued : 0 < C'.view.queued lane)
  | terminal (hterminal : C'.hash.terminal = true)
  /-- A guard of the transaction refused it: cancelled, or its workflow ended. -/
  | refused (d : TaskData) (hd : C.hash.data = some d)
      (hadmits : (s.spaces m).admits k k (parentCancelId k d) = false)
  /-- The holder of the claim has seen a cancellation. -/
  | cancelled (p : InstanceId) (c : Attempt) (hc : C.attempts p = some c) (ht : c.token = t)
      (hseen : c.cancelSeen = true)
  /-- A CPU worker runs it. -/
  | running (hstatus : C.hash.status = some .processing)
      (hfence : C.hash.claim.recoveryState = .clear)

/-- A transaction keeps a claim, or releases the task. -/
theorem CellStep.claim_released (hcell : CellStep s m k (s.cell m k) a C')
    (hcore : a.transactional = true) (hcv : s.CellValid m k)
    (ht : (s.cell m k).hash.claim.token = some t) :
    C'.hash.claim.token = some t ∨ Cell.Released s m k t (s.cell m k) C' := by
  have hexists := Cell.exists_of_token ht
  have hsound := hcv.sound _ hexists
  obtain ⟨hactive, -, -, -⟩ := hsound.claimed t ht
  have hfree : (s.cell m k).hash.claim.token = none → False := fun hnone => by
    rw [ht] at hnone
    exact absurd hnone (by simp)
  have hlive : ∀ {h}, (s.cell m k).view.hash = some h → h.terminal = true → False := by
    intro h hh hterminal
    rw [← Cell.hash_of_some hh, TaskHash.not_terminal_of_active hactive] at hterminal
    exact absurd hterminal (by simp)
  have hmatch : ∀ {p c}, (s.cell m k).attempts p = some c →
      (s.cell m k).hash.claim.token = some c.token → c.Matches (s.cell m k).hash :=
    fun hc htoken => hcv.matching _ _ _ hc hexists htoken
  have hdata : ∀ {p c d}, (s.cell m k).attempts p = some c →
      (s.cell m k).hash.claim.token = some c.token → c.loaded = some d →
      (s.cell m k).hash.data = some d := fun hc htoken hd => (hmatch hc htoken).loaded _ hd
  cases hcell with
  | idle | forgotten | loaded | checked | observed | adopted | superseded | finalizeSuperseded
  | entryDropped | staleCopy | resultExpired => exact Or.inl ht
  | cpuPopped | cpuPushed | cpuMarked | published | deleted =>
      exact absurd hcore (by simp [Action.transactional])
  | debris _ hlow =>
      obtain ⟨n, -, rfl⟩ := hlow
      exact Or.inl ht
  | submitted hpayload hid hallowed hnone =>
      rw [hexists] at hnone
      exact absurd hnone (by simp)
  | refreshed hpayload hid hallowed hold => exact (hfree (hold _ hexists).2).elim
  | claimed hfresh hlane hclaimable =>
      obtain ⟨task, htask, -, hnone, -⟩ := claimable_data hcv hclaimable
      rw [← show (s.cell m k).hash = task from Cell.hash_of_some htask] at hnone
      exact (hfree hnone).elim
  | marked | frozen | renewed => exact Or.inl ht
  | markRefused hc hstage hd htoken hrefused =>
      rcases hrefused with hstatus | hadmits
      · refine Or.inr (Cell.Released.running ?_ ((hmatch hc htoken).dequeued hstage))
        exact ((s.cell m k).hash.active_iff.mp hactive).resolve_left hstatus
      · exact Or.inr (Cell.Released.refused _ (hdata hc htoken hd) hadmits)
  | returned hc hstage htoken =>
      obtain ⟨d, hd⟩ := Option.isSome_iff_exists.mp (hsound.data_of_claimed ht)
      by_cases hallowed : (s.spaces m).workflowTaskAllowed k = true
      · refine Or.inr (Cell.Released.queued _ (Or.inl (hmatch hc htoken).sourceQueue) ?_)
        rw [Cell.setAttempt_view, Cell.withView_view, TaskView.returned, if_pos hallowed]
        exact TaskView.push_queued_pos _ _
      · refine Or.inr (Cell.Released.refused d hd ?_)
        simp [Store.admits, hallowed]
  | acked hc hack htoken =>
      have hm := hmatch hc htoken
      refine Or.inr (Cell.Released.cancelled _ _ hc (Option.some.inj (htoken.symm.trans ht)) ?_)
      unfold Attempt.acknowledges at hack
      split at hack
      · rwa [hm.unloadable, Bool.false_or] at hack
      · rw [hm.unloadable] at hack
        exact absurd hack (by simp)
      · exact absurd hack (by simp)
  | @requeued p c d seen restore mode reason now hc hd hseen htoken hmode hadmits =>
      refine Or.inr (Cell.Released.queued (requeueLane c d restore) ?_
        (TaskView.push_queued_pos _ _))
      unfold requeueLane
      split_ifs
      · exact Or.inl (hmatch hc htoken).sourceQueue
      · exact Or.inr ⟨d, hdata hc htoken hd, rfl⟩
  | requeueRefused hc hd htoken hmode hrefused =>
      rcases hrefused with hnone | hterminal | hadmits
      · rw [TaskHash.active, hnone] at hactive
        exact absurd hactive (by simp)
      · exact (hlive hexists hterminal).elim
      · exact Or.inr (Cell.Released.refused _ (hdata hc htoken hd) hadmits)
  | finalized hc hterminal =>
      exact Or.inr (Cell.Released.terminal (TaskHash.Sound.apply_terminal hterminal _))
  | stamped hh =>
      rw [← Cell.hash_of_some hh]
      exact Or.inl ht
  | stampedAbsent hnone =>
      rw [hexists] at hnone
      exact absurd hnone (by simp)
  | @cancelled now retention h hh hchildren =>
      rw [← Cell.hash_of_some hh]
      by_cases hstop : ((s.cell m k).hash.cancelStamped now).stoppable = true
      · refine Or.inr (Cell.Released.terminal ?_)
        rw [Cell.hash, Cell.withView_view, TaskView.withdrawn, if_pos hstop]
        rfl
      · left
        rw [Cell.hash, Cell.withView_view, TaskView.withdrawn_hash_of_not _ hstop]
        exact ht
  | swept hne hmem =>
      by_cases hstop : ((s.cell m k).view.hash.getD {}).stoppable = true
      · refine Or.inr (Cell.Released.terminal ?_)
        rw [Cell.hash, Cell.withView_view, TaskView.swept, TaskView.withdrawn, if_pos hstop]
        rfl
      · left
        rw [Cell.hash, Cell.withView_view, TaskView.swept, TaskView.withdrawn_hash_of_not _ hstop]
        exact ht
  | accepted hid hfresh hreply =>
      exact (hlive hexists ((acceptReply_one hreply).2 _ hexists).1).elim
  | committed hissued hpre hid hterminal hreason hgen =>
      have hparent := hsound.kind.isParent_of_issued hgen hissued hid
      exact (hfree (by rw [hparent.claim])).elim
  | moved hdata' hassigned hstatus htoken => exact (hfree htoken).elim
  | taskExpired httl =>
      obtain ⟨h, hh, hterminal⟩ := hcv.retained httl
      exact (hlive hh hterminal).elim
  | discarded hgen hterminal htoken => exact (hfree htoken).elim

end KernelGym
