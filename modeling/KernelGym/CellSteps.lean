import KernelGym.CellState

/-! Every step of the system acts on every cell in one of the ways of `CellStep`. An action names one
task, or one queue or workflow; the cells of other ids are left as they are. -/

namespace KernelGym

variable {s s' : Sys} {m pre : KeyPrefix} {k id : TaskId} {p : InstanceId} {c : Attempt} {a : Action}

namespace Sys

theorem cell_setStore_self (S : Store) :
    (s.setStore m S).cell m k = (s.cell m k).withView (S.view k) := by
  simp [cell, setStore, Cell.withView, attempt]

theorem cell_setStore_of_ne (S : Store) (h : m ≠ pre) :
    (s.setStore pre S).cell m k = s.cell m k := by
  simp [cell, setStore, attempt, h]

theorem cell_setAttempt_self (o : Option Attempt) :
    (s.setAttempt p k o).cell m k =
      (s.cell m k).setAttempt p (o.filter fun c => c.pre = m) := by
  simp only [cell, setAttempt, setProc, Cell.setAttempt, attempt, Cell.mk.injEq, true_and]
  funext q
  by_cases hq : q = p
  · subst hq
    simp
  · simp [hq]

theorem cell_setAttempt_of_ne (o : Option Attempt) (h : k ≠ id) :
    (s.setAttempt p id o).cell m k = s.cell m k := by
  simp only [cell, setAttempt, setProc, attempt, Cell.mk.injEq, true_and]
  funext q
  by_cases hq : q = p
  · subst hq
    simp [h]
  · simp [hq]

theorem cell_setProc (f : Process → Process) (hf : ∀ proc, (f proc).claims = proc.claims) :
    (s.setProc p f).cell m k = s.cell m k := by
  simp only [cell, setProc, attempt, Cell.mk.injEq, true_and]
  funext q
  by_cases hq : q = p
  · subst hq
    simp [hf]
  · simp [hq]

theorem cell_attempts_self (hc : s.attempt p id = some c) :
    (s.cell c.pre id).attempts p = some c := by
  simp [cell, hc]

theorem attempt_of_cell (hc : (s.cell m k).attempts p = some c) :
    s.attempt p k = some c ∧ c.pre = m := by
  simpa [cell, Option.filter_eq_some_iff] using hc

/-- Replacing a claim by one of another prefix, or by none, forgets it. -/
theorem setAttempt_none_of_pre (o : Option Attempt) (h : ∀ c ∈ o, c.pre ≠ m) :
    (s.setAttempt p k o).cell m k = (s.cell m k).setAttempt p none := by
  rw [cell_setAttempt_self]
  have hnone : (o.filter fun c => c.pre = m) = none := by
    cases o with
    | none => rfl
    | some c => simpa using h c rfl
  rw [hnone]

end Sys

/-! ### Steps that touch one id -/

theorem Sys.cell_setStore_same {S : Store} (h : m = pre → S.view k = (s.spaces m).view k) :
    (s.setStore pre S).cell m k = s.cell m k := by
  by_cases hm : m = pre
  · subst hm
    rw [cell_setStore_self, h rfl]
    rfl
  · exact cell_setStore_of_ne S hm

/-- An action that replaces one store and changes only the view of one id there. -/
theorem CellStep.of_store {S : Store} (hview : ∀ k, k ≠ id → S.view k = (s.spaces pre).view k)
    (hself : CellStep s pre id (s.cell pre id) a ((s.cell pre id).withView (S.view id))) :
    CellStep s m k (s.cell m k) a ((s.setStore pre S).cell m k) := by
  by_cases hcell : m = pre ∧ k = id
  · obtain ⟨rfl, rfl⟩ := hcell
    rw [Sys.cell_setStore_self]
    exact hself
  · rw [Sys.cell_setStore_same]
    · exact CellStep.idle
    · rintro rfl
      exact hview k fun hk => hcell ⟨rfl, hk⟩

/-- An action by the holder of a claim, which may keep, change or forget it. -/
theorem CellStep.of_attempt {S : Store} {o : Option Attempt} (hc : s.attempt p id = some c)
    (hview : ∀ k, k ≠ id → S.view k = (s.spaces c.pre).view k) (ho : ∀ c' ∈ o, c'.pre = c.pre)
    (hself : CellStep s c.pre id (s.cell c.pre id) a
      (((s.cell c.pre id).withView (S.view id)).setAttempt p o)) :
    CellStep s m k (s.cell m k) a (((s.setStore c.pre S).setAttempt p id o).cell m k) := by
  by_cases hk : k = id
  · subst hk
    by_cases hm : m = c.pre
    · subst hm
      have hfilter : (o.filter fun c' => c'.pre = c.pre) = o := by
        cases o with
        | none => rfl
        | some c' => simpa using ho c' rfl
      rw [Sys.cell_setAttempt_self, Sys.cell_setStore_self, hfilter]
      exact hself
    · rw [Sys.setAttempt_none_of_pre o (fun c' hc' => by rw [ho c' hc']; exact Ne.symm hm),
        Sys.cell_setStore_of_ne S hm]
      exact CellStep.forgotten p
  · rw [Sys.cell_setAttempt_of_ne o hk, Sys.cell_setStore_same]
    · exact CellStep.idle
    · rintro rfl
      exact hview k hk

/-- The same for an action that only changes what the process knows about its claim. -/
theorem CellStep.of_knowledge {c' : Attempt} (hc : s.attempt p id = some c) (hpre : c'.pre = c.pre)
    (hself : CellStep s c.pre id (s.cell c.pre id) a
      ((s.cell c.pre id).setAttempt p (some c'))) :
    CellStep s m k (s.cell m k) a ((s.setAttempt p id (some c')).cell m k) := by
  by_cases hk : k = id
  · subst hk
    by_cases hm : m = c.pre
    · subst hm
      rw [Sys.cell_setAttempt_self, Option.filter_some, if_pos (by simpa using hpre)]
      exact hself
    · rw [Sys.setAttempt_none_of_pre]
      · exact CellStep.forgotten p
      · rintro c'' ⟨⟩
        rw [hpre]
        exact Ne.symm hm
  · rw [Sys.cell_setAttempt_of_ne _ hk]
    exact CellStep.idle

/-! ### Claims and what their holders do -/

theorem cellStep_submit {d : TaskData} {child : Option Generation} {force : Bool}
    {known : List Lane} {now : Timestamp} (h : step s (.submit pre d child force known now) = some s') :
    CellStep s m k (s.cell m k) (.submit pre d child force known now) (s'.cell m k) := by
  simp only [step] at h
  split_ifs at h with hchild
  simp only [Option.map_eq_some_iff] at h
  obtain ⟨payload, hpayload, rfl⟩ := h
  refine CellStep.of_store (fun k hk => submitTask_view_of_ne hk) ?_
  unfold submitTask
  split_ifs with hforce
  · obtain rfl : force = true := hforce
    obtain rfl : child = none := by simpa using hchild
    have hd : payload = d := by
      simp only [submissionPayload] at hpayload
      split_ifs at hpayload
      exact (Option.some.inj hpayload).symm
    subst hd
    rcases forceRefreshTask_cases payload.taskId (homeLane payload.assignedWorker payload)
      ([.resource .cpu, .resource .gpu] ++ known) (taskMapping payload now) (s.spaces pre) with hsame | ⟨hallowed, hold, hview⟩
    · rw [hsame]
      exact CellStep.idle
    · rw [hview]
      exact CellStep.refreshed hpayload rfl hallowed hold rfl
  · rcases submitTaskIfAbsent_cases payload.taskId (homeLane payload.assignedWorker payload)
      (taskMapping payload now) (s.spaces pre) with
      hsame | ⟨hallowed, hnone, hview⟩
    · rw [hsame]
      exact CellStep.idle
    · rw [hview]
      exact CellStep.submitted hpayload rfl hallowed hnone

theorem cellStep_claim {w : WorkerId} {lane : Lane} {t : Token} {scanLimit : Nat}
    (h : step s (.claim p pre w lane t scanLimit) = some s') :
    CellStep s m k (s.cell m k) (.claim p pre w lane t scanLimit) (s'.cell m k) := by
  simp only [step] at h
  split_ifs at h with hguard
  obtain ⟨hfresh, hlane⟩ := hguard
  obtain rfl := Option.some.inj h
  have hview := claimGpuTask_cases t w p lane scanLimit (s.spaces pre) k
  unfold claimTask
  generalize hclaim : claimGpuTask t w p lane scanLimit (s.spaces pre) = outcome at hview
  obtain ⟨store, result⟩ := outcome
  have hdrawn : ∀ m k, ({ s with tokens := t :: s.tokens } : Sys).cell m k = s.cell m k :=
    fun _ _ => rfl
  have hother : result ≠ some k → CellStep s m k (s.cell m k) (.claim p pre w lane t scanLimit)
      ((({ s with tokens := t :: s.tokens } : Sys).setStore pre store).cell m k) := by
    intro hne
    rcases hview with ⟨heq, -⟩ | ⟨-, hsame | ⟨hnot, hlow⟩⟩
    · exact absurd heq hne
    · rw [Sys.cell_setStore_same, hdrawn]
      · exact CellStep.idle
      · rintro rfl
        exact hsame
    · by_cases hm : m = pre
      · subst hm
        rw [Sys.cell_setStore_self, hdrawn]
        exact CellStep.debris hnot hlow
      · rw [Sys.cell_setStore_of_ne _ hm, hdrawn]
        exact CellStep.idle
  cases result with
  | none => exact hother (by simp)
  | some id =>
      dsimp only
      by_cases hk : k = id
      · subst hk
        rcases hview with ⟨-, hclaimable, hqueued, hview⟩ | ⟨hne, -⟩
        · by_cases hm : m = pre
          · subst hm
            rw [Sys.cell_setAttempt_self, Sys.cell_setStore_self, hdrawn, hview, Option.filter_some,
              if_pos (by simp)]
            exact CellStep.claimed hfresh hlane hclaimable hqueued
          · rw [Sys.setAttempt_none_of_pre, Sys.cell_setStore_of_ne _ hm, hdrawn]
            · exact CellStep.forgotten p
            · rintro c' ⟨⟩
              exact Ne.symm hm
        · exact absurd rfl hne
      · rw [Sys.cell_setAttempt_of_ne _ hk]
        exact hother (by simpa using Ne.symm hk)

theorem cellStep_load (h : step s (.load p id) = some s') :
    CellStep s m k (s.cell m k) (.load p id) (s'.cell m k) := by
  simp only [step, Option.map_eq_some_iff] at h
  obtain ⟨c, hc, rfl⟩ := h
  exact CellStep.of_knowledge hc rfl (CellStep.loaded (Sys.cell_attempts_self hc))

theorem cellStep_checkCancelled (h : step s (.checkCancelled p id) = some s') :
    CellStep s m k (s.cell m k) (.checkCancelled p id) (s'.cell m k) := by
  simp only [step, Option.bind_eq_some_iff, Option.map_eq_some_iff] at h
  obtain ⟨c, hc, d, hd, rfl⟩ := h
  exact CellStep.of_knowledge hc rfl (CellStep.checked (Sys.cell_attempts_self hc) hd)

theorem cellStep_snapshot (h : step s (.snapshot p id) = some s') :
    CellStep s m k (s.cell m k) (.snapshot p id) (s'.cell m k) := by
  simp only [step, Option.map_eq_some_iff] at h
  obtain ⟨c, hc, rfl⟩ := h
  exact CellStep.of_knowledge hc rfl (CellStep.observed (Sys.cell_attempts_self hc))

theorem cellStep_mark {now : Timestamp} (h : step s (.mark p id now) = some s') :
    CellStep s m k (s.cell m k) (.mark p id now) (s'.cell m k) := by
  simp only [step, Option.bind_eq_some_iff, Option.ite_none_right_eq_some, Option.some.injEq] at h
  obtain ⟨c, hc, d, hd, hstage, rfl⟩ := h
  have hself := Sys.cell_attempts_self hc
  refine CellStep.of_attempt hc (fun k hk => markClaimProcessing_view_of_ne hk) ?_ ?_
  · intro c' hc'
    split_ifs at hc'
    · obtain rfl := Option.some.inj hc'
      rfl
    · exact absurd hc' (by simp)
  · rcases markClaimProcessing_cases id c.inflightQueue id (parentCancelId id d) c.token now
      c.inflightQueue c.workerInstance c.sourceQueue (s.spaces c.pre) with
      ⟨ht, hcode, hview⟩ | ⟨ht, hrefused, hcode, hview⟩ | ⟨ht, hstatus, hadmits, hcode, hview⟩
    · rw [hview, hcode, if_neg (by decide)]
      exact CellStep.superseded hself ht
    · rw [hview, if_neg hcode]
      exact CellStep.markRefused hself hstage hd ht hrefused
    · rw [hview, if_pos hcode]
      exact CellStep.marked hself hstage hd ht hstatus hadmits

theorem cellStep_returnClaim (h : step s (.returnClaim p id) = some s') :
    CellStep s m k (s.cell m k) (.returnClaim p id) (s'.cell m k) := by
  simp only [step, Option.bind_eq_some_iff, Option.ite_none_right_eq_some, Option.some.injEq] at h
  obtain ⟨c, hc, hstage, rfl⟩ := h
  refine CellStep.of_attempt hc (fun k hk => returnClaim_view_of_ne hk) (by simp) ?_
  rcases returnClaim_cases id c.sourceQueue c.inflightQueue c.token (s.spaces c.pre) with
    ⟨ht, -, hview⟩ | ⟨ht, -, hview⟩
  · rw [hview]
    exact CellStep.superseded (Sys.cell_attempts_self hc) ht
  · rw [hview]
    exact CellStep.returned (Sys.cell_attempts_self hc) hstage ht

theorem cellStep_ack (h : step s (.ack p id) = some s') :
    CellStep s m k (s.cell m k) (.ack p id) (s'.cell m k) := by
  simp only [step, Option.bind_eq_some_iff, Option.ite_none_right_eq_some, Option.some.injEq] at h
  obtain ⟨c, hc, hack, rfl⟩ := h
  rcases ackClaim_cases id c.inflightQueue c.token c.releasesFence (s.spaces c.pre) with
    ⟨ht, hcode, hview⟩ | ⟨ht, -, -, heq⟩ | ⟨ht, hfence, hcode, hview⟩
  · rw [if_neg hcode]
    refine CellStep.of_attempt hc (fun k hk => ackClaim_view_of_ne hk) (by simp) ?_
    rw [hview]
    exact CellStep.superseded (Sys.cell_attempts_self hc) ht
  · rw [heq, if_pos rfl, Sys.cell_setStore_same (by rintro rfl; rfl)]
    exact CellStep.idle
  · rw [hcode, if_neg (by decide)]
    refine CellStep.of_attempt hc (fun k hk => ackClaim_view_of_ne hk) (by simp) ?_
    rw [hview]
    exact CellStep.acked (Sys.cell_attempts_self hc) hack ht hfence

theorem cellStep_requeue {restore : Bool} {mode : ReleaseMode} {reason : String} {now : Timestamp}
    (h : step s (.requeue p id restore mode reason now) = some s') :
    CellStep s m k (s.cell m k) (.requeue p id restore mode reason now) (s'.cell m k) := by
  simp only [step, Option.bind_eq_some_iff, Option.map_eq_some_iff] at h
  obtain ⟨c, hc, d, hd, seen, hseen, rfl⟩ := h
  have hself := Sys.cell_attempts_self hc
  unfold requeueTask
  dsimp only
  rcases conditionalRequeue_cases id (requeueLane c d restore) c.inflightQueue id
    (parentCancelId id d) c.token (restoredTask d (requeueAssignment seen restore).1 reason now)
    reason now (requeueAssignment seen restore).1 (requeueAssignment seen restore).2 mode
    (s.spaces c.pre) with
    ⟨ht, hcode, hview⟩ | ⟨ht, -, heq⟩ | ⟨ht, hmode, hrefused, hcode, hview⟩ |
    ⟨ht, hmode, -, -, hadmits, hcode, hview⟩
  · rw [hcode, if_neg (by decide)]
    refine CellStep.of_attempt hc (fun k hk => conditionalRequeue_view_of_ne hk) (by simp) ?_
    rw [hview]
    exact CellStep.superseded hself ht
  · rw [heq, if_pos rfl, Sys.cell_setStore_same (by rintro rfl; rfl)]
    exact CellStep.idle
  · rw [if_neg hcode]
    refine CellStep.of_attempt hc (fun k hk => conditionalRequeue_view_of_ne hk) (by simp) ?_
    rw [hview]
    exact CellStep.requeueRefused hself hd ht hmode hrefused
  · rw [hcode, if_neg (by decide)]
    refine CellStep.of_attempt hc (fun k hk => conditionalRequeue_view_of_ne hk) (by simp) ?_
    rw [hview]
    exact CellStep.requeued hself hd hseen ht hmode hadmits

theorem cellStep_freeze {reason : String} {now : Timestamp}
    (h : step s (.freeze p id reason now) = some s') :
    CellStep s m k (s.cell m k) (.freeze p id reason now) (s'.cell m k) := by
  simp only [step, Option.bind_eq_some_iff, Option.ite_none_right_eq_some, Option.some.injEq] at h
  obtain ⟨c, hc, hstage, rfl⟩ := h
  rcases freezeClaimRecovery_cases id c.token reason now (s.spaces c.pre) with
    ⟨-, heq⟩ | ⟨ht, hcode, hview⟩
  · rw [heq, if_neg (by simp)]
    by_cases hk : k = id
    · subst hk
      rw [Sys.setAttempt_none_of_pre none (by simp), Sys.cell_setStore_same (by rintro rfl; rfl)]
      exact CellStep.forgotten p
    · rw [Sys.cell_setAttempt_of_ne _ hk, Sys.cell_setStore_same (by rintro rfl; rfl)]
      exact CellStep.idle
  · rw [hcode, if_pos rfl]
    refine CellStep.of_store (fun k hk => freezeClaimRecovery_view_of_ne hk) ?_
    rw [hview]
    exact CellStep.frozen (Sys.cell_attempts_self hc) hstage ht

theorem cellStep_finalize {task : TerminalMapping} {result : ResultMapping} {retention : Retention}
    {allowFrozen : Bool} (h : step s (.finalize p id task result retention allowFrozen) = some s') :
    CellStep s m k (s.cell m k) (.finalize p id task result retention allowFrozen)
      (s'.cell m k) := by
  simp only [step, Option.bind_eq_some_iff, Option.ite_none_right_eq_some, Option.some.injEq] at h
  obtain ⟨c, hc, hterminal, rfl⟩ := h
  have hself := Sys.cell_attempts_self hc
  rcases finalizeClaim_cases id c.inflightQueue c.token task result retention allowFrozen
    (s.spaces c.pre) with
    ⟨ht, hcode, hview⟩ | ⟨-, -, -, heq⟩ | ⟨ht, hfrozen, hcode, hview⟩
  · rw [hcode, if_neg (by decide)]
    refine CellStep.of_store (fun k hk => finalizeClaim_view_of_ne hk) ?_
    rw [hview]
    exact CellStep.finalizeSuperseded hself ht
  · rw [heq, if_neg (by simp), Sys.cell_setStore_same (by rintro rfl; rfl)]
    exact CellStep.idle
  · rw [hcode, if_pos rfl]
    refine CellStep.of_attempt hc (fun k hk => finalizeClaim_view_of_ne hk) (by simp) ?_
    rw [hview]
    exact CellStep.finalized hself hterminal ht hfrozen

/-! ### Crash recovery -/

theorem cellStep_recoverRead {entry : Scanned} {release : Bool}
    (h : step s (.recoverRead p entry release) = some s') :
    CellStep s m k (s.cell m k) (.recoverRead p entry release) (s'.cell m k) := by
  simp only [step, Option.ite_none_right_eq_some, Option.some.injEq] at h
  obtain ⟨hscan, rfl⟩ := h
  unfold recoverRead
  split
  · rw [Sys.cell_setProc _ (by intro proc; rfl)]
    exact CellStep.idle
  · rename_i task htask
    split_ifs with htoken hfence howner
    · rw [Sys.cell_setProc _ (by intro proc; rfl)]
      exact CellStep.idle
    · exact CellStep.idle
    · exact CellStep.idle
    · by_cases hk : k = entry.id
      · subst hk
        by_cases hm : m = entry.pre
        · subst hm
          rw [Sys.cell_setAttempt_self, Option.filter_some, if_pos (by simp [adoptedAttempt])]
          refine CellStep.adopted hscan rfl rfl htask (not_not.mp htoken) ?_ howner
          by_cases hclear : task.claim.recoveryState = .clear
          · exact Or.inl hclear
          · exact Or.inr (by simpa [hclear] using hfence)
        · rw [Sys.setAttempt_none_of_pre]
          · exact CellStep.forgotten p
          · rintro c' ⟨⟩
            exact Ne.symm hm
      · rw [Sys.cell_setAttempt_of_ne _ hk]
        exact CellStep.idle

theorem cellStep_recoverDrop {entry : Scanned} (h : step s (.recoverDrop p entry) = some s') :
    CellStep s m k (s.cell m k) (.recoverDrop p entry) (s'.cell m k) := by
  simp only [step, Option.ite_none_right_eq_some, Option.some.injEq] at h
  obtain ⟨hstale, rfl⟩ := h
  refine CellStep.of_store (fun k hk => Store.view_lremInflight_of_ne hk) ?_
  rw [Store.view_lremInflight_self]
  exact CellStep.entryDropped hstale rfl rfl

theorem cellStep_stampCancelled {now : Timestamp} (h : step s (.stampCancelled pre id now) = some s') :
    CellStep s m k (s.cell m k) (.stampCancelled pre id now) (s'.cell m k) := by
  obtain rfl := Option.some.inj h
  refine CellStep.of_store (fun k hk => Store.view_hset_of_ne _ hk) ?_
  rw [Store.view_hset_self]
  cases htask : (s.spaces pre).tasks id with
  | none =>
      have hget : (s.spaces pre).hgetall id = {} := by simp [Store.hgetall, htask]
      rw [hget]
      exact CellStep.stampedAbsent htask
  | some task =>
      rw [Store.hgetall_of_some htask]
      exact CellStep.stamped htask rfl

/-! ### Queue-wait, cancellation and workflows -/

theorem cellStep_queueWait {w : WorkerId} {seen : QueueWaitSnapshot} {operation : QueueWaitOperation}
    {reason : String} {now : Timestamp} {moveToken : String}
    (h : step s (.queueWait pre w id seen operation reason now moveToken) = some s') :
    CellStep s m k (s.cell m k) (.queueWait pre w id seen operation reason now moveToken)
      (s'.cell m k) := by
  simp only [step, Option.map_eq_some_iff] at h
  obtain ⟨d, hd, rfl⟩ := h
  refine CellStep.of_store (fun k hk => queueWaitRequeue_view_of_ne hk) ?_
  rcases queueWaitRequeue_cases id w (resolveRequiredResource d) id (parentCancelId id d)
    operation seen (restoredTask d "" reason now) reason now moveToken (s.spaces pre) with
    hsame | ⟨hempty, hother, hview⟩ | ⟨hdata, hassigned, hstatus, htoken, hadmits, hqueued, hview⟩
  · rw [hsame]
    exact CellStep.idle
  · rw [hview]
    exact CellStep.staleCopy hempty hother
  · rw [hview]
    exact CellStep.moved (hdata.trans hd) hassigned hstatus htoken hadmits hqueued

theorem cellStep_cancel {now : Timestamp} {retention : Retention}
    (h : step s (.cancel pre id now retention) = some s') :
    CellStep s m k (s.cell m k) (.cancel pre id now retention) (s'.cell m k) := by
  obtain rfl := Option.some.inj h
  refine CellStep.of_store (fun k hk => cancelTask_view_of_ne hk) ?_
  rcases cancelTask_cases id now retention (s.spaces pre) with
    ⟨-, hview⟩ | ⟨task, htask, -, hview⟩ | ⟨task, htask, hchildren, hview⟩
  · rw [hview]
    exact CellStep.idle
  · rw [hview]
    exact CellStep.stamped htask rfl
  · rw [hview]
    exact CellStep.cancelled htask hchildren

theorem cellStep_accept {g : Generation} {requestHash name : String} {timeout : Nat} {force : Bool}
    {now : Timestamp} (h : step s (.accept pre id g requestHash name timeout force now) = some s') :
    CellStep s m k (s.cell m k) (.accept pre id g requestHash name timeout force now)
      (s'.cell m k) := by
  simp only [step, Option.ite_none_right_eq_some, Option.some.injEq] at h
  obtain ⟨⟨hid, hfresh⟩, rfl⟩ := h
  have hissued : ∀ (t : Sys) issued, ({ t with issued := issued } : Sys).cell m k = t.cell m k :=
    fun _ _ => rfl
  have hcell : CellStep s m k (s.cell m k) (.accept pre id g requestHash name timeout force now)
      ((s.setStore pre (acceptWorkflow id g requestHash name timeout force now
        (s.spaces pre)).1).cell m k) := by
    refine CellStep.of_store (fun k hk => acceptWorkflow_view_of_ne hk) ?_
    rcases acceptWorkflow_cases id g requestHash name timeout force now (s.spaces pre) with
      ⟨-, heq⟩ | ⟨hreply, -, -, hview⟩
    · rw [heq]
      exact CellStep.idle
    · rw [hview]
      exact CellStep.accepted hid hfresh hreply
  split_ifs
  · rw [hissued]
    exact hcell
  · exact hcell

theorem cellStep_renew {g : Generation} {now : Timestamp} (h : step s (.renew pre id g now) = some s') :
    CellStep s m k (s.cell m k) (.renew pre id g now) (s'.cell m k) := by
  obtain rfl := Option.some.inj h
  refine CellStep.of_store (fun k hk => renewWorkflow_view_of_ne hk) ?_
  rcases renewWorkflow_cases id g now (s.spaces pre) with
    hsame | ⟨hallowed, hgen, hview⟩
  · rw [hsame]
    exact CellStep.idle
  · rw [hview]
    exact CellStep.renewed hallowed hgen

theorem cellStep_finish {g : Generation} {payload : ResultPayload} {reason : String}
    {now : Timestamp} {retention : Retention}
    (h : step s (.finish pre id g payload reason now retention) = some s') :
    CellStep s m k (s.cell m k) (.finish pre id g payload reason now retention) (s'.cell m k) := by
  simp only [step, Option.ite_none_right_eq_some, Option.some.injEq] at h
  obtain ⟨⟨hissue, hterminal, hreason⟩, rfl⟩ := h
  simp only [Option.any_eq_true, Bool.and_eq_true, beq_iff_eq] at hissue
  obtain ⟨issue, hissued, hpre, hid⟩ := hissue
  rcases finishWorkflow_cases id g payload reason now retention (s.spaces pre) with
    ⟨hsame, -⟩ | ⟨hgen, hactive, -, hothers, hself⟩
  · rw [hsame, Sys.cell_setStore_same (by rintro rfl; rfl)]
    exact CellStep.idle
  · by_cases hm : m = pre
    · subst hm
      rw [Sys.cell_setStore_self]
      by_cases hk : k = id
      · subst hk
        rw [hself]
        -- The committed status is terminal, so a sweep of the parent's own id only empties lanes.
        have hstop : ∀ v : TaskView, v.hash = some (((s.spaces m).hgetall k).committed
            (finishPayload k g payload reason (s.spaces m)).2 now) →
            v.swept k now retention = v.purgeLanes (stopLanes (v.hash.getD {})) := by
          intro v hv
          rw [TaskView.swept, TaskView.withdrawn, if_neg]
          rw [hv]
          have hpayload := finishPayload_terminal k g reason (s.spaces m) hterminal
          intro hstoppable
          simp only [Option.getD_some, TaskHash.stoppable, TaskHash.committed, Bool.and_eq_true,
            beq_iff_eq] at hstoppable
          rw [hstoppable.1] at hpayload
          exact absurd hpayload (by decide)
        split_ifs with hmem
        · rw [hstop _ rfl]
          exact CellStep.committed hissued hpre hid hterminal hreason hgen hactive
        · change CellStep _ _ _ _ _ (Cell.withView _ ((TaskView.purgeLanes _ []).retain _))
          exact CellStep.committed hissued hpre hid hterminal hreason hgen hactive
      · rw [hothers k hk]
        split_ifs with hmem
        · exact CellStep.swept hk hmem
        · exact CellStep.idle
    · rw [Sys.cell_setStore_of_ne _ hm]
      exact CellStep.idle

theorem cellStep_discardWorkflow {g : Generation} {children : Bool}
    (h : step s (.discardWorkflow pre id g children) = some s') :
    CellStep s m k (s.cell m k) (.discardWorkflow pre id g children) (s'.cell m k) := by
  obtain rfl := Option.some.inj h
  refine CellStep.of_store (fun k hk => discardWorkflowRecords_view_of_ne hk) ?_
  rcases discardWorkflowRecords_cases id g children (s.spaces pre) with
    hsame | ⟨hgen, hterminal, htoken, -, hview⟩
  · rw [hsame]
    exact CellStep.idle
  · rw [hview]
    exact CellStep.discarded hgen hterminal htoken

/-! ### CPU workers and publications without a claim -/

theorem cellStep_cpuPop {lane : Lane} (h : step s (.cpuPop p pre lane) = some s') :
    CellStep s m k (s.cell m k) (.cpuPop p pre lane) (s'.cell m k) := by
  simp only [step, Option.map_eq_some_iff] at h
  obtain ⟨id, hlast, rfl⟩ := h
  rw [Sys.cell_setProc _ (by intro proc; rfl)]
  by_cases hcell : m = pre ∧ k = id
  · obtain ⟨rfl, rfl⟩ := hcell
    rw [Sys.cell_setStore_self, Store.view_rpop_of_last hlast]
    exact CellStep.cpuPopped
  · rw [Sys.cell_setStore_same]
    · exact CellStep.idle
    · rintro rfl
      exact Store.view_rpop_of_ne hlast fun hk => hcell ⟨rfl, hk⟩

theorem cellStep_cpuMark {entry : Popped} {base : TaskId} {now : Timestamp}
    (h : step s (.cpuMark p entry base now) = some s') :
    CellStep s m k (s.cell m k) (.cpuMark p entry base now) (s'.cell m k) := by
  simp only [step, Option.ite_none_right_eq_some, Option.some.injEq] at h
  obtain ⟨-, rfl⟩ := h
  rw [Sys.cell_setProc _ (by intro proc; rfl)]
  refine CellStep.of_store (fun k hk => markCpuProcessing_view_of_ne hk) ?_
  rcases markCpuProcessing_cases entry.id entry.id base now (s.spaces entry.pre) with
    heq | ⟨hstatus, hadmits, hview⟩
  · rw [heq]
    exact CellStep.idle
  · rw [hview]
    exact CellStep.cpuMarked rfl rfl hstatus hadmits

theorem cellStep_cpuRepush {entry : Popped} (h : step s (.cpuRepush p entry) = some s') :
    CellStep s m k (s.cell m k) (.cpuRepush p entry) (s'.cell m k) := by
  simp only [step, Option.ite_none_right_eq_some, Option.some.injEq] at h
  obtain ⟨-, rfl⟩ := h
  rw [Sys.cell_setProc _ (by intro proc; rfl)]
  refine CellStep.of_store (fun k hk => Store.view_lpush_of_ne hk) ?_
  rw [Store.view_lpush_self]
  exact CellStep.cpuPushed

theorem cellStep_publishUnclaimed {task : TerminalMapping} {result : ResultMapping}
    {retention : Retention} (h : step s (.publishUnclaimed p pre id task result retention) = some s') :
    CellStep s m k (s.cell m k) (.publishUnclaimed p pre id task result retention)
      (s'.cell m k) := by
  simp only [step, Option.ite_none_right_eq_some, Option.some.injEq] at h
  obtain ⟨⟨hpublishing, hterminal⟩, rfl⟩ := h
  rw [Sys.cell_setProc _ (by intro proc; rfl)]
  refine CellStep.of_store (fun k hk => publishUnclaimed_view_of_ne hk) ?_
  rw [publishUnclaimed_view_self]
  exact CellStep.published hpublishing hterminal

/-- Every step of the system is a step of every cell. -/
theorem cellStep_of_step (m : KeyPrefix) (k : TaskId) (h : step s a = some s') :
    CellStep s m k (s.cell m k) a (s'.cell m k) := by
  cases a with
  | submit => exact cellStep_submit h
  | claim => exact cellStep_claim h
  | load => exact cellStep_load h
  | checkCancelled => exact cellStep_checkCancelled h
  | mark => exact cellStep_mark h
  | returnClaim => exact cellStep_returnClaim h
  | ack => exact cellStep_ack h
  | snapshot => exact cellStep_snapshot h
  | requeue => exact cellStep_requeue h
  | freeze => exact cellStep_freeze h
  | finalize => exact cellStep_finalize h
  | recoverScan p pre w scanLimit =>
      obtain rfl := Option.some.inj h
      rw [Sys.cell_setProc _ (by intro proc; rfl)]
      exact CellStep.idle
  | recoverRead => exact cellStep_recoverRead h
  | recoverDrop => exact cellStep_recoverDrop h
  | stampCancelled => exact cellStep_stampCancelled h
  | queueWait => exact cellStep_queueWait h
  | cancel => exact cellStep_cancel h
  | accept => exact cellStep_accept h
  | renew => exact cellStep_renew h
  | finish => exact cellStep_finish h
  | discardWorkflow => exact cellStep_discardWorkflow h
  | tick duration =>
      obtain rfl := Option.some.inj h
      exact CellStep.idle
  | expireTask pre id =>
      simp only [step, Option.ite_none_right_eq_some, Option.some.injEq] at h
      obtain ⟨httl, rfl⟩ := h
      refine CellStep.of_store (fun k hk => Store.view_delTask_of_ne hk) ?_
      rw [Store.view_delTask_self]
      exact CellStep.taskExpired httl
  | expireResult pre id =>
      simp only [step, Option.ite_none_right_eq_some, Option.some.injEq] at h
      obtain ⟨-, rfl⟩ := h
      refine CellStep.of_store (fun k hk => Store.view_delResult_of_ne hk) ?_
      rw [Store.view_delResult_self]
      exact CellStep.resultExpired
  | expireCancel pre id =>
      simp only [step, Option.ite_none_right_eq_some, Option.some.injEq] at h
      obtain ⟨-, rfl⟩ := h
      rw [Sys.cell_setStore_same (by rintro rfl; rfl)]
      exact CellStep.idle
  | expireChildren pre id g =>
      simp only [step, Option.ite_none_right_eq_some, Option.some.injEq] at h
      obtain ⟨-, rfl⟩ := h
      rw [Sys.cell_setStore_same (by rintro rfl; rfl)]
      exact CellStep.idle
  | expireLease pre id =>
      obtain rfl := Option.some.inj h
      rw [Sys.cell_setStore_same (by rintro rfl; rfl)]
      exact CellStep.idle
  | crash q =>
      obtain rfl := Option.some.inj h
      have hcell : (s.setProc q fun _ => {}).cell m k = (s.cell m k).setAttempt q none := by
        simp only [Sys.cell, Sys.setProc, Sys.attempt, Cell.setAttempt, Cell.mk.injEq, true_and]
        funext r
        by_cases hr : r = q
        · subst hr
          simp
        · simp [hr]
      rw [hcell]
      exact CellStep.forgotten q
  | cpuPop => exact cellStep_cpuPop h
  | cpuMark => exact cellStep_cpuMark h
  | cpuRepush => exact cellStep_cpuRepush h
  | readUnclaimed p pre id =>
      simp only [step, Option.ite_none_right_eq_some, Option.some.injEq] at h
      obtain ⟨-, rfl⟩ := h
      split_ifs
      · rw [Sys.cell_setProc _ (by intro proc; rfl)]
        exact CellStep.idle
      · exact CellStep.idle
  | publishUnclaimed => exact cellStep_publishUnclaimed h
  | deleteRecords pre id =>
      obtain rfl := Option.some.inj h
      have hview : ∀ k, k ≠ id →
          (((((s.spaces pre).delTask id).delResult id).delCancel id).delLease id).view k =
            (s.spaces pre).view k := by
        intro k hk
        simp [hk]
      refine CellStep.of_store hview ?_
      rw [Store.view_delLease, Store.view_delCancel, Store.view_delResult_self,
        Store.view_delTask_self]
      exact CellStep.deleted

end KernelGym
