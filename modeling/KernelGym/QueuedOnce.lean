import KernelGym.OrphanedTasks

/-! No task is lost and none is listed twice. That an admitted, waiting task is listed at most once, and
only where it belongs, is part of `Cell.Settled`; here is the converse, that it is listed at all. It
rests on the guard being absorbing: a task that was dropped because it was not admitted then is not
admitted later, as long as no cancel marker disappears. -/

namespace KernelGym

variable {s s' : Sys} {a : Action} {m : KeyPrefix} {k : TaskId} {C' : Cell}

/-- The step removes no cancel marker that exists. -/
def Sys.keepsMarkers (s : Sys) (a : Action) : Prop :=
  ∀ s', step s a = some s' → ∀ m id, (s.spaces m).cancelMarks id = true →
    (s'.spaces m).cancelMarks id = true

theorem keepsMarkers_of_not_clears (h : ∀ m id, ¬a.clearsMarker m id) : s.keepsMarkers a := by
  intro s' hstep m id hmark
  exact (((stepFrame_of_step hstep).fences m).cancelMarks id hmark).resolve_right (h m id)

/-- A task that is admitted after a step, with the payload it had before, was admitted before. -/
theorem admits_antitone (hv : s.Valid) (hstep : step s a = some s') (hkeeps : s.keepsMarkers a)
    {h h' : TaskHash} {d : TaskData} (hh : (s.spaces m).tasks k = some h) (hd : h.data = some d)
    (hh' : (s'.spaces m).tasks k = some h') (hd' : h'.data = some d) {own parent : TaskId}
    (hadmits : (s'.spaces m).admits k own parent = true) :
    (s.spaces m).admits k own parent = true := by
  have hsound := (hv.cell m k).sound h hh
  have hsound' := ((hv.step hstep).cell m k).sound h' hh'
  obtain ⟨-, hkeys, hworkflow⟩ := hsound.payload d hd
  obtain ⟨-, hkeys', hworkflow'⟩ := hsound'.payload d hd'
  have hmark : ∀ id, (s'.spaces m).cancelMarks id = false →
      (s.spaces m).cancelMarks id = false := by
    intro id hnone
    by_contra hmark
    rw [hkeeps s' hstep m id (by simpa using hmark)] at hnone
    exact absurd hnone (by simp)
  simp only [Store.admits, Bool.and_eq_true, Bool.not_eq_true', Store.workflowTaskAllowed,
    Store.hgetall_of_some hh, Store.hgetall_of_some hh', hkeys, hkeys', hworkflow,
    hworkflow'] at hadmits ⊢
  refine ⟨⟨?_, hmark _ hadmits.1.2⟩, hmark _ hadmits.2⟩
  cases hsound.kind with
  | standalone hnone _ _ =>
      have htomb := ((stepFrame_of_step hstep).fences m).tombstones
      rw [← hworkflow, hnone] at hadmits ⊢
      refine workflowAllowed_iff.mpr ⟨fun key hmem => ?_, fun g hg => absurd hg (by simp)⟩
      by_contra hkey
      have hlater := htomb key (by simpa using hkey)
      rw [(workflowAllowed_iff.mp hadmits.1.1).1 key hmem] at hlater
      exact absurd hlater (by simp)
  | child g issue hissued hpre _ _ hchild _ _ _ =>
      subst hpre
      rw [← hworkflow, hchild] at hadmits ⊢
      exact childAllowed_antitone hv hstep hissued hadmits.1.1
  | parent g issue _ _ _ _ _ _ _ hnone _ =>
      rw [hd] at hnone
      exact absurd hnone (by simp)

/-- What a worker that found a dequeued task cancelled knows: the task is not admitted. -/
theorem not_admits_of_cancelled {S : Store} {h : TaskHash} {d : TaskData}
    (hh : S.tasks k = some h) (hkeys : h.cancellationKeys = cancellationKeysOf d)
    (hid : d.taskId = k) (hcancelled : S.dequeuedTaskCancelled k d.baseTaskId = true) :
    S.admits k k (parentCancelId k d) = false := by
  rw [← Bool.not_eq_true]
  intro hadmits
  simp only [Store.admits, Bool.and_eq_true, Bool.not_eq_true', Store.workflowTaskAllowed,
    Store.hgetall_of_some hh, hkeys] at hadmits
  obtain ⟨⟨hallowed, hown⟩, hparent⟩ := hadmits
  have htomb := (workflowAllowed_iff.mp hallowed).1
  simp only [Store.dequeuedTaskCancelled, Bool.or_eq_true, Bool.and_eq_true,
    decide_eq_true_eq] at hcancelled
  rcases hcancelled with (hmark | hkey) | ⟨⟨hne, -⟩, hmark | hkey⟩
  · rw [hown] at hmark
    exact absurd hmark (by simp)
  · rw [htomb k (hid ▸ taskId_mem_cancellationKeys d)] at hkey
    exact absurd hkey (by simp)
  · rw [parentCancelId, if_neg hne, hmark] at hparent
    exact absurd hparent (by simp)
  · rw [htomb d.baseTaskId (base_mem_cancellationKeys hne)] at hkey
    exact absurd hkey (by simp)

/-- An admitted task that waits without a claim is listed where it belongs, and a claim whose holder
saw a cancellation is of a task that is not admitted. -/
structure Sys.Listed (s : Sys) (m : KeyPrefix) (k : TaskId) : Prop where
  listed : ∀ d, (s.cell m k).hash.data = some d → (s.cell m k).hash.status = some .pending →
    (s.cell m k).hash.claim.token = none →
    (s.spaces m).admits k k (parentCancelId k d) = true →
    0 < (s.cell m k).view.queued (homeLane (s.cell m k).hash.assignedWorker d)
  seen : ∀ p c d, (s.cell m k).attempts p = some c → c.cancelSeen = true →
    (s.cell m k).hash.claim.token = some c.token → (s.cell m k).hash.data = some d →
    (s.spaces m).admits k k (parentCancelId k d) = false

/-- Pushing a task lists it. -/
theorem TaskView.push_queued_pos (v : TaskView) (lane : Lane) : 0 < (v.push lane).queued lane := by
  rw [push_queued, if_pos rfl]
  exact Nat.succ_pos _

/-- A withdrawn task does not stay pending, unless it is fenced. -/
theorem TaskView.withdrawn_not_pending {v : TaskView} {h : TaskHash} (now : Timestamp)
    (result : ResultMapping) (retention : Retention) (hstored : v.hash.getD {} = h)
    (hclear : h.status = some .pending → h.claim.recoveryState = .clear) :
    ((v.withdrawn h now result retention).hash.getD {}).status ≠ some .pending := by
  by_cases hstop : h.stoppable = true
  · rw [withdrawn, if_pos hstop, stopped_hash]
    exact fun hstatus => absurd hstatus (by simp [TaskHash.stopped])
  · rw [withdrawn_hash_of_not _ hstop, hstored]
    exact fun hpending => hstop (by simp [TaskHash.stoppable, hpending, hclear hpending])

/-- The holder of a claim that acknowledges its task saw a cancellation, or knows no payload, which a
live claim rules out. -/
theorem Sys.Listed.acknowledged {p : InstanceId} {c : Attempt} {d : TaskData} (hl : s.Listed m k)
    (hm : c.Matches (s.cell m k).hash) (hc : (s.cell m k).attempts p = some c)
    (ht : (s.cell m k).hash.claim.token = some c.token) (hd : (s.cell m k).hash.data = some d)
    (hack : c.acknowledges = true) : (s.spaces m).admits k k (parentCancelId k d) = false := by
  unfold Attempt.acknowledges at hack
  rw [hm.unloadable] at hack
  split at hack
  · exact hl.seen _ _ d hc (by simpa using hack) ht hd
  · exact absurd hack (by simp)
  · exact absurd hack (by simp)

/-- An admitted task that waits after a transaction is listed in its home queue. -/
theorem CellStep.listed (hcell : CellStep s m k (s.cell m k) a C') (hcore : a.transactional = true)
    (hv : s.Valid) (hs : (s.cell m k).Settled) (hl : s.Listed m k)
    (hanti : ∀ h d, (s.cell m k).view.hash = some h → h.data = some d → C'.hash.data = some d →
      (s'.spaces m).admits k k (parentCancelId k d) = true →
      (s.spaces m).admits k k (parentCancelId k d) = true)
    {d : TaskData} (hd : C'.hash.data = some d) (hstatus : C'.hash.status = some .pending)
    (htoken : C'.hash.claim.token = none)
    (hadmits : (s'.spaces m).admits k k (parentCancelId k d) = true) :
    0 < C'.view.queued (homeLane C'.hash.assignedWorker d) := by
  have hcv := hv.cell m k
  have hmatch : ∀ {p c}, (s.cell m k).attempts p = some c →
      (s.cell m k).hash.claim.token = some c.token → c.Matches (s.cell m k).hash :=
    fun hc ht => hcv.matching _ _ _ hc (Cell.exists_of_token ht) ht
  have hbefore : (s.cell m k).hash.data = some d →
      (s.spaces m).admits k k (parentCancelId k d) = true := fun hdata =>
    hanti _ d (Cell.exists_of_ne fun heq => by
      rw [heq] at hdata
      exact absurd hdata (by simp)) hdata hd hadmits
  have hkept : (s.cell m k).hash.data = some d → (s.cell m k).hash.status = some .pending →
      (s.cell m k).hash.claim.token = none →
      0 < (s.cell m k).view.queued (homeLane (s.cell m k).hash.assignedWorker d) :=
    fun hdata hpending hnone => hl.listed d hdata hpending hnone (hbefore hdata)
  -- A refusal of the dispatch guard stays in force.
  have hrefused : ∀ {d'}, (s.cell m k).hash.data = some d' → (s.cell m k).hash.data = some d →
      (s.spaces m).admits k k (parentCancelId k d') = false → False := by
    intro d' hdata' hdata hfalse
    obtain rfl := Option.some.inj (hdata.symm.trans hdata')
    rw [hbefore hdata] at hfalse
    exact absurd hfalse (by simp)
  have hclear : (s.cell m k).hash.status = some .pending →
      (s.cell m k).hash.claim.recoveryState = .clear := by
    intro hpending
    by_contra hfence
    exact absurd (hpending.symm.trans
      ((hcv.sound _ (Cell.exists_of_status hpending)).fenced hfence)) (by simp)
  cases hcell with
  | idle | forgotten | loaded | checked | observed | adopted | superseded | finalizeSuperseded
  | entryDropped | resultExpired => exact hkept hd hstatus htoken
  | cpuPopped | cpuPushed | cpuMarked | published | deleted =>
      exact absurd hcore (by simp [Action.transactional])
  | @staleCopy w seen operation reason now moveToken hempty hother =>
      refine Nat.lt_of_lt_of_eq (hkept hd hstatus htoken) ?_
      rw [Cell.withView_view, TaskView.pullOne_queued, if_neg]
      · rfl
      · change ¬homeLane (s.cell m k).hash.assignedWorker d = .worker w
        rw [homeLane, if_neg hempty]
        exact fun heq => hother (Lane.worker.inj heq)
  | debris hnot hlow =>
      obtain ⟨n, -, rfl⟩ := hlow
      have hallowed := hbefore hd
      simp only [Store.admits, Bool.and_eq_true] at hallowed
      rw [Store.claimable_iff.mpr ⟨_, Cell.exists_of_status hstatus, hstatus, htoken,
        hallowed.1.1⟩] at hnot
      exact absurd hnot (by simp)
  | stamped hh =>
      rw [← Cell.hash_of_some hh] at hd hstatus htoken ⊢
      exact hkept hd hstatus htoken
  | submitted | refreshed | moved =>
      obtain rfl := Option.some.inj hd
      exact TaskView.push_queued_pos _ _
  | claimed => exact absurd htoken (by simp [Cell.hash, TaskView.claimed, TaskView.setHash, newClaim])
  | marked hc hstage hdata ht => exact absurd (ht.symm.trans htoken) (by simp)
  | frozen hc hstage ht => exact absurd (ht.symm.trans htoken) (by simp)
  | markRefused hc hstage hdata ht hfalse =>
      rcases hfalse with hne | hfalse
      · exact absurd hstatus hne
      · exact (hrefused ((hmatch hc ht).loaded _ hdata) hd hfalse).elim
  | @returned p c hc hstage ht =>
      obtain ⟨d', hd', hsource⟩ := hs.source _ ht
      rw [(hmatch hc ht).sourceQueue, Option.some.injEq] at hsource
      have hallowed := hbefore (by
        unfold TaskView.returned at hd
        split_ifs at hd <;> exact hd)
      simp only [Store.admits, Bool.and_eq_true] at hallowed
      rw [hallowed.1.1] at hd ⊢
      obtain rfl := Option.some.inj (hd'.symm.trans hd)
      change 0 < (TaskView.push _ c.sourceQueue).queued _
      rw [hsource]
      exact TaskView.push_queued_pos _ _
  | acked hc hack ht hfence =>
      exact (hrefused hd hd (hl.acknowledged (hmatch hc ht) hc ht hd hack)).elim
  | @requeued p c d' seen restore mode reason now hc hdata hseen ht hmode hadmitted =>
      obtain rfl := Option.some.inj hd
      change 0 < (TaskView.push _ (requeueLane c d' restore)).queued (homeLane _ _)
      rw [requeueLane_eq hs (hmatch hc ht) ht hdata hseen restore reason now]
      exact TaskView.push_queued_pos _ _
  | requeueRefused hc hdata ht hmode hfalse =>
      rcases hfalse with hnone | hterminal | hfalse
      · exact absurd (hnone.symm.trans hstatus) (by simp)
      · rw [TaskHash.terminal, show (s.cell m k).hash.status = some .pending from hstatus]
          at hterminal
        exact absurd hterminal (by simp [TaskStatus.terminal])
      · exact (hrefused ((hmatch hc ht).loaded _ hdata) hd hfalse).elim
  | finalized hc hterminal ht =>
      rw [show TaskStatus.terminal _ = TaskStatus.terminal .pending from
        congrArg _ (Option.some.inj hstatus)] at hterminal
      exact absurd hterminal (by simp [TaskStatus.terminal])
  | stampedAbsent | accepted | taskExpired | discarded =>
      exact absurd hd (by simp [Cell.hash, TaskView.setHash, TaskHash.cancelStamped, parentRecord])
  | cancelled hh =>
      refine absurd hstatus (TaskView.withdrawn_not_pending _ _ _ rfl ?_)
      rw [← Cell.hash_of_some hh]
      exact hclear
  | swept => exact absurd hstatus (TaskView.withdrawn_not_pending _ _ _ rfl hclear)
  | renewed =>
      exact absurd (show some TaskStatus.processing = some .pending from hstatus) (by simp)
  | @committed g issue payload reason now retention lanes hissued hpre hid hterminal =>
      have hpayload := finishPayload_terminal k g reason (s.spaces m) hterminal
      change ((TaskView.purgeLanes _ _).hash.getD {}).status = some .pending at hstatus
      rw [TaskView.purgeLanes_hash] at hstatus
      rw [show (finishPayload k g payload reason (s.spaces m)).2.status = some .pending from
        hstatus] at hpayload
      exact absurd hpayload (by simp [TaskStatus.terminal])

theorem CellStep.cancel_seen (hcell : CellStep s m k (s.cell m k) a C') (hv : s.Valid)
    (hl : s.Listed m k)
    (hanti : ∀ h d, (s.cell m k).view.hash = some h → h.data = some d → C'.hash.data = some d →
      (s'.spaces m).admits k k (parentCancelId k d) = true →
      (s.spaces m).admits k k (parentCancelId k d) = true)
    {p : InstanceId} {c' : Attempt} {d : TaskData} (hc' : C'.attempts p = some c')
    (hseen : c'.cancelSeen = true) (ht' : C'.hash.claim.token = some c'.token)
    (hd' : C'.hash.data = some d) : (s'.spaces m).admits k k (parentCancelId k d) = false := by
  have hcv := hv.cell m k
  -- The attempt had the token before, and a refusal known of it stays in force.
  have hkept : ∀ c, (s.cell m k).attempts p = some c → c.token = c'.token →
      ((s.cell m k).hash.claim.token = some c.token → (s.cell m k).hash.data = some d →
        (s.spaces m).admits k k (parentCancelId k d) = false) →
      (s'.spaces m).admits k k (parentCancelId k d) = false := by
    intro c hc htoken hfalse
    obtain ⟨h, hh, hsame⟩ := hcell.sameAttempt hcv (Cell.exists_of_token ht') ht'
      (htoken ▸ hcv.minted _ _ hc)
    have hhash := Cell.hash_of_some hh
    have ht : (s.cell m k).hash.claim.token = some c.token := by
      rw [hhash, ← hsame.token, ht', htoken]
    have hd : h.data = some d := by rw [← hsame.data, hd']
    rw [← Bool.not_eq_true]
    intro hadmits
    rw [hanti h d hh hd hd' hadmits] at hfalse
    exact absurd (hfalse ht (by rw [hhash, hd])) (by simp)
  cases hcell.attemptStep hc' with
  | kept hc => exact hkept c' hc rfl fun ht hd => hl.seen p c' d hc hseen ht hd
  | loaded c hc heq =>
      subst heq
      exact hkept c hc rfl fun ht hd => hl.seen p c d hc hseen ht hd
  | observed c hc heq =>
      subst heq
      exact hkept c hc rfl fun ht hd => hl.seen p c d hc hseen ht hd
  | marked c now hc hstage ht heq =>
      subst heq
      exact hkept c hc rfl fun ht hd => hl.seen p c d hc hseen ht hd
  | checked c loaded hc hloaded heq =>
      subst heq
      refine hkept c hc rfl fun ht hd => ?_
      rcases Bool.or_eq_true_iff.mp hseen with hold | hcancelled
      · exact hl.seen p c d hc hold ht hd
      · have hexists := Cell.exists_of_token ht
        obtain ⟨hid, hkeys, -⟩ := (hcv.sound _ hexists).payload d hd
        obtain rfl := Option.some.inj
          (hd.symm.trans ((hcv.matching _ _ _ hc hexists ht).loaded _ hloaded))
        exact not_admits_of_cancelled hexists hkeys hid hcancelled
  | adopted entry release h hscan hpre hid hh ht heq =>
      subst heq
      exact absurd hseen (by simp [adoptedAttempt])
  | claimed w lane t n ha ht heq =>
      subst heq
      exact absurd hseen (by simp [claimedAttempt])

theorem Sys.Listed.step (hl : s.Listed m k) (hv : s.Valid) (hs : (s.cell m k).Settled)
    (hcore : a.transactional = true) (hkeeps : s.keepsMarkers a) (hstep : step s a = some s') :
    s'.Listed m k := by
  have hcell := cellStep_of_step m k hstep
  have hanti : ∀ h d, (s.cell m k).view.hash = some h → h.data = some d →
      (s'.cell m k).hash.data = some d →
      (s'.spaces m).admits k k (parentCancelId k d) = true →
      (s.spaces m).admits k k (parentCancelId k d) = true := by
    intro h d hh hd hd' hadmits
    have hh' : (s'.cell m k).view.hash = some (s'.cell m k).hash :=
      Cell.exists_of_ne fun heq => by
        rw [heq] at hd'
        exact absurd hd' (by simp)
    exact admits_antitone hv hstep hkeeps hh hd hh' hd' hadmits
  exact
    { listed := fun d hd hstatus htoken hadmits =>
        hcell.listed hcore hv hs hl hanti hd hstatus htoken hadmits
      seen := fun p c d hc hseen ht hd => hcell.cancel_seen hv hl hanti hc hseen ht hd }

/-- A run of transactions in which no existing cancel marker is removed. -/
abbrev MarkedRun : Sys → Sys → Prop :=
  Library.RunWhen step fun s a => a.transactional = true ∧ s.keepsMarkers a

/-- In every state that the transactions lead to, an admitted GPU task that is pending and unclaimed
occurs exactly once on the dispatch queues, in its worker's queue or the GPU queue, and an admitted
task that carries a claim token occurs on none. -/
theorem admitted_task_queued_once (hs : MarkedRun {} s) {h : TaskHash} {d : TaskData}
    (hh : (s.spaces m).tasks k = some h) (hd : h.data = some d)
    (hgpu : resolveRequiredResource d = .gpu)
    (hadmits : (s.spaces m).admits k k (parentCancelId k d) = true) :
    (h.status = some .pending → h.claim.token = none → ∀ lane,
      ((s.spaces m).queues lane).count k =
        if lane = (if h.assignedWorker = "" then .resource .gpu else .worker h.assignedWorker)
        then 1 else 0) ∧
    (h.claim.token.isSome → ∀ lane, k ∉ (s.spaces m).queues lane) := by
  have hinv : s.Valid ∧ (s.cell m k).Settled ∧ s.Listed m k := by
    refine Library.RunWhen.invariant (I := fun u => u.Valid ∧ (u.cell m k).Settled ∧
      u.Listed m k) ?_ hs ⟨Sys.valid_empty,
      Cell.Settled.of_idle rfl (fun _ _ => rfl) fun _ => rfl,
      ⟨fun d hd => absurd hd (by simp [Sys.cell, Cell.hash, Store.view]),
        fun p c d hc => absurd hc (by simp [Sys.cell, Sys.attempt])⟩⟩
    rintro u b u' ⟨hv, hsettled, hl⟩ ⟨hcore, hkeeps⟩ hstep
    exact ⟨hv.step hstep, (cellStep_of_step m k hstep).settled hcore hv hsettled,
      hl.step hv hsettled hcore hkeeps hstep⟩
  obtain ⟨hv, hsettled, hl⟩ := hinv
  have hhash : (s.cell m k).hash = h := Cell.hash_of_some hh
  have hhome : homeLane h.assignedWorker d =
      if h.assignedWorker = "" then .resource .gpu else .worker h.assignedWorker := by
    rw [homeLane, hgpu]
  refine ⟨fun hpending hnone lane => ?_, fun hsome lane hmem => ?_⟩
  · rw [← hhome]
    have hcount : ((s.spaces m).queues lane).count k = (s.cell m k).view.queued lane := rfl
    rw [hcount]
    split_ifs with heq
    · have hpos := hl.listed d (hhash ▸ hd) (hhash ▸ hpending) (hhash ▸ hnone) hadmits
      have hone := hsettled.single lane
      rw [hhash, ← heq] at hpos
      omega
    · by_contra hne
      obtain ⟨-, -, d', hd', hlane⟩ := hsettled.queued lane (Nat.pos_of_ne_zero hne)
      rw [hhash] at hd' hlane
      obtain rfl := Option.some.inj (hd.symm.trans hd')
      exact heq hlane
  · obtain ⟨t, ht⟩ := Option.isSome_iff_exists.mp hsome
    have hpos : 0 < (s.cell m k).view.queued lane := Store.mem_queue_iff.mp hmem
    rw [hsettled.unqueued_of_claimed (hhash ▸ ht)] at hpos
    exact absurd hpos (Nat.lt_irrefl _)

/-- A claim that was returned to the queue of its worker. -/
def returnedTask : List Action :=
  [.submit "kernelgym" { taskId := "task", assignedWorker := "gpu0" } none false [] "0",
    .claim "one" "kernelgym" "gpu0" (.worker "gpu0") "first" 32, .load "one" "task",
    .returnClaim "one" "task"]

theorem admitted_task_queued_once_returned :
    (((Sys.after returnedTask).spaces "kernelgym").queues (.worker "gpu0")).count "task" = 1 := by
  have hrun : MarkedRun {} (Sys.after returnedTask) :=
    Library.RunWhen.mono
      (fun u a (h : a.transactional = true ∧ ∀ m id, ¬a.clearsMarker m id) =>
        ⟨h.1, keepsMarkers_of_not_clears h.2⟩)
      (Library.execute_run_getD
        (by simp [returnedTask, Action.transactional, Action.clearsMarker])
        (show (Library.execute step returnedTask {}).isSome by decide))
  exact (admitted_task_queued_once (m := "kernelgym") (k := "task") hrun rfl rfl rfl
    (by decide)).1 rfl rfl (.worker "gpu0")

end KernelGym
