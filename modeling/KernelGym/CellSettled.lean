import KernelGym.CancelPermanent

/-! Claims, inflight lists and dispatch queues agree as long as every write is one of the Lua
transactions. A claimed task has one inflight entry and is on no queue; a queued task is pending,
unclaimed, and listed once, in the queue its assignment asks for. -/

namespace KernelGym

variable {s s' : Sys} {a : Action} {m : KeyPrefix} {k : TaskId} {C C' : Cell} {w w' : WorkerId}
  {t t' : Token}

/-- The atomic transactions of the task manager and the workflow lifecycle, with the reads, expiries
and crashes around them. The plain commands are left out: a CPU worker's pop, mark and push, a
publication without a claim, and the `DEL` of records without a generation. -/
def Action.transactional : Action → Bool
  | .cpuPop .. | .cpuMark .. | .cpuRepush .. => false
  | .readUnclaimed .. | .publishUnclaimed .. | .deleteRecords .. => false
  | _ => true

structure Cell.Settled (C : Cell) : Prop where
  entry : ∀ w t, C.view.inflight w t =
    if C.hash.claim.token = some t ∧ C.hash.claim.inflightQueue = some w then 1 else 0
  single : ∀ lane, C.view.queued lane ≤ 1
  queued : ∀ lane, 0 < C.view.queued lane → C.hash.status = some .pending ∧
    C.hash.claim.token = none ∧ ∃ d, C.hash.data = some d ∧ lane = homeLane C.hash.assignedWorker d
  source : ∀ t, C.hash.claim.token = some t → ∃ d, C.hash.data = some d ∧
    C.hash.claim.sourceQueue = some (homeLane C.hash.assignedWorker d)
  fenced : C.hash.status = some .processing → ∀ t, C.hash.claim.token = some t →
    C.hash.claim.recoveryState ≠ .clear

namespace Cell.Settled

theorem unqueued_of_claimed (hs : C.Settled) (ht : C.hash.claim.token = some t) (lane : Lane) :
    C.view.queued lane = 0 := by
  by_contra hne
  have hnone := (hs.queued lane (Nat.pos_of_ne_zero hne)).2.1
  rw [ht] at hnone
  exact absurd hnone (by simp)

theorem unqueued_of_status (hs : C.Settled) (hstatus : C.hash.status ≠ some .pending) (lane : Lane) :
    C.view.queued lane = 0 := by
  by_contra hne
  exact hstatus (hs.queued lane (Nat.pos_of_ne_zero hne)).1

theorem unqueued_of_data (hs : C.Settled) (hdata : C.hash.data = none) (lane : Lane) :
    C.view.queued lane = 0 := by
  by_contra hne
  obtain ⟨d, hd, -⟩ := (hs.queued lane (Nat.pos_of_ne_zero hne)).2.2
  rw [hdata] at hd
  exact absurd hd (by simp)

theorem inflight_of_unclaimed (hs : C.Settled) (ht : C.hash.claim.token = none) (w : WorkerId)
    (t : Token) : C.view.inflight w t = 0 := by
  rw [hs.entry, ht]
  simp

/-- Releasing the entry of the live claim leaves no entry. -/
theorem inflight_release (hs : C.Settled) (ht : C.hash.claim.token = some t)
    (hw : C.hash.claim.inflightQueue = some w) (w' : WorkerId) (t' : Token) :
    (C.view.release w t).inflight w' t' = 0 := by
  rw [TaskView.release_inflight]
  split_ifs with heq
  · rw [hs.entry, ht, hw]
    simp
  · rw [hs.entry, ht, hw, if_neg]
    rintro ⟨ht', hw'⟩
    exact heq ⟨(Option.some.inj hw').symm, (Option.some.inj ht').symm⟩

/-- Releasing an entry of another token changes nothing. -/
theorem inflight_release_superseded (hs : C.Settled) (ht : C.hash.claim.token ≠ some t)
    (w w' : WorkerId) (t' : Token) :
    (C.view.release w t).inflight w' t' = C.view.inflight w' t' := by
  rw [TaskView.release_inflight]
  split_ifs with heq
  · obtain ⟨rfl, rfl⟩ := heq
    rw [hs.entry, if_neg fun h => ht h.1]
  · rfl

theorem of_idle (ht : C.hash.claim.token = none) (hinflight : ∀ w t, C.view.inflight w t = 0)
    (hqueued : ∀ lane, C.view.queued lane = 0) : C.Settled where
  entry w t := by
    rw [hinflight, ht]
    simp
  single lane := by
    rw [hqueued]
    exact Nat.zero_le _
  queued lane hpos := by
    rw [hqueued] at hpos
    exact absurd hpos (Nat.lt_irrefl _)
  source t ht' := by
    rw [ht] at ht'
    exact absurd ht' (by simp)
  fenced _ t ht' := by
    rw [ht] at ht'
    exact absurd ht' (by simp)

/-- A pending task without a claim, listed once in its home queue. -/
theorem of_queued {d : TaskData} (lane : Lane) (hstatus : C.hash.status = some .pending)
    (ht : C.hash.claim.token = none) (hd : C.hash.data = some d)
    (hlane : lane = homeLane C.hash.assignedWorker d) (hinflight : ∀ w t, C.view.inflight w t = 0)
    (hqueued : ∀ other, C.view.queued other = if other = lane then 1 else 0) : C.Settled where
  entry w t := by
    rw [hinflight, ht]
    simp
  single other := by
    rw [hqueued]
    split_ifs <;> omega
  queued other hpos := by
    rw [hqueued] at hpos
    split_ifs at hpos with heq
    · exact ⟨hstatus, ht, d, hd, heq.trans hlane⟩
    · exact absurd hpos (Nat.lt_irrefl _)
  source t ht' := by
    rw [ht] at ht'
    exact absurd ht' (by simp)
  fenced _ t ht' := by
    rw [ht] at ht'
    exact absurd ht' (by simp)

/-- The hash keeps its status, claim, payload and assignment; queues may lose copies. -/
theorem of_lowered (hs : C.Settled) (hstatus : C'.hash.status = C.hash.status)
    (hclaim : C'.hash.claim = C.hash.claim) (hdata : C'.hash.data = C.hash.data)
    (hworker : C'.hash.assignedWorker = C.hash.assignedWorker)
    (hinflight : ∀ w t, C'.view.inflight w t = C.view.inflight w t)
    (hqueued : ∀ lane, C'.view.queued lane ≤ C.view.queued lane) : C'.Settled where
  entry w t := by rw [hinflight, hclaim, hs.entry]
  single lane := Nat.le_trans (hqueued lane) (hs.single lane)
  queued lane hpos := by
    rw [hstatus, hclaim, hdata, hworker]
    exact hs.queued lane (Nat.lt_of_lt_of_le hpos (hqueued lane))
  source := by
    rw [hclaim, hdata, hworker]
    exact hs.source
  fenced := by
    rw [hstatus, hclaim]
    exact hs.fenced

/-- A claim changes hands between the fence states of one attempt. -/
theorem of_held (hs : C.Settled) (ht : C.hash.claim.token = some t)
    (htoken : C'.hash.claim.token = C.hash.claim.token)
    (hinflightQueue : C'.hash.claim.inflightQueue = C.hash.claim.inflightQueue)
    (hsource : C'.hash.claim.sourceQueue = C.hash.claim.sourceQueue)
    (hfence : C'.hash.claim.recoveryState ≠ .clear) (hdata : C'.hash.data = C.hash.data)
    (hworker : C'.hash.assignedWorker = C.hash.assignedWorker)
    (hinflight : ∀ w t, C'.view.inflight w t = C.view.inflight w t)
    (hqueued : ∀ lane, C'.view.queued lane = C.view.queued lane) : C'.Settled where
  entry w t := by rw [hinflight, htoken, hinflightQueue, hs.entry]
  single lane := by
    rw [hqueued]
    exact hs.single lane
  queued lane hpos := by
    rw [hqueued, hs.unqueued_of_claimed ht] at hpos
    exact absurd hpos (Nat.lt_irrefl _)
  source t' ht' := by
    rw [hdata, hsource, hworker]
    exact hs.source t' (htoken ▸ ht')
  fenced _ _ _ := hfence

end Cell.Settled

theorem TaskView.push_queued (v : TaskView) (lane other : Lane) :
    (v.push lane).queued other = if other = lane then v.queued lane + 1 else v.queued other := by
  simp only [push, Function.update_apply]

theorem TaskView.purge_queued (v : TaskView) (lane other : Lane) :
    (v.purge lane).queued other = if other = lane then 0 else v.queued other := by
  simp only [purge, Function.update_apply]

theorem TaskView.pullOne_queued (v : TaskView) (lane other : Lane) :
    (v.pullOne lane).queued other = if other = lane then v.queued lane - 1 else v.queued other := by
  simp only [pullOne, Function.update_apply]

/-- An id that is listed nowhere is listed once after it was published in a queue. -/
theorem TaskView.enqueued_queued {v : TaskView} {lane : Lane} (h : ∀ other, v.queued other = 0)
    (other : Lane) : ((v.purge lane).push lane).queued other = if other = lane then 1 else 0 := by
  rw [push_queued, purge_queued, purge_queued, if_pos rfl]
  split_ifs
  · rfl
  · exact h other

/-- The queues a stopped task is removed from include the one it belongs in. -/
theorem homeLane_mem_stopLanes {h : TaskHash} (d : TaskData) :
    homeLane h.assignedWorker d ∈ stopLanes h := by
  unfold homeLane stopLanes assignedLanes
  split_ifs with hworker
  · cases resolveRequiredResource d <;> simp
  · simp

theorem Cell.hash_withView_purgeLanes (C : Cell) (lanes : List Lane) :
    (C.withView (C.view.purgeLanes lanes)).hash = C.hash := by
  rw [Cell.hash, Cell.withView_view, TaskView.purgeLanes_hash]
  rfl

/-- Withdrawing a task leaves no queue entry, and no inflight entry when it was stopped. -/
theorem Cell.Settled.withdrawn (hs : C.Settled) (now : Timestamp) (result : ResultMapping)
    (retention : Retention) :
    (C.withView (C.view.withdrawn C.hash now result retention)).Settled := by
  unfold TaskView.withdrawn
  split_ifs with hstop
  · refine Cell.Settled.of_idle rfl (fun w t => ?_) fun lane => ?_
    · change ((C.view.purgeLanes (stopLanes C.hash)).releaseHeld C.hash).inflight w t = 0
      unfold TaskView.releaseHeld
      split
      · rename_i t' w' ht hw
        have hrelease := hs.inflight_release ht hw w t
        rw [TaskView.release_inflight] at hrelease ⊢
        rw [TaskView.purgeLanes_inflight]
        exact hrelease
      · rename_i hne
        rw [TaskView.purgeLanes_inflight, hs.entry, if_neg fun h => hne t w h.1 h.2]
    · change ((C.view.purgeLanes (stopLanes C.hash)).stopped C.hash now result retention).queued
        lane = 0
      rw [TaskView.stopped_queued, TaskView.purgeLanes_queued]
      split_ifs with hmem
      · rfl
      · by_contra hne
        obtain ⟨-, -, d, -, rfl⟩ := hs.queued lane (Nat.pos_of_ne_zero hne)
        exact hmem (homeLane_mem_stopLanes d)
  · have hhash := Cell.hash_withView_purgeLanes C (stopLanes C.hash)
    refine hs.of_lowered (by rw [hhash]) (by rw [hhash]) (by rw [hhash]) (by rw [hhash])
      (fun w t => ?_) fun lane => TaskView.purgeLanes_queued_le _ _ _
    rw [Cell.withView_view, TaskView.purgeLanes_inflight]

/-- Releasing the entry of an attempt that no longer owns the task changes nothing. -/
theorem Cell.Settled.superseded (hs : C.Settled) (ht : C.hash.claim.token ≠ some t)
    (hview : C'.view = C.view.release w t) : C'.Settled := by
  have hhash : C'.hash = C.hash := by
    rw [Cell.hash, hview]
    rfl
  refine hs.of_lowered (by rw [hhash]) (by rw [hhash]) (by rw [hhash]) (by rw [hhash])
    (fun w' t' => ?_) fun _ => ?_
  · rw [hview]
    exact hs.inflight_release_superseded ht w w' t'
  · rw [hview]
    exact Nat.le_refl _

/-- A step that ends the live claim of an attempt and puts the task on no queue. -/
theorem Cell.Settled.released (hs : C.Settled) {h' : TaskHash} (ht : C.hash.claim.token = some t)
    (hw : C.hash.claim.inflightQueue = some w) (hh' : C'.view.hash = some h')
    (hclaim : h'.claim.token = none) (hinflight : C'.view.inflight = (C.view.release w t).inflight)
    (hqueued : C'.view.queued = C.view.queued) : C'.Settled := by
  refine Cell.Settled.of_idle ?_ (fun w' t' => ?_) fun lane => ?_
  · rw [Cell.hash_of_some hh', hclaim]
  · rw [hinflight]
    exact hs.inflight_release ht hw w' t'
  · rw [hqueued]
    exact hs.unqueued_of_claimed ht lane

/-- A step that ends the live claim of an attempt and publishes the task in its home queue. -/
theorem Cell.Settled.restored (hs : C.Settled) {h' : TaskHash} {d : TaskData} {lane : Lane}
    (ht : C.hash.claim.token = some t) (hw : C.hash.claim.inflightQueue = some w)
    (hh' : C'.view.hash = some h') (hstatus : h'.status = some .pending)
    (hclaim : h'.claim.token = none) (hd : h'.data = some d)
    (hlane : lane = homeLane h'.assignedWorker d)
    (hinflight : C'.view.inflight = (C.view.release w t).inflight)
    (hqueued : C'.view.queued = ((C.view.purge lane).push lane).queued) : C'.Settled := by
  have hhash := Cell.hash_of_some hh'
  refine Cell.Settled.of_queued lane (by rw [hhash, hstatus]) (by rw [hhash, hclaim])
    (by rw [hhash, hd]) (by rw [hhash]; exact hlane) (fun w' t' => ?_) fun other => ?_
  · rw [hinflight]
    exact hs.inflight_release ht hw w' t'
  · rw [hqueued]
    exact TaskView.enqueued_queued (hs.unqueued_of_claimed ht) other

/-- What the worker processes remember plays no part. -/
theorem Cell.Settled.setAttempt (hs : C.Settled) (p : InstanceId) (c : Option Attempt) :
    (C.setAttempt p c).Settled :=
  ⟨hs.entry, hs.single, hs.queued, hs.source, hs.fenced⟩

/-- A record that is absent or finished holds no claim and is not pending. -/
structure Cell.Free (C : Cell) : Prop where
  unclaimed : C.hash.claim.token = none
  status : C.hash.status ≠ some .pending

theorem Cell.free_of_absent (hnone : C.view.hash = none) : C.Free := by
  constructor <;> simp [Cell.hash, hnone]

theorem Cell.free_of_terminal (hcv : s.CellValid m k) {h : TaskHash}
    (hh : (s.cell m k).view.hash = some h) (hterminal : h.terminal = true) : (s.cell m k).Free := by
  have hhash := Cell.hash_of_some hh
  refine ⟨?_, fun hstatus => ?_⟩
  · rw [hhash]
    exact (hcv.sound h hh).unclaimed hterminal
  · rw [hhash] at hstatus
    rw [TaskHash.terminal, hstatus] at hterminal
    exact absurd hterminal (by simp [TaskStatus.terminal])

theorem Cell.free_of_replaced (hcv : s.CellValid m k)
    (hold : ∀ h, (s.cell m k).view.hash = some h → h.terminal = true) : (s.cell m k).Free := by
  cases hh : (s.cell m k).view.hash with
  | none => exact Cell.free_of_absent hh
  | some h => exact Cell.free_of_terminal hcv hh (hold h hh)

/-- What was free is still free, or idle, after a write of a record that nobody has claimed. -/
theorem Cell.Settled.replaced (hs : C.Settled) (hfree : C.Free) (hnone : C'.hash.claim.token = none)
    (hinflight : C'.view.inflight = C.view.inflight) (hqueued : C'.view.queued = C.view.queued) :
    C'.Settled := by
  refine Cell.Settled.of_idle hnone (fun w t => ?_) fun lane => ?_
  · rw [hinflight]
    exact hs.inflight_of_unclaimed hfree.unclaimed w t
  · rw [hqueued]
    exact hs.unqueued_of_status hfree.status lane

/-- A submission over a finished record. -/
theorem Cell.Settled.refreshed (hs : C.Settled) (hfree : C.Free) (d : TaskData) (now : Timestamp)
    (lanes : List Lane) : (C.withView (C.view.refreshed (taskMapping d now) lanes
      (homeLane d.assignedWorker d))).Settled := by
  refine Cell.Settled.of_queued (homeLane d.assignedWorker d) rfl rfl rfl rfl
    (fun w t => ?_) fun other => ?_
  · change (TaskView.purgeLanes _ _).inflight w t = 0
    rw [TaskView.purgeLanes_inflight]
    exact hs.inflight_of_unclaimed hfree.unclaimed w t
  · have hempty : ∀ lane, (C.view.purgeLanes lanes).queued lane = 0 := fun lane =>
      Nat.le_zero.mp (hs.unqueued_of_status hfree.status lane ▸
        TaskView.purgeLanes_queued_le C.view lanes lane)
    refine (TaskView.push_queued _ _ other).trans ?_
    change (if _ then (C.view.purgeLanes lanes).queued _ + 1 else
      (C.view.purgeLanes lanes).queued _) = _
    rw [hempty, hempty]

/-- A claim takes the only copy of a task. -/
theorem Cell.Settled.claimed (hs : C.Settled) {lane : Lane} (hqueued : 0 < C.view.queued lane)
    (t : Token) (w : WorkerId) (p : InstanceId) :
    (C.withView (C.view.claimed C.hash t w p lane)).Settled := by
  obtain ⟨hpending, hnone, d, hd, hhome⟩ := hs.queued lane hqueued
  have hzero := hs.inflight_of_unclaimed hnone
  refine ⟨fun w' t' => ?_, fun other => ?_, fun other hpos => ?_, fun t' ht' => ?_,
    fun hprocessing => ?_⟩
  · refine (TaskView.hold_inflight _ _ _ _ _).trans ?_
    change _ = if some t = some t' ∧ some w = some w' then 1 else 0
    rw [show (C.view.pullOne lane).inflight w t = 0 from hzero w t,
      show (C.view.pullOne lane).inflight w' t' = 0 from hzero w' t']
    by_cases heq : w' = w ∧ t' = t
    · rw [if_pos heq, if_pos ⟨by rw [heq.2], by rw [heq.1]⟩]
    · rw [if_neg heq, if_neg fun h => heq
        ⟨(Option.some.inj h.2).symm, (Option.some.inj h.1).symm⟩]
  · exact Nat.le_trans (TaskView.pullOne_queued_le _ _ _) (hs.single other)
  · change 0 < (C.view.pullOne lane).queued other at hpos
    rw [TaskView.pullOne_queued] at hpos
    split_ifs at hpos with heq
    · have hone := hs.single lane
      omega
    · obtain ⟨-, -, d', hd', hother⟩ := hs.queued other hpos
      obtain rfl := Option.some.inj (hd.symm.trans hd')
      exact absurd (hother.trans hhome.symm) heq
  · exact ⟨d, hd, congrArg some hhome⟩
  · exact absurd (hpending.symm.trans hprocessing) (by simp)

/-- A claim that is given back, to its queue or to none. -/
theorem Cell.Settled.returned (hs : C.Settled) {w : WorkerId} {lane : Lane} {d : TaskData}
    (ht : C.hash.claim.token = some t) (hw : C.hash.claim.inflightQueue = some w)
    (hstatus : C.hash.status = some .pending) (hd : C.hash.data = some d)
    (hlane : lane = homeLane C.hash.assignedWorker d) (allowed : Bool) :
    (C.withView (C.view.returned w t lane allowed C.hash)).Settled := by
  unfold TaskView.returned
  split_ifs
  · exact hs.restored ht hw rfl hstatus rfl hd hlane rfl rfl
  · refine Cell.Settled.of_idle rfl (hs.inflight_release ht hw) fun other => ?_
    refine Nat.le_zero.mp ?_
    rw [← hs.unqueued_of_claimed ht other]
    exact TaskView.purge_queued_le (TaskView.release _ _ _) _ other

/-- A requeue publishes the task where its assignment asks for it. -/
theorem requeueLane_eq (hs : C.Settled) {c : Attempt} (hm : c.Matches C.hash)
    (ht : C.hash.claim.token = some c.token) {d : TaskData} (hd : c.loaded = some d)
    {seen : WorkerId × Timestamp} (hseen : c.snapshot = some seen) (restore : Bool)
    (reason : String) (now : Timestamp) :
    requeueLane c d restore = homeLane (requeueAssignment seen restore).1
      (restoredTask d (requeueAssignment seen restore).1 reason now) := by
  cases restore with
  | false => rfl
  | true =>
      obtain ⟨d', hd', hsource⟩ := hs.source _ ht
      obtain rfl := Option.some.inj (hd'.symm.trans (hm.loaded d hd))
      rw [hm.sourceQueue, Option.some.injEq] at hsource
      change c.sourceQueue = homeLane seen.1 _
      rw [hm.snapshot seen hseen]
      exact hsource

/-- The parent of a workflow is on no queue and held by nobody, whatever is written to its record. -/
theorem Cell.Settled.ended (hs : C.Settled) (hclaim : C.hash.claim = {}) (hdata : C.hash.data = none)
    {h : TaskHash} (hh : C'.view.hash = some h) (hnone : h.claim.token = none)
    (hinflight : C'.view.inflight = C.view.inflight)
    (hqueued : ∀ lane, C'.view.queued lane ≤ C.view.queued lane) : C'.Settled := by
  refine Cell.Settled.of_idle ?_ (fun w t => ?_) fun lane => ?_
  · rw [Cell.hash_of_some hh]
    exact hnone
  · rw [hinflight]
    exact hs.inflight_of_unclaimed (by rw [hclaim]) w t
  · exact Nat.le_zero.mp (hs.unqueued_of_data hdata lane ▸ hqueued lane)

/-- The only copy of a task moves to another queue. -/
theorem Cell.Settled.moved (hs : C.Settled) {w : WorkerId} (htoken : C.hash.claim.token = none)
    (hqueued : 0 < C.view.queued (.worker w)) {h : TaskHash} {d : TaskData} {resource : Resource}
    (hh : h.status = some .pending) (hnone : h.claim.token = none) (hd : h.data = some d)
    (hlane : Lane.resource resource = homeLane h.assignedWorker d) :
    (C.withView (C.view.moved w resource h)).Settled := by
  refine Cell.Settled.of_queued (.resource resource) hh hnone hd hlane
    (hs.inflight_of_unclaimed htoken) fun other => ?_
  obtain ⟨-, -, d', hd', hhome⟩ := hs.queued _ hqueued
  have hother : ∀ lane, (C.view.pullOne (.worker w)).queued lane = 0 := by
    intro lane
    rw [TaskView.pullOne_queued]
    split_ifs with heq
    · have hone := hs.single (.worker w)
      omega
    · by_contra hne
      obtain ⟨-, -, d'', hd'', hlane⟩ := hs.queued lane (Nat.pos_of_ne_zero hne)
      obtain rfl := Option.some.inj (hd'.symm.trans hd'')
      exact heq (hlane.trans hhome.symm)
  exact TaskView.enqueued_queued hother other

/-- Every transaction keeps queues, claims and inflight lists in agreement. -/
theorem CellStep.settled (hcell : CellStep s m k (s.cell m k) a C') (hcore : a.transactional = true)
    (hv : s.Valid) (hs : (s.cell m k).Settled) : C'.Settled := by
  have hcv := hv.cell m k
  have hmatch : ∀ {p c}, (s.cell m k).attempts p = some c →
      (s.cell m k).hash.claim.token = some c.token → c.Matches (s.cell m k).hash :=
    fun hc ht => hcv.matching _ _ _ hc (Cell.exists_of_token ht) ht
  have hparent : ∀ {g issue}, (s.cell m k).hash.workflow.generation = some g →
      s.issued g = some issue → issue.id = k → RecordKind.IsParent g issue (s.cell m k).hash :=
    fun hgen hissued hid =>
      (hcv.sound _ (Cell.exists_of_generation hgen)).kind.isParent_of_issued hgen hissued hid
  cases hcell with
  | idle | forgotten | loaded | checked | observed | adopted | resultExpired =>
      exact hs.of_lowered rfl rfl rfl rfl (fun _ _ => rfl) fun _ => Nat.le_refl _
  | cpuPopped | cpuPushed | cpuMarked | published | deleted => exact absurd hcore (by simp [Action.transactional])
  | superseded hc ht => exact hs.superseded ht rfl
  | finalizeSuperseded hc ht => exact hs.superseded ht rfl
  | entryDropped hstale hpre hid =>
      subst hpre hid
      refine hs.superseded (fun ht => ?_) rfl
      exact (hv.stale _ _ hstale).2 _ (Cell.exists_of_token ht) ht
  | staleCopy =>
      exact hs.of_lowered rfl rfl rfl rfl (fun _ _ => rfl)
        fun lane => TaskView.pullOne_queued_le _ _ lane
  | debris _ hlow =>
      have hle := TaskView.lowered_queued_le hlow
      obtain ⟨n, -, rfl⟩ := hlow
      exact hs.of_lowered rfl rfl rfl rfl (fun _ _ => rfl) hle
  | stamped hh =>
      rw [← Cell.hash_of_some hh]
      exact hs.of_lowered rfl rfl rfl rfl (fun _ _ => rfl) fun _ => Nat.le_refl _
  | stampedAbsent hnone => exact hs.replaced (Cell.free_of_absent hnone) rfl rfl rfl
  | submitted hpayload hid hallowed hnone =>
      have hfree := Cell.free_of_absent hnone
      exact Cell.Settled.of_queued _ rfl rfl rfl rfl (hs.inflight_of_unclaimed hfree.unclaimed)
        (TaskView.enqueued_queued (hs.unqueued_of_status hfree.status))
  | refreshed hpayload hid hallowed hold hlanes =>
      exact hs.refreshed (Cell.free_of_replaced hcv fun h hh => (hold h hh).1) _ _ _
  | claimed hfresh hlane hclaimable hqueued => exact (hs.claimed hqueued _ _ _).setAttempt _ _
  | @marked p c d now hc hstage hd ht hstatus hadmits =>
      have hm := hmatch hc ht
      exact hs.of_held ht rfl hm.inflightQueue.symm hm.sourceQueue.symm
        (by simp [Cell.hash, TaskView.setHash, TaskHash.marked]) rfl rfl (fun _ _ => rfl) fun _ => rfl
  | @frozen p c reason now hc hstage ht =>
      exact hs.of_held ht rfl rfl rfl (by simp [Cell.hash, TaskView.setHash, TaskHash.frozen]) rfl rfl
        (fun _ _ => rfl) fun _ => rfl
  | markRefused hc _ _ ht => exact hs.released ht (hmatch hc ht).inflightQueue rfl rfl rfl rfl
  | acked hc _ ht => exact hs.released ht (hmatch hc ht).inflightQueue rfl rfl rfl rfl
  | requeueRefused hc _ ht => exact hs.released ht (hmatch hc ht).inflightQueue rfl rfl rfl rfl
  | finalized hc _ ht => exact hs.released ht (hmatch hc ht).inflightQueue rfl rfl rfl rfl
  | @returned p c hc hstage ht =>
      have hm := hmatch hc ht
      obtain ⟨d, hd, hsource⟩ := hs.source _ ht
      rw [hm.sourceQueue, Option.some.injEq] at hsource
      have hpending : (s.cell m k).hash.status = some .pending := by
        have hactive := ((hcv.sound _ (Cell.exists_of_token ht)).claimed _ ht).1
        rcases (TaskHash.active_iff _).mp hactive with hpending | hprocessing
        · exact hpending
        · exact absurd (hm.dequeued hstage) (hs.fenced hprocessing _ ht)
      exact (hs.returned ht hm.inflightQueue hpending hd hsource _).setAttempt _ _
  | requeued hc hd hseen ht =>
      have hm := hmatch hc ht
      exact hs.restored ht hm.inflightQueue rfl rfl rfl rfl
        (requeueLane_eq hs hm ht hd hseen _ _ _) rfl rfl
  | @cancelled now retention h hh hchildren =>
      have hstamped : ((s.cell m k).withView ((s.cell m k).view.setHash
          (h.cancelStamped now))).Settled := by
        rw [← Cell.hash_of_some hh]
        exact hs.of_lowered rfl rfl rfl rfl (fun _ _ => rfl) fun _ => Nat.le_refl _
      exact hstamped.withdrawn now _ _
  | swept hne hmem => exact hs.withdrawn _ _ _
  | accepted hid hfresh hreply =>
      have hfree := Cell.free_of_replaced hcv fun h hh => ((acceptReply_one hreply).2 h hh).1
      exact hs.replaced hfree rfl rfl rfl
  | renewed hallowed hgen =>
      obtain ⟨issue, hissued, -, hid⟩ :=
        hv.lease m k _ (workflowAllowed_parent rfl rfl rfl hallowed).2.2
      have hself := hparent hgen hissued hid
      refine hs.ended hself.claim hself.data rfl ?_ rfl fun _ => Nat.le_refl _
      change (s.cell m k).hash.claim.token = none
      rw [hself.claim]
  | @committed g issue payload reason now retention lanes hissued hpre hid hterminal hreason hgen =>
      have hself := hparent hgen hissued hid
      refine hs.ended hself.claim hself.data (TaskView.purgeLanes_hash _ _) ?_
        (TaskView.purgeLanes_inflight _ _) fun lane =>
          TaskView.purgeLanes_queued_le (TaskView.committed _ _ _ _) lanes lane
      change (s.cell m k).hash.claim.token = none
      rw [hself.claim]
  | moved hdata hassigned hstatus htoken hadmits hqueued =>
      exact hs.moved htoken hqueued rfl rfl rfl rfl
  | taskExpired httl =>
      obtain ⟨h, hh, hterminal⟩ := hcv.retained httl
      exact hs.replaced (Cell.free_of_terminal hcv hh hterminal) rfl rfl rfl
  | discarded hgen hterminal htoken =>
      have hh := Cell.exists_of_generation hgen
      exact hs.replaced (Cell.free_of_terminal hcv hh hterminal) rfl rfl rfl

/-- A run whose steps are transactions. -/
abbrev TransactionRun : Sys → Sys → Prop :=
  Library.RunWhen step fun _ a => a.transactional = true

theorem TransactionRun.after {actions : List Action}
    (hok : ∀ a ∈ actions, a.transactional = true)
    (h : (Library.execute step actions {}).isSome) : TransactionRun {} (Sys.after actions) :=
  Library.execute_run_getD hok h

theorem TransactionRun.valid (h : TransactionRun {} s) : s.Valid := ReachableWhen.valid h

theorem TransactionRun.settled (h : TransactionRun {} s) (m : KeyPrefix) (k : TaskId) :
    (s.cell m k).Settled := by
  have hinv : s.Valid ∧ (s.cell m k).Settled := by
    refine Library.RunWhen.invariant (I := fun t => t.Valid ∧ (t.cell m k).Settled) ?_ h
      ⟨Sys.valid_empty, Cell.Settled.of_idle rfl (fun _ _ => rfl) fun _ => rfl⟩
    rintro t b t' ⟨hv, hs⟩ hcore hstep
    exact ⟨hv.step hstep, (cellStep_of_step m k hstep).settled hcore hv hs⟩
  exact hinv.2

end KernelGym
