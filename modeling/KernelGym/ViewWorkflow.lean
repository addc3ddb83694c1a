import KernelGym.ViewClaims

/-! The workflow transactions in terms of the views of the ids they touch. Cancelling and finishing
stop tasks that have not started: such a task is removed from its queues and its claim is released
with a result. Both raise admission fences, and neither lowers one. -/

namespace KernelGym

/-- The hash of a task stopped before it started. -/
def TaskHash.stopped (h : TaskHash) (now : Timestamp) : TaskHash :=
  { h with
    status := some .failed
    claim := h.claim.cleared
    stamps := { h.stamps with completedAt := now } }

def TaskHash.cancelStamped (h : TaskHash) (now : Timestamp) : TaskHash :=
  { h with stamps := { h.stamps with cancelledAt := now } }

/-- The hash of a workflow parent after a renewal. -/
def TaskHash.renewed (h : TaskHash) (now : Timestamp) : TaskHash :=
  { h with
    status := some .processing
    stamps :=
      { h.stamps with
        heartbeatAt := now
        startedAt := if h.stamps.startedAt = "" then now else h.stamps.startedAt } }

/-- The hash of a workflow parent after its terminal commit. -/
def TaskHash.committed (h : TaskHash) (payload : ResultPayload) (now : Timestamp) : TaskHash :=
  { h with
    status := payload.status
    stamps :=
      { h.stamps with
        completedAt := now
        errorMessage := payload.errorMessage.getD "" } }

/-- The result hash of a workflow parent after its terminal commit. -/
def ResultHash.committed (r : ResultHash) (payload : ResultPayload) (requestHash : Option String)
    (now : Timestamp) : ResultHash :=
  { r with
    result := some payload
    completedAt := now
    requestHash := requestHash }

namespace TaskView

variable (v : TaskView)

/-- Without the inflight entry that a task hash names. -/
def releaseHeld (h : TaskHash) : TaskView :=
  match h.claim.token, h.claim.inflightQueue with
  | some token, some worker => v.release worker token
  | _, _ => v

def stopped (h : TaskHash) (now : Timestamp) (result : ResultMapping) (retention : Retention) :
    TaskView :=
  (((v.releaseHeld h).setHash (h.stopped now)).setResult
    (result.apply (v.result.getD {}))).retain retention.taskTtl

/-- A task removed from its queues, and stopped when it has not started. -/
def withdrawn (h : TaskHash) (now : Timestamp) (result : ResultMapping) (retention : Retention) :
    TaskView :=
  if h.stoppable then (v.purgeLanes (stopLanes h)).stopped h now result retention
  else v.purgeLanes (stopLanes h)

/-- The effect of `finishChild` on its child. -/
def swept (id : TaskId) (now : Timestamp) (retention : Retention) : TaskView :=
  v.withdrawn (v.hash.getD {}) now (parentEndedResult id now) retention

/-- The view of a workflow parent after its terminal commit. -/
def committed (h : TaskHash) (payload : ResultPayload) (now : Timestamp) : TaskView :=
  (v.setHash (h.committed payload now)).setResult
    ((v.result.getD {}).committed payload h.parent.requestHash now)

@[simp] theorem purgeLanes_hash (lanes : List Lane) : (v.purgeLanes lanes).hash = v.hash := by
  rw [purgeLanes_eq]

@[simp] theorem purgeLanes_result (lanes : List Lane) : (v.purgeLanes lanes).result = v.result := by
  rw [purgeLanes_eq]

@[simp] theorem purgeLanes_ttl (lanes : List Lane) : (v.purgeLanes lanes).ttl = v.ttl := by
  rw [purgeLanes_eq]

@[simp] theorem purgeLanes_inflight (lanes : List Lane) :
    (v.purgeLanes lanes).inflight = v.inflight := by
  rw [purgeLanes_eq]

@[simp] theorem stopped_hash (h : TaskHash) (now : Timestamp) (result : ResultMapping)
    (retention : Retention) : (v.stopped h now result retention).hash = some (h.stopped now) := rfl

@[simp] theorem releaseHeld_queued (h : TaskHash) : (v.releaseHeld h).queued = v.queued := by
  unfold releaseHeld
  split <;> rfl

@[simp] theorem stopped_queued (h : TaskHash) (now : Timestamp) (result : ResultMapping)
    (retention : Retention) : (v.stopped h now result retention).queued = v.queued :=
  releaseHeld_queued v h

theorem purgeLanes_of_empty {v : TaskView} {lanes : List Lane}
    (h : ∀ lane ∈ lanes, v.queued lane = 0) : v.purgeLanes lanes = v := by
  rw [purgeLanes_eq]
  ext lane
  · rfl
  · rfl
  · rfl
  · rw [purgeLanes_queued]
    split_ifs with hmem
    · exact (h lane hmem).symm
    · rfl
  · rfl

theorem withdrawn_queued (h : TaskHash) (now : Timestamp) (result : ResultMapping)
    (retention : Retention) (lane : Lane) :
    (v.withdrawn h now result retention).queued lane =
      if lane ∈ stopLanes h then 0 else v.queued lane := by
  unfold withdrawn
  split_ifs with hstop hmem hmem
  all_goals simp [purgeLanes_queued, hmem]

theorem withdrawn_hash_of_not {h : TaskHash} (hstop : ¬h.stoppable = true) (now : Timestamp)
    (result : ResultMapping) (retention : Retention) :
    (v.withdrawn h now result retention).hash = v.hash := by
  rw [withdrawn, if_neg hstop, purgeLanes_hash]

/-- A second visit of the same child changes nothing more. -/
theorem swept_swept (id : TaskId) (now : Timestamp) (retention : Retention) :
    (v.swept id now retention).swept id now retention = v.swept id now retention := by
  have hlanes : stopLanes ((v.swept id now retention).hash.getD {}) =
      stopLanes (v.hash.getD {}) := by
    unfold swept withdrawn
    split_ifs
    · rfl
    · rw [purgeLanes_hash]
  have hstop : ((v.swept id now retention).hash.getD {}).stoppable = false := by
    unfold swept withdrawn
    split_ifs with h
    · rfl
    · rw [purgeLanes_hash]
      simpa using h
  have hempty : ∀ lane ∈ stopLanes (v.hash.getD {}), (v.swept id now retention).queued lane = 0 := by
    intro lane hmem
    rw [swept, withdrawn_queued, if_pos hmem]
  change (v.swept id now retention).withdrawn ((v.swept id now retention).hash.getD {}) now
    (parentEndedResult id now) retention = _
  rw [withdrawn, hlanes, hstop]
  exact purgeLanes_of_empty hempty

end TaskView

/-- Between two moments the fences only rose: no marker went away and no lease changed. -/
structure Fences.Raised (f f' : Fences) : Prop where
  leases : f'.leases = f.leases
  now : f'.now = f.now
  tombstones : ∀ id, f.tombstones id = true → f'.tombstones id = true
  cancelMarks : ∀ id, f.cancelMarks id = true → f'.cancelMarks id = true

theorem Fences.Raised.refl (f : Fences) : f.Raised f := ⟨rfl, rfl, fun _ h => h, fun _ h => h⟩

theorem Fences.Raised.trans {f f' f'' : Fences} (h : f.Raised f') (h' : f'.Raised f'') :
    f.Raised f'' where
  leases := h'.leases.trans h.leases
  now := h'.now.trans h.now
  tombstones id hid := h'.tombstones id (h.tombstones id hid)
  cancelMarks id hid := h'.cancelMarks id (h.cancelMarks id hid)

namespace Store

variable {s : Store} {id k : TaskId}

theorem setTombstone_raised (s : Store) (id : TaskId) : s.fences.Raised (s.setTombstone id).fences := by
  refine ⟨rfl, rfl, fun k hk => ?_, fun _ h => h⟩
  simp only [fences, setTombstone, Function.update_apply]
  split_ifs
  · rfl
  · exact hk

theorem setCancel_raised (s : Store) (id : TaskId) : s.fences.Raised (s.setCancel id).fences := by
  refine ⟨rfl, rfl, fun _ h => h, fun k hk => ?_⟩
  simp only [fences, setCancel, Function.update_apply]
  split_ifs
  · rfl
  · exact hk

theorem fenceId_raised (s : Store) (id : TaskId) : s.fences.Raised (s.fenceId id).fences :=
  (((((s.setTombstone_raised id).trans (setCancel_raised _ id)).trans
    (setTombstone_raised _ _)).trans (setTombstone_raised _ _)).trans
      (setTombstone_raised _ _))

theorem fenceId_fences_self (s : Store) (id : TaskId) :
    (s.fenceId id).tombstones id = true ∧ (s.fenceId id).cancelMarks id = true := by
  have hset : (s.setTombstone id).fences.Raised (s.fenceId id).fences :=
    (((setCancel_raised _ id).trans (setTombstone_raised _ _)).trans
      (setTombstone_raised _ _)).trans (setTombstone_raised _ _)
  have hmark : ((s.setTombstone id).setCancel id).fences.Raised (s.fenceId id).fences :=
    ((setTombstone_raised _ _).trans (setTombstone_raised _ _)).trans
      (setTombstone_raised _ _)
  refine ⟨hset.tombstones id ?_, hmark.cancelMarks id ?_⟩
  · simp [fences, setTombstone]
  · simp [fences, setCancel]

theorem fenceChildren_raised (s : Store) (id : TaskId) (children : List (Stage × TaskId)) :
    s.fences.Raised (s.fenceChildren id children).fences := by
  induction children generalizing s with
  | nil => exact Fences.Raised.refl _
  | cons child rest ih =>
      rw [fenceChildren, List.foldl_cons]
      exact (((s.setTombstone_raised _).trans (setCancel_raised _ _)).trans
        (setTombstone_raised _ _)).trans (ih _)

@[simp] theorem view_fenceId : (s.fenceId id).view k = s.view k := rfl

@[simp] theorem view_fenceChildren (children : List (Stage × TaskId)) :
    (s.fenceChildren id children).view k = s.view k := by
  induction children generalizing s with
  | nil => rfl
  | cons child rest ih =>
      rw [fenceChildren, List.foldl_cons]
      exact ih

@[simp] theorem view_releaseEntry_self (h : TaskHash) :
    (s.releaseEntry id h).view id = (s.view id).releaseHeld h := by
  unfold releaseEntry TaskView.releaseHeld
  cases h.claim.token <;> cases h.claim.inflightQueue <;> simp

@[simp] theorem view_releaseEntry_of_ne (h : TaskHash) (hk : k ≠ id) :
    (s.releaseEntry id h).view k = s.view k := by
  unfold releaseEntry
  split <;> simp [hk]

@[simp] theorem fences_releaseEntry (h : TaskHash) : (s.releaseEntry id h).fences = s.fences := by
  unfold releaseEntry
  split <;> rfl

@[simp] theorem hgetall_releaseEntry (h : TaskHash) :
    (s.releaseEntry id h).hgetall k = s.hgetall k := by
  unfold releaseEntry
  split <;> rfl

end Store

variable {s : Store} {id k : TaskId} {g : Generation} {now : Timestamp} {retention : Retention}

/-! ### Stopping a task -/

theorem failPending_fences {result : ResultMapping} :
    (failPending id now result retention s).fences = s.fences := by
  simp [failPending]

theorem failPending_view_of_ne {result : ResultMapping} (h : k ≠ id) :
    (failPending id now result retention s).view k = s.view k := by
  simp [failPending, h]

theorem failPending_view_self {result : ResultMapping} :
    (failPending id now result retention s).view id =
      (s.view id).stopped (s.hgetall id) now result retention := by
  rw [failPending, Store.view_expireResult, Store.view_expireTask_self, Store.view_hsetResult_self,
    Store.view_hset_self, Store.view_releaseEntry_self, Store.hgetall_releaseEntry]
  unfold TaskView.stopped TaskView.releaseHeld
  cases (s.hgetall id).claim.token <;> cases (s.hgetall id).claim.inflightQueue <;> rfl

theorem hgetall_lremLanes (lanes : List Lane) : (s.lremLanes lanes id).hgetall k = s.hgetall k := by
  by_cases hk : k = id
  · subst hk
    rw [Store.hgetall_eq, Store.view_lremLanes_self, TaskView.purgeLanes_hash, Store.hgetall_eq]
  · rw [Store.hgetall_eq, Store.view_lremLanes_of_ne lanes hk, Store.hgetall_eq]

/-! ### Cancellation -/

theorem cancelTask_raised : s.fences.Raised (cancelTask id now retention s).1.fences := by
  unfold cancelTask
  dsimp only
  split
  · exact s.fenceId_raised id
  · rename_i h _
    have hmarked : ((s.fenceId id).hset id fun h =>
        { h with stamps := { h.stamps with cancelledAt := now } }).fences = (s.fenceId id).fences :=
      rfl
    split
    · exact (s.fenceId_raised id).trans (hmarked ▸ Store.fenceChildren_raised _ _ _)
    · split_ifs
      · rw [failPending_fences, Store.fences_lremLanes, Store.fences_hset]
        exact s.fenceId_raised id
      · rw [Store.fences_lremLanes, Store.fences_hset]
        exact s.fenceId_raised id

theorem cancelTask_fences_self :
    (cancelTask id now retention s).1.fences.tombstones id = true ∧
      (cancelTask id now retention s).1.fences.cancelMarks id = true := by
  have hself := s.fenceId_fences_self id
  unfold cancelTask
  dsimp only
  split
  · exact hself
  · split
    · exact ⟨(Store.fenceChildren_raised _ _ _).tombstones id hself.1,
        (Store.fenceChildren_raised _ _ _).cancelMarks id hself.2⟩
    · split_ifs
      · rw [failPending_fences, Store.fences_lremLanes, Store.fences_hset]
        exact hself
      · rw [Store.fences_lremLanes, Store.fences_hset]
        exact hself

theorem cancelTask_view_of_ne (h : k ≠ id) :
    (cancelTask id now retention s).1.view k = s.view k := by
  unfold cancelTask
  dsimp only
  split
  · simp
  · split
    · simp [h]
    · split_ifs
      · rw [failPending_view_of_ne h]
        simp [h]
      · simp [h]

theorem cancelTask_cases (id : TaskId) (now : Timestamp) (retention : Retention) (s : Store) :
    (s.tasks id = none ∧ (cancelTask id now retention s).1.view id = s.view id) ∨
    (∃ h, s.tasks id = some h ∧ h.parent.children.isSome ∧
      (cancelTask id now retention s).1.view id = (s.view id).setHash (h.cancelStamped now)) ∨
    (∃ h, s.tasks id = some h ∧ h.parent.children = none ∧
      (cancelTask id now retention s).1.view id =
        ((s.view id).setHash (h.cancelStamped now)).withdrawn (h.cancelStamped now) now
          (cancelledResult id now) retention) := by
  unfold cancelTask
  dsimp only
  split
  · rename_i hnone
    exact Or.inl ⟨hnone, by simp⟩
  · rename_i h hsome
    have hmarked : ((s.fenceId id).hset id fun h =>
        { h with stamps := { h.stamps with cancelledAt := now } }).view id =
          (s.view id).setHash (h.cancelStamped now) := by
      have hget : (s.fenceId id).hgetall id = h := Store.hgetall_of_some hsome
      rw [Store.view_hset_self, Store.view_fenceId, hget]
      rfl
    split
    · rename_i children hchildren
      refine Or.inr (Or.inl ⟨h, hsome, by simp [hchildren], ?_⟩)
      rw [Store.view_fenceChildren, hmarked]
    · rename_i hchildren
      refine Or.inr (Or.inr ⟨h, hsome, hchildren, ?_⟩)
      have hlanes : stopLanes (h.cancelStamped now) = stopLanes h := rfl
      have hstoppable : (h.cancelStamped now).stoppable = h.stoppable := rfl
      rw [TaskView.withdrawn, hlanes, hstoppable]
      split_ifs with hstop
      · rw [failPending_view_self, Store.view_lremLanes_self, hmarked, hgetall_lremLanes,
          Store.hgetall_eq, hmarked]
        rfl
      · rw [Store.view_lremLanes_self, hmarked]

/-! ### Finish -/

theorem finishChild_fences : (finishChild now retention s id).fences = s.fences := by
  unfold finishChild
  dsimp only
  split_ifs
  · rw [failPending_fences, Store.fences_lremLanes]
  · rw [Store.fences_lremLanes]

theorem finishChild_view_of_ne (h : k ≠ id) : (finishChild now retention s id).view k = s.view k := by
  unfold finishChild
  dsimp only
  split_ifs
  · rw [failPending_view_of_ne h, Store.view_lremLanes_of_ne _ h]
  · rw [Store.view_lremLanes_of_ne _ h]

theorem finishChild_view_self :
    (finishChild now retention s id).view id = (s.view id).swept id now retention := by
  unfold finishChild TaskView.swept TaskView.withdrawn
  dsimp only
  rw [← Store.hgetall_eq]
  split_ifs
  · rw [failPending_view_self, Store.view_lremLanes_self, hgetall_lremLanes]
  · rw [Store.view_lremLanes_self]

theorem finishChildren_fences (children : List TaskId) :
    (children.foldl (finishChild now retention) s).fences = s.fences := by
  induction children generalizing s with
  | nil => rfl
  | cons child rest ih => rw [List.foldl_cons, ih, finishChild_fences]

theorem finishChildren_view (children : List TaskId) :
    (children.foldl (finishChild now retention) s).view k =
      if k ∈ children then (s.view k).swept k now retention else s.view k := by
  induction children generalizing s with
  | nil => simp
  | cons child rest ih =>
      rw [List.foldl_cons, ih]
      by_cases hk : k = child
      · subst hk
        rw [finishChild_view_self, TaskView.swept_swept]
        simp
      · rw [finishChild_view_of_ne hk]
        simp [hk]

theorem finishPayload_terminal (id : TaskId) (g : Generation) {payload : ResultPayload}
    (reason : String) (s : Store) (h : payload.status.any TaskStatus.terminal = true) :
    (finishPayload id g payload reason s).2.status.any TaskStatus.terminal = true := by
  unfold finishPayload
  dsimp only
  split_ifs <;> first | exact h | rfl

section Finish

variable {payload : ResultPayload} {reason : String}

theorem commitParent_view_of_ne (h : k ≠ id) : (commitParent id payload now s).view k = s.view k := by
  simp [commitParent, h]

theorem commitParent_view_self :
    (commitParent id payload now s).view id =
      (s.view id).committed (s.hgetall id) payload now := by
  rw [commitParent, Store.view_deactivate, Store.view_setCancel, Store.view_delLease,
    Store.view_hsetResult_self, Store.view_hset_self]
  rfl

/-- A finish is refused, or it commits the parent and sweeps the children of the generation. -/
theorem finishWorkflow_cases (id : TaskId) (g : Generation) (payload : ResultPayload)
    (reason : String) (now : Timestamp) (retention : Retention) (s : Store) :
    ((finishWorkflow id g payload reason now retention s).1 = s ∧
      (finishWorkflow id g payload reason now retention s).2 ≠ 1) ∨
    ((s.hgetall id).workflow.generation = some g ∧ (s.hgetall id).active = true ∧
      (finishWorkflow id g payload reason now retention s).1.fences =
        { s.fences with
          leases := Function.update s.leases id none
          cancelMarks := Function.update s.cancelMarks id true } ∧
      (∀ k, k ≠ id → (finishWorkflow id g payload reason now retention s).1.view k =
        if k ∈ s.children id g then (s.view k).swept k now retention else s.view k) ∧
      (finishWorkflow id g payload reason now retention s).1.view id =
        (if id ∈ s.children id g then
          ((s.view id).committed (s.hgetall id) (finishPayload id g payload reason s).2 now).swept
            id now retention
        else (s.view id).committed (s.hgetall id) (finishPayload id g payload reason s).2
          now).retain retention.taskTtl) := by
  unfold finishWorkflow
  dsimp only
  by_cases hgen : (s.hgetall id).workflow.generation ≠ some g
  · rw [if_pos hgen]
    exact Or.inl ⟨rfl, show (0 : Int) ≠ 1 by decide⟩
  by_cases hactive : (!(s.hgetall id).active) = true
  · rw [if_neg hgen, if_pos hactive]
    exact Or.inl ⟨rfl, show (0 : Int) ≠ 1 by decide⟩
  · rw [if_neg hgen, if_neg hactive]
    refine Or.inr ⟨not_not.mp hgen, by simpa using hactive, ?_, ?_, ?_⟩
    · rw [Store.fences_expireResult, Store.fences_expireChildren, Store.fences_expireCancel,
        Store.fences_expireTask, finishChildren_fences]
      rfl
    · intro k hk
      rw [Store.view_expireResult, Store.view_expireChildren, Store.view_expireCancel,
        Store.view_expireTask_of_ne _ hk, finishChildren_view, commitParent_view_of_ne hk]
      rfl
    · rw [Store.view_expireResult, Store.view_expireChildren, Store.view_expireCancel,
        Store.view_expireTask_self, finishChildren_view, commitParent_view_self]
      rfl

end Finish

/-! ### Acceptance, renewal and discard -/

section Accept

variable {requestHash name : String} {timeout : Nat} {force : Bool}

/-- A reply of one is given for an absent task and for a terminal one without a claim. -/
theorem acceptReply_one (h : acceptReply id requestHash force s = 1) :
    s.tombstones id = false ∧
      (∀ task, s.tasks id = some task →
        task.terminal = true ∧ task.claim.token = none ∧ force = true) := by
  unfold acceptReply at h
  by_cases htomb : s.tombstones id = true
  · simp [htomb] at h
  · refine ⟨by simpa using htomb, ?_⟩
    intro task htask
    rw [if_neg htomb, htask] at h
    dsimp only at h
    split_ifs at h with hactive hgen hhash hterminal htoken hforce
    · exact absurd h (by decide)
    · exact ⟨by simpa using hterminal, by simpa using htoken, hforce⟩
    · exact absurd h (by decide)

theorem acceptWorkflow_view_of_ne (h : k ≠ id) :
    (acceptWorkflow id g requestHash name timeout force now s).1.view k = s.view k := by
  unfold acceptWorkflow
  split_ifs
  · simp [h]
  · rfl

theorem acceptWorkflow_cases (id : TaskId) (g : Generation) (requestHash name : String)
    (timeout : Nat) (force : Bool) (now : Timestamp) (s : Store) :
    (acceptReply id requestHash force s ≠ 1 ∧
      acceptWorkflow id g requestHash name timeout force now s =
        (s, acceptReply id requestHash force s)) ∨
    (acceptReply id requestHash force s = 1 ∧
      (acceptWorkflow id g requestHash name timeout force now s).2 = 1 ∧
      (acceptWorkflow id g requestHash name timeout force now s).1.fences =
        { s.fences with
          leases := Function.update s.leases id (some g)
          cancelMarks := Function.update s.cancelMarks id false } ∧
      (acceptWorkflow id g requestHash name timeout force now s).1.view id =
        { s.view id with
          hash := some (parentRecord id g requestHash name (s.now + timeout) now)
          result := none
          ttl := false }) := by
  unfold acceptWorkflow
  split_ifs with hreply
  · refine Or.inr ⟨hreply, rfl, ?_, ?_⟩
    · simp [Store.fences, Store.setLease, Store.activate, Store.hset, Store.delCancel,
        Store.delLease, Store.delResult, Store.delTask]
    · rw [Store.view_activate, Store.view_setLease, Store.view_hset_self, Store.view_delCancel,
        Store.view_delLease, Store.view_delResult_self, Store.view_delTask_self]
      rfl
  · exact Or.inl ⟨hreply, rfl⟩

end Accept

theorem renewWorkflow_fences : (renewWorkflow id g now s).1.fences = s.fences := by
  unfold renewWorkflow
  dsimp only
  split_ifs <;> simp

theorem renewWorkflow_view_of_ne (h : k ≠ id) : (renewWorkflow id g now s).1.view k = s.view k := by
  unfold renewWorkflow
  dsimp only
  split_ifs <;> simp [h]

theorem renewWorkflow_cases (id : TaskId) (g : Generation) (now : Timestamp) (s : Store) :
    (renewWorkflow id g now s).1 = s ∨
    (s.workflowAllowed []
        { generation := some g
          parentKey := some id
          leaseKey := some id
          deadline := (s.hgetall id).workflow.deadline } = true ∧
      (s.hgetall id).workflow.generation = some g ∧
      (renewWorkflow id g now s).1.view id =
        (s.view id).setHash ((s.hgetall id).renewed now)) := by
  unfold renewWorkflow
  dsimp only
  split_ifs with hallowed hgen
  · exact Or.inl rfl
  · exact Or.inl rfl
  · refine Or.inr ⟨by simpa using hallowed, not_not.mp hgen, ?_⟩
    rw [Store.view_hset_self]
    rfl

theorem discardWorkflowRecords_view_of_ne {children : Bool} (h : k ≠ id) :
    (discardWorkflowRecords id g children s).1.view k = s.view k := by
  unfold discardWorkflowRecords
  dsimp only
  split_ifs <;> simp [h]

theorem discardWorkflowRecords_cases (id : TaskId) (g : Generation) (children : Bool) (s : Store) :
    (discardWorkflowRecords id g children s).1 = s ∨
    ((s.hgetall id).workflow.generation = some g ∧ (s.hgetall id).terminal = true ∧
      (s.hgetall id).claim.token = none ∧
      (discardWorkflowRecords id g children s).1.fences =
        { s.fences with
          leases := Function.update s.leases id none
          cancelMarks := Function.update s.cancelMarks id false } ∧
      (discardWorkflowRecords id g children s).1.view id =
        { s.view id with hash := none, result := none, ttl := false }) := by
  unfold discardWorkflowRecords
  dsimp only
  split_ifs with hgen hterminal htoken hchildren
  · exact Or.inl rfl
  · exact Or.inl rfl
  · exact Or.inl rfl
  all_goals
    refine Or.inr ⟨not_not.mp hgen, by simpa using hterminal, by simpa using htoken, ?_, ?_⟩
    · rfl
    · simp

end KernelGym
