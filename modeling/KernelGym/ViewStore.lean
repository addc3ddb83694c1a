import KernelGym.System

/-! What a store holds about one task id, and how the Redis commands change it. A script is a
composition of commands, so its effect on the view of its own id follows by rewriting, and the views
of other ids are unchanged. -/

namespace KernelGym

/-- Everything the store holds about one task id: its hashes, how often each queue lists it, and how
often each inflight list holds each of its entries. -/
@[ext]
structure TaskView where
  hash : Option TaskHash
  result : Option ResultHash
  ttl : Bool
  queued : Lane → Nat
  inflight : WorkerId → Token → Nat

/-- The parts of the store that only admission decisions read. -/
@[ext]
structure Fences where
  leases : TaskId → Option Generation
  cancelMarks : TaskId → Bool
  tombstones : TaskId → Bool
  now : Nat

namespace TaskView

variable (v : TaskView)

def setHash (h : TaskHash) : TaskView := { v with hash := some h }

def setResult (r : ResultHash) : TaskView := { v with result := some r }

def retain (ttl : Nat) : TaskView := { v with ttl := v.ttl || decide (0 < ttl) }

def push (lane : Lane) : TaskView :=
  { v with queued := Function.update v.queued lane (v.queued lane + 1) }

def purge (lane : Lane) : TaskView := { v with queued := Function.update v.queued lane 0 }

def pullOne (lane : Lane) : TaskView :=
  { v with queued := Function.update v.queued lane (v.queued lane - 1) }

def hold (w : WorkerId) (t : Token) : TaskView :=
  { v with
    inflight := Function.update v.inflight w
      (Function.update (v.inflight w) t (v.inflight w t + 1)) }

def release (w : WorkerId) (t : Token) : TaskView :=
  { v with
    inflight := Function.update v.inflight w
      (Function.update (v.inflight w) t (v.inflight w t - 1)) }

/-- Purge several queues. -/
def purgeLanes (lanes : List Lane) : TaskView := lanes.foldl purge v

end TaskView

namespace Store

/-- The store's view of one id. -/
def view (s : Store) (id : TaskId) : TaskView where
  hash := s.tasks id
  result := s.results id
  ttl := s.taskTtl id
  queued := fun lane => (s.queues lane).count id
  inflight := fun w t => (s.inflight w).count (t, id)

/-- The store's admission fences. -/
def fences (s : Store) : Fences := ⟨s.leases, s.cancelMarks, s.tombstones, s.now⟩

variable {s : Store} {id k : TaskId} {lane : Lane} {w : WorkerId} {t : Token}

theorem hgetall_eq (s : Store) (id : TaskId) : s.hgetall id = (s.view id).hash.getD {} := rfl

/-! ### Task and result hashes -/

@[simp] theorem view_hset_self (f : TaskHash → TaskHash) :
    (s.hset id f).view id = (s.view id).setHash (f (s.hgetall id)) := by
  simp [view, hset, TaskView.setHash]

@[simp] theorem view_hset_of_ne (f : TaskHash → TaskHash) (h : k ≠ id) :
    (s.hset id f).view k = s.view k := by
  simp [view, hset, h]

@[simp] theorem view_delTask_self :
    (s.delTask id).view id = { s.view id with hash := none, ttl := false } := by
  simp [view, delTask]

@[simp] theorem view_delTask_of_ne (h : k ≠ id) : (s.delTask id).view k = s.view k := by
  simp [view, delTask, h]

@[simp] theorem view_hsetResult_self (f : ResultHash → ResultHash) :
    (s.hsetResult id f).view id = (s.view id).setResult (f ((s.view id).result.getD {})) := by
  simp [view, hsetResult, TaskView.setResult]

@[simp] theorem view_hsetResult_of_ne (f : ResultHash → ResultHash) (h : k ≠ id) :
    (s.hsetResult id f).view k = s.view k := by
  simp [view, hsetResult, h]

@[simp] theorem view_delResult_self :
    (s.delResult id).view id = { s.view id with result := none } := by
  simp [view, delResult]

@[simp] theorem view_delResult_of_ne (h : k ≠ id) : (s.delResult id).view k = s.view k := by
  simp [view, delResult, h]

@[simp] theorem view_expireTask_self (ttl : Nat) :
    (s.expireTask ttl id).view id = (s.view id).retain ttl := by
  unfold expireTask
  split_ifs with hpos <;> simp [view, TaskView.retain, hpos]

@[simp] theorem view_expireTask_of_ne (ttl : Nat) (h : k ≠ id) :
    (s.expireTask ttl id).view k = s.view k := by
  unfold expireTask
  split_ifs <;> simp [view, h]

@[simp] theorem view_expireResult (ttl : Nat) : (s.expireResult ttl id).view k = s.view k := by
  unfold expireResult
  split_ifs <;> rfl

/-! ### Queues -/

@[simp] theorem view_lpush_self : (s.lpush lane id).view id = (s.view id).push lane := by
  simp only [view, lpush, TaskView.push, TaskView.mk.injEq, true_and, and_true]
  funext other
  by_cases hlane : other = lane
  · subst hlane
    simp
  · simp [hlane]

@[simp] theorem view_lpush_of_ne (h : k ≠ id) : (s.lpush lane id).view k = s.view k := by
  simp only [view, lpush, TaskView.mk.injEq, true_and, and_true]
  funext other
  by_cases hlane : other = lane
  · subst hlane
    simp [List.count_cons_of_ne (Ne.symm h)]
  · simp [hlane]

@[simp] theorem view_lremAll_self : (s.lremAll lane id).view id = (s.view id).purge lane := by
  simp only [view, lremAll, TaskView.purge, TaskView.mk.injEq, true_and, and_true]
  funext other
  by_cases hlane : other = lane
  · subst hlane
    simp only [Function.update_self, List.count_eq_zero, List.mem_filter]
    simp
  · simp [hlane]

@[simp] theorem view_lremAll_of_ne (h : k ≠ id) : (s.lremAll lane id).view k = s.view k := by
  simp only [view, lremAll, TaskView.mk.injEq, true_and, and_true]
  funext other
  by_cases hlane : other = lane
  · subst hlane
    simp only [Function.update_self]
    exact List.count_filter (by simpa using h)
  · simp [hlane]

@[simp] theorem view_lremOne_self : (s.lremOne lane id).view id = (s.view id).pullOne lane := by
  simp only [view, lremOne, TaskView.pullOne, TaskView.mk.injEq, true_and, and_true]
  funext other
  by_cases hlane : other = lane
  · subst hlane
    simp
  · simp [hlane]

@[simp] theorem view_lremOne_of_ne (h : k ≠ id) : (s.lremOne lane id).view k = s.view k := by
  simp only [view, lremOne, TaskView.mk.injEq, true_and, and_true]
  funext other
  by_cases hlane : other = lane
  · subst hlane
    simp only [Function.update_self]
    exact List.count_erase_of_ne h
  · simp [hlane]

theorem mem_queue_iff : id ∈ s.queues lane ↔ 0 < (s.view id).queued lane := by
  simp [view, List.count_pos_iff]

/-! ### Inflight lists -/

@[simp] theorem view_pushInflight_self :
    (s.pushInflight w (t, id)).view id = (s.view id).hold w t := by
  simp only [view, pushInflight, TaskView.hold, TaskView.mk.injEq, true_and]
  funext worker token
  by_cases hw : worker = w
  · subst hw
    by_cases ht : token = t
    · subst ht
      simp
    · simp [ht, Ne.symm ht]
  · simp [hw]

@[simp] theorem view_pushInflight_of_ne (h : k ≠ id) :
    (s.pushInflight w (t, id)).view k = s.view k := by
  simp only [view, pushInflight, TaskView.mk.injEq, true_and]
  funext worker token
  by_cases hw : worker = w
  · subst hw
    simp [Ne.symm h]
  · simp [hw]

@[simp] theorem view_lremInflight_self :
    (s.lremInflight w (t, id)).view id = (s.view id).release w t := by
  simp only [view, lremInflight, TaskView.release, TaskView.mk.injEq, true_and]
  funext worker token
  by_cases hw : worker = w
  · subst hw
    by_cases ht : token = t
    · subst ht
      simp
    · have hne : (token, id) ≠ (t, id) := by simp [ht]
      simp [ht, List.count_erase_of_ne hne]
  · simp [hw]

@[simp] theorem view_lremInflight_of_ne (h : k ≠ id) :
    (s.lremInflight w (t, id)).view k = s.view k := by
  simp only [view, lremInflight, TaskView.mk.injEq, true_and]
  funext worker token
  by_cases hw : worker = w
  · subst hw
    have hne : (token, k) ≠ (t, id) := by simp [h]
    simp [List.count_erase_of_ne hne]
  · simp [hw]

/-! ### Commands on markers, leases and indexes -/

@[simp] theorem view_setTombstone : (s.setTombstone id).view k = s.view k := rfl
@[simp] theorem view_setCancel : (s.setCancel id).view k = s.view k := rfl
@[simp] theorem view_delCancel : (s.delCancel id).view k = s.view k := rfl
@[simp] theorem view_setLease (g : Generation) : (s.setLease id g).view k = s.view k := rfl
@[simp] theorem view_delLease : (s.delLease id).view k = s.view k := rfl
@[simp] theorem view_addChild (key : TaskId × Generation) : (s.addChild key id).view k = s.view k := rfl
@[simp] theorem view_delChildren (g : Generation) : (s.delChildren id g).view k = s.view k := rfl
@[simp] theorem view_activate : (s.activate id).view k = s.view k := rfl
@[simp] theorem view_deactivate : (s.deactivate id).view k = s.view k := rfl

@[simp] theorem view_expireCancel (ttl : Nat) : (s.expireCancel ttl id).view k = s.view k := by
  unfold expireCancel
  split_ifs <;> rfl

@[simp] theorem view_expireChildren (ttl : Nat) (g : Generation) :
    (s.expireChildren ttl id g).view k = s.view k := by
  unfold expireChildren
  split_ifs <;> rfl

@[simp] theorem view_registerChild (f : WorkflowFields) :
    (s.registerChild f id).view k = s.view k := by
  unfold registerChild
  split <;> rfl

/-! ### Commands that leave the fences alone -/

@[simp] theorem fences_hset (f : TaskHash → TaskHash) : (s.hset id f).fences = s.fences := rfl
@[simp] theorem fences_delTask : (s.delTask id).fences = s.fences := rfl
@[simp] theorem fences_hsetResult (f : ResultHash → ResultHash) :
    (s.hsetResult id f).fences = s.fences := rfl
@[simp] theorem fences_delResult : (s.delResult id).fences = s.fences := rfl
@[simp] theorem fences_lpush : (s.lpush lane id).fences = s.fences := rfl
@[simp] theorem fences_lremAll : (s.lremAll lane id).fences = s.fences := rfl
@[simp] theorem fences_lremOne : (s.lremOne lane id).fences = s.fences := rfl
@[simp] theorem fences_rpop : (s.rpop lane).fences = s.fences := rfl
@[simp] theorem fences_pushInflight (e : Entry) : (s.pushInflight w e).fences = s.fences := rfl
@[simp] theorem fences_lremInflight (e : Entry) : (s.lremInflight w e).fences = s.fences := rfl
@[simp] theorem fences_addChild (key : TaskId × Generation) : (s.addChild key id).fences = s.fences := rfl
@[simp] theorem fences_delChildren (g : Generation) : (s.delChildren id g).fences = s.fences := rfl
@[simp] theorem fences_activate : (s.activate id).fences = s.fences := rfl
@[simp] theorem fences_deactivate : (s.deactivate id).fences = s.fences := rfl

@[simp] theorem fences_expireTask (ttl : Nat) : (s.expireTask ttl id).fences = s.fences := by
  unfold expireTask
  split_ifs <;> rfl

@[simp] theorem fences_expireResult (ttl : Nat) : (s.expireResult ttl id).fences = s.fences := by
  unfold expireResult
  split_ifs <;> rfl

@[simp] theorem fences_expireCancel (ttl : Nat) : (s.expireCancel ttl id).fences = s.fences := by
  unfold expireCancel
  split_ifs <;> rfl

@[simp] theorem fences_expireChildren (ttl : Nat) (g : Generation) :
    (s.expireChildren ttl id g).fences = s.fences := by
  unfold expireChildren
  split_ifs <;> rfl

@[simp] theorem fences_registerChild (f : WorkflowFields) :
    (s.registerChild f id).fences = s.fences := by
  unfold registerChild
  split <;> rfl

@[simp] theorem fences_lremLanes (lanes : List Lane) :
    (s.lremLanes lanes id).fences = s.fences := by
  induction lanes generalizing s with
  | nil => rfl
  | cons lane rest ih =>
      rw [lremLanes, List.foldl_cons]
      exact (ih (s := s.lremAll lane id)).trans fences_lremAll

@[simp] theorem view_lremLanes_self (lanes : List Lane) :
    (s.lremLanes lanes id).view id = (s.view id).purgeLanes lanes := by
  induction lanes generalizing s with
  | nil => rfl
  | cons lane rest ih =>
      rw [lremLanes, List.foldl_cons, TaskView.purgeLanes, List.foldl_cons, ← view_lremAll_self]
      exact ih

@[simp] theorem view_lremLanes_of_ne (lanes : List Lane) (h : k ≠ id) :
    (s.lremLanes lanes id).view k = s.view k := by
  induction lanes generalizing s with
  | nil => rfl
  | cons lane rest ih =>
      rw [lremLanes, List.foldl_cons]
      exact (ih (s := s.lremAll lane id)).trans (view_lremAll_of_ne h)

end Store

/-- Purging lanes empties exactly those lanes. -/
theorem TaskView.purgeLanes_queued (v : TaskView) (lanes : List Lane) (lane : Lane) :
    (v.purgeLanes lanes).queued lane = if lane ∈ lanes then 0 else v.queued lane := by
  induction lanes generalizing v with
  | nil => simp [purgeLanes]
  | cons first rest ih =>
      rw [purgeLanes, List.foldl_cons]
      refine (ih (v.purge first)).trans ?_
      by_cases hrest : lane ∈ rest
      · simp [hrest]
      · by_cases hfirst : lane = first
        · subst hfirst
          simp [hrest, purge]
        · simp [hrest, hfirst, purge]

/-- Purging lanes changes nothing but the queue counts. -/
theorem TaskView.purgeLanes_eq (v : TaskView) (lanes : List Lane) :
    v.purgeLanes lanes = { v with queued := (v.purgeLanes lanes).queued } := by
  induction lanes generalizing v with
  | nil => rfl
  | cons first rest ih =>
      have hrest := ih (v.purge first)
      rw [purgeLanes, List.foldl_cons]
      exact hrest

end KernelGym
