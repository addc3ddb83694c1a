import KernelGym.ViewStore

/-! What each transaction can do to the view of its own task id, branch by branch, and that it leaves
the views of other ids alone. These are the only facts about the scripts that the later modules
use. -/

namespace KernelGym

/-- The token a task currently carries. -/
def TaskView.token (v : TaskView) : Option Token := v.hash.bind fun h => h.claim.token

/-- Neither of two cancel markers exists and the workflow guard is true. -/
def Store.admits (s : Store) (id ownCancel parentCancel : TaskId) : Bool :=
  s.workflowTaskAllowed id && !s.cancelMarks ownCancel && !s.cancelMarks parentCancel

namespace Store

variable {s : Store} {id k own parent : TaskId}

theorem not_admits_iff :
    (!s.workflowTaskAllowed id || s.cancelMarks own || s.cancelMarks parent) =
      !s.admits id own parent := by
  simp [admits, Bool.not_and]

/-- A field test on `HGET` answers decides that the hash exists. -/
theorem exists_of_token {t : Token} (h : (s.hgetall id).claim.token = some t) :
    ∃ task, s.tasks id = some task ∧ task.claim.token = some t := by
  cases htask : s.tasks id with
  | none => simp [hgetall, htask] at h
  | some task => exact ⟨task, rfl, by simpa [hgetall, htask] using h⟩

theorem hgetall_of_some {task : TaskHash} (h : s.tasks id = some task) : s.hgetall id = task := by
  simp [hgetall, h]

theorem claimable_iff {s : Store} {id : TaskId} :
    s.claimable id = true ↔
      ∃ task, s.tasks id = some task ∧ task.status = some .pending ∧ task.claim.token = none ∧
        s.workflowTaskAllowed id = true := by
  simp [claimable, Option.any_eq_true, and_assoc]

/-- The guard reads the task hashes and the fences only. -/
theorem workflowAllowed_congr {s s' : Store} (hfences : s'.fences = s.fences)
    (htasks : ∀ id, s'.tasks id = s.tasks id) (keys : List TaskId) (w : WorkflowFields) :
    s'.workflowAllowed keys w = s.workflowAllowed keys w := by
  have hl : s'.leases = s.leases := congrArg Fences.leases hfences
  have ht : s'.tombstones = s.tombstones := congrArg Fences.tombstones hfences
  have hn : s'.now = s.now := congrArg Fences.now hfences
  have hg : ∀ id, s'.hgetall id = s.hgetall id := fun id => by rw [hgetall, hgetall, htasks]
  unfold workflowAllowed
  simp only [hg, hl, ht, hn]

theorem workflowTaskAllowed_congr {s s' : Store} (hfences : s'.fences = s.fences)
    (htasks : ∀ id, s'.tasks id = s.tasks id) (id : TaskId) :
    s'.workflowTaskAllowed id = s.workflowTaskAllowed id := by
  rw [workflowTaskAllowed, workflowTaskAllowed, workflowAllowed_congr hfences htasks, hgetall,
    hgetall, htasks]

/-! ### Popping and claiming -/

theorem view_rpop_of_last {lane : Lane} (h : (s.queues lane).getLast? = some id) :
    (s.rpop lane).view id = (s.view id).pullOne lane := by
  simp only [view, rpop, TaskView.pullOne, TaskView.mk.injEq, true_and, and_true]
  funext other
  by_cases hlane : other = lane
  · subst hlane
    obtain ⟨rest, hrest⟩ := List.getLast?_eq_some_iff.mp h
    simp [hrest]
  · simp [hlane]

theorem view_rpop_of_ne {lane : Lane} (h : (s.queues lane).getLast? = some id) (hk : k ≠ id) :
    (s.rpop lane).view k = s.view k := by
  simp only [view, rpop, TaskView.mk.injEq, true_and, and_true]
  funext other
  by_cases hlane : other = lane
  · subst hlane
    obtain ⟨rest, hrest⟩ := List.getLast?_eq_some_iff.mp h
    simp [hrest, List.count_append, Ne.symm hk]
  · simp [hlane]

end Store

/-- The view after a claim. -/
def TaskView.claimed (v : TaskView) (h : TaskHash) (token : Token) (w : WorkerId) (p : InstanceId)
    (lane : Lane) : TaskView :=
  ((v.pullOne lane).hold w token).setHash { h with claim := newClaim token w p lane }

/-- The view after some queue lost copies of an id. -/
def TaskView.lowered (v v' : TaskView) (lane : Lane) : Prop :=
  ∃ n ≤ v.queued lane, v' = { v with queued := Function.update v.queued lane n }

theorem TaskView.lowered_refl (v : TaskView) (lane : Lane) : v.lowered v lane :=
  ⟨v.queued lane, Nat.le_refl _, by rw [Function.update_eq_self]⟩

theorem TaskView.lowered_pullOne {v v' : TaskView} {lane : Lane}
    (h : (v.pullOne lane).lowered v' lane) : v.lowered v' lane := by
  obtain ⟨n, hn, rfl⟩ := h
  refine ⟨n, ?_, by simp [pullOne]⟩
  simp only [pullOne, Function.update_self] at hn
  exact Nat.le_trans hn (Nat.sub_le _ _)

section Claim

variable {token : Token} {w : WorkerId} {p : InstanceId} {lane : Lane}

theorem claimGpuTask_fences (scanLimit : Nat) (s : Store) :
    (claimGpuTask token w p lane scanLimit s).1.fences = s.fences := by
  induction scanLimit generalizing s with
  | zero => rfl
  | succ n ih =>
      rw [claimGpuTask]
      split
      · rfl
      · split
        · simp
        · rw [ih, Store.fences_rpop]

/-- A claim either takes the id it answers, which was claimable, or only drops ids that were not. -/
theorem claimGpuTask_cases (token : Token) (w : WorkerId) (p : InstanceId) (lane : Lane)
    (scanLimit : Nat) (s : Store) (k : TaskId) :
    ((claimGpuTask token w p lane scanLimit s).2 = some k ∧ s.claimable k = true ∧
      0 < (s.view k).queued lane ∧
      (claimGpuTask token w p lane scanLimit s).1.view k =
        (s.view k).claimed (s.hgetall k) token w p lane) ∨
    ((claimGpuTask token w p lane scanLimit s).2 ≠ some k ∧
      ((claimGpuTask token w p lane scanLimit s).1.view k = s.view k ∨
        (s.claimable k = false ∧
          (s.view k).lowered ((claimGpuTask token w p lane scanLimit s).1.view k) lane))) := by
  induction scanLimit generalizing s with
  | zero => exact Or.inr ⟨by simp [claimGpuTask], Or.inl rfl⟩
  | succ n ih =>
      rw [claimGpuTask]
      split
      · exact Or.inr ⟨by simp, Or.inl rfl⟩
      · rename_i id hlast
        have hsame : (s.rpop lane).claimable k = s.claimable k := by
          have hguard : (s.rpop lane).workflowTaskAllowed k = s.workflowTaskAllowed k :=
            Store.workflowTaskAllowed_congr rfl (fun _ => rfl) k
          have htasks : (s.rpop lane).tasks k = s.tasks k := rfl
          rw [Store.claimable, Store.claimable, htasks, hguard]
        split
        · rename_i hclaimable
          by_cases hk : k = id
          · subst hk
            refine Or.inl ⟨rfl, hsame ▸ hclaimable,
              Store.mem_queue_iff.mp (List.mem_of_getLast? hlast), ?_⟩
            rw [Store.view_hset_self, Store.view_pushInflight_self, Store.view_rpop_of_last hlast]
            rfl
          · refine Or.inr ⟨by simp [Ne.symm hk], Or.inl ?_⟩
            simp [hk, Store.view_rpop_of_ne hlast hk]
        · rename_i hnot
          by_cases hk : k = id
          · subst hk
            have hfalse : s.claimable k = false := by
              rw [← hsame]
              simpa using hnot
            have hpop := Store.view_rpop_of_last hlast
            rcases ih (s.rpop lane) with ⟨-, htrue, -, -⟩ | ⟨hne, hview | ⟨-, hlow⟩⟩
            · rw [hsame, hfalse] at htrue
              exact absurd htrue (by simp)
            · refine Or.inr ⟨hne, Or.inr ⟨hfalse, ?_⟩⟩
              rw [hview, hpop]
              exact TaskView.lowered_pullOne (TaskView.lowered_refl _ _)
            · refine Or.inr ⟨hne, Or.inr ⟨hfalse, ?_⟩⟩
              rw [hpop] at hlow
              exact TaskView.lowered_pullOne hlow
          · have hpop := Store.view_rpop_of_ne hlast hk
            rcases ih (s.rpop lane) with ⟨hid, htrue, hqueued, hview⟩ | ⟨hne, hrest⟩
            · refine Or.inl ⟨hid, hsame ▸ htrue, hpop ▸ hqueued, ?_⟩
              rw [hview, hpop]
              rfl
            · rw [hsame, hpop] at hrest
              exact Or.inr ⟨hne, hrest⟩

end Claim

/-! ### Submission -/

section Submission

variable {id k : TaskId} {lane : Lane} {m : TaskHash} {s : Store}

theorem submitTaskIfAbsent_fences : (submitTaskIfAbsent id lane m s).1.fences = s.fences := by
  unfold submitTaskIfAbsent
  split_ifs <;> simp [Store.enqueue]

theorem submitTaskIfAbsent_view_of_ne (h : k ≠ id) :
    (submitTaskIfAbsent id lane m s).1.view k = s.view k := by
  unfold submitTaskIfAbsent
  split_ifs <;> simp [Store.enqueue, h]

/-- A submission creates the task in its destination queue, or changes nothing. -/
theorem submitTaskIfAbsent_cases (id : TaskId) (lane : Lane) (m : TaskHash) (s : Store) :
    (submitTaskIfAbsent id lane m s).1 = s ∨
    (s.workflowAllowed m.cancellationKeys m.workflow = true ∧ s.tasks id = none ∧
      (submitTaskIfAbsent id lane m s).1.view id =
        (((s.view id).setHash m).purge lane).push lane) := by
  unfold submitTaskIfAbsent
  split_ifs with hguard hexists
  · exact Or.inl rfl
  · exact Or.inl rfl
  · refine Or.inr ⟨by simpa using hguard, by simpa using hexists, ?_⟩
    simp [Store.enqueue]

/-- The lanes a refresh removes an id from. -/
def refreshLanes (lane : Lane) (cleanup : List Lane) (old : Option TaskHash) : List Lane :=
  (old.elim [] fun h => assignedLanes h.assignedWorker) ++ lane :: cleanup

theorem forceRefreshTask_fences {cleanup : List Lane} :
    (forceRefreshTask id lane cleanup m s).1.fences = s.fences := by
  unfold forceRefreshTask
  split_ifs
  · rfl
  · split
    · simp
    · split_ifs <;> simp

theorem forceRefreshTask_view_of_ne {cleanup : List Lane} (h : k ≠ id) :
    (forceRefreshTask id lane cleanup m s).1.view k = s.view k := by
  unfold forceRefreshTask
  split_ifs
  · rfl
  · split
    · simp [h]
    · split_ifs <;> simp [h]

theorem TaskView.purgeLanes_append (v : TaskView) (first rest : List Lane) :
    (v.purgeLanes first).purgeLanes rest = v.purgeLanes (first ++ rest) := by
  simp [purgeLanes, List.foldl_append]

/-- The view after a force refresh. -/
def TaskView.refreshed (v : TaskView) (m : TaskHash) (lanes : List Lane) (lane : Lane) : TaskView :=
  (({ v.purgeLanes lanes with result := none, ttl := false } : TaskView).setHash m).push lane

/-- A force refresh replaces an absent or a terminal, unclaimed task, or changes nothing. -/
theorem forceRefreshTask_cases (id : TaskId) (lane : Lane) (cleanup : List Lane) (m : TaskHash)
    (s : Store) :
    (forceRefreshTask id lane cleanup m s).1 = s ∨
    (s.workflowAllowed m.cancellationKeys m.workflow = true ∧
      (∀ h, s.tasks id = some h → h.terminal = true ∧ h.claim.token = none) ∧
      (forceRefreshTask id lane cleanup m s).1.view id =
        (s.view id).refreshed m (refreshLanes lane cleanup (s.tasks id)) lane) := by
  unfold forceRefreshTask
  split_ifs with hguard
  · exact Or.inl rfl
  · have hallowed : s.workflowAllowed m.cancellationKeys m.workflow = true := by
      simpa using hguard
    split
    · rename_i hnone
      refine Or.inr ⟨hallowed, by simp [hnone], ?_⟩
      simp [hnone, refreshLanes, TaskView.refreshed, TaskView.setHash]
    · rename_i h hsome
      split_ifs with hfrozen htoken hterminal
      · exact Or.inl rfl
      · exact Or.inl rfl
      · exact Or.inl rfl
      · refine Or.inr ⟨hallowed, ?_, ?_⟩
        · intro h' hh'
          rw [hsome, Option.some.injEq] at hh'
          subst hh'
          exact ⟨by simpa using hterminal, by simpa using htoken⟩
        · simp [hsome, refreshLanes, TaskView.refreshed, TaskView.setHash,
            TaskView.purgeLanes_append]

theorem submitTask_fences {d : TaskData} {force : Bool} {known : List Lane} {now : Timestamp} :
    (submitTask d force known now s).fences = s.fences := by
  unfold submitTask
  split_ifs
  · exact forceRefreshTask_fences
  · exact submitTaskIfAbsent_fences

theorem submitTask_view_of_ne {d : TaskData} {force : Bool} {known : List Lane} {now : Timestamp}
    (h : k ≠ d.taskId) : (submitTask d force known now s).view k = s.view k := by
  unfold submitTask
  split_ifs
  · exact forceRefreshTask_view_of_ne h
  · exact submitTaskIfAbsent_view_of_ne h

end Submission

end KernelGym
