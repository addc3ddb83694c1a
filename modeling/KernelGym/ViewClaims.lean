import KernelGym.ViewScripts

/-! The transactions on a claimed task, in terms of the view of its id. Each one first compares the
token it presents; with another token it can only remove its own inflight entry. -/

namespace KernelGym

/-- The entry of an attempt is removed and the claim fields are cleared. -/
def TaskView.unclaim (v : TaskView) (w : WorkerId) (t : Token) (h : TaskHash) : TaskView :=
  (v.release w t).setHash h.clearClaim

/-- The hash after a successful processing mark. -/
def TaskHash.marked (h : TaskHash) (startedAt : Timestamp) (worker : WorkerId)
    (workerInstance : InstanceId) (source : Lane) (inflightQueue : WorkerId) : TaskHash :=
  { h with
    status := some .processing
    stamps := { h.stamps with startedAt := startedAt }
    claim :=
      { h.claim with
        worker := worker
        workerInstance := workerInstance
        sourceQueue := some source
        inflightQueue := some inflightQueue
        recoveryState := .executionFenced
        recoveryReason := executionFenceReason
        recoveryAt := startedAt } }

/-- The hash after a successful conditional requeue. -/
def TaskHash.requeued (h : TaskHash) (data : TaskData) (reason : String) (now : Timestamp)
    (assignedWorker : WorkerId) (assignedAt : Timestamp) : TaskHash :=
  { h with
    data := some data
    status := some .pending
    assignedWorker := assignedWorker
    assignedAt := assignedAt
    claim := {}
    stamps :=
      { h.stamps with
        startedAt := ""
        queueTimeoutReason := reason
        queueTimeoutAt := now
        updatedAt := now } }

/-- The hash after a freeze. -/
def TaskHash.frozen (h : TaskHash) (reason : String) (now : Timestamp) : TaskHash :=
  { h with
    claim :=
      { h.claim with
        recoveryState := .frozen
        recoveryReason := reason
        recoveryAt := now } }

/-- The hash after the queue-wait monitor moved the task to its resource queue. -/
def TaskHash.moved (h : TaskHash) (data : TaskData) (reason : String) (now : Timestamp)
    (moveToken : String) : TaskHash :=
  { h with
    data := some data
    status := some .pending
    assignedWorker := ""
    assignedAt := ""
    claim := {}
    stamps :=
      { h.stamps with
        startedAt := ""
        queueTimeoutReason := reason
        queueTimeoutAt := now
        queueMoveToken := moveToken
        updatedAt := now } }

/-- The hash after a CPU processing mark. -/
def TaskHash.cpuMarked (h : TaskHash) (startedAt : Timestamp) : TaskHash :=
  { h with
    status := some .processing
    stamps := { h.stamps with startedAt := startedAt } }

/-- The view after a terminal publication. -/
def TaskView.published (v : TaskView) (h : TaskHash) (task : TerminalMapping)
    (result : ResultMapping) (retention : Retention) : TaskView :=
  ((v.setHash (task.apply h)).setResult (result.apply (v.result.getD {}))).retain retention.taskTtl

section Claimed

variable {id k : TaskId} {w : WorkerId} {own parent : TaskId} {t : Token} {s : Store}

/-! ### Processing mark -/

section Mark

variable {startedAt : Timestamp} {worker : WorkerId} {inst : InstanceId} {source : Lane}

theorem markClaimProcessing_fences :
    (markClaimProcessing id w own parent t startedAt worker inst source s).1.fences = s.fences := by
  unfold markClaimProcessing
  dsimp only
  split_ifs <;> simp

theorem markClaimProcessing_view_of_ne (h : k ≠ id) :
    (markClaimProcessing id w own parent t startedAt worker inst source s).1.view k = s.view k := by
  unfold markClaimProcessing
  dsimp only
  split_ifs <;> simp [h]

theorem markClaimProcessing_cases (id : TaskId) (w : WorkerId) (own parent : TaskId) (t : Token)
    (startedAt : Timestamp) (worker : WorkerId) (inst : InstanceId) (source : Lane) (s : Store) :
    ((s.hgetall id).claim.token ≠ some t ∧
      (markClaimProcessing id w own parent t startedAt worker inst source s).2 = -2 ∧
      (markClaimProcessing id w own parent t startedAt worker inst source s).1.view id =
        (s.view id).release w t) ∨
    ((s.hgetall id).claim.token = some t ∧
      ((s.hgetall id).status ≠ some .pending ∨ s.admits id own parent = false) ∧
      (markClaimProcessing id w own parent t startedAt worker inst source s).2 ≠ 1 ∧
      (markClaimProcessing id w own parent t startedAt worker inst source s).1.view id =
        (s.view id).unclaim w t (s.hgetall id)) ∨
    ((s.hgetall id).claim.token = some t ∧ (s.hgetall id).status = some .pending ∧
      s.admits id own parent = true ∧
      (markClaimProcessing id w own parent t startedAt worker inst source s).2 = 1 ∧
      (markClaimProcessing id w own parent t startedAt worker inst source s).1.view id =
        (s.view id).setHash ((s.hgetall id).marked startedAt worker inst source w)) := by
  unfold markClaimProcessing
  dsimp only
  rw [Store.not_admits_iff]
  split_ifs with htoken hstatus hadmits
  · exact Or.inl ⟨htoken, rfl, Store.view_lremInflight_self⟩
  · refine Or.inr (Or.inl ⟨not_not.mp htoken, Or.inl hstatus, by simp, ?_⟩)
    rw [Store.view_hset_self, Store.view_lremInflight_self]
    rfl
  · refine Or.inr (Or.inl ⟨not_not.mp htoken, Or.inr (by simpa using hadmits), by simp, ?_⟩)
    rw [Store.view_hset_self, Store.view_lremInflight_self]
    rfl
  · refine Or.inr (Or.inr ⟨not_not.mp htoken, not_not.mp hstatus, by simpa using hadmits, rfl, ?_⟩)
    rw [Store.view_hset_self]
    rfl

end Mark

/-! ### Return to the source queue -/

theorem returnClaim_fences {source : Lane} : (returnClaim id source w t s).1.fences = s.fences := by
  unfold returnClaim
  dsimp only
  split_ifs <;> simp

theorem returnClaim_view_of_ne {source : Lane} (h : k ≠ id) :
    (returnClaim id source w t s).1.view k = s.view k := by
  unfold returnClaim
  dsimp only
  split_ifs <;> simp [h]

/-- The view after a claim was returned to its source queue. -/
def TaskView.returned (v : TaskView) (w : WorkerId) (t : Token) (source : Lane) (allowed : Bool)
    (h : TaskHash) : TaskView :=
  let removed := (v.release w t).purge source
  (if allowed then removed.push source else removed).setHash h.clearClaim

theorem returnClaim_cases (id : TaskId) (source : Lane) (w : WorkerId) (t : Token) (s : Store) :
    ((s.hgetall id).claim.token ≠ some t ∧ (returnClaim id source w t s).2 = 0 ∧
      (returnClaim id source w t s).1.view id = (s.view id).release w t) ∨
    ((s.hgetall id).claim.token = some t ∧ (returnClaim id source w t s).2 = 1 ∧
      (returnClaim id source w t s).1.view id =
        (s.view id).returned w t source (s.workflowTaskAllowed id) (s.hgetall id)) := by
  have hguard : ((s.lremInflight w (t, id)).lremAll source id).workflowTaskAllowed id =
      s.workflowTaskAllowed id :=
    Store.workflowTaskAllowed_congr rfl (fun _ => rfl) id
  unfold returnClaim
  dsimp only
  rw [hguard]
  split_ifs with htoken hallowed
  · exact Or.inl ⟨htoken, rfl, Store.view_lremInflight_self⟩
  · refine Or.inr ⟨not_not.mp htoken, rfl, ?_⟩
    rw [Store.view_hset_self, Store.view_lpush_self, Store.view_lremAll_self,
      Store.view_lremInflight_self, TaskView.returned, if_pos hallowed]
    rfl
  · refine Or.inr ⟨not_not.mp htoken, rfl, ?_⟩
    rw [Store.view_hset_self, Store.view_lremAll_self, Store.view_lremInflight_self,
      TaskView.returned, if_neg hallowed]
    rfl

/-! ### Acknowledgement -/

theorem ackClaim_fences {release : Bool} : (ackClaim id w t release s).1.fences = s.fences := by
  unfold ackClaim
  dsimp only
  split
  · simp
  · split_ifs <;> simp

theorem ackClaim_view_of_ne {release : Bool} (h : k ≠ id) :
    (ackClaim id w t release s).1.view k = s.view k := by
  unfold ackClaim
  dsimp only
  split
  · simp [h]
  · split_ifs <;> simp [h]

theorem ackClaim_cases (id : TaskId) (w : WorkerId) (t : Token) (release : Bool) (s : Store) :
    ((s.hgetall id).claim.token ≠ some t ∧ (ackClaim id w t release s).2 ≠ -2 ∧
      (ackClaim id w t release s).1.view id = (s.view id).release w t) ∨
    ((s.hgetall id).claim.token = some t ∧ (s.hgetall id).claim.recoveryState ≠ .clear ∧
      release = false ∧ ackClaim id w t release s = (s, -2)) ∨
    ((s.hgetall id).claim.token = some t ∧
      ((s.hgetall id).claim.recoveryState = .clear ∨ release = true) ∧
      (ackClaim id w t release s).2 = 1 ∧
      (ackClaim id w t release s).1.view id = (s.view id).unclaim w t (s.hgetall id)) := by
  unfold ackClaim
  dsimp only
  split
  · rename_i hnone
    refine Or.inl ⟨by simp [Store.hgetall, hnone], by simp, Store.view_lremInflight_self⟩
  · rename_i h hsome
    rw [Store.hgetall_of_some hsome]
    split_ifs with htoken hfence
    · exact Or.inl ⟨htoken, by simp, Store.view_lremInflight_self⟩
    · exact Or.inr (Or.inl ⟨not_not.mp htoken, hfence.1, by simpa using hfence.2, rfl⟩)
    · refine Or.inr (Or.inr ⟨not_not.mp htoken, ?_, rfl, ?_⟩)
      · by_cases hclear : h.claim.recoveryState = .clear
        · exact Or.inl hclear
        · exact Or.inr (by simpa [hclear] using hfence)
      · rw [Store.view_hset_self, Store.view_lremInflight_self, Store.hgetall_of_some]
        · rfl
        · exact hsome

/-! ### Conditional requeue -/

section Requeue

variable {destination : Lane} {data : TaskData} {reason : String} {now : Timestamp}
  {assignedWorker : WorkerId} {assignedAt : Timestamp} {mode : ReleaseMode}

theorem conditionalRequeue_fences :
    (conditionalRequeue id destination w own parent t data reason now assignedWorker assignedAt mode
      s).1.fences = s.fences := by
  unfold conditionalRequeue
  dsimp only
  split_ifs <;> simp

theorem conditionalRequeue_view_of_ne (h : k ≠ id) :
    (conditionalRequeue id destination w own parent t data reason now assignedWorker assignedAt mode
      s).1.view k = s.view k := by
  unfold conditionalRequeue
  dsimp only
  split_ifs <;> simp [h]

/-- The view after a claim was put back behind admission. -/
def TaskView.requeued (v : TaskView) (w : WorkerId) (t : Token) (destination : Lane)
    (h : TaskHash) : TaskView :=
  (((v.release w t).purge destination).setHash h).push destination

theorem conditionalRequeue_cases (id : TaskId) (destination : Lane) (w : WorkerId)
    (own parent : TaskId) (t : Token) (data : TaskData) (reason : String) (now : Timestamp)
    (assignedWorker : WorkerId) (assignedAt : Timestamp) (mode : ReleaseMode) (s : Store) :
    ((s.hgetall id).claim.token ≠ some t ∧
      (conditionalRequeue id destination w own parent t data reason now assignedWorker assignedAt
        mode s).2 = -3 ∧
      (conditionalRequeue id destination w own parent t data reason now assignedWorker assignedAt
        mode s).1.view id = (s.view id).release w t) ∨
    ((s.hgetall id).claim.token = some t ∧
      mode.releases (s.hgetall id).claim.recoveryState = false ∧
      conditionalRequeue id destination w own parent t data reason now assignedWorker assignedAt
        mode s = (s, -4)) ∨
    ((s.hgetall id).claim.token = some t ∧
      mode.releases (s.hgetall id).claim.recoveryState = true ∧
      ((s.hgetall id).status = none ∨ (s.hgetall id).terminal = true ∨
        s.admits id own parent = false) ∧
      (conditionalRequeue id destination w own parent t data reason now assignedWorker assignedAt
        mode s).2 ≠ -4 ∧
      (conditionalRequeue id destination w own parent t data reason now assignedWorker assignedAt
        mode s).1.view id = (s.view id).unclaim w t (s.hgetall id)) ∨
    ((s.hgetall id).claim.token = some t ∧
      mode.releases (s.hgetall id).claim.recoveryState = true ∧
      (s.hgetall id).status ≠ none ∧ (s.hgetall id).terminal = false ∧
      s.admits id own parent = true ∧
      (conditionalRequeue id destination w own parent t data reason now assignedWorker assignedAt
        mode s).2 = 1 ∧
      (conditionalRequeue id destination w own parent t data reason now assignedWorker assignedAt
        mode s).1.view id = (s.view id).requeued w t destination
          ((s.hgetall id).requeued data reason now assignedWorker assignedAt)) := by
  unfold conditionalRequeue
  dsimp only
  rw [Store.not_admits_iff]
  have hclear : ((s.lremInflight w (t, id)).hset id TaskHash.clearClaim).view id =
      (s.view id).unclaim w t (s.hgetall id) := by
    rw [Store.view_hset_self, Store.view_lremInflight_self]
    rfl
  split_ifs with htoken hmode hstatus hterminal hadmits
  · exact Or.inl ⟨htoken, rfl, Store.view_lremInflight_self⟩
  · exact Or.inr (Or.inl ⟨not_not.mp htoken, by simpa using hmode, rfl⟩)
  · exact Or.inr (Or.inr (Or.inl
      ⟨not_not.mp htoken, by simpa using hmode, Or.inl hstatus, by simp, hclear⟩))
  · exact Or.inr (Or.inr (Or.inl
      ⟨not_not.mp htoken, by simpa using hmode, Or.inr (Or.inl hterminal), by simp, hclear⟩))
  · exact Or.inr (Or.inr (Or.inl ⟨not_not.mp htoken, by simpa using hmode,
      Or.inr (Or.inr (by simpa using hadmits)), by simp, hclear⟩))
  · refine Or.inr (Or.inr (Or.inr ⟨not_not.mp htoken, by simpa using hmode, hstatus,
      by simpa using hterminal, by simpa using hadmits, rfl, ?_⟩))
    rw [Store.view_lpush_self, Store.view_hset_self, Store.view_lremAll_self,
      Store.view_lremInflight_self]
    rfl

end Requeue

/-! ### Freeze -/

theorem freezeClaimRecovery_fences {reason : String} {now : Timestamp} :
    (freezeClaimRecovery id t reason now s).1.fences = s.fences := by
  unfold freezeClaimRecovery
  split_ifs <;> simp

theorem freezeClaimRecovery_view_of_ne {reason : String} {now : Timestamp} (h : k ≠ id) :
    (freezeClaimRecovery id t reason now s).1.view k = s.view k := by
  unfold freezeClaimRecovery
  split_ifs <;> simp [h]

theorem freezeClaimRecovery_cases (id : TaskId) (t : Token) (reason : String) (now : Timestamp)
    (s : Store) :
    ((s.hgetall id).claim.token ≠ some t ∧ freezeClaimRecovery id t reason now s = (s, 0)) ∨
    ((s.hgetall id).claim.token = some t ∧ (freezeClaimRecovery id t reason now s).2 = 1 ∧
      (freezeClaimRecovery id t reason now s).1.view id =
        (s.view id).setHash ((s.hgetall id).frozen reason now)) := by
  unfold freezeClaimRecovery
  split_ifs with htoken
  · exact Or.inl ⟨htoken, rfl⟩
  · refine Or.inr ⟨not_not.mp htoken, rfl, ?_⟩
    rw [Store.view_hset_self]
    rfl

/-! ### Terminal publication -/

section Publication

variable {task : TerminalMapping} {result : ResultMapping} {retention : Retention}

theorem finalizeClaim_fences {allowFrozen : Bool} :
    (finalizeClaim id w t task result retention allowFrozen s).1.fences = s.fences := by
  unfold finalizeClaim
  dsimp only
  split_ifs <;> simp

theorem finalizeClaim_view_of_ne {allowFrozen : Bool} (h : k ≠ id) :
    (finalizeClaim id w t task result retention allowFrozen s).1.view k = s.view k := by
  unfold finalizeClaim
  dsimp only
  split_ifs <;> simp [h]

theorem finalizeClaim_cases (id : TaskId) (w : WorkerId) (t : Token) (task : TerminalMapping)
    (result : ResultMapping) (retention : Retention) (allowFrozen : Bool) (s : Store) :
    ((s.hgetall id).claim.token ≠ some t ∧
      (finalizeClaim id w t task result retention allowFrozen s).2 = 0 ∧
      (finalizeClaim id w t task result retention allowFrozen s).1.view id =
        (s.view id).release w t) ∨
    ((s.hgetall id).claim.token = some t ∧ (s.hgetall id).claim.recoveryState = .frozen ∧
      allowFrozen = false ∧
      finalizeClaim id w t task result retention allowFrozen s = (s, -2)) ∨
    ((s.hgetall id).claim.token = some t ∧
      ((s.hgetall id).claim.recoveryState = .frozen → allowFrozen = true) ∧
      (finalizeClaim id w t task result retention allowFrozen s).2 = 1 ∧
      (finalizeClaim id w t task result retention allowFrozen s).1.view id =
        ((s.view id).published (s.hgetall id) task result retention).release w t) := by
  unfold finalizeClaim
  dsimp only
  split_ifs with htoken hfrozen
  · exact Or.inl ⟨htoken, rfl, Store.view_lremInflight_self⟩
  · exact Or.inr (Or.inl ⟨not_not.mp htoken, hfrozen.1, by simpa using hfrozen.2, rfl⟩)
  · refine Or.inr (Or.inr ⟨not_not.mp htoken, ?_, rfl, ?_⟩)
    · intro hstate
      simpa [hstate] using hfrozen
    · rw [Store.view_expireResult, Store.view_expireTask_self, Store.view_lremInflight_self,
        Store.view_hsetResult_self, Store.view_hset_self]
      rfl

theorem publishUnclaimed_fences : (publishUnclaimed id task result retention s).fences = s.fences := by
  simp [publishUnclaimed]

theorem publishUnclaimed_view_of_ne (h : k ≠ id) :
    (publishUnclaimed id task result retention s).view k = s.view k := by
  simp [publishUnclaimed, h]

theorem publishUnclaimed_view_self :
    (publishUnclaimed id task result retention s).view id =
      (s.view id).published (s.hgetall id) task result retention := by
  rw [publishUnclaimed, Store.view_expireResult, Store.view_expireTask_self,
    Store.view_hsetResult_self, Store.view_hset_self]
  rfl

end Publication

/-! ### CPU mark -/

theorem markCpuProcessing_fences {startedAt : Timestamp} :
    (markCpuProcessing id own parent startedAt s).1.fences = s.fences := by
  unfold markCpuProcessing
  split_ifs <;> simp

theorem markCpuProcessing_view_of_ne {startedAt : Timestamp} (h : k ≠ id) :
    (markCpuProcessing id own parent startedAt s).1.view k = s.view k := by
  unfold markCpuProcessing
  split_ifs <;> simp [h]

theorem markCpuProcessing_cases (id own parent : TaskId) (startedAt : Timestamp) (s : Store) :
    markCpuProcessing id own parent startedAt s = (s, 0) ∨
    ((s.hgetall id).status = some .pending ∧ s.admits id own parent = true ∧
      (markCpuProcessing id own parent startedAt s).1.view id =
        (s.view id).setHash ((s.hgetall id).cpuMarked startedAt)) := by
  unfold markCpuProcessing
  split_ifs with hstatus hguard hmarks
  · exact Or.inl rfl
  · exact Or.inl rfl
  · exact Or.inl rfl
  · refine Or.inr ⟨not_not.mp hstatus, ?_, ?_⟩
    · simp only [Bool.or_eq_true, not_or] at hmarks
      simp only [Bool.not_eq_true', Bool.not_eq_false] at hguard
      simp [Store.admits, hguard, hmarks]
    · rw [Store.view_hset_self]
      rfl

/-! ### Queue-wait requeue -/

section QueueWait

variable {worker : WorkerId} {destination : Resource} {operation : QueueWaitOperation}
  {expected : QueueWaitSnapshot} {replacement : TaskData} {reason : String} {now : Timestamp}
  {moveToken : String}

theorem queueWaitRequeue_fences :
    (queueWaitRequeue id worker destination own parent operation expected replacement reason now
      moveToken s).1.fences = s.fences := by
  unfold queueWaitRequeue
  cases operation <;> dsimp only <;> split_ifs <;> simp

theorem queueWaitRequeue_view_of_ne (h : k ≠ id) :
    (queueWaitRequeue id worker destination own parent operation expected replacement reason now
      moveToken s).1.view k = s.view k := by
  unfold queueWaitRequeue
  cases operation <;> dsimp only <;> split_ifs <;> simp [h]

/-- The view after a waiting task was moved from a worker queue to its resource queue. -/
def TaskView.moved (v : TaskView) (worker : WorkerId) (destination : Resource) (h : TaskHash) :
    TaskView :=
  (((v.pullOne (.worker worker)).purge (.resource destination)).setHash h).push
    (.resource destination)

/-- The monitor removes one copy from the queue of a worker the task is not assigned to, or moves an
admitted, waiting task whose payload is still the one it read, or changes nothing. -/
theorem queueWaitRequeue_cases (id : TaskId) (worker : WorkerId) (destination : Resource)
    (own parent : TaskId) (operation : QueueWaitOperation) (expected : QueueWaitSnapshot)
    (replacement : TaskData) (reason : String) (now : Timestamp) (moveToken : String) (s : Store) :
    (queueWaitRequeue id worker destination own parent operation expected replacement reason now
      moveToken s).1 = s ∨
    ((s.hgetall id).assignedWorker ≠ "" ∧ (s.hgetall id).assignedWorker ≠ worker ∧
      (queueWaitRequeue id worker destination own parent operation expected replacement reason now
        moveToken s).1.view id = (s.view id).pullOne (.worker worker)) ∨
    ((s.hgetall id).data = expected.data ∧
      ((s.hgetall id).assignedWorker = "" ∨ (s.hgetall id).assignedWorker = worker) ∧
      (s.hgetall id).status = some .pending ∧ (s.hgetall id).claim.token = none ∧
      s.admits id own parent = true ∧ 0 < (s.view id).queued (.worker worker) ∧
      (queueWaitRequeue id worker destination own parent operation expected replacement reason now
        moveToken s).1.view id = (s.view id).moved worker destination
          ((s.hgetall id).moved replacement reason now moveToken)) := by
  unfold queueWaitRequeue
  cases operation with
  | removeStaleCopy =>
      dsimp only
      split_ifs with hworker hat hsubmitted hdata hassigned hmem
      iterate 5 exact Or.inl rfl
      · rw [not_not] at hworker
        rw [not_or] at hassigned
        exact Or.inr (Or.inl ⟨hworker ▸ hassigned.1, hworker ▸ hassigned.2,
          Store.view_lremOne_self⟩)
      · exact Or.inl rfl
  | requeue =>
      dsimp only
      rw [Store.not_admits_iff]
      split_ifs with hworker hat hsubmitted hdata hassigned hstatus htoken hadmits hmem
      iterate 8 exact Or.inl rfl
      · rw [not_not] at hworker hdata
        refine Or.inr (Or.inr ⟨hdata, ?_, not_not.mp hstatus, by simpa using htoken,
          by simpa using hadmits, Store.mem_queue_iff.mp hmem, ?_⟩)
        · rw [hworker]
          by_cases hempty : expected.assignedWorker = ""
          · exact Or.inl hempty
          · exact Or.inr (by simpa [hempty] using hassigned)
        · rw [Store.view_lpush_self, Store.view_hset_self, Store.view_lremAll_self,
            Store.view_lremOne_self]
          rfl
      · exact Or.inl rfl

end QueueWait

end Claimed

end KernelGym
