import KernelGym.RecordSound

/-! The invariant of one task cell under every action of the system: its hash is sound, inflight
entries and local claims carry drawn tokens, and a local claim whose token the hash still carries
agrees with it. -/

namespace KernelGym

/-- A claim made by the process that holds it, rather than adopted from an inflight list. -/
def Attempt.own (c : Attempt) : Prop := c.stage = .dequeued ∨ c.stage = .running

/-- What the holder of a live claim knows about the task hash. -/
structure Attempt.Matches (c : Attempt) (h : TaskHash) : Prop where
  inflightQueue : h.claim.inflightQueue = some c.inflightQueue
  sourceQueue : h.claim.sourceQueue = some c.sourceQueue
  workerInstance : h.claim.workerInstance = c.workerInstance
  loaded : ∀ d, c.loaded = some d → h.data = some d
  unloadable : c.unloadable = false
  snapshot : ∀ seen, c.snapshot = some seen → seen = (h.assignedWorker, h.assignedAt)
  dequeued : c.stage = .dequeued → h.claim.recoveryState = .clear
  running : c.stage = .running → h.claim.recoveryState ≠ .clear

/-- Two states of a hash during one attempt: status, stamps and fence may differ. -/
structure TaskHash.SameAttempt (h h' : TaskHash) : Prop where
  token : h'.claim.token = h.claim.token
  inflightQueue : h'.claim.inflightQueue = h.claim.inflightQueue
  sourceQueue : h'.claim.sourceQueue = h.claim.sourceQueue
  workerInstance : h'.claim.workerInstance = h.claim.workerInstance
  data : h'.data = h.data
  assignedWorker : h'.assignedWorker = h.assignedWorker
  assignedAt : h'.assignedAt = h.assignedAt

theorem TaskHash.SameAttempt.refl (h : TaskHash) : h.SameAttempt h := ⟨rfl, rfl, rfl, rfl, rfl, rfl, rfl⟩

theorem Attempt.Matches.congr {c : Attempt} {h h' : TaskHash} (hc : c.Matches h)
    (hsame : h.SameAttempt h')
    (hfence : h'.claim.recoveryState = h.claim.recoveryState ∨ ¬c.own ∨
      (h'.claim.recoveryState ≠ .clear ∧ c.stage ≠ .dequeued)) : c.Matches h' where
  inflightQueue := hsame.inflightQueue.trans hc.inflightQueue
  sourceQueue := hsame.sourceQueue.trans hc.sourceQueue
  workerInstance := hsame.workerInstance.trans hc.workerInstance
  loaded d hd := hsame.data.trans (hc.loaded d hd)
  unloadable := hc.unloadable
  snapshot seen hseen := by
    rw [hsame.assignedWorker, hsame.assignedAt]
    exact hc.snapshot seen hseen
  dequeued hstage := by
    rcases hfence with heq | hown | ⟨-, hne⟩
    · exact heq.trans (hc.dequeued hstage)
    · exact absurd (Or.inl hstage) hown
    · exact absurd hstage hne
  running hstage := by
    rcases hfence with heq | hown | ⟨hne, -⟩
    · rw [heq]
      exact hc.running hstage
    · exact absurd (Or.inr hstage) hown
    · exact hne

/-- An inflight entry `t|k` of worker `w` carries a drawn token, and belongs to the inflight list
that the hash names while the hash carries its token. -/
def Cell.EntryOf (used : Token → Prop) (C : Cell) (w : WorkerId) (t : Token) : Prop :=
  used t ∧ ∀ h, C.view.hash = some h → h.claim.token = some t → h.claim.inflightQueue = some w

structure Cell.Valid (issued : Generation → Option Issue) (used : Token → Prop) (m : KeyPrefix)
    (k : TaskId) (C : Cell) : Prop where
  sound : ∀ h, C.view.hash = some h → h.Sound issued used m k
  retained : C.view.ttl = true → ∃ h, C.view.hash = some h ∧ h.terminal = true
  entries : ∀ w t, 0 < C.view.inflight w t → C.EntryOf used w t
  minted : ∀ p c, C.attempts p = some c → used c.token
  owner : ∀ p c, C.attempts p = some c → c.own → c.workerInstance = p
  unique : ∀ p q c c', C.attempts p = some c → C.attempts q = some c' → c.own → c'.own →
    c.token = c'.token → p = q
  matching : ∀ p c h, C.attempts p = some c → C.view.hash = some h →
    h.claim.token = some c.token → c.Matches h

namespace Cell

variable {C : Cell} {h : TaskHash} {t : Token}

theorem hash_of_some (hh : C.view.hash = some h) : C.hash = h := by
  rw [hash, hh]
  rfl

theorem exists_of_ne (hne : C.hash ≠ {}) : C.view.hash = some C.hash := by
  unfold hash at hne ⊢
  cases hh : C.view.hash with
  | none =>
      rw [hh] at hne
      exact absurd rfl hne
  | some h => rfl

theorem exists_of_token (ht : C.hash.claim.token = some t) : C.view.hash = some C.hash :=
  exists_of_ne fun heq => by
    rw [heq] at ht
    exact absurd ht (by simp)

theorem exists_of_status {status : TaskStatus} (hs : C.hash.status = some status) :
    C.view.hash = some C.hash :=
  exists_of_ne fun heq => by
    rw [heq] at hs
    exact absurd hs (by simp)

theorem exists_of_generation {g : Generation} (hg : C.hash.workflow.generation = some g) :
    C.view.hash = some C.hash :=
  exists_of_ne fun heq => by
    rw [heq] at hg
    exact absurd hg (by simp)

theorem attempts_of_forgotten {p q : InstanceId} {c : Attempt}
    (hc : Function.update C.attempts p none q = some c) : C.attempts q = some c := by
  rw [Function.update_apply] at hc
  split_ifs at hc
  exact hc

end Cell

/-! ### The guard of a submission or claim decides the kind of record -/

theorem workflowAllowed_parent {S : Store} {keys : List TaskId} {w : WorkflowFields}
    {g : Generation} {parent lease : TaskId} (hg : w.generation = some g)
    (hp : w.parentKey = some parent) (hl : w.leaseKey = some lease)
    (h : S.workflowAllowed keys w = true) :
    (S.hgetall parent).workflow.generation = some g ∧ (S.hgetall parent).active = true ∧
      S.leases lease = some g := by
  unfold Store.workflowAllowed at h
  split_ifs at h
  rw [hg, hp, hl] at h
  simp only [Bool.and_eq_true, beq_iff_eq, decide_eq_true_eq] at h
  exact ⟨h.1.1.1.1.2, h.1.1.1.2, h.1.1.2⟩

theorem claimable_data {s : Sys} {m : KeyPrefix} {k : TaskId} {issued : Generation → Option Issue}
    {used : Token → Prop} (hv : (s.cell m k).Valid issued used m k)
    (hclaimable : (s.spaces m).claimable k = true) :
    ∃ h, (s.spaces m).tasks k = some h ∧ h.status = some .pending ∧ h.claim.token = none ∧
      h.data.isSome := by
  obtain ⟨h, hh, hstatus, htoken, hallowed⟩ := Store.claimable_iff.mp hclaimable
  refine ⟨h, hh, hstatus, htoken, ?_⟩
  have hactive : h.active = true := h.active_iff.mpr (Or.inl hstatus)
  cases (hv.sound h hh).kind with
  | standalone _ _ hdata => exact hdata hactive
  | child _ _ _ _ _ _ _ _ _ hdata => exact hdata hactive
  | parent g issue _ _ _ hworkflow _ _ _ _ _ =>
      -- The record of a workflow parent names no parent key, so the guard refuses it.
      rw [Store.workflowTaskAllowed, Store.hgetall_of_some hh, hworkflow,
        Store.workflowAllowed] at hallowed
      split_ifs at hallowed

theorem submitted_kind {s : Sys} {m : KeyPrefix} {d payload : TaskData} {child : Option Generation}
    (hids : ∀ g issue, s.issued g = some issue → issue.id ≠ "")
    (hpayload : submissionPayload s m d child = some payload)
    (hallowed : (s.spaces m).workflowAllowed (cancellationKeysOf payload) payload.workflow = true)
    (hnone : child.isSome → (s.spaces m).tasks payload.taskId = none) (now : Timestamp) :
    RecordKind s.issued m payload.taskId (taskMapping payload now) := by
  cases child with
  | none =>
      simp only [submissionPayload] at hpayload
      split_ifs at hpayload with hworkflow
      obtain rfl := Option.some.inj hpayload
      exact RecordKind.standalone hworkflow rfl fun _ => rfl
  | some g =>
      simp only [submissionPayload, Option.bind_eq_some_iff, Option.ite_none_right_eq_some,
        Option.some.injEq] at hpayload
      obtain ⟨issue, hissue, hpre, rfl⟩ := hpayload
      have hparent := (workflowAllowed_parent rfl rfl rfl hallowed).1
      refine RecordKind.child g issue hissue hpre ?_ (hids g issue hissue) rfl rfl ?_ fun _ => rfl
      · -- The guard found the parent record, and the child's id has no record yet.
        intro heq
        rw [Store.hgetall, heq, hnone rfl] at hparent
        exact absurd hparent (by simp)
      · refine ⟨originalId issue.id d.taskId, rfl, ?_⟩
        change cancellationKeysOf _ = _
        rw [cancellationKeysOf, if_neg (show (schedulerPayload issue.id g issue.deadline d).baseTaskId
          ≠ "" from hids g issue hissue)]
        rfl

theorem accept_issued {s s' : Sys} {pre : KeyPrefix} {id : TaskId} {g : Generation}
    {requestHash name : String} {timeout : Nat} {force : Bool} {now : Timestamp}
    (h : step s (.accept pre id g requestHash name timeout force now) = some s')
    (hreply : acceptReply id requestHash force (s.spaces pre) = 1) :
    s'.issued g = some ⟨pre, id, (s.spaces pre).now + timeout, requestHash⟩ := by
  simp only [step, Option.ite_none_right_eq_some, Option.some.injEq] at h
  obtain ⟨-, rfl⟩ := h
  rcases acceptWorkflow_cases id g requestHash name timeout force now (s.spaces pre) with
    ⟨hne, -⟩ | ⟨-, hcode, -, -⟩
  · exact absurd hreply hne
  · rw [if_pos hcode]
    exact Function.update_self _ _ _

end KernelGym
