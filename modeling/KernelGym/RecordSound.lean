import KernelGym.SystemMonotone

/-! What is true of every task hash: which of the three kinds of record it is, how its claim fields
hang together, and that its payload agrees with the fields derived from it. There is one lemma for
each way in which a transaction rewrites a hash. -/

namespace KernelGym

/-- The cancellation keys of the child `k` of workflow `base`. -/
def childKeys (k base original : TaskId) : List TaskId :=
  [k, base] ++ if original = "" then [] else [original]

/-- A record is a task of its own, a child of an issued generation, or the parent of one. -/
inductive RecordKind (issued : Generation → Option Issue) (m : KeyPrefix) (k : TaskId)
    (h : TaskHash) : Prop
  | standalone (hworkflow : h.workflow = {}) (hparent : h.parent = {})
      (hdata : h.active = true → h.data.isSome)
  | child (g : Generation) (issue : Issue) (hissued : issued g = some issue) (hpre : issue.pre = m)
      (hne : issue.id ≠ k) (hid : issue.id ≠ "")
      (hworkflow : h.workflow = childWorkflow issue.id g issue.deadline) (hparent : h.parent = {})
      (hkeys : ∃ original, k = original ++ "_" ++ g ∧
        h.cancellationKeys = childKeys k issue.id original)
      (hdata : h.active = true → h.data.isSome)
  | parent (g : Generation) (issue : Issue) (hissued : issued g = some issue) (hpre : issue.pre = m)
      (hid : issue.id = k)
      (hworkflow : h.workflow = { generation := some g, deadline := some issue.deadline })
      (hhash : h.parent.requestHash = some issue.requestHash)
      (hcancel : h.parent.cancellationKey = some k) (hchildren : h.parent.children.isSome)
      (hdata : h.data = none) (hclaim : h.claim = {})

/-- The facts about one task hash that every step preserves. -/
structure TaskHash.Sound (issued : Generation → Option Issue) (used : Token → Prop) (m : KeyPrefix)
    (k : TaskId) (h : TaskHash) : Prop where
  kind : RecordKind issued m k h
  unclaimed : h.terminal = true → h.claim.token = none
  unfenced : h.claim.token = none → h.claim.recoveryState = .clear
  fenced : h.claim.recoveryState ≠ .clear → h.status = some .processing
  claimed : ∀ t, h.claim.token = some t → h.active = true ∧ used t ∧
    h.claim.inflightQueue.isSome ∧ h.claim.sourceQueue.isSome
  payload : ∀ d, h.data = some d → d.taskId = k ∧ h.cancellationKeys = cancellationKeysOf d ∧
    h.workflow = d.workflow

variable {issued issued' : Generation → Option Issue} {used used' : Token → Prop} {m : KeyPrefix}
  {k : TaskId} {h h' : TaskHash}

namespace RecordKind

theorem mono (hissued : ∀ g issue, issued g = some issue → issued' g = some issue)
    (hkind : RecordKind issued m k h) : RecordKind issued' m k h := by
  cases hkind with
  | standalone hworkflow hparent hdata => exact standalone hworkflow hparent hdata
  | child g issue hg hpre hne hid hworkflow hparent hkeys hdata =>
      exact child g issue (hissued g issue hg) hpre hne hid hworkflow hparent hkeys hdata
  | parent g issue hg hpre hid hworkflow hhash hcancel hchildren hdata hclaim =>
      exact parent g issue (hissued g issue hg) hpre hid hworkflow hhash hcancel hchildren hdata
        hclaim

/-- A rewrite that leaves the identity of the record alone keeps its kind. -/
theorem of_rewrite (hkind : RecordKind issued m k h) (hworkflow : h'.workflow = h.workflow)
    (hparent : h'.parent = h.parent) (hkeys : h'.cancellationKeys = h.cancellationKeys)
    (hdata : h'.active = true → (h.active = true → h.data.isSome) → h'.data.isSome)
    (hblank : h.data = none → h.claim = {} → h'.data = none ∧ h'.claim = {}) :
    RecordKind issued m k h' := by
  cases hkind with
  | standalone hw hp hd =>
      exact standalone (hworkflow.trans hw) (hparent.trans hp) fun ha => hdata ha hd
  | child g issue hg hpre hne hid hw hp hk hd =>
      exact child g issue hg hpre hne hid (hworkflow.trans hw) (hparent.trans hp) (hkeys ▸ hk)
        fun ha => hdata ha hd
  | parent g issue hg hpre hid hw hhash hcancel hchildren hd hc =>
      obtain ⟨hd', hc'⟩ := hblank hd hc
      exact parent g issue hg hpre hid (hworkflow.trans hw) (hparent ▸ hhash) (hparent ▸ hcancel)
        (hparent ▸ hchildren) hd' hc'

/-- A claimed record is no workflow parent, so it has a payload. -/
theorem data_of_claimed (hkind : RecordKind issued m k h) (hactive : h.active = true) {t : Token}
    (ht : h.claim.token = some t) : h.data.isSome := by
  cases hkind with
  | standalone _ _ hdata => exact hdata hactive
  | child _ _ _ _ _ _ _ _ _ hdata => exact hdata hactive
  | parent _ _ _ _ _ _ _ _ _ _ hclaim =>
      rw [hclaim] at ht
      exact absurd ht (by simp)

/-- What the record of a workflow parent holds for as long as it exists. -/
structure IsParent (g : Generation) (issue : Issue) (h : TaskHash) : Prop where
  workflow : h.workflow = { generation := some g, deadline := some issue.deadline }
  requestHash : h.parent.requestHash = some issue.requestHash
  cancellationKey : h.parent.cancellationKey = some issue.id
  children : h.parent.children.isSome
  data : h.data = none
  claim : h.claim = {}

/-- A record that carries a generation issued to its own id is that workflow's parent. -/
theorem isParent_of_issued (hkind : RecordKind issued m k h) {g : Generation} {issue : Issue}
    (hg : h.workflow.generation = some g) (hissued : issued g = some issue) (hid : issue.id = k) :
    IsParent g issue h := by
  cases hkind with
  | standalone hworkflow _ _ =>
      rw [hworkflow] at hg
      exact absurd hg (by simp)
  | child g' issue' hissued' _ hne _ hworkflow _ _ _ =>
      rw [hworkflow] at hg
      obtain rfl := Option.some.inj hg
      rw [hissued'] at hissued
      obtain rfl := Option.some.inj hissued
      exact absurd hid hne
  | parent g' issue' hissued' _ hid' hworkflow hhash hcancel hchildren hdata hclaim =>
      have hg' := hg
      rw [hworkflow] at hg'
      obtain rfl := Option.some.inj hg'
      rw [hissued'] at hissued
      obtain rfl := Option.some.inj hissued
      exact ⟨hworkflow, hhash, hid.symm ▸ hcancel, hchildren, hdata, hclaim⟩

end RecordKind

namespace TaskHash.Sound

theorem mono (hissued : ∀ g issue, issued g = some issue → issued' g = some issue)
    (hused : ∀ t, used t → used' t) (hs : h.Sound issued used m k) : h.Sound issued' used' m k where
  kind := hs.kind.mono hissued
  unclaimed := hs.unclaimed
  unfenced := hs.unfenced
  fenced := hs.fenced
  claimed t ht := ⟨(hs.claimed t ht).1, hused t (hs.claimed t ht).2.1, (hs.claimed t ht).2.2⟩
  payload := hs.payload

theorem not_terminal_of_claimed (hs : h.Sound issued used m k) {t : Token}
    (ht : h.claim.token = some t) : h.terminal = false :=
  not_terminal_of_active (hs.claimed t ht).1

theorem data_of_claimed (hs : h.Sound issued used m k) {t : Token} (ht : h.claim.token = some t) :
    h.data.isSome :=
  hs.kind.data_of_claimed (hs.claimed t ht).1 ht

/-- Only the status, the stamps and the claim of a hash change, and it ends unclaimed. -/
theorem of_cleared (hs : h.Sound issued used m k) (hclaim : h'.claim = {})
    (hworkflow : h'.workflow = h.workflow) (hparent : h'.parent = h.parent)
    (hkeys : h'.cancellationKeys = h.cancellationKeys) (hdata : h'.data = h.data)
    (hactive : h'.active = true → h.active = true) : h'.Sound issued used m k where
  kind := hs.kind.of_rewrite hworkflow hparent hkeys
    (fun ha himp => hdata ▸ himp (hactive ha)) fun hd _ => ⟨hdata.trans hd, hclaim⟩
  unclaimed _ := by rw [hclaim]
  unfenced _ := by rw [hclaim]
  fenced hfence := absurd (by rw [hclaim]) hfence
  claimed t ht := by
    rw [hclaim] at ht
    exact absurd ht (by simp)
  payload d hd := by
    rw [hkeys, hworkflow]
    exact hs.payload d (hdata ▸ hd)

/-- Only the status and the stamps of a hash change. -/
theorem of_status (hs : h.Sound issued used m k) (hclaim : h'.claim = h.claim)
    (hworkflow : h'.workflow = h.workflow) (hparent : h'.parent = h.parent)
    (hkeys : h'.cancellationKeys = h.cancellationKeys) (hdata : h'.data = h.data)
    (hactive : h'.active = true → h.active = true)
    (hfree : h'.terminal = true → h.claim.token = none)
    (hclaimed : ∀ t, h.claim.token = some t → h'.active = true)
    (hfenced : h.claim.recoveryState ≠ .clear → h'.status = some .processing) :
    h'.Sound issued used m k where
  kind := hs.kind.of_rewrite hworkflow hparent hkeys
    (fun ha himp => hdata ▸ himp (hactive ha)) fun hd hc => ⟨hdata.trans hd, hclaim.trans hc⟩
  unclaimed ht := hclaim ▸ hfree ht
  unfenced := hclaim ▸ hs.unfenced
  fenced hfence := hfenced (hclaim ▸ hfence)
  claimed t ht := by
    rw [hclaim] at ht ⊢
    exact ⟨hclaimed t ht, (hs.claimed t ht).2⟩
  payload d hd := by
    rw [hkeys, hworkflow]
    exact hs.payload d (hdata ▸ hd)

theorem clearClaim (hs : h.Sound issued used m k) : h.clearClaim.Sound issued used m k :=
  hs.of_cleared rfl rfl rfl rfl rfl fun ha => ha

theorem cancelStamped (hs : h.Sound issued used m k) (now : Timestamp) :
    (h.cancelStamped now).Sound issued used m k :=
  hs.of_status rfl rfl rfl rfl rfl (fun ha => ha) hs.unclaimed (fun t ht => (hs.claimed t ht).1)
    hs.fenced

theorem cpuMarked (hs : h.Sound issued used m k) (hstatus : h.status = some .pending)
    (now : Timestamp) : (h.cpuMarked now).Sound issued used m k :=
  hs.of_status rfl rfl rfl rfl rfl (fun _ => h.active_iff.mpr (Or.inl hstatus))
    (fun ht => absurd ht (by simp [TaskHash.terminal, TaskHash.cpuMarked, TaskStatus.terminal]))
    (fun _ _ => by simp [TaskHash.active, TaskHash.cpuMarked]) fun _ => rfl

theorem renewed (hs : h.Sound issued used m k) (hactive : h.active = true) (now : Timestamp) :
    (h.renewed now).Sound issued used m k :=
  hs.of_status rfl rfl rfl rfl rfl (fun _ => hactive)
    (fun ht => absurd ht (by simp [TaskHash.terminal, TaskHash.renewed, TaskStatus.terminal]))
    (fun _ _ => by simp [TaskHash.active, TaskHash.renewed]) fun _ => rfl

theorem apply_terminal {task : TerminalMapping} (hterminal : task.status.terminal = true)
    (h : TaskHash) : (task.apply h).terminal = true := by
  simpa [TaskHash.terminal, TerminalMapping.apply] using hterminal

theorem applied (hs : h.Sound issued used m k) {task : TerminalMapping}
    (hterminal : task.status.terminal = true) : (task.apply h).Sound issued used m k := by
  refine hs.of_cleared rfl rfl rfl rfl rfl fun ha => ?_
  rw [not_active_of_terminal (apply_terminal hterminal h)] at ha
  exact absurd ha (by simp)

theorem stopped (hs : h.Sound issued used m k) (hstop : h.stoppable = true) (now : Timestamp) :
    (h.stopped now).Sound issued used m k where
  kind := hs.kind.of_rewrite rfl rfl rfl
    (fun ha => absurd ha (by simp [TaskHash.active, TaskHash.stopped]))
    fun hd hc => ⟨hd, by simp [TaskHash.stopped, ClaimFields.cleared, hc]⟩
  unclaimed _ := rfl
  unfenced _ := by
    simp only [TaskHash.stoppable, Bool.and_eq_true, beq_iff_eq] at hstop
    exact hstop.2
  fenced hfence := by
    simp only [TaskHash.stoppable, Bool.and_eq_true, beq_iff_eq] at hstop
    exact absurd hstop.2 hfence
  claimed t ht := absurd ht (by simp [TaskHash.stopped, ClaimFields.cleared])
  payload := hs.payload

/-- A workflow parent that its own generation finishes. -/
theorem committed (hs : h.Sound issued used m k) (hclaim : h.claim = {})
    {payload : ResultPayload} (hterminal : payload.status.any TaskStatus.terminal = true)
    (now : Timestamp) : (h.committed payload now).Sound issued used m k := by
  refine hs.of_cleared hclaim rfl rfl rfl rfl fun ha => ?_
  rw [not_active_of_terminal (show (h.committed payload now).terminal = true from hterminal)] at ha
  exact absurd ha (by simp)

theorem claimedBy (hs : h.Sound issued used m k) (hstatus : h.status = some .pending)
    (hdata : h.data.isSome) {t : Token} (ht : used t) (w : WorkerId) (p : InstanceId)
    (lane : Lane) : ({ h with claim := newClaim t w p lane } : TaskHash).Sound issued used m k where
  kind := hs.kind.of_rewrite rfl rfl rfl (fun _ _ => hdata) fun hd _ => by
    rw [hd] at hdata
    exact absurd hdata (by simp)
  unclaimed hterm := by
    have hterm' : h.terminal = true := hterm
    rw [not_terminal_of_active (h.active_iff.mpr (Or.inl hstatus))] at hterm'
    exact absurd hterm' (by simp)
  unfenced _ := rfl
  fenced hfence := absurd rfl hfence
  claimed t' ht' := by
    obtain rfl := Option.some.inj ht'
    exact ⟨h.active_iff.mpr (Or.inl hstatus), ht, rfl, rfl⟩
  payload := hs.payload

theorem marked (hs : h.Sound issued used m k) {t : Token} (ht : h.claim.token = some t)
    (now : Timestamp) (worker : WorkerId) (inst : InstanceId) (source : Lane) (w : WorkerId) :
    (h.marked now worker inst source w).Sound issued used m k where
  kind := hs.kind.of_rewrite rfl rfl rfl (fun _ _ => hs.data_of_claimed ht) fun _ hc => by
    rw [hc] at ht
    exact absurd ht (by simp)
  unclaimed hterm := absurd hterm (by simp [TaskHash.terminal, TaskHash.marked, TaskStatus.terminal])
  unfenced hnone := by
    rw [show (h.marked now worker inst source w).claim.token = h.claim.token from rfl, ht] at hnone
    exact absurd hnone (by simp)
  fenced _ := rfl
  claimed t' ht' := ⟨by simp [TaskHash.active, TaskHash.marked], (hs.claimed t' ht').2.1, rfl, rfl⟩
  payload := hs.payload

theorem frozen (hs : h.Sound issued used m k) {t : Token} (ht : h.claim.token = some t)
    (hstatus : h.status = some .processing) (reason : String) (now : Timestamp) :
    (h.frozen reason now).Sound issued used m k where
  kind := hs.kind.of_rewrite rfl rfl rfl (fun _ _ => hs.data_of_claimed ht) fun _ hc => by
    rw [hc] at ht
    exact absurd ht (by simp)
  unclaimed := hs.unclaimed
  unfenced hnone := by
    rw [show (h.frozen reason now).claim.token = h.claim.token from rfl, ht] at hnone
    exact absurd hnone (by simp)
  fenced _ := hstatus
  claimed := hs.claimed
  payload := hs.payload

/-- A rewrite that puts a task back behind admission with a payload for the same ids. -/
theorem of_restored (hs : h.Sound issued used m k) (hclaim : h'.claim = {})
    (hworkflow : h'.workflow = h.workflow) (hparent : h'.parent = h.parent)
    (hkeys : h'.cancellationKeys = h.cancellationKeys) {d : TaskData} (hd : h.data = some d) {w : WorkerId}
    {reason : String} {now : Timestamp}
    (hdata : h'.data = some (restoredTask d w reason now)) : h'.Sound issued used m k where
  kind := hs.kind.of_rewrite hworkflow hparent hkeys (fun _ _ => by simp [hdata]) fun hnone _ => by
    rw [hd] at hnone
    exact absurd hnone (by simp)
  unclaimed _ := by rw [hclaim]
  unfenced _ := by rw [hclaim]
  fenced hfence := absurd (by rw [hclaim]) hfence
  claimed t ht := by
    rw [hclaim] at ht
    exact absurd ht (by simp)
  payload d' hd' := by
    rw [hdata] at hd'
    obtain rfl := Option.some.inj hd'
    rw [hkeys, hworkflow]
    exact hs.payload d hd

end TaskHash.Sound

/-! ### Records that a transaction creates -/

theorem sound_parentRecord {g : Generation} {issue : Issue} (hissued : issued g = some issue)
    (hpre : issue.pre = m) (hid : issue.id = k) (name : String) (submittedAt : Timestamp) :
    (parentRecord k g issue.requestHash name issue.deadline submittedAt).Sound issued used m k where
  kind := RecordKind.parent g issue hissued hpre hid rfl rfl rfl rfl rfl rfl
  unclaimed _ := rfl
  unfenced _ := rfl
  fenced hfence := absurd rfl hfence
  claimed _ ht := absurd ht (by simp [parentRecord])
  payload _ hd := absurd hd (by simp [parentRecord])

theorem sound_taskMapping {d : TaskData} (hkind : RecordKind issued m d.taskId (taskMapping d now)) :
    (taskMapping d now).Sound issued used m d.taskId where
  kind := hkind
  unclaimed _ := rfl
  unfenced _ := rfl
  fenced hfence := absurd rfl hfence
  claimed _ ht := absurd ht (by simp [taskMapping])
  payload d' hd := by
    obtain rfl := Option.some.inj hd
    exact ⟨rfl, rfl, rfl⟩

/-- A hash that holds no more than a status and stamps. -/
theorem sound_blank (hworkflow : h.workflow = {}) (hparent : h.parent = {}) (hclaim : h.claim = {})
    (hdata : h.data = none) (hactive : h.active = false) : h.Sound issued used m k where
  kind := RecordKind.standalone hworkflow hparent fun ha => by
    rw [hactive] at ha
    exact absurd ha (by simp)
  unclaimed _ := by rw [hclaim]
  unfenced _ := by rw [hclaim]
  fenced hfence := absurd (by rw [hclaim]) hfence
  claimed t ht := by
    rw [hclaim] at ht
    exact absurd ht (by simp)
  payload d hd := by
    rw [hdata] at hd
    exact absurd hd (by simp)

end KernelGym
