import KernelGym.WorkflowCommit

/-! `_execute_workflow`: POST requests over the control plane. A request is accepted by one transaction
and reads its record by a second command; then it waits for the result of the generation it found. Any
step of the control plane, other requests included, may fall in between. -/

namespace KernelGym

/-- How far a request has come. -/
inductive CallStage
  /-- The accept transaction answered, the record is not read yet. -/
  | reading
  /-- `accept` returned this record; the request waits. -/
  | waiting (record : TaskHash)
  /-- `wait` has seen its generation in place; `active` is the status it read. -/
  | polled (record : TaskHash) (active : Bool)
  | answered (record : TaskHash) (payload : ResultPayload)
  /-- Answered from an earlier result, without an accept. -/
  | cached (result : ResultHash)
  deriving DecidableEq

/-- One `_execute_workflow` call. -/
structure Call where
  pre : KeyPrefix
  id : TaskId
  requestHash : String
  /-- The generation this call has drawn. -/
  generation : Generation
  /-- `accept` answered that this call created the workflow. -/
  owner : Bool
  stage : CallStage
  deriving DecidableEq

/-- The control plane with the requests in flight. -/
structure Service where
  sys : Sys := {}
  calls : Nat → Option Call := fun _ => none
  /-- The generations a controller was started for, by `WorkflowLifecycle.run`. -/
  controllers : List Generation := []

def Service.setCall (S : Service) (i : Nat) (c : Option Call) : Service :=
  { S with calls := Function.update S.calls i c }

inductive ServiceAction
  /-- Any step of the control plane. -/
  | control (a : Action)
  /-- `get_task_result` with the expected request hash finds a result. -/
  | cached (i : Nat) (pre : KeyPrefix) (id : TaskId) (requestHash : String)
  | accept (i : Nat) (pre : KeyPrefix) (id : TaskId) (g : Generation) (requestHash name : String)
      (timeout : Nat) (force : Bool) (now : Timestamp)
  /-- The `read` at the end of `accept`, and the start of the controller by an owner. -/
  | readRecord (i : Nat)
  /-- One round of `wait`: the record after `reconcile`, and its generation check. -/
  | waitRecord (i : Nat)
  /-- One round of `wait`: the result, read under one prefix, and its generation check. -/
  | waitResult (i : Nat) (pre : KeyPrefix)

/-- The step of the control plane in an action, if it has one. -/
def ServiceAction.control? : ServiceAction → Option Action
  | .control a => some a
  | .accept _ pre id g requestHash name timeout force now =>
      some (.accept pre id g requestHash name timeout force now)
  | _ => none

/-- `wait` after it read a result hash: the answer, a conflict, or another round. -/
def waitAnswer (c : Call) (record : TaskHash) (active : Bool) (result : Option ResultHash) :
    Option Call :=
  match result.bind ResultHash.result with
  | some payload =>
      if payload.workflowGeneration = record.workflow.generation then
        some { c with stage := .answered record payload }
      else none
  | none =>
      -- A result without a payload but with an error carries no generation.
      if result.any fun r => r.error.isSome then none
      else if active then some { c with stage := .waiting record }
      else none

/-- One step of the service. A call that ends with a conflict is forgotten. -/
def serviceStep (S : Service) : ServiceAction → Option Service
  | .control a => (step S.sys a).map fun sys => { S with sys := sys }
  | .cached i pre id requestHash =>
      if S.calls i = none then
        ((S.sys.spaces pre).results id).bind fun r =>
          if r.requestHash = some requestHash ∧ (r.result.isSome || r.error.isSome) then
            some (S.setCall i (some
              { pre := pre
                id := id
                requestHash := requestHash
                generation := ""
                owner := false
                stage := .cached r }))
          else none
      else none
  | .accept i pre id g requestHash name timeout force now =>
      if S.calls i = none then
        (step S.sys (.accept pre id g requestHash name timeout force now)).map fun sys =>
          let reply := acceptReply id requestHash force (S.sys.spaces pre)
          let next := { S with sys := sys }
          if reply < 0 then next
          else
            next.setCall i (some
              { pre := pre
                id := id
                requestHash := requestHash
                generation := g
                owner := reply = 1
                stage := .reading })
      else none
  | .readRecord i =>
      (S.calls i).bind fun c =>
        if c.stage = .reading then
          let record := (S.sys.spaces c.pre).hgetall c.id
          let next := S.setCall i (some { c with stage := .waiting record })
          some
            { next with
              controllers :=
                if c.owner then record.workflow.generation.toList ++ S.controllers
                else S.controllers }
        else none
  | .waitRecord i =>
      (S.calls i).bind fun c =>
        match c.stage with
        | .waiting record =>
            let current := (S.sys.spaces c.pre).hgetall c.id
            some (S.setCall i
              (if record.workflow.generation.isSome ∧
                  current.workflow.generation = record.workflow.generation then
                some { c with stage := .polled record current.active }
              else none))
        | _ => none
  | .waitResult i pre =>
      (S.calls i).bind fun c =>
        match c.stage with
        | .polled record active =>
            some (S.setCall i (waitAnswer c record active ((S.sys.spaces pre).results c.id)))
        | _ => none

/-- The record that `accept` returned to a call. -/
def CallStage.record : CallStage → Option TaskHash
  | .waiting record | .polled record _ | .answered record _ => some record
  | .reading | .cached _ => none

/-- The action removes the record of `k`: a force refresh or a discard that is not refused, the
deletion of the records, the expiry of the task hash. -/
def Sys.removesRecord (s : Sys) (m : KeyPrefix) (k : TaskId) : Action → Prop
  | .submit pre d _ force _ _ => pre = m ∧ d.taskId = k ∧ force = true ∧
      (s.spaces m).workflowAllowed (cancellationKeysOf d) d.workflow = true ∧
      (s.cell m k).hash.terminal = true ∧ (s.cell m k).hash.claim.token = none
  | .discardWorkflow pre id g _ => pre = m ∧ id = k ∧
      (s.cell m k).hash.workflow.generation = some g ∧
      (s.cell m k).hash.terminal = true ∧ (s.cell m k).hash.claim.token = none
  | .deleteRecords pre id | .expireTask pre id => pre = m ∧ id = k
  | _ => False

/-- The action takes the record of a call away before it was read: it removes the record, or accepts
a new generation of the id, for a call that joined under another request hash. -/
def Call.displacedBy (c : Call) (s : Sys) (a : Action) : Prop :=
  s.removesRecord c.pre c.id a ∨
    (s.reaccepts c.pre c.id a ∧ (c.owner = true ∨
      ∀ g name timeout force now, a ≠ .accept c.pre c.id g c.requestHash name timeout force now))

/-- No call that waits for its first read is displaced by the action. -/
def Service.undisplaced (S : Service) (x : ServiceAction) : Prop :=
  ∀ a, x.control? = some a → ∀ i c, S.calls i = some c → c.stage = .reading →
    ¬c.displacedBy S.sys a

variable {s s' : Sys} {a : Action} {m : KeyPrefix} {k : TaskId} {C' : Cell}

/-- A record keeps its workflow and parent fields until it is removed or accepted anew. -/
theorem CellStep.identity_kept (hcell : CellStep s m k (s.cell m k) a C')
    (hnot : ¬s.removesRecord m k a) (haccept : ¬s.reaccepts m k a) {h : TaskHash}
    (hh : (s.cell m k).view.hash = some h) :
    ∃ h', C'.view.hash = some h' ∧ h'.workflow = h.workflow ∧ h'.parent = h.parent := by
  have hhash : (s.cell m k).hash = h := Cell.hash_of_some hh
  subst hhash
  cases hcell with
  | idle | forgotten | loaded | checked | observed | adopted | superseded | finalizeSuperseded
  | entryDropped | staleCopy | resultExpired | cpuPopped | cpuPushed => exact ⟨_, hh, rfl, rfl⟩
  | debris _ hlow =>
      obtain ⟨n, -, rfl⟩ := hlow
      exact ⟨_, hh, rfl, rfl⟩
  | submitted hpayload hid hallowed hnone =>
      rw [hh] at hnone
      exact absurd hnone (by simp)
  | refreshed hpayload hid hallowed hold =>
      exact absurd ⟨rfl, hid, rfl, hallowed, (hold _ hh).1, (hold _ hh).2⟩ hnot
  | claimed | marked | markRefused | acked | requeued | requeueRefused | frozen | finalized
  | renewed | moved | cpuMarked | published => exact ⟨_, rfl, rfl, rfl⟩
  | returned =>
      unfold TaskView.returned
      split_ifs <;> exact ⟨_, rfl, rfl, rfl⟩
  | stamped hstamped =>
      obtain hsame := Option.some.inj (hh.symm.trans hstamped)
      exact ⟨_, rfl, by rw [hsame]; rfl, by rw [hsame]; rfl⟩
  | stampedAbsent hnone =>
      rw [hh] at hnone
      exact absurd hnone (by simp)
  | @cancelled now retention h' hstamped hchildren =>
      obtain rfl := Option.some.inj (hh.symm.trans hstamped)
      unfold TaskView.withdrawn
      split_ifs with hstop
      · exact ⟨_, rfl, rfl, rfl⟩
      · exact ⟨_, TaskView.purgeLanes_hash _ _, rfl, rfl⟩
  | swept hne hmem =>
      unfold TaskView.swept TaskView.withdrawn
      split_ifs with hstop
      · exact ⟨_, rfl, rfl, rfl⟩
      · exact ⟨_, (TaskView.purgeLanes_hash _ _).trans hh, rfl, rfl⟩
  | accepted hid hfresh hreply => exact absurd ⟨rfl, rfl, hreply⟩ haccept
  | committed => exact ⟨_, TaskView.purgeLanes_hash _ _, rfl, rfl⟩
  | discarded hgen hterminal htoken => exact absurd ⟨rfl, rfl, hgen, hterminal, htoken⟩ hnot
  | taskExpired | deleted => exact absurd ⟨rfl, rfl⟩ hnot

/-- The record that a call has read is that of a workflow accepted with the request hash of the call,
and of the generation the call has created if it is the owner. -/
structure Call.Owns (c : Call) (s : Sys) (record : TaskHash) : Prop where
  requestHash : record.parent.requestHash = some c.requestHash
  owner : c.owner = true → record.workflow.generation = some c.generation
  accepted : ∃ g issue, record.workflow.generation = some g ∧ s.issued g = some issue ∧
    issue.pre = c.pre ∧ issue.id = c.id ∧ issue.requestHash = c.requestHash

/-- What is known about a call at its stage. -/
structure Call.Good (c : Call) (s : Sys) : Prop where
  drawn : c.owner = true → (s.issued c.generation).isSome
  reading : c.stage = .reading → ∃ h, (s.spaces c.pre).tasks c.id = some h ∧
    h.parent.requestHash = some c.requestHash ∧
    (c.owner = true → h.workflow.generation = some c.generation)
  record : ∀ record, c.stage.record = some record → c.Owns s record
  answered : ∀ record payload, c.stage = .answered record payload →
    payload.workflowGeneration = record.workflow.generation
  cached : ∀ r, c.stage = .cached r → r.requestHash = some c.requestHash

theorem Call.Owns.mono {c : Call} {record : TaskHash} (h : c.Owns s record)
    (hissued : ∀ g issue, s.issued g = some issue → s'.issued g = some issue) :
    c.Owns s' record where
  requestHash := h.requestHash
  owner := h.owner
  accepted := by
    obtain ⟨g, issue, hg, hissue, hcall⟩ := h.accepted
    exact ⟨g, issue, hg, hissued g issue hissue, hcall⟩

/-- A record with a request hash is that of a workflow parent, accepted with this hash. -/
theorem Sys.Valid.accepted_hash (hv : s.Valid) {h : TaskHash} (hh : (s.spaces m).tasks k = some h)
    {requestHash : String} (hhash : h.parent.requestHash = some requestHash) :
    ∃ g issue, h.workflow.generation = some g ∧ s.issued g = some issue ∧ issue.pre = m ∧
      issue.id = k ∧ issue.requestHash = requestHash := by
  cases ((hv.cell m k).sound h hh).kind with
  | standalone _ hparent _ =>
      rw [hparent] at hhash
      exact absurd hhash (by simp)
  | child _ _ _ _ _ _ _ hparent _ _ =>
      rw [hparent] at hhash
      exact absurd hhash (by simp)
  | parent g issue hissued hpre hid hworkflow hrequest _ _ _ _ =>
      rw [hrequest, Option.some.injEq] at hhash
      exact ⟨g, issue, by rw [hworkflow], hissued, hpre, hid, hhash⟩

/-- A step of the control plane that does not displace the call. -/
theorem Call.Good.step {c : Call} (hc : c.Good s) (hstep : step s a = some s')
    (hnot : c.stage = .reading → ¬c.displacedBy s a) : c.Good s' := by
  have hissued := (stepFrame_of_step hstep).issued
  refine ⟨fun howner => ?_, fun hreading => ?_, fun record hr => (hc.record record hr).mono hissued,
    hc.answered, hc.cached⟩
  · obtain ⟨issue, hissue⟩ := Option.isSome_iff_exists.mp (hc.drawn howner)
    exact Option.isSome_iff_exists.mpr ⟨issue, hissued _ issue hissue⟩
  · obtain ⟨h, hh, hhash, hgen⟩ := hc.reading hreading
    have hkeep := hnot hreading
    rw [Call.displacedBy, not_or] at hkeep
    by_cases hre : s.reaccepts c.pre c.id a
    · -- A joined call whose workflow is accepted again under the same request hash.
      obtain ⟨howner, hsame⟩ := not_or.mp (fun h => hkeep.2 ⟨hre, h⟩)
      simp only [not_forall, ne_eq, not_not] at hsame
      obtain ⟨g, name, timeout, force, now, rfl⟩ := hsame
      obtain ⟨-, -, hreply⟩ := hre
      exact ⟨_, accept_parentRecord hstep hreply, rfl, fun h => absurd h howner⟩
    · obtain ⟨h', hh', hworkflow, hparent⟩ :=
        (cellStep_of_step c.pre c.id hstep).identity_kept hkeep.1 hre hh
      exact ⟨h', hh', by rw [hparent, hhash], fun h => by rw [hworkflow, hgen h]⟩

/-- A call that joins finds a record with its request hash. -/
theorem acceptReply_zero {S : Store} {requestHash : String} {force : Bool}
    (h : ¬acceptReply k requestHash force S < 0) (hne : acceptReply k requestHash force S ≠ 1) :
    ∃ task, S.tasks k = some task ∧ task.parent.requestHash = some requestHash := by
  unfold acceptReply at h hne
  by_cases htomb : S.tombstones k = true
  · rw [if_pos htomb] at h
    exact absurd (by decide) h
  rw [if_neg htomb] at h hne
  cases htask : S.tasks k with
  | none =>
      rw [htask] at h hne
      dsimp only at h hne
      split_ifs at h hne <;> first | exact absurd (by decide) h | exact absurd rfl hne
  | some task =>
      rw [htask] at h hne
      dsimp only at h hne
      refine ⟨task, rfl, ?_⟩
      split_ifs at h hne <;>
        first | exact absurd (by decide) h | exact absurd rfl hne | exact not_not.mp ‹_› | tauto

/-- The invariant of the service. -/
structure Service.Inv (S : Service) : Prop where
  valid : S.sys.Valid
  good : ∀ i c, S.calls i = some c → c.Good S.sys
  distinct : ∀ i j c d, S.calls i = some c → S.calls j = some d → c.owner = true →
    d.owner = true → c.generation = d.generation → i = j
  started : ∀ g ∈ S.controllers, (S.sys.issued g).isSome
  unstarted : ∀ i c, S.calls i = some c → c.stage = .reading → c.owner = true →
    c.generation ∉ S.controllers
  once : S.controllers.Nodup

variable {S S' : Service} {x : ServiceAction}

theorem Service.calls_setCall {i j : Nat} {o : Option Call} {d : Call}
    (h : (S.setCall i o).calls j = some d) :
    (j = i ∧ o = some d) ∨ (j ≠ i ∧ S.calls j = some d) := by
  simp only [Service.setCall, Function.update_apply] at h
  split_ifs at h with hj
  · exact Or.inl ⟨hj, h⟩
  · exact Or.inr ⟨hj, h⟩

/-- A step of the control plane by no call. -/
theorem Service.Inv.control (hi : S.Inv) (hstep : step S.sys a = some s')
    (hnot : ∀ i c, S.calls i = some c → c.stage = .reading → ¬c.displacedBy S.sys a) :
    ({ S with sys := s' } : Service).Inv where
  valid := hi.valid.step hstep
  good i c hc := (hi.good i c hc).step hstep (hnot i c hc)
  distinct := hi.distinct
  started g hg := by
    obtain ⟨issue, hissue⟩ := Option.isSome_iff_exists.mp (hi.started g hg)
    exact Option.isSome_iff_exists.mpr ⟨issue, (stepFrame_of_step hstep).issued g issue hissue⟩
  unstarted := hi.unstarted
  once := hi.once

/-- A call that moves on after its first read, or ends. -/
theorem Service.Inv.setCall (hi : S.Inv) (i : Nat) (o : Option Call)
    (ho : ∀ c', o = some c' → c'.Good S.sys ∧ c'.stage ≠ .reading ∧
      (c'.owner = true → ∃ c, S.calls i = some c ∧ c.owner = true ∧
        c.generation = c'.generation)) : (S.setCall i o).Inv where
  valid := hi.valid
  good j d hd := by
    rcases Service.calls_setCall hd with ⟨-, ho'⟩ | ⟨-, hd'⟩
    · exact (ho d ho').1
    · exact hi.good j d hd'
  distinct j₁ j₂ d₁ d₂ hd₁ hd₂ ho₁ ho₂ hgen := by
    have hold : ∀ {j d}, (S.setCall i o).calls j = some d → d.owner = true →
        ∃ c, S.calls j = some c ∧ c.owner = true ∧ c.generation = d.generation := by
      intro j d hd howner
      rcases Service.calls_setCall hd with ⟨rfl, ho'⟩ | ⟨-, hd'⟩
      · exact (ho d ho').2.2 howner
      · exact ⟨d, hd', howner, rfl⟩
    obtain ⟨c₁, hc₁, hco₁, hcg₁⟩ := hold hd₁ ho₁
    obtain ⟨c₂, hc₂, hco₂, hcg₂⟩ := hold hd₂ ho₂
    exact hi.distinct j₁ j₂ c₁ c₂ hc₁ hc₂ hco₁ hco₂ (by rw [hcg₁, hcg₂, hgen])
  started := hi.started
  unstarted j d hd hreading := by
    rcases Service.calls_setCall hd with ⟨-, ho'⟩ | ⟨-, hd'⟩
    · exact absurd hreading (ho d ho').2.1
    · exact hi.unstarted j d hd' hreading
  once := hi.once

theorem Service.Inv.accept (hi : S.Inv) {i : Nat} {g : Generation} {requestHash name : String}
    {timeout : Nat} {force : Bool} {now : Timestamp} (hnone : S.calls i = none)
    (hstep : step S.sys (.accept m k g requestHash name timeout force now) = some s')
    (hnot : ∀ i c, S.calls i = some c → c.stage = .reading →
      ¬c.displacedBy S.sys (.accept m k g requestHash name timeout force now))
    (hreply : ¬acceptReply k requestHash force (S.sys.spaces m) < 0) :
    (({ S with sys := s' } : Service).setCall i (some
      { pre := m
        id := k
        requestHash := requestHash
        generation := g
        owner := acceptReply k requestHash force (S.sys.spaces m) = 1
        stage := .reading })).Inv := by
  have hcontrol := hi.control hstep hnot
  have hfresh : S.sys.issued g = none := by
    simp only [step, Option.ite_none_right_eq_some] at hstep
    exact hstep.1.2
  -- The generation that was just drawn belongs to no other call and no controller.
  have hother : ∀ {j c}, S.calls j = some c → c.owner = true → c.generation ≠ g := by
    rintro j c hc howner rfl
    have hdrawn := (hi.good j c hc).drawn howner
    rw [hfresh] at hdrawn
    exact absurd hdrawn (by simp)
  refine ⟨hcontrol.valid, fun j d hd => ?_, fun j₁ j₂ d₁ d₂ hd₁ hd₂ ho₁ ho₂ hgen => ?_,
    hcontrol.started, fun j d hd hreading howner => ?_, hcontrol.once⟩
  · rcases Service.calls_setCall hd with ⟨-, hnew⟩ | ⟨-, hd'⟩
    · obtain rfl := Option.some.inj hnew
      refine ⟨fun howner => ?_, fun _ => ?_, fun record hr => absurd hr (by simp [CallStage.record]),
        fun record payload hstage => absurd hstage (by simp),
        fun r hstage => absurd hstage (by simp)⟩
      · exact Option.isSome_iff_exists.mpr ⟨_, accept_issued hstep (by simpa using howner)⟩
      · by_cases hone : acceptReply k requestHash force (S.sys.spaces m) = 1
        · exact ⟨_, accept_parentRecord hstep hone, rfl, fun _ => rfl⟩
        · obtain ⟨task, htask, hhash⟩ := acceptReply_zero hreply hone
          have hnotre : ¬S.sys.reaccepts m k
              (.accept m k g requestHash name timeout force now) := fun hre => hone hre.2.2
          obtain ⟨h', hh', -, hparent⟩ :=
            (cellStep_of_step m k hstep).identity_kept (fun h => h) hnotre htask
          exact ⟨h', hh', by rw [hparent, hhash], fun howner => absurd howner (by simp [hone])⟩
    · exact hcontrol.good j d hd'
  · rcases Service.calls_setCall hd₁ with ⟨rfl, hnew₁⟩ | ⟨hj₁, hd₁'⟩ <;>
      rcases Service.calls_setCall hd₂ with ⟨rfl, hnew₂⟩ | ⟨hj₂, hd₂'⟩
    · rfl
    · obtain rfl := Option.some.inj hnew₁
      exact absurd hgen.symm (hother hd₂' ho₂)
    · obtain rfl := Option.some.inj hnew₂
      exact absurd hgen (hother hd₁' ho₁)
    · exact hi.distinct j₁ j₂ d₁ d₂ hd₁' hd₂' ho₁ ho₂ hgen
  · rcases Service.calls_setCall hd with ⟨-, hnew⟩ | ⟨-, hd'⟩
    · obtain rfl := Option.some.inj hnew
      intro hmem
      have hissued := hi.started g hmem
      rw [hfresh] at hissued
      exact absurd hissued (by simp)
    · exact hi.unstarted j d hd' hreading howner

theorem Service.Inv.readRecord (hi : S.Inv) {i : Nat} {c : Call} (hc : S.calls i = some c)
    (hreading : c.stage = .reading) :
    ({ S.setCall i (some { c with stage := .waiting ((S.sys.spaces c.pre).hgetall c.id) }) with
      controllers :=
        if c.owner then ((S.sys.spaces c.pre).hgetall c.id).workflow.generation.toList ++
          S.controllers
        else S.controllers } : Service).Inv := by
  have hgood := hi.good i c hc
  obtain ⟨h, hh, hhash, hgen⟩ := hgood.reading hreading
  rw [Store.hgetall_of_some hh]
  have hset : (S.setCall i (some { c with stage := .waiting h })).Inv := by
    refine hi.setCall i _ fun c' hc' => ?_
    obtain rfl := Option.some.inj hc'
    refine ⟨⟨hgood.drawn, fun hstage => absurd hstage (by simp), fun record hr => ?_,
      fun record payload hstage => absurd hstage (by simp),
      fun r hstage => absurd hstage (by simp)⟩, by simp, fun howner => ⟨c, hc, howner, rfl⟩⟩
    obtain rfl := Option.some.inj hr
    exact ⟨hhash, hgen, hi.valid.accepted_hash hh hhash⟩
  by_cases howner : c.owner = true
  · rw [if_pos howner, hgen howner]
    refine ⟨hset.valid, hset.good, hset.distinct, fun g hg => ?_, fun j d hd hstage hown => ?_, ?_⟩
    · rcases List.mem_cons.mp hg with rfl | hg
      · exact hgood.drawn howner
      · exact hi.started g hg
    · rcases Service.calls_setCall hd with ⟨-, hnew⟩ | ⟨hj, hd'⟩
      · obtain rfl := Option.some.inj hnew
        exact absurd hstage (by simp)
      · intro hmem
        rcases List.mem_cons.mp hmem with heq | hmem
        · exact hj (hi.distinct j i d c hd' hc hown howner heq)
        · exact hi.unstarted j d hd' hstage hown hmem
    · exact List.nodup_cons.mpr ⟨hi.unstarted i c hc hreading howner, hi.once⟩
  · rw [if_neg howner]
    exact hset

theorem Service.Inv.step (hi : S.Inv) (hnot : S.undisplaced x) (hstep : serviceStep S x = some S') :
    S'.Inv := by
  cases x with
  | control a =>
      simp only [serviceStep, Option.map_eq_some_iff] at hstep
      obtain ⟨s', hs', rfl⟩ := hstep
      exact hi.control hs' (hnot a rfl)
  | cached i pre id requestHash =>
      simp only [serviceStep, Option.ite_none_right_eq_some, Option.bind_eq_some_iff,
        Option.some.injEq] at hstep
      obtain ⟨hnone, r, hr, ⟨hhash, -⟩, rfl⟩ := hstep
      refine hi.setCall i _ fun c' hc' => ?_
      obtain rfl := Option.some.inj hc'
      refine ⟨⟨fun howner => absurd howner (by simp), fun hstage => absurd hstage (by simp),
        fun record hrecord => absurd hrecord (by simp [CallStage.record]),
        fun record payload hstage => absurd hstage (by simp), fun r' hstage => ?_⟩, by simp,
        fun howner => absurd howner (by simp)⟩
      rw [← CallStage.cached.inj hstage]
      exact hhash
  | accept i pre id g requestHash name timeout force now =>
      simp only [serviceStep, Option.ite_none_right_eq_some, Option.map_eq_some_iff] at hstep
      obtain ⟨hnone, s', hs', rfl⟩ := hstep
      split_ifs with hreply
      · exact hi.control hs' (hnot _ rfl)
      · exact hi.accept hnone hs' (hnot _ rfl) hreply
  | readRecord i =>
      simp only [serviceStep, Option.bind_eq_some_iff, Option.ite_none_right_eq_some,
        Option.some.injEq] at hstep
      obtain ⟨c, hc, hreading, rfl⟩ := hstep
      exact hi.readRecord hc hreading
  | waitRecord i =>
      simp only [serviceStep, Option.bind_eq_some_iff] at hstep
      obtain ⟨c, hc, hstep⟩ := hstep
      split at hstep
      · rename_i record hstage
        obtain rfl := Option.some.inj hstep
        have hgood := hi.good i c hc
        refine hi.setCall i _ fun c' hc' => ?_
        split_ifs at hc'
        obtain rfl := Option.some.inj hc'
        refine ⟨⟨hgood.drawn, fun hstage' => absurd hstage' (by simp), fun record' hr => ?_,
          fun record' payload hstage' => absurd hstage' (by simp),
          fun r hstage' => absurd hstage' (by simp)⟩, by simp, fun howner => ⟨c, hc, howner, rfl⟩⟩
        have hrecord := hgood.record record' (by rw [hstage]; exact hr)
        exact ⟨hrecord.requestHash, hrecord.owner, hrecord.accepted⟩
      · exact absurd hstep (by simp)
  | waitResult i pre =>
      simp only [serviceStep, Option.bind_eq_some_iff] at hstep
      obtain ⟨c, hc, hstep⟩ := hstep
      split at hstep
      · rename_i record active hstage
        obtain rfl := Option.some.inj hstep
        have hgood := hi.good i c hc
        have hrecord := hgood.record record (by rw [hstage]; rfl)
        refine hi.setCall i _ fun c' hc' => ?_
        unfold waitAnswer at hc'
        split at hc'
        · rename_i payload hpayload
          split_ifs at hc' with hgen
          obtain rfl := Option.some.inj hc'
          refine ⟨⟨hgood.drawn, fun hstage' => absurd hstage' (by simp), fun record' hr => ?_,
            fun record' payload' hstage' => ?_, fun r hstage' => absurd hstage' (by simp)⟩, by simp,
            fun howner => ⟨c, hc, howner, rfl⟩⟩
          · obtain rfl := Option.some.inj hr
            exact ⟨hrecord.requestHash, hrecord.owner, hrecord.accepted⟩
          · obtain ⟨rfl, rfl⟩ := CallStage.answered.inj hstage'
            exact hgen
        · split_ifs at hc'
          obtain rfl := Option.some.inj hc'
          refine ⟨⟨hgood.drawn, fun hstage' => absurd hstage' (by simp), fun record' hr => ?_,
            fun record' payload hstage' => absurd hstage' (by simp),
            fun r hstage' => absurd hstage' (by simp)⟩, by simp, fun howner => ⟨c, hc, howner, rfl⟩⟩
          obtain rfl := Option.some.inj hr
          exact ⟨hrecord.requestHash, hrecord.owner, hrecord.accepted⟩
      · exact absurd hstep (by simp)

/-- Every call got its own record, at most one controller was started for each generation, and every
answer was published for the request of the call. -/
structure Service.Faithful (S : Service) : Prop where
  accepted : ∀ i c record, S.calls i = some c → c.stage.record = some record →
    record.parent.requestHash = some c.requestHash ∧
      (c.owner = true → record.workflow.generation = some c.generation)
  controllers : S.controllers.Nodup
  answered : ∀ i c record payload, S.calls i = some c → c.stage = .answered record payload →
    ∃ g issue, payload.workflowGeneration = some g ∧ S.sys.issued g = some issue ∧
      issue.pre = c.pre ∧ issue.id = c.id ∧ issue.requestHash = c.requestHash
  cached : ∀ i c r, S.calls i = some c → c.stage = .cached r → r.requestHash = some c.requestHash

/-- In every run in which no accept, force refresh or removal displaces the record of a call between
its accept transaction and its read, calls get the records and results of their own requests. -/
theorem posted_request_faithful
    (hs : Library.RunWhen serviceStep Service.undisplaced {} S) : S.Faithful := by
  have hi : S.Inv := Library.RunWhen.invariant (fun _ _ _ hi hnot hstep => hi.step hnot hstep) hs
    { valid := Sys.valid_empty
      good := fun i c hc => absurd hc (by simp)
      distinct := fun i j c d hc => absurd hc (by simp)
      started := fun g hg => absurd hg (by simp)
      unstarted := fun i c hc => absurd hc (by simp)
      once := List.nodup_nil }
  refine ⟨fun i c record hc hr => ?_, hi.once, fun i c record payload hc hstage => ?_,
    fun i c r hc hstage => (hi.good i c hc).cached r hstage⟩
  · have howns := (hi.good i c hc).record record hr
    exact ⟨howns.requestHash, howns.owner⟩
  · obtain ⟨g, issue, hg, hissue⟩ :=
      ((hi.good i c hc).record record (by rw [hstage]; rfl)).accepted
    exact ⟨g, issue, ((hi.good i c hc).answered record payload hstage).trans hg, hissue⟩

/-- The state of the service after a list of actions. -/
def Service.after (actions : List ServiceAction) : Service :=
  (Library.execute serviceStep actions {}).getD {}

/-- No call waits for its first read. -/
theorem Service.undisplaced_of_read (hread : ∀ i c, S.calls i = some c → c.stage ≠ .reading) :
    S.undisplaced x :=
  fun _ _ i c hc hreading => absurd hreading (hread i c hc)

def postJob : ServiceAction :=
  .accept 0 "kernelgym" "job" "g1" "hash" "kernelbench" 100 false "0"

/-- A request is accepted, has read its record and waits. -/
def postedJob : List ServiceAction := [postJob, .readRecord 0, .waitRecord 0]

theorem posted_request_faithful_answered :
    (((Service.after (postedJob ++ [.control finishJob, .waitResult 0 "kernelgym"])).calls 0).any
      fun c => c.requestHash = "hash" ∧ c.stage.record.isSome) ∧
    (Service.after (postedJob ++ [.control finishJob, .waitResult 0 "kernelgym"])).Faithful := by
  refine ⟨by decide, posted_request_faithful ?_⟩
  have haccept : Library.RunWhen serviceStep Service.undisplaced {} (Service.after [postJob]) :=
    Library.RunWhen.single (a := postJob) (Service.undisplaced_of_read fun i c hc => by simp at hc)
      (Library.step_getD (by decide))
  have hread : ∀ i c, (Service.after postedJob).calls i = some c → c.stage ≠ .reading := by
    intro i c hc
    cases i with
    | zero =>
        have hall : ((Service.after postedJob).calls 0).all fun c => c.stage ≠ .reading := by decide
        rw [hc] at hall
        simpa using hall
    | succ n => exact absurd hc (by simp [show (Service.after postedJob).calls (n + 1) = none from rfl])
  have hwait : Library.RunWhen serviceStep Service.undisplaced {} (Service.after postedJob) :=
    (haccept.snoc (a := .readRecord 0) (fun a ha => absurd ha (by simp [ServiceAction.control?]))
      (Library.step_getD (by decide))).snoc (a := .waitRecord 0)
        (fun a ha => absurd ha (by simp [ServiceAction.control?])) (Library.step_getD (by decide))
  exact (hwait.snoc (a := .control finishJob) (Service.undisplaced_of_read hread)
    (Library.step_getD (by decide))).snoc (a := .waitResult 0 "kernelgym")
      (fun a ha => absurd ha (by simp [ServiceAction.control?])) (Library.step_getD (by decide))

/-- A failed workflow is replaced by a forced request with other content before the first request
reads the record of its accept. -/
def overtakenPost : List ServiceAction :=
  [.accept 0 "kernelgym" "job" "g1" "A" "kernelbench" 100 false "0",
    .control (.finish "kernelgym" "job" "g1" { status := some .failed }
      "Workflow controller failed" "1" {}),
    .accept 1 "kernelgym" "job" "g2" "B" "kernelbench" 100 true "2",
    .readRecord 0, .readRecord 1, .waitRecord 0,
    .control (.finish "kernelgym" "job" "g2" completedPayload "" "3" {}),
    .waitResult 0 "kernelgym"]

theorem overtaken_post_answered :
    Library.Run serviceStep {} (Service.after overtakenPost) ∧
    (∃ c record payload, (Service.after overtakenPost).calls 0 = some c ∧ c.requestHash = "A" ∧
      c.owner = true ∧ c.generation = "g1" ∧ c.stage = .answered record payload ∧
      record.parent.requestHash = some "B" ∧ payload.workflowGeneration = some "g2" ∧
      ((Service.after overtakenPost).sys.issued "g2").map Issue.requestHash = some "B") ∧
    (Service.after overtakenPost).controllers = ["g2", "g2"] ∧
    ¬(Service.after overtakenPost).Faithful := by
  refine ⟨?_, ⟨_, _, _, rfl, rfl, rfl, rfl, rfl, rfl, rfl, by decide⟩, by decide,
    fun hfaithful => absurd hfaithful.controllers (by decide)⟩
  exact Library.execute_run_getD (fun _ _ => trivial)
    (show (Library.execute serviceStep overtakenPost {}).isSome by decide)

end KernelGym
