import KernelGym.CallHolding

/-! The commands of a `get_next_task` call, one rule for each: what the call holds after it, given what
it held before and what the process knows about the task it looks at. -/

namespace KernelGym

open Library

variable {s s' : Sys} {a : Action} {old : List Token} {m pre : KeyPrefix} {k id : TaskId} {t : Token}
  {c c' : Attempt} {caller : Caller} {S : CallState} {held held' : List TaskId} {lane : Lane}
  {d : TaskData}

/-- The steps that `get_next_task` takes on a task it has claimed. -/
def Action.handlesClaim : Action → Bool
  | .load .. | .checkCancelled .. | .mark .. | .returnClaim .. | .ack .. | .snapshot ..
  | .requeue .. => true
  | _ => false

theorem Action.transactional_of_handlesClaim (h : a.handlesClaim = true) :
    a.transactional = true := by
  cases a <;> first | rfl | exact absurd h (by simp [Action.handlesClaim])

theorem ReleaseMode.clear_of_none {r : RecoveryState} (h : ReleaseMode.none.releases r = true) :
    r = .clear := by
  cases r <;> first | rfl | exact absurd h (by decide)

namespace Caller

/-! ### Commands -/

/-- A claim of this call on a task that was popped from `lane` and is not marked. -/
structure Dequeued (caller : Caller) (old : List Token) (pre : KeyPrefix) (lane : Lane)
    (c : Attempt) : Prop where
  pre : c.pre = pre
  fresh : c.token ∉ old
  workerInstance : c.workerInstance = caller.inst
  inflightQueue : c.inflightQueue = caller.worker
  sourceQueue : c.sourceQueue = lane
  stage : c.stage = .dequeued

/-- The call holds claims on `held`, and `c` on the task it looks at. -/
structure Current (caller : Caller) (old : List Token) (S : CallState) (pre : KeyPrefix) (lane : Lane)
    (held : List TaskId) (id : TaskId) (c : Attempt) : Prop where
  holding : caller.Holding old S pre (id :: held)
  attempt : S.sys.attempt caller.inst id = some c
  dequeued : caller.Dequeued old pre lane c

theorem stable_current : Stable caller.machine (caller.rules old)
    fun S => caller.Current old S pre lane held id c := by
  intro S a S' hS hok hstep
  obtain ⟨hholding, hattempt⟩ := stable_attempt (some c) S a S' ⟨hS.holding, hS.attempt⟩ hok hstep
  exact ⟨hholding, hattempt, hS.dequeued⟩

/-- The process acts on one of its claims: it keeps the claim, or the task has lost its token. -/
theorem Holding.act (id : TaskId) (hh : caller.Holding old S pre held)
    (hstep : step S.sys a = some s') (ha : a.handlesClaim = true)
    (hattempt : ∀ k, k ≠ id → s'.attempt caller.inst k = S.sys.attempt caller.inst k)
    (hheld : ∀ k ∈ held, k ≠ id → k ∈ held')
    (hself : ∀ c, S.sys.attempt caller.inst id = some c → s'.claimedSince old caller.inst pre id c.token →
      id ∈ held' ∧ ∃ c', s'.attempt caller.inst id = some c' ∧ c'.pre = c.pre ∧ c'.token = c.token) :
    caller.Holding old { S with sys := s' } pre held' where
  inv := hh.inv.step hstep fun q entry release heq => by
    subst heq
    exact absurd ha (by simp [Action.handlesClaim])
  started := hh.started
  held m k t hclaimed := by
    rcases claimedSince_of_step hh.inv.valid hstep hclaimed with hbefore | ⟨w, lane, n, rfl⟩
    · obtain ⟨rfl, hk, c, hc, hpre, ht⟩ := hh.held m k t hbefore
      by_cases hid : k = id
      · subst hid
        obtain ⟨hmem, c', hc', hpre', ht'⟩ := hself c hc (ht ▸ hclaimed)
        exact ⟨rfl, hmem, c', hc', hpre'.trans hpre, ht'.trans ht⟩
      · exact ⟨rfl, hheld k hk hid, c, (hattempt k hid).trans hc, hpre, ht⟩
    · exact absurd ha (by simp [Action.handlesClaim])

/-- A step on the current task after which the process knows more about it. -/
theorem Current.keep (hc : caller.Current old S pre lane held id c) (hstep : step S.sys a = some s')
    (ha : a.handlesClaim = true)
    (hs' : s' = S.sys.setAttempt caller.inst id (some c')) (hpre : c'.pre = c.pre)
    (htoken : c'.token = c.token) (hdequeued : caller.Dequeued old pre lane c') :
    caller.Current old { S with sys := s' } pre lane held id c' := by
  have hself : s'.attempt caller.inst id = some c' := by rw [hs', Sys.setAttempt_attempt]
  refine ⟨hc.holding.act id hstep ha (fun k hk => ?_) (fun _ hk _ => hk) (fun c₀ hc₀ _ => ?_),
    hself, hdequeued⟩
  · rw [hs', Sys.setAttempt_attempt_of_ne hk]
  · obtain rfl := Option.some.inj (hc.attempt.symm.trans hc₀)
    exact ⟨List.mem_cons_self, c', hself, hpre, htoken⟩

/-- A step on the current task that takes the token off its record. -/
theorem Current.drop (hc : caller.Current old S pre lane held id c) (hstep : step S.sys a = some s')
    (ha : a.handlesClaim = true)
    (hattempt : ∀ k, k ≠ id → s'.attempt caller.inst k = S.sys.attempt caller.inst k)
    (hgone : ((s'.spaces pre).hgetall id).claim.token ≠ some c.token) :
    caller.Holding old { S with sys := s' } pre held := by
  refine hc.holding.act id hstep ha hattempt (fun k hk hne => ?_) (fun c₀ hc₀ hclaimed => ?_)
  · exact (List.mem_cons.mp hk).resolve_left hne
  · obtain rfl := Option.some.inj (hc.attempt.symm.trans hc₀)
    obtain ⟨h, hh, ht, -⟩ := hclaimed
    rw [Store.hgetall_of_some hh] at hgone
    exact absurd ht hgone

/-- The record of the current task while it carries the claim: it is not fenced. -/
theorem Current.clear (hc : caller.Current old S pre lane held id c)
    (ht : ((S.sys.spaces pre).hgetall id).claim.token = some c.token) :
    ((S.sys.spaces pre).hgetall id).claim.recoveryState = .clear := by
  have hself := Sys.cell_attempts_self hc.attempt
  rw [hc.dequeued.pre] at hself
  have hmatch := (hc.holding.inv.valid.cell pre id).matching _ _ _ hself (Cell.exists_of_token ht) ht
  exact hmatch.dequeued hc.dequeued.stage

/-- Every step of the call meets the guarantee, and its result meets `Q`. -/
abbrev Ensures (caller : Caller) (old : List Token) {α : Type} (Q : α → CallState → Prop)
    (p : Program Command.Answer α) (S : CallState) : Prop :=
  p.Holds caller.machine (caller.rules old) (caller.guarantee old) Q S

theorem guarantee_same (hstarted : S.recovering = false) : caller.guarantee old S S :=
  ⟨fun h => by rw [hstarted] at h; exact absurd h (by simp), Or.inl rfl⟩

theorem guarantee_of_step (hstarted : S.recovering = false) (hstep : step S.sys a = some s') (ha : a.handlesClaim = true)
    (hnot : ∀ m k t, S.sys.claimedSince old caller.inst m k t →
      ((S.sys.spaces m).hgetall k).claim.recoveryState ≠ .clear → ¬S.sys.authorizes m k t a) :
    caller.guarantee old S { S with sys := s' } := by
  refine ⟨fun h => ?_, Or.inr ⟨a, Action.transactional_of_handlesClaim ha, ?_, hstep, hnot⟩⟩
  · rw [hstarted] at h
    exact absurd h (by simp)
  · rintro q entry release rfl
    exact absurd ha (by simp [Action.handlesClaim])

variable {α : Type} {Q : α → CallState → Prop}

theorem Current.call_load {next : Option TaskHash → Program Command.Answer α}
    (hc : caller.Current old S pre lane held id c)
    (hnext : ∀ record S', caller.Current old S' pre lane held id (c.load record) →
      (∀ h d, record = some h → h.data = some d → d.taskId = id) →
      caller.Ensures old Q (next record) S') :
    caller.Ensures old Q (.call (.load pre id) next) S := by
  refine Program.Holds.call stable_current hc fun S x r hc _ hr => ?_
  have hstep : step S.sys (.load caller.inst id) =
      some (S.sys.setAttempt caller.inst id (some (c.load ((S.sys.spaces pre).tasks id)))) := by
    simp [step, hc.attempt, hc.dequeued.pre, Attempt.load]
  simp only [machine, exec, hstep, Option.getD_some] at hr
  obtain rfl := Option.some.inj hr
  refine ⟨guarantee_of_step hc.holding.started hstep rfl fun _ _ _ _ _ h => h, hnext _ _ ?_ ?_⟩
  · exact hc.keep hstep rfl rfl rfl rfl { hc.dequeued with }
  · exact fun h d hh hd => (((hc.holding.inv.valid.cell pre id).sound h hh).payload d hd).1

theorem Current.call_checkCancelled {next : Bool → Program Command.Answer α}
    (hc : caller.Current old S pre lane held id c) (hd : c.loaded = some d)
    (hnext : ∀ cancelled S', caller.Current old S' pre lane held id
      { c with cancelSeen := c.cancelSeen || cancelled } → caller.Ensures old Q (next cancelled) S') :
    caller.Ensures old Q (.call (.checkCancelled pre id d.baseTaskId) next) S := by
  refine Program.Holds.call stable_current hc fun S x r hc _ hr => ?_
  have hstep : step S.sys (.checkCancelled caller.inst id) =
      some (S.sys.setAttempt caller.inst id (some { c with
        cancelSeen := c.cancelSeen ||
          (S.sys.spaces pre).dequeuedTaskCancelled id d.baseTaskId })) := by
    simp [step, hc.attempt, hc.dequeued.pre, hd]
  simp only [machine, exec, hstep, Option.getD_some] at hr
  obtain rfl := Option.some.inj hr
  refine ⟨guarantee_of_step hc.holding.started hstep rfl fun _ _ _ _ _ h => h, hnext _ _ ?_⟩
  exact hc.keep hstep rfl rfl rfl rfl { hc.dequeued with }

theorem Current.call_snapshot {next : Bool → Program Command.Answer α}
    (hc : caller.Current old S pre lane held id c)
    (hnext : ∀ seen S', caller.Current old S' pre lane held id { c with snapshot := some seen } →
      caller.Ensures old Q (next true) S') :
    caller.Ensures old Q (.call (.snapshot id) next) S := by
  refine Program.Holds.call stable_current hc fun S x r hc _ hr => ?_
  have hstep : step S.sys (.snapshot caller.inst id) =
      some (S.sys.setAttempt caller.inst id (some { c with
        snapshot := some (((S.sys.spaces pre).hgetall id).assignedWorker,
          ((S.sys.spaces pre).hgetall id).assignedAt) })) := by
    simp [step, hc.attempt, hc.dequeued.pre]
  simp only [machine, exec, hstep, Option.getD_some, hc.attempt, Option.isSome_some] at hr
  obtain rfl := Option.some.inj hr
  exact ⟨guarantee_of_step hc.holding.started hstep rfl fun _ _ _ _ _ h => h, hnext _ _ (hc.keep hstep rfl rfl rfl rfl
    { hc.dequeued with })⟩

/-- The local claim is forgotten, and the record does not carry its token. -/
theorem Current.forget (hc : caller.Current old S pre lane held id c) {store : Store}
    (hstep : step S.sys a = some ((S.sys.setStore pre store).setAttempt caller.inst id none))
    (ha : a.handlesClaim = true) (hgone : ((store.view id).hash.getD {}).claim.token ≠ some c.token) :
    caller.Holding old { S with sys := (S.sys.setStore pre store).setAttempt caller.inst id none } pre
      held := by
  refine hc.drop hstep ha (fun k hk => Sys.setAttempt_attempt_of_ne hk) ?_
  rw [Sys.setAttempt_spaces, Sys.setStore_spaces, Function.update_self]
  exact hgone

theorem Current.call_ack {next : Unit → Program Command.Answer α}
    (hc : caller.Current old S pre lane held id c) (hack : c.acknowledges = true)
    (hnext : ∀ S', caller.Holding old S' pre held → caller.Ensures old Q (next ()) S') :
    caller.Ensures old Q (.call (.ack id) next) S := by
  refine Program.Holds.call stable_current hc fun S x r hc _ hr => ?_
  have hrelease : c.releasesFence = false := by simp [Attempt.releasesFence, hc.dequeued.stage]
  have hnot : ∀ m k t, S.sys.claimedSince old caller.inst m k t →
      ((S.sys.spaces m).hgetall k).claim.recoveryState ≠ .clear →
      ¬S.sys.authorizes m k t (.ack caller.inst id) := by
    rintro m k t - - ⟨rfl, c', ⟨hc', -⟩, hrelease'⟩
    obtain rfl := Option.some.inj (hc.attempt.symm.trans hc')
    rw [hrelease] at hrelease'
    exact absurd hrelease' (by simp)
  have hnone : (none : Option Token) ≠ some c.token := by simp
  have hcode : (ackClaim id c.inflightQueue c.token false (S.sys.spaces pre)).2 ≠ -2 ∧
      (((ackClaim id c.inflightQueue c.token false (S.sys.spaces pre)).1.view id).hash.getD
        {}).claim.token ≠ some c.token := by
    rcases ackClaim_cases id c.inflightQueue c.token false (S.sys.spaces pre) with
      ⟨ht, hcode, hview⟩ | ⟨ht, hfence, -, -⟩ | ⟨ht, -, hcode, hview⟩
    · exact ⟨hcode, by rw [hview]; exact ht⟩
    · exact absurd (hc.clear ht) hfence
    · exact ⟨by rw [hcode]; decide, by rw [hview]; exact hnone⟩
  have hstep : step S.sys (.ack caller.inst id) = some ((S.sys.setStore pre
      (ackClaim id c.inflightQueue c.token false (S.sys.spaces pre)).1).setAttempt caller.inst id
        none) := by
    simp [step, hc.attempt, hack, hrelease, hc.dequeued.pre, hcode.1]
  simp only [machine, exec, hc.attempt, hc.dequeued.pre, if_neg hcode.1] at hr
  obtain rfl := Option.some.inj hr
  exact ⟨guarantee_of_step hc.holding.started hstep rfl hnot, hnext _ (hc.forget hstep rfl hcode.2)⟩

theorem Current.call_requeue {reason : String} {seen : WorkerId × Timestamp}
    {next : Unit → Program Command.Answer α} (hc : caller.Current old S pre lane held id c)
    (hd : c.loaded = some d) (hseen : c.snapshot = some seen)
    (hnext : ∀ S', caller.Holding old S' pre held → caller.Ensures old Q (next ()) S') :
    caller.Ensures old Q (.call (.requeue id d reason) next) S := by
  refine Program.Holds.call stable_current hc fun S x r hc _ hr => ?_
  have hnot : ∀ m k t, S.sys.claimedSince old caller.inst m k t →
      ((S.sys.spaces m).hgetall k).claim.recoveryState ≠ .clear →
      ¬S.sys.authorizes m k t (.requeue caller.inst id false .none reason x.now) := by
    rintro m k t - hfence ⟨-, -, hmode⟩
    exact hfence (ReleaseMode.clear_of_none hmode)
  have hnone : (none : Option Token) ≠ some c.token := by simp
  let outcome := conditionalRequeue id (requeueLane c d false) c.inflightQueue id
    (parentCancelId id d) c.token (restoredTask d "" reason x.now) reason x.now "" "" .none
    (S.sys.spaces pre)
  have hcode : outcome.2 ≠ -4 ∧
      ((outcome.1.view id).hash.getD {}).claim.token ≠ some c.token := by
    rcases conditionalRequeue_cases id (requeueLane c d false) c.inflightQueue id
      (parentCancelId id d) c.token (restoredTask d "" reason x.now) reason x.now "" "" .none
      (S.sys.spaces pre) with
      ⟨ht, hcode, hview⟩ | ⟨ht, hmode, -⟩ | ⟨ht, -, -, hcode, hview⟩ | ⟨ht, -, -, -, -, hcode, hview⟩
    · exact ⟨by rw [hcode]; decide, by rw [hview]; exact ht⟩
    · rw [hc.clear ht] at hmode
      exact absurd hmode (by decide)
    · exact ⟨hcode, by rw [hview]; exact hnone⟩
    · exact ⟨by rw [hcode]; decide, by rw [hview]; exact hnone⟩
  have htask : requeueTask S.sys caller.inst id c d seen false .none reason x.now =
      (S.sys.setStore pre outcome.1).setAttempt caller.inst id none := by
    simp only [requeueTask, requeueAssignment, hc.dequeued.pre]
    exact if_neg hcode.1
  have hstep : step S.sys (.requeue caller.inst id false .none reason x.now) =
      some ((S.sys.setStore pre outcome.1).setAttempt caller.inst id none) := by
    simp only [step, hc.attempt, hd, hseen, Option.bind_some, Option.map_some, htask]
  simp only [machine, exec, hc.attempt, hseen, Option.getD_some, htask] at hr
  obtain rfl := Option.some.inj hr
  exact ⟨guarantee_of_step hc.holding.started hstep rfl hnot, hnext _ (hc.forget hstep rfl hcode.2)⟩

theorem Current.call_mark {next : Option Bool → Program Command.Answer α}
    (hc : caller.Current old S pre lane held id c) (hd : c.loaded = some d)
    (hrefused : ∀ S', caller.Holding old S' pre held → caller.Ensures old Q (next (some false)) S')
    (hmarked : ∀ S', caller.Holding old S' pre (id :: held) → caller.Marked old S' pre id →
      caller.Ensures old Q (next (some true)) S') :
    caller.Ensures old Q (.call (.mark pre lane id d) next) S := by
  refine Program.Holds.call stable_current hc fun S x r hc _ hr => ?_
  have hnot : ∀ m k t, S.sys.claimedSince old caller.inst m k t →
      ((S.sys.spaces m).hgetall k).claim.recoveryState ≠ .clear →
      ¬S.sys.authorizes m k t (.mark caller.inst id x.now) := fun _ _ _ _ _ h => h
  have hnone : (none : Option Token) ≠ some c.token := by simp
  let outcome := markClaimProcessing id caller.worker id (parentCancelId id d) c.token x.now
    caller.worker c.workerInstance lane (S.sys.spaces pre)
  have hstep : step S.sys (.mark caller.inst id x.now) =
      some ((S.sys.setStore pre outcome.1).setAttempt caller.inst id
        (if outcome.2 = 1 then some { c with stage := .running } else none)) := by
    simp only [step, hc.attempt, hd, Option.bind_some, hc.dequeued.stage, hc.dequeued.pre,
      hc.dequeued.inflightQueue, hc.dequeued.sourceQueue, if_true]
    rfl
  simp only [machine, exec, hc.attempt] at hr
  obtain rfl := Option.some.inj hr
  refine ⟨guarantee_of_step hc.holding.started hstep rfl hnot, ?_⟩
  have hforget : outcome.2 ≠ 1 → ((outcome.1.view id).hash.getD {}).claim.token ≠ some c.token →
      caller.Ensures old Q (next (some (decide (outcome.2 = 1))))
        { S with
          sys := (S.sys.setStore pre outcome.1).setAttempt caller.inst id
            (if outcome.2 = 1 then some { c with stage := .running } else none) } := by
    intro hcode hgone
    rw [if_neg hcode] at hstep ⊢
    rw [decide_eq_false hcode]
    exact hrefused _ (hc.forget hstep rfl hgone)
  rcases markClaimProcessing_cases id caller.worker id (parentCancelId id d) c.token x.now
    caller.worker c.workerInstance lane (S.sys.spaces pre) with
    ⟨ht, hcode, hview⟩ | ⟨ht, -, hcode, hview⟩ | ⟨ht, -, -, hcode, hview⟩
  · exact hforget (by rw [hcode]; decide) (by rw [hview]; exact ht)
  · exact hforget hcode (by rw [hview]; exact hnone)
  · -- The record carries the token behind the fence, and so does the local claim.
    have hdone : outcome.2 = 1 := hcode
    rw [if_pos hdone] at hstep ⊢
    have hself : ((S.sys.setStore pre outcome.1).setAttempt caller.inst id
        (some { c with stage := .running })).attempt caller.inst id =
          some { c with stage := .running } := Sys.setAttempt_attempt
    have hheld : caller.Holding old
        { S with
          sys := (S.sys.setStore pre outcome.1).setAttempt caller.inst id
            (some { c with stage := .running }) } pre (id :: held) := by
      refine hc.holding.act id hstep rfl (fun k hk => Sys.setAttempt_attempt_of_ne hk)
        (fun k hk _ => hk) (fun c₀ hc₀ _ => ?_)
      obtain rfl := Option.some.inj (hc.attempt.symm.trans hc₀)
      exact ⟨List.mem_cons_self, _, hself, rfl, rfl⟩
    rw [decide_eq_true hdone]
    refine hmarked _ hheld ⟨_, hself, rfl, ?_, ?_⟩
    · rw [Sys.claimedSince, Sys.setAttempt_spaces, Sys.setStore_spaces, Function.update_self]
      refine ⟨_, congrArg TaskView.hash hview, ht, hc.dequeued.workerInstance, hc.dequeued.fresh⟩
    · rw [Sys.setAttempt_spaces, Sys.setStore_spaces, Function.update_self]
      change ((outcome.1.view id).hash.getD {}).claim.recoveryState ≠ .clear
      rw [hview]
      exact (show RecoveryState.executionFenced ≠ .clear by decide)

/-! ### Claiming and returning -/

theorem claim_spec {w : WorkerId} {p : InstanceId} {n : Nat} {store : Store} {answer : Option TaskId}
    (hanswer : claimGpuTask t w p lane n (s.spaces pre) = (store, answer))
    (hstep : step s (.claim p pre w lane t n) = some s') :
    (∀ m k, ¬(m = pre ∧ answer = some k) → (s'.spaces m).tasks k = (s.spaces m).tasks k) ∧
    (∀ k, answer ≠ some k → s'.attempt p k = s.attempt p k) ∧
    (∀ k, answer = some k → s'.attempt p k = some (claimedAttempt pre w lane t p) ∧
      ((s'.spaces pre).hgetall k).claim.token = some t) := by
  simp only [step, Option.ite_none_right_eq_some, Option.some.injEq] at hstep
  obtain ⟨-, rfl⟩ := hstep
  have hcases := claimGpuTask_cases t w p lane n (s.spaces pre)
  rw [hanswer] at hcases
  have htasks : ∀ m k, ¬(m = pre ∧ answer = some k) →
      ((Function.update s.spaces pre store m).tasks k) = (s.spaces m).tasks k := by
    intro m k hne
    by_cases hm : m = pre
    · subst hm
      rw [Function.update_self]
      rcases hcases k with ⟨heq, -⟩ | ⟨-, hview | ⟨-, j, -, hlow⟩⟩
      · exact absurd ⟨rfl, heq⟩ hne
      · exact congrArg TaskView.hash hview
      · exact congrArg TaskView.hash hlow
    · rw [Function.update_of_ne hm]
  unfold claimTask
  rw [hanswer]
  cases answer with
  | none =>
      exact ⟨htasks, fun _ _ => rfl, fun k hk => absurd hk (by simp)⟩
  | some id =>
      refine ⟨htasks, fun k hk => Sys.setAttempt_attempt_of_ne fun heq => hk (congrArg some heq.symm),
        fun k hk => ?_⟩
      obtain rfl := Option.some.inj hk
      refine ⟨Sys.setAttempt_attempt, ?_⟩
      rcases hcases id with ⟨-, -, -, hview⟩ | ⟨hne, -⟩
      · rw [Sys.setAttempt_spaces, Sys.setStore_spaces, Function.update_self]
        change ((store.view id).hash.getD {}).claim.token = some t
        rw [hview]
        rfl
      · exact absurd rfl hne

theorem Holding.call_claim {next : Option TaskId → Program Command.Answer α}
    (hh : caller.Holding old S pre held)
    (hnone : ∀ S', caller.Holding old S' pre held → caller.Ensures old Q (next none) S')
    (hsome : ∀ id c S', caller.Current old S' pre lane held id c →
      caller.Ensures old Q (next (some id)) S') :
    caller.Ensures old Q (.call (.claim pre lane) next) S := by
  refine Program.Holds.call stable_holding hh fun S x r hh _ hr => ?_
  simp only [machine, exec, Option.map_eq_some_iff] at hr
  obtain ⟨sys, hstep, rfl⟩ := hr
  have hfresh : x.token ∉ old := by
    simp only [step, Option.ite_none_right_eq_some] at hstep
    exact fun hmem => hstep.1.1 (hh.inv.drawn _ hmem)
  have hinv : caller.Inv old sys := hh.inv.step hstep fun _ _ _ ha => absurd ha (by simp)
  have hguar : caller.guarantee old S { S with sys := sys } := by
    refine ⟨fun h => ?_, Or.inr ⟨_, rfl, by simp, hstep, fun _ _ _ _ _ h => h⟩⟩
    rw [hh.started] at h
    exact absurd h (by simp)
  rcases hanswer : claimGpuTask x.token caller.worker caller.inst lane 32 (S.sys.spaces pre) with
    ⟨store, answer⟩
  obtain ⟨htasks, hattempt, hself⟩ := claim_spec hanswer hstep
  refine ⟨hguar, ?_⟩
  -- A claim of another task than the answered one was there before.
  have hother : ∀ m k t, ¬(m = pre ∧ answer = some k) →
      sys.claimedSince old caller.inst m k t → m = pre ∧ k ∈ held ∧ answer ≠ some k ∧
        ∃ c, sys.attempt caller.inst k = some c ∧ c.pre = pre ∧ c.token = t := by
    rintro m k t hne ⟨h, hk, ht⟩
    rw [htasks m k hne] at hk
    obtain ⟨rfl, hmem, c, hc, hpre, htoken⟩ := hh.held m k t ⟨h, hk, ht⟩
    have hne' : answer ≠ some k := fun heq => hne ⟨rfl, heq⟩
    exact ⟨rfl, hmem, hne', c, (hattempt k hne').trans hc, hpre, htoken⟩
  cases answer with
  | none =>
      refine hnone _ ⟨hinv, hh.started, fun m k t hclaimed => ?_⟩
      obtain ⟨hm, hmem, -, hc⟩ := hother m k t (by simp) hclaimed
      exact ⟨hm, hmem, hc⟩
  | some id =>
      obtain ⟨hattempt', htoken⟩ := hself id rfl
      refine hsome id _ _ ⟨⟨hinv, hh.started, fun m k t hclaimed => ?_⟩, hattempt',
        ⟨rfl, hfresh, rfl, rfl, rfl, rfl⟩⟩
      by_cases hk : m = pre ∧ some id = some k
      · obtain ⟨rfl, hid⟩ := hk
        obtain rfl := Option.some.inj hid
        refine ⟨rfl, List.mem_cons_self, _, hattempt', rfl, ?_⟩
        obtain ⟨h, hh', ht, -⟩ := hclaimed
        rw [Store.hgetall_of_some hh', ht] at htoken
        exact (Option.some.inj htoken).symm
      · obtain ⟨hm, hmem, -, hc⟩ := hother m k t hk hclaimed
        exact ⟨hm, List.mem_cons_of_mem _ hmem, hc⟩

/-- The return of a claim that the task still carries. -/
theorem Holding.return_live {x : Input} {r : (Command.returnClaim id).Answer × CallState}
    (hh : caller.Holding old S pre held) (hc : S.sys.attempt caller.inst id = some c)
    (hstage : c.stage = .dequeued)
    (ht : ((S.sys.spaces c.pre).hgetall id).claim.token = some c.token)
    (hr : caller.exec S (.returnClaim id) x = some r)
    (hheld : ∀ k ∈ held, k ≠ id → k ∈ held') :
    r.1 = some 1 ∧ caller.guarantee old S r.2 ∧ caller.Holding old r.2 pre held' ∧
      ∀ k, caller.Marked old S pre k → caller.Marked old r.2 pre k := by
  have hnone : (none : Option Token) ≠ some c.token := by simp
  rcases returnClaim_cases id c.sourceQueue c.inflightQueue c.token (S.sys.spaces c.pre) with
    ⟨hne, -⟩ | ⟨-, hcode, hview⟩
  · exact absurd ht hne
  let outcome := returnClaim id c.sourceQueue c.inflightQueue c.token (S.sys.spaces c.pre)
  have hstep : step S.sys (.returnClaim caller.inst id) =
      some ((S.sys.setStore c.pre outcome.1).setAttempt caller.inst id none) := by
    simp only [step, hc, Option.bind_some, hstage, if_true]
    rfl
  simp only [exec, hc, hcode] at hr
  obtain rfl := Option.some.inj hr
  have hkeep : ∀ k, k ≠ id →
      ((S.sys.setStore c.pre outcome.1).setAttempt caller.inst id none).attempt caller.inst k =
        S.sys.attempt caller.inst k := fun k hk => Sys.setAttempt_attempt_of_ne hk
  refine ⟨rfl, guarantee_of_step hh.started hstep rfl fun _ _ _ _ _ h => h, ?_, ?_⟩
  · refine hh.act id hstep rfl hkeep hheld fun c₀ hc₀ hclaimed => ?_
    obtain rfl := Option.some.inj (hc.symm.trans hc₀)
    rcases claimedSince_of_step hh.inv.valid hstep hclaimed with hbefore | ⟨w, lane, n, ha⟩
    · obtain ⟨-, -, c₁, hc₁, hpre, -⟩ := hh.held pre id c.token hbefore
      obtain rfl := Option.some.inj (hc.symm.trans hc₁)
      subst hpre
      obtain ⟨h, hh', ht', -⟩ := hclaimed
      rw [Sys.setAttempt_spaces, Sys.setStore_spaces, Function.update_self] at hh'
      obtain rfl := Option.some.inj ((congrArg TaskView.hash hview).symm.trans hh')
      exact absurd ht' hnone
    · exact absurd ha (by simp)
  · rintro k ⟨c', hc', hrunning, hclaimed, hfence⟩
    have hk : k ≠ id := by
      rintro rfl
      obtain rfl := Option.some.inj (hc.symm.trans hc')
      rw [hstage] at hrunning
      exact absurd hrunning (by simp)
    obtain ⟨hclaimed', hfence'⟩ := marked_of_step hh.inv hstep rfl (fun h => h) hclaimed hfence
    exact ⟨c', (hkeep k hk).trans hc', hrunning, hclaimed', hfence'⟩

theorem Holding.call_return {next : Option Int → Program Command.Answer α}
    (hh : caller.Holding old S pre held) (hheld : ∀ k ∈ held, k ≠ id → k ∈ held')
    (hnext : ∀ S', caller.Holding old S' pre held' → caller.Ensures old Q (next (some 1)) S')
    (hclear : ∀ answer S', caller.Holding old S' pre [] → caller.Ensures old Q (next answer) S') :
    caller.Ensures old Q (.call (.returnClaim id) next) S := by
  refine Program.Holds.call stable_holding hh fun S x r hh hok hr => ?_
  obtain ⟨hstage, ⟨c, hc, ht⟩ | hnone⟩ := hok
  · obtain ⟨hanswer, hguar, hh', -⟩ := hh.return_live (x := x) hc (hstage c hc) ht hr hheld
    exact ⟨hguar, hanswer ▸ hnext _ hh'⟩
  · -- Nothing is left to return: whatever the answer, no task carries a claim of this call.
    have hempty : caller.Holding old S pre [] :=
      ⟨hh.inv, hh.started, fun m k t h => absurd h (hnone m k t)⟩
    cases hc : S.sys.attempt caller.inst id with
    | none =>
        simp only [machine, exec, hc] at hr
        obtain rfl := Option.some.inj hr
        exact ⟨guarantee_same hh.started, hclear _ _ hempty⟩
    | some c =>
        have hstep : step S.sys (.returnClaim caller.inst id) = some ((S.sys.setStore c.pre
            (returnClaim id c.sourceQueue c.inflightQueue c.token (S.sys.spaces c.pre)).1).setAttempt
              caller.inst id none) := by
          simp only [step, hc, Option.bind_some, hstage c hc, if_true]
        simp only [machine, exec, hc] at hr
        obtain rfl := Option.some.inj hr
        refine ⟨guarantee_of_step hh.started hstep rfl fun _ _ _ _ _ h => h, hclear _ _ ?_⟩
        refine hempty.act id hstep rfl (fun k hk => Sys.setAttempt_attempt_of_ne hk)
          (fun k hk _ => hk) fun c₀ _ hclaimed => ?_
        rcases claimedSince_of_step hh.inv.valid hstep hclaimed with hbefore | ⟨w, lane, n, ha⟩
        · exact absurd hbefore (hnone _ _ _)
        · exact absurd ha (by simp)

theorem Holding.call_return_marked {k : TaskId} {next : Option Int → Program Command.Answer α}
    (held' : List TaskId) (hh : caller.Holding old S pre held) (hmarked : caller.Marked old S pre k)
    (hheld : ∀ k ∈ held, k ≠ id → k ∈ held')
    (hnext : ∀ S', caller.Holding old S' pre held' → caller.Marked old S' pre k →
      caller.Ensures old Q (next (some 1)) S') :
    caller.Ensures old Q (.call (.returnClaim id) next) S := by
  refine Program.Holds.call stable_marked ⟨hh, hmarked⟩ fun S x r hI hok hr => ?_
  obtain ⟨hh, hmarked⟩ := hI
  obtain ⟨hstage, ⟨c, hc, ht⟩ | hnone⟩ := hok
  · obtain ⟨hanswer, hguar, hh', hkept⟩ := hh.return_live (x := x) hc (hstage c hc) ht hr hheld
    exact ⟨hguar, hanswer ▸ hnext _ hh' (hkept k hmarked)⟩
  · obtain ⟨c, -, -, hclaimed, -⟩ := hmarked
    exact absurd hclaimed (hnone _ _ _)

end Caller

end KernelGym
