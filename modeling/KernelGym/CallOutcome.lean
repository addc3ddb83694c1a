import KernelGym.CallCommands

/-! `get_next_task` leaks no claim and loses no marked task, as long as its `finally` block finds the
deferred claims still in place. -/

namespace KernelGym

open Library

variable {s s' : Sys} {a : Action} {old : List Token} {m pre : KeyPrefix} {k id : TaskId} {t : Token}
  {c : Attempt} {caller : Caller} {S : CallState} {held : List TaskId} {lane : Lane} {d : TaskData}

namespace Caller

/-- How a `try` block may leave the claims: on the deferred tasks, and on the one it returns. -/
def Served (caller : Caller) (old : List Token) (pre : KeyPrefix) (held : List TaskId) :
    Completion CallError (Option TaskData) → CallState → Prop
  | .returned (some d), S =>
      caller.Holding old S pre (d.taskId :: held) ∧ caller.Marked old S pre d.taskId
  | _, S => caller.Holding old S pre held

/-- How the call and its loops may leave them: on the task that is returned, or on none. -/
def Finished (caller : Caller) (old : List Token) :
    Completion CallError (Option TaskData) → CallState → Prop
  | .returned (some d), S =>
      ∃ pre, caller.Holding old S pre [d.taskId] ∧ caller.Marked old S pre d.taskId
  | .next, S => caller.Holding old S "" []
  | _, S => caller.Clear old S

theorem Holding.empty (hh : caller.Holding old S m []) (pre : KeyPrefix) :
    caller.Holding old S pre [] :=
  ⟨hh.inv, hh.started, fun m k t h => absurd (hh.held m k t h).2.1 (by simp)⟩

theorem Holding.clear (hh : caller.Holding old S pre []) : caller.Clear old S :=
  ⟨hh.inv, fun m k t h => absurd (hh.held m k t h).2.1 (by simp)⟩

theorem stable_served (how : Completion CallError (Option TaskData)) :
    Stable caller.machine (caller.rules old) (caller.Served old pre held how) := by
  cases how with
  | next | raised e => exact stable_holding
  | returned r =>
      cases r with
      | none => exact stable_holding
      | some d => exact stable_marked

theorem stable_finished (how : Completion CallError (Option TaskData)) :
    Stable caller.machine (caller.rules old) (caller.Finished old how) := by
  cases how with
  | next => exact stable_holding
  | raised e => exact stable_clear
  | returned r =>
      cases r with
      | none => exact stable_clear
      | some d =>
          rintro S a S' ⟨pre, h⟩ hok hstep
          exact ⟨pre, stable_marked S a S' h hok hstep⟩

/-- What is known about the current task after it was loaded. -/
def Loaded (caller : Caller) (old : List Token) (pre : KeyPrefix) (lane : Lane)
    (held : List TaskId) (id : TaskId) (r : Option TaskData) (S : CallState) : Prop :=
  ∃ c, caller.Current old S pre lane held id c ∧ match r with
    | none => c.acknowledges = true
    | some d => c.loaded = some d ∧ d.taskId = id

theorem stable_loaded (r : Option TaskData) :
    Stable caller.machine (caller.rules old) (caller.Loaded old pre lane held id r) := by
  rintro S a S' ⟨c, hc, hr⟩ hok hstep
  exact ⟨c, stable_current S a S' hc hok hstep, hr⟩

/-! ### The program, from its parts -/

theorem loadDispatchable_ensures (hc : caller.Current old S pre lane held id c) :
    caller.Ensures old (caller.Loaded old pre lane held id) (loadDispatchable pre id) S := by
  have hack : ∀ {c : Attempt}, c.stage = .dequeued → (c.unloadable || c.cancelSeen) = true →
      c.acknowledges = true := fun hstage h => by rw [Attempt.acknowledges, hstage]; exact h
  refine hc.call_load fun record S hc hid => ?_
  have hstage := hc.dequeued.stage
  cases record with
  | none => exact Program.Holds.done (stable_loaded _) ⟨_, hc, hack hstage rfl⟩
  | some h =>
      cases hdata : h.data with
      | none =>
          simp only [hdata]
          exact Program.Holds.done (stable_loaded _)
            ⟨_, hc, hack hstage (by simp [Attempt.load, hdata])⟩
      | some d =>
          simp only [hdata]
          split_ifs with hdropped
          · exact Program.Holds.done (stable_loaded _)
              ⟨_, hc, hack hstage (by simp [Attempt.load, hdropped])⟩
          · refine hc.call_checkCancelled (by simp [Attempt.load, hdata]) fun cancelled S hc => ?_
            cases cancelled with
            | true =>
                exact Program.Holds.done (stable_loaded _)
                  ⟨_, hc, hack hc.dequeued.stage (by simp)⟩
            | false =>
                exact Program.Holds.done (stable_loaded _)
                  ⟨_, hc, by simp [Attempt.load, hdata], hid h d rfl hdata⟩

theorem requeueUnstartedTask_ensures {reason : String}
    (hc : caller.Current old S pre lane held d.taskId c) (hd : c.loaded = some d)
    {Q : Completion CallError (Option TaskData) → CallState → Prop}
    (hQ : Stable caller.machine (caller.rules old) (Q .next))
    (hnext : ∀ S, caller.Holding old S pre held → Q .next S) :
    caller.Ensures old Q (requeueUnstartedTask d reason) S :=
  hc.call_snapshot fun _ _ hc => hc.call_requeue hd rfl fun S hh =>
    Program.Holds.done hQ (hnext S hh)

theorem dispatchTask_ensures {reason : String}
    (hloaded : caller.Loaded old pre lane held id (some d) S) :
    caller.Ensures old (caller.Served old pre held) (dispatchTask pre lane id d reason) S := by
  refine Program.Holds.call (stable_loaded (some d)) hloaded fun S x r hloaded _ hr => ?_
  obtain rfl := Option.some.inj hr
  obtain ⟨c, hc, hd, rfl⟩ := hloaded
  refine ⟨guarantee_same hc.holding.started, ?_⟩
  cases hopen : x.admission with
  | true =>
      refine hc.call_mark hd (fun S hh => ?_) fun S hh hmarked => ?_
      · exact Program.Holds.done (stable_served .next) hh
      · exact Program.Holds.done (stable_served (.returned (some d))) ⟨hh, hmarked⟩
  | false =>
      refine Program.Holds.andThen stable_served
        (requeueUnstartedTask_ensures hc hd ?_ fun S hh => ?_)
      · exact fun S a S' h hok hstep => h.interfered (RunWhen.single hok hstep)
      · exact Program.Holds.done (stable_served (.returned none)) hh

theorem scanQueue_ensures (n : Nat) (hh : caller.Holding old S pre held) :
    caller.Ensures old (fun ended => caller.Served old pre ended.2 ended.1)
      (caller.scanQueue pre lane n held) S := by
  induction n generalizing S held with
  | zero => exact Program.Holds.done (stable_served .next) hh
  | succ n ih =>
      refine hh.call_claim (fun S hh => ?_) fun id c S hc => ?_
      · exact Program.Holds.done (stable_served .next) hh
      · refine Program.Holds.bind ((loadDispatchable_ensures hc).mono fun r S hloaded => ?_)
        cases r with
        | none =>
            obtain ⟨c, hc, hack⟩ := hloaded
            exact hc.call_ack hack fun S hh => ih hh
        | some d =>
            dsimp only
            split_ifs with hmatches
            · refine Program.Holds.bind ((dispatchTask_ensures hloaded).mono fun how S hserved => ?_)
              cases how with
              | next => exact ih hserved
              | returned r => exact Program.Holds.done (stable_served (.returned r)) hserved
              | raised e => exact Program.Holds.done (stable_served (.raised e)) hserved
            · obtain ⟨c, hc, -⟩ := hloaded
              refine ih ⟨hc.holding.inv, hc.holding.started, fun m k t hclaimed => ?_⟩
              obtain ⟨hm, hk, hattempt⟩ := hc.holding.held m k t hclaimed
              exact ⟨hm, by simpa [or_comm] using hk, hattempt⟩

/-- The cleanup of a block that returns no task. -/
theorem returnAll_ensures (hh : caller.Holding old S pre held)
    {Q : Completion CallError (Option TaskData) → CallState → Prop}
    (hQ : ∀ how, Stable caller.machine (caller.rules old) (Q how))
    (hnext : ∀ S, caller.Holding old S pre [] → Q .next S)
    (hraised : ∀ S, caller.Holding old S pre [] → Q (.raised .staleTaskClaim) S) :
    caller.Ensures old Q (Program.forEach returnClaimToSource held) S := by
  refine Program.Holds.forEach (I := fun rest S => caller.Holding old S pre rest) hQ
    (fun id rest S hh => ?_) hnext hh
  refine hh.call_return (fun k hk hne => (List.mem_cons.mp hk).resolve_left hne) (fun S hh => ?_)
    fun answer S hh => ?_
  · exact Program.Holds.done stable_holding hh
  · have hrest : caller.Holding old S pre rest :=
      ⟨hh.inv, hh.started, fun m k t h => absurd (hh.held m k t h).2.1 (by simp)⟩
    cases answer with
    | none => exact Program.Holds.done (hQ (.raised .staleTaskClaim)) (hraised S hh)
    | some code =>
        by_cases hcode : code = 1
        · simp only [if_pos hcode]
          exact Program.Holds.done stable_holding hrest
        · simp only [if_neg hcode]
          exact Program.Holds.done (hQ (.raised .staleTaskClaim)) (hraised S hh)

/-- The cleanup of a block that returns a marked task: every deferred claim is still in place. -/
theorem returnAll_marked_ensures (hh : caller.Holding old S pre (k :: held))
    (hmarked : caller.Marked old S pre k)
    {Q : Completion CallError (Option TaskData) → CallState → Prop}
    (hQ : ∀ how, Stable caller.machine (caller.rules old) (Q how))
    (hnext : ∀ S, caller.Holding old S pre [k] → caller.Marked old S pre k → Q .next S) :
    caller.Ensures old Q (Program.forEach returnClaimToSource held) S := by
  refine Program.Holds.forEach
    (I := fun rest S => caller.Holding old S pre (k :: rest) ∧ caller.Marked old S pre k) hQ
    (fun id rest S h => ?_) (fun S h => hnext S h.1 h.2) ⟨hh, hmarked⟩
  refine h.1.call_return_marked (k :: rest) h.2 (fun j hj hne => ?_) fun S hh hm => ?_
  · simp only [List.mem_cons] at hj ⊢
    tauto
  · exact Program.Holds.done stable_marked ⟨hh, hm⟩

theorem fromResource_ensures (hh : caller.Holding old S pre []) :
    caller.Ensures old (caller.Finished old) (caller.fromResource pre) S := by
  refine Program.Holds.tryFinally stable_finished ((scanQueue_ensures _ hh).mono
    fun ended S hserved => ?_)
  obtain ⟨how, deferred⟩ := ended
  -- Only a block that returns a task leaves a claim behind.
  cases how with
  | next =>
      refine returnAll_ensures hserved (fun how => ?_) (fun S hh => hh.empty "") fun S hh => hh.clear
      cases how <;> exact stable_finished _
  | raised e =>
      refine returnAll_ensures hserved (fun how => ?_) (fun S hh => hh.clear) fun S hh => hh.clear
      cases how <;> exact stable_finished _
  | returned r =>
      cases r with
      | none =>
          refine returnAll_ensures hserved (fun how => ?_) (fun S hh => hh.clear)
            fun S hh => hh.clear
          cases how <;> exact stable_finished _
      | some d =>
          refine returnAll_marked_ensures hserved.1 hserved.2 (fun how => ?_)
            fun S hh hm => ⟨pre, hh, hm⟩
          cases how <;> exact stable_finished _

theorem fromPrefix_ensures (hh : caller.Holding old S pre []) :
    caller.Ensures old (caller.Finished old) (caller.fromPrefix pre) S := by
  refine hh.call_claim (fun S hh => fromResource_ensures hh) fun id c S hc => ?_
  refine Program.Holds.bind ((loadDispatchable_ensures hc).mono fun r S hloaded => ?_)
  cases r with
  | none =>
      obtain ⟨c, hc, hack⟩ := hloaded
      exact hc.call_ack hack fun S hh => fromResource_ensures hh
  | some d =>
      refine (dispatchTask_ensures hloaded).mono fun how S hserved => ?_
      cases how with
      | next => exact Holding.empty hserved ""
      | raised e => exact Holding.clear hserved
      | returned r =>
          cases r with
          | none => exact Holding.clear hserved
          | some d => exact ⟨pre, hserved⟩

theorem getNextTask_ensures (hS : caller.Clear old S) :
    caller.Ensures old (caller.Finished old) caller.getNextTask S := by
  refine Program.Holds.call stable_clear hS fun S x r hS _ hr => ?_
  obtain rfl := Option.some.inj hr
  refine ⟨⟨fun _ => hS.unclaimed, Or.inl rfl⟩, ?_⟩
  cases hopen : x.admission with
  | false => exact Program.Holds.done (stable_finished (.returned none)) hS
  | true =>
      refine Program.Holds.call stable_clear hS fun S x r hS _ hr => ?_
      obtain rfl := Option.some.inj hr
      refine ⟨⟨fun _ => hS.unclaimed, Or.inl rfl⟩, Program.Holds.call stable_clear ⟨hS.inv, hS.unclaimed⟩
        fun S x r hS _ hr => ?_⟩
      obtain rfl := Option.some.inj hr
      refine ⟨⟨fun _ => hS.unclaimed, Or.inl rfl⟩, Program.Holds.andThen stable_finished ?_⟩
      refine Program.Holds.forEach (I := fun _ S => caller.Holding old S "" []) ?_
        (fun pre rest S hh => ?_) (fun S hh => ?_) ⟨hS.inv, rfl, fun m k t h => absurd h
          (hS.unclaimed m k t)⟩
      · intro how
        cases how with
        | next => exact fun S a S' h hok hstep => h.interfered (RunWhen.single hok hstep)
        | returned r => exact stable_finished (.returned r)
        | raised e => exact stable_finished (.raised e)
      · refine (fromPrefix_ensures (hh.empty pre)).mono fun how S hdone => ?_
        cases how <;> exact hdone
      · exact Program.Holds.done (stable_finished (.returned none)) hh.clear

theorem clear_start (hv : s.Valid) (r : Bool) : caller.Clear s.tokens ⟨s, r⟩ where
  inv :=
    { valid := hv
      drawn := fun _ ht => ht
      foreign := fun q k c _ hc _ => (hv.cell c.pre k).minted q c (Sys.cell_attempts_self hc) }
  unclaimed m k t := by
    rintro ⟨h, hh, ht, -, hold⟩
    exact hold (((hv.cell m k).sound h hh).claimed t ht).2.1

/-- The runs of a call that began when the tokens `old` were drawn. -/
abbrev Runs (caller : Caller) (old : List Token) :
    CallState × CallBlock → CallState × CallBlock → Prop :=
  RunWhen caller.machine.step (caller.rules old).allow

/-- What is known of a call at every point of a run. -/
structure Running (caller : Caller) (old : List Token) (now : CallState × CallBlock) : Prop where
  ensures : caller.Ensures old (caller.Finished old) now.2 now.1
  inv : caller.Inv old now.1.sys
  recovering : now.1.recovering = true → ∀ m k t, ¬now.1.sys.claimedSince old caller.inst m k t

variable {now next : CallState × CallBlock} {x : Move Action Input}

/-- A step of a run changes nothing in Redis, or is a transaction that presents no marked claim. -/
theorem Running.sys_step (hnow : caller.Running old now)
    (hallow : (caller.rules old).allow now x) (hstep : caller.machine.step now x = some next) :
    caller.Running old next ∧
    (next.1.sys = now.1.sys ∨ ∃ a, a.transactional = true ∧ step now.1.sys a = some next.1.sys ∧
      ∀ m k t, now.1.sys.claimedSince old caller.inst m k t →
        ((now.1.sys.spaces m).hgetall k).claim.recoveryState ≠ .clear →
        ¬now.1.sys.authorizes m k t a) := by
  have hensures := hnow.ensures.step hallow hstep
  rcases hnow.ensures.guarantee hallow hstep with ⟨a, hok, henv⟩ | ⟨hrec, hguar⟩
  · obtain ⟨hsys, hsame, hinv, hsub⟩ := interferes_step hnow.inv hok henv
    refine ⟨⟨hensures, hinv, fun h m k t hclaimed => ?_⟩,
      Or.inr ⟨a, hok.1, hsys, fun m k t hclaimed _ => ?_⟩⟩
    · exact hnow.recovering (hsame ▸ h) m k t (hsub m k t hclaimed)
    · exact hnow.inv.not_authorizes hclaimed
        (hok.2.1.resolve_right fun h => hnow.recovering h.1 m k t hclaimed)
  · rcases hguar with hsame | ⟨a, hcore, hread, hsys, hnot⟩
    · exact ⟨⟨hensures, hsame ▸ hnow.inv, hrec⟩, Or.inl hsame⟩
    · exact ⟨⟨hensures, hnow.inv.step hsys fun q entry release ha => absurd ha (hread q entry release),
        hrec⟩, Or.inr ⟨a, hcore, hsys, hnot⟩⟩

theorem Running.run (hnow : caller.Running old now) (hrun : caller.Runs old now next) :
    caller.Running old next :=
  RunWhen.invariant (fun _ _ _ hi hallow hstep => (hi.sys_step hallow hstep).1) hrun hnow

/-- A marked claim of the call stays on its task for the whole run. -/
theorem Running.marked_run (hnow : caller.Running old now) (hrun : caller.Runs old now next)
    (hclaimed : now.1.sys.claimedSince old caller.inst m k t)
    (hfence : ((now.1.sys.spaces m).hgetall k).claim.recoveryState ≠ .clear) :
    next.1.sys.claimedSince old caller.inst m k t ∧
      ((next.1.sys.spaces m).hgetall k).claim.recoveryState ≠ .clear := by
  have hinv : caller.Running old next ∧ next.1.sys.claimedSince old caller.inst m k t ∧
      ((next.1.sys.spaces m).hgetall k).claim.recoveryState ≠ .clear := by
    refine RunWhen.invariant (I := fun now => caller.Running old now ∧
      now.1.sys.claimedSince old caller.inst m k t ∧
      ((now.1.sys.spaces m).hgetall k).claim.recoveryState ≠ .clear)
      (fun now x next hi hallow hstep => ?_) hrun ⟨hnow, hclaimed, hfence⟩
    obtain ⟨hnow, hclaimed, hfence⟩ := hi
    obtain ⟨hnext, hsame | ⟨a, hcore, hsys, hnot⟩⟩ := hnow.sys_step hallow hstep
    · rw [hsame]
      exact ⟨hnext, hclaimed, hfence⟩
    · exact ⟨hnext, marked_of_step hnow.inv hsys hcore (hnot m k t hclaimed hfence) hclaimed hfence⟩
  exact hinv.2

/-- A claim of the call that a step ends is released. -/
theorem Running.released (hnow : caller.Running old now)
    (hallow : (caller.rules old).allow now x) (hstep : caller.machine.step now x = some next)
    (hclaimed : now.1.sys.claimedSince old caller.inst m k t)
    (hended : ¬next.1.sys.claimedSince old caller.inst m k t) :
    Cell.Released now.1.sys m k t (now.1.sys.cell m k) (next.1.sys.cell m k) := by
  obtain ⟨-, hsame | ⟨a, hcore, hsys, -⟩⟩ := hnow.sys_step hallow hstep
  · rw [hsame] at hended
    exact absurd hclaimed hended
  · obtain ⟨h, hh, ht, hinst, hold⟩ := hclaimed
    have hhash : (now.1.sys.cell m k).hash = h := Cell.hash_of_some hh
    have hcv := hnow.inv.valid.cell m k
    have hcell := cellStep_of_step m k hsys
    refine (hcell.claim_released hcore hcv (hhash ▸ ht)).resolve_left fun ht' => hended ?_
    obtain ⟨h₀, hh₀, hkept⟩ := hcell.sameAttempt hcv (Cell.exists_of_token ht') ht'
      ((hcv.sound h hh).claimed t ht).2.1
    obtain rfl := Option.some.inj (hh.symm.trans hh₀)
    exact ⟨_, Cell.exists_of_token ht', ht', hkept.workerInstance.trans hinst, hold⟩

end Caller

/-- A call of `get_next_task` leaves no claim behind but that of the task it returns, which is marked;
every task it has marked is the one it returns; and every other claim it made is released. -/
theorem get_next_task_clean {s₀ : Sys} {prog : CallBlock} (hs : Reachable s₀)
    (hrun : caller.Runs s₀.tokens (⟨s₀, false⟩, caller.getNextTask) (S, prog)) :
    (∀ d, prog = .done (.returned (some d)) → ∃ m t,
      S.sys.claimedSince s₀.tokens caller.inst m d.taskId t ∧
      ((S.sys.spaces m).hgetall d.taskId).status = some .processing ∧
      ∀ m' k' t', S.sys.claimedSince s₀.tokens caller.inst m' k' t' →
        m' = m ∧ k' = d.taskId ∧ t' = t) ∧
    (∀ how, prog = .done how → (∀ d, how ≠ .returned (some d)) →
      ∀ m k t, ¬S.sys.claimedSince s₀.tokens caller.inst m k t) ∧
    (∀ m k t, S.sys.claimedSince s₀.tokens caller.inst m k t →
      ((S.sys.spaces m).hgetall k).claim.recoveryState ≠ .clear →
      ∀ S' how, caller.Runs s₀.tokens (S, prog) (S', .done how) →
        ∃ d, how = .returned (some d) ∧ d.taskId = k) ∧
    ∀ x S' prog', (caller.rules s₀.tokens).allow (S, prog) x →
      caller.machine.step (S, prog) x = some (S', prog') →
      ∀ m k t, S.sys.claimedSince s₀.tokens caller.inst m k t →
        ¬S'.sys.claimedSince s₀.tokens caller.inst m k t →
        Cell.Released S.sys m k t (S.sys.cell m k) (S'.sys.cell m k) := by
  have hclear : caller.Clear s₀.tokens ⟨s₀, false⟩ :=
    Caller.clear_start (ReachableWhen.valid hs) false
  have hstart : caller.Running s₀.tokens (⟨s₀, false⟩, caller.getNextTask) :=
    { ensures := Caller.getNextTask_ensures hclear
      inv := hclear.inv
      recovering := fun h => absurd h (by simp) }
  have hnow := hstart.run hrun
  -- What is left at the end of a run.
  have hclean : ∀ {S how}, caller.Running s₀.tokens (S, .done how) →
      (∀ d, how ≠ .returned (some d)) →
      ∀ m k t, ¬S.sys.claimedSince s₀.tokens caller.inst m k t := by
    intro S how hnow hne
    have hdone := Program.Holds.result hnow.ensures
    cases how with
    | next => exact (Caller.Holding.clear hdone).unclaimed
    | raised e => exact Caller.Clear.unclaimed hdone
    | returned r =>
        cases r with
        | none => exact Caller.Clear.unclaimed hdone
        | some d => exact absurd rfl (hne d)
  have hreturned : ∀ {S d}, caller.Running s₀.tokens (S, .done (.returned (some d))) → ∃ m t,
      S.sys.claimedSince s₀.tokens caller.inst m d.taskId t ∧
      ((S.sys.spaces m).hgetall d.taskId).status = some .processing ∧
      ∀ m' k' t', S.sys.claimedSince s₀.tokens caller.inst m' k' t' →
        m' = m ∧ k' = d.taskId ∧ t' = t := by
    intro S d hnow
    obtain ⟨pre, hh, c, hc, -, hclaimed, hfence⟩ := Program.Holds.result hnow.ensures
    refine ⟨pre, c.token, hclaimed, ?_, fun m' k' t' hclaimed' => ?_⟩
    · obtain ⟨h, hh', -, -⟩ := hclaimed
      rw [Store.hgetall_of_some hh'] at hfence ⊢
      exact ((hnow.inv.valid.cell pre d.taskId).sound h hh').fenced hfence
    · obtain ⟨hm, hk, c', hc', -, ht'⟩ := hh.held m' k' t' hclaimed'
      obtain rfl := List.mem_singleton.mp hk
      obtain rfl := Option.some.inj (hc.symm.trans hc')
      exact ⟨hm, rfl, ht'.symm⟩
  refine ⟨fun d hd => hreturned (hd ▸ hnow), fun how hhow hne => hclean (hhow ▸ hnow) hne,
    fun m k t hclaimed hfence S' how hrun' => ?_,
    fun x S' prog' hallow hstep m k t hclaimed hended => hnow.released hallow hstep hclaimed hended⟩
  have hend := hnow.run hrun'
  obtain ⟨hclaimed', -⟩ := hnow.marked_run hrun' hclaimed hfence
  by_cases hsome : ∃ d, how = .returned (some d)
  · obtain ⟨d, rfl⟩ := hsome
    obtain ⟨m', t', -, -, honly⟩ := hreturned hend
    exact ⟨d, rfl, (honly m k t hclaimed').2.1.symm⟩
  · exact absurd hclaimed' (hclean hend (fun d hd => hsome ⟨d, hd⟩) m k t)

/-- A decidable part of the rules: no other client moves, and what is returned is unmarked and still
carried by its task. -/
def Caller.undisturbed (caller : Caller) : CallState × CallBlock → Move Action Caller.Input → Bool
  | _, .other _ => false
  | (S, .call (.returnClaim id) _), .own _ =>
      (S.sys.attempt caller.inst id).any fun c => c.stage = .dequeued ∧
        ((S.sys.spaces c.pre).hgetall id).claim.token = some c.token
  | _, .own _ => true

theorem Caller.undisturbed_allow (now : CallState × CallBlock) (x : Move Action Input)
    (h : caller.undisturbed now x = true) : (caller.rules old).allow now x := by
  obtain ⟨S, prog⟩ := now
  cases x with
  | other e => exact absurd h (by simp [undisturbed])
  | own x =>
      cases prog with
      | done how => trivial
      | call c next =>
          cases c with
          | returnClaim id =>
              simp only [undisturbed, Option.any_eq_true, decide_eq_true_eq] at h
              obtain ⟨c, hc, hstage, ht⟩ := h
              refine ⟨fun c' hc' => ?_, Or.inl ⟨c, hc, ht⟩⟩
              obtain rfl := Option.some.inj (hc.symm.trans hc')
              exact hstage
          | _ => trivial

/-- The task a call has returned. -/
def returnedTaskId : CallBlock → Option TaskId
  | .done (.returned (some d)) => some d.taskId
  | _ => none

theorem returnedTaskId_some {prog : CallBlock} (h : returnedTaskId prog = some id) :
    ∃ d, prog = .done (.returned (some d)) := by
  cases prog with
  | call c next => exact absurd h (by simp [returnedTaskId])
  | done how =>
      cases how with
      | returned r =>
          cases r with
          | none => exact absurd h (by simp [returnedTaskId])
          | some d => exact ⟨d, rfl⟩
      | _ => exact absurd h (by simp [returnedTaskId])

def raisedStale : CallBlock → Bool
  | .done (.raised .staleTaskClaim) => true
  | _ => false

theorem raisedStale_eq {prog : CallBlock} (h : raisedStale prog = true) :
    prog = .done (.raised .staleTaskClaim) := by
  cases prog with
  | call c next => exact absurd h (by simp [raisedStale])
  | done how =>
      cases how with
      | raised e => rfl
      | _ => exact absurd h (by simp [raisedStale])

def mixedWorker : Caller :=
  ⟨"p", "gpu0", ⟨"node", "host"⟩, ["kernelgym"], 100⟩

/-- Two tasks for another host before one that runs anywhere. -/
def mixedQueue : List Action :=
  [.submit "kernelgym" { taskId := "first", targetHostname := "elsewhere" } none false [] "0",
    .submit "kernelgym" { taskId := "second", targetHostname := "elsewhere" } none false [] "1",
    .submit "kernelgym" { taskId := "matched" } none false [] "2"]

/-- Commands of the call, as far as a claim of its own queue that finds nothing. -/
def callStart : List (Move Action Caller.Input) := [.own {}, .own {}, .own {}, .own { token := "t0" }]

/-- The claim, the load and the cancel check of every task, and the mark of the last one. -/
def claimAll : List (Move Action Caller.Input) :=
  callStart ++ [.own { token := "t1" }, .own {}, .own {}, .own { token := "t2" }, .own {}, .own {},
    .own { token := "t3" }, .own {}, .own {}, .own {}, .own {}]

theorem get_next_task_clean_deferred : ∃ S d,
    mixedWorker.Runs (Sys.after mixedQueue).tokens
      (⟨Sys.after mixedQueue, false⟩, mixedWorker.getNextTask) (S, .done (.returned (some d))) ∧
    ∃ m t, S.sys.claimedSince (Sys.after mixedQueue).tokens "p" m d.taskId t ∧
      ((S.sys.spaces m).hgetall d.taskId).status = some .processing := by
  have hsome : ((Library.execute (fun now x =>
      if mixedWorker.undisturbed now x then mixedWorker.machine.step now x else none)
      (claimAll ++ [.own {}, .own {}])
      (⟨Sys.after mixedQueue, false⟩, mixedWorker.getNextTask)).bind
        fun now => returnedTaskId now.2).isSome := by decide
  obtain ⟨id, hid⟩ := Option.isSome_iff_exists.mp hsome
  obtain ⟨⟨S, prog⟩, hexec, hprog⟩ := Option.bind_eq_some_iff.mp hid
  obtain ⟨d, rfl⟩ := returnedTaskId_some hprog
  have hs : Reachable (Sys.after mixedQueue) :=
    Library.execute_run_getD (fun _ _ => trivial)
      (show (Library.execute step mixedQueue {}).isSome by decide)
  have hrun : mixedWorker.Runs (Sys.after mixedQueue).tokens _ _ :=
    Library.execute_run_of_test Caller.undisturbed_allow hexec
  obtain ⟨m, t, hclaimed, hstatus, -⟩ := (get_next_task_clean hs hrun).1 d rfl
  exact ⟨S, d, hrun, m, t, hclaimed, hstatus⟩

/-- The first deferred task is cancelled after the mark, just before its claim is returned. -/
def cancelledDeferred : List (Move Action Caller.Input) :=
  claimAll ++ [.other (.cancel "kernelgym" "first" "3" {}), .own {}]

/-- A task that carries a claim of the worker. -/
def mixedWorkerHolds (s : Sys) (k : TaskId) (t : Token) : Bool :=
  ((s.spaces "kernelgym").tasks k).any fun h =>
    h.claim.token = some t ∧ h.claim.workerInstance = "p"

theorem deferred_cancel_loses_marked_task : ∃ S how,
    Library.Run mixedWorker.machine.step (⟨Sys.after mixedQueue, false⟩, mixedWorker.getNextTask)
      (S, .done how) ∧
    how = .raised .staleTaskClaim ∧
    ((S.sys.spaces "kernelgym").hgetall "matched").status = some .processing ∧
    S.sys.claimedSince (Sys.after mixedQueue).tokens "p" "kernelgym" "matched" "t3" ∧
    S.sys.claimedSince (Sys.after mixedQueue).tokens "p" "kernelgym" "second" "t2" := by
  have hany : (Library.execute mixedWorker.machine.step cancelledDeferred
      (⟨Sys.after mixedQueue, false⟩, mixedWorker.getNextTask)).any fun now =>
        raisedStale now.2 && ((now.1.sys.spaces "kernelgym").hgetall "matched").status =
          some .processing && mixedWorkerHolds now.1.sys "matched" "t3" &&
          mixedWorkerHolds now.1.sys "second" "t2" := by decide
  obtain ⟨⟨S, prog⟩, hexec, hnow⟩ := Option.any_eq_true _ _ |>.mp hany
  simp only [Bool.and_eq_true, decide_eq_true_eq] at hnow
  obtain ⟨⟨⟨hraised, hstatus⟩, hmatched⟩, hsecond⟩ := hnow
  have hclaimed : ∀ {k t}, mixedWorkerHolds S.sys k t = true →
      S.sys.claimedSince (Sys.after mixedQueue).tokens "p" "kernelgym" k t := by
    intro k t hk
    obtain ⟨h, hh, hboth⟩ := Option.any_eq_true _ _ |>.mp hk
    obtain ⟨ht, hinst⟩ := of_decide_eq_true hboth
    exact ⟨h, hh, ht, hinst, by simp [show (Sys.after mixedQueue).tokens = [] by decide]⟩
  obtain rfl := raisedStale_eq hraised
  have hrun : Library.Run mixedWorker.machine.step _ _ :=
    Library.execute_run (fun _ _ => trivial) hexec
  exact ⟨S, _, hrun, rfl, hstatus, hclaimed hmatched, hclaimed hsecond⟩

end KernelGym
