import KernelGym.GetNextTask

/-! What a `get_next_task` call holds. Between its commands, every claim that it has made and that is
still on its task is known to the process, and is that of the prefix it works on. Other clients may end
such a claim, but cannot make one in its name. -/

namespace KernelGym

open Library

/-- Task `k` carries a claim with token `t` that process `p` has made after the tokens `old`. -/
def Sys.claimedSince (s : Sys) (old : List Token) (p : InstanceId) (m : KeyPrefix) (k : TaskId)
    (t : Token) : Prop :=
  ∃ h, (s.spaces m).tasks k = some h ∧ h.claim.token = some t ∧ h.claim.workerInstance = p ∧ t ∉ old

/-- The actions of `_recover_gpu_inflight`. -/
def Action.recovers : Action → Bool
  | .recoverScan .. | .recoverRead .. | .recoverDrop .. | .checkCancelled .. | .ack .. | .snapshot ..
  | .requeue .. | .finalize .. => true
  | _ => false

variable {s s' : Sys} {a : Action} {old : List Token} {p q : InstanceId} {m pre : KeyPrefix}
  {k id : TaskId} {t : Token} {c : Attempt}

theorem claimedSince_of_step (hv : s.Valid) (hstep : step s a = some s')
    (h : s'.claimedSince old p m k t) :
    s.claimedSince old p m k t ∨ ∃ w lane n, a = .claim p m w lane t n := by
  obtain ⟨h', hh', ht', hinst, hold⟩ := h
  have hcell := cellStep_of_step m k hstep
  by_cases hused : s.used t
  · obtain ⟨h, hh, hsame⟩ := hcell.sameAttempt (hv.cell m k) hh' ht' hused
    exact Or.inl ⟨h, hh, hsame.token ▸ ht', hsame.workerInstance ▸ hinst, hold⟩
  · obtain ⟨p', w, lane, n, ha, hinst'⟩ := hcell.claim_fresh (hv.cell m k) hh' ht' hused
    exact Or.inr ⟨w, lane, n, by rw [ha, ← hinst', hinst]⟩

namespace Caller

variable (caller : Caller) (old : List Token)

/-- What other clients do while the call runs: transactions of other processes, none of which recovers
a claim of this call; and recovery by the process itself before its first claim. -/
def interferes (S : CallState) (a : Action) : Prop :=
  a.transactional = true ∧
  (a.process ≠ some caller.inst ∨ (S.recovering = true ∧ a.recovers = true)) ∧
  ∀ q entry release, a = .recoverRead q entry release →
    ¬S.sys.claimedSince old caller.inst entry.pre entry.id entry.token

/-- The condition on the returns of deferred claims: what is returned was not marked, and either the
task still carries it, or no task carries a claim of this call any more. -/
def returnable (S : CallState) : Command → Prop
  | .returnClaim id =>
      (∀ c, S.sys.attempt caller.inst id = some c → c.stage = .dequeued) ∧
      ((∃ c, S.sys.attempt caller.inst id = some c ∧
        ((S.sys.spaces c.pre).hgetall id).claim.token = some c.token) ∨
      ∀ m k t, ¬S.sys.claimedSince old caller.inst m k t)
  | _ => True

def rules : Rules CallState Action Command where
  env := caller.interferes old
  own := caller.returnable old

/-- Every step of the call is a transaction that presents no marked claim of it, and recovery is over
before it makes a claim. -/
def guarantee (S S' : CallState) : Prop :=
  (S'.recovering = true → ∀ m k t, ¬S'.sys.claimedSince old caller.inst m k t) ∧
  (S'.sys = S.sys ∨ ∃ a, a.transactional = true ∧
    (∀ q entry release, a ≠ .recoverRead q entry release) ∧ step S.sys a = some S'.sys ∧
    ∀ m k t, S.sys.claimedSince old caller.inst m k t →
      ((S.sys.spaces m).hgetall k).claim.recoveryState ≠ .clear → ¬S.sys.authorizes m k t a)

/-- No other process holds a claim that this call has made. -/
structure Inv (s : Sys) : Prop where
  valid : s.Valid
  drawn : ∀ t ∈ old, t ∈ s.tokens
  foreign : ∀ q k c, q ≠ caller.inst → s.attempt q k = some c → c.workerInstance = caller.inst →
    c.token ∈ old

/-- The call works on prefix `pre`, and the claims it has made are on tasks among `held`. -/
structure Holding (S : CallState) (pre : KeyPrefix) (held : List TaskId) : Prop where
  inv : caller.Inv old S.sys
  started : S.recovering = false
  held : ∀ m k t, S.sys.claimedSince old caller.inst m k t → m = pre ∧ k ∈ held ∧
    ∃ c, S.sys.attempt caller.inst k = some c ∧ c.pre = pre ∧ c.token = t

/-- No task carries a claim of this call. -/
structure Clear (S : CallState) : Prop where
  inv : caller.Inv old S.sys
  unclaimed : ∀ m k t, ¬S.sys.claimedSince old caller.inst m k t

/-- The process has marked task `k`, whose claim it holds. -/
def Marked (S : CallState) (pre : KeyPrefix) (k : TaskId) : Prop :=
  ∃ c, S.sys.attempt caller.inst k = some c ∧ c.stage = .running ∧
    S.sys.claimedSince old caller.inst pre k c.token ∧
    ((S.sys.spaces pre).hgetall k).claim.recoveryState ≠ .clear

variable {caller old} {S : CallState} {held : List TaskId}

/-- A claim of this call is presented by the process itself only. -/
theorem Inv.presenter (hi : caller.Inv old s) (hclaimed : s.claimedSince old caller.inst m k t)
    (hholds : s.holds m k t q c) : q = caller.inst := by
  by_contra hq
  obtain ⟨h, hh, ht, hinst, hold⟩ := hclaimed
  obtain ⟨hc, rfl, rfl⟩ := hholds
  have hmatch := (hi.valid.cell c.pre k).matching q c h (Sys.cell_attempts_self hc) hh ht
  exact hold (hi.foreign q k c hq hc (hmatch.workerInstance ▸ hinst))

theorem Inv.not_authorizes (hi : caller.Inv old s) (hclaimed : s.claimedSince old caller.inst m k t)
    (ha : a.process ≠ some caller.inst) : ¬s.authorizes m k t a := by
  intro hauth
  cases a with
  | finalize q => exact ha (congrArg some (hi.presenter hclaimed hauth.2.1.choose_spec))
  | ack q =>
      obtain ⟨-, c, hholds, -⟩ := hauth
      exact ha (congrArg some (hi.presenter hclaimed hholds))
  | requeue q => exact ha (congrArg some (hi.presenter hclaimed hauth.2.1.choose_spec))
  | _ => exact hauth

theorem Inv.step (hi : caller.Inv old s) (hstep : step s a = some s')
    (hadopt : ∀ q entry release, a = .recoverRead q entry release →
      ¬s.claimedSince old caller.inst entry.pre entry.id entry.token) : caller.Inv old s' where
  valid := hi.valid.step hstep
  drawn t ht := (stepFrame_of_step hstep).tokens t (hi.drawn t ht)
  foreign q k c' hq hc' hinst := by
    have hcell := cellStep_of_step c'.pre k hstep
    have hbefore : ∀ c, (s.cell c'.pre k).attempts q = some c → c.workerInstance = caller.inst →
        c.token ∈ old := fun c hc => hi.foreign q k c hq (Sys.attempt_of_cell hc).1
    cases hcell.attemptStep (Sys.cell_attempts_self hc') with
    | kept hc => exact hbefore c' hc hinst
    | loaded c hc heq | checked c d hc hd heq | observed c hc heq | marked c now hc hstage ht heq =>
        rw [heq] at hinst ⊢
        exact hbefore c hc hinst
    | adopted entry release h hscan hpre hid hh ht heq hview ha =>
        by_contra hold
        rw [heq] at hinst hold
        exact hadopt q entry release ha ⟨h, hpre ▸ hid ▸ hh, ht, hinst, hold⟩
    | claimed w lane t n ha ht heq =>
        rw [heq] at hinst
        exact absurd hinst hq

/-- A marked claim of this call survives every transaction that does not present it. -/
theorem marked_of_step (hi : caller.Inv old s) (hstep : step s a = some s')
    (hcore : a.transactional = true) (hnot : ¬s.authorizes m k t a)
    (hclaimed : s.claimedSince old caller.inst m k t)
    (hfence : ((s.spaces m).hgetall k).claim.recoveryState ≠ .clear) :
    s'.claimedSince old caller.inst m k t ∧
      ((s'.spaces m).hgetall k).claim.recoveryState ≠ .clear := by
  obtain ⟨h, hh, ht, hinst, hold⟩ := hclaimed
  have hhash : (s.cell m k).hash = h := Store.hgetall_of_some hh
  have hcell := cellStep_of_step m k hstep
  obtain ⟨ht', hfence', -⟩ := hcell.fence_kept hcore hi.valid hnot (hhash ▸ ht) hfence
  obtain ⟨h₀, hh₀, hsame⟩ := hcell.sameAttempt (hi.valid.cell m k) (Cell.exists_of_token ht') ht'
    (((hi.valid.cell m k).sound h hh).claimed t ht).2.1
  obtain rfl := Option.some.inj (hh.symm.trans hh₀)
  exact ⟨⟨_, Cell.exists_of_token ht', ht', hsame.workerInstance.trans hinst, hold⟩, hfence'⟩

/-! ### Interference -/

theorem interferes_step {S' : CallState} (hi : caller.Inv old S.sys) (hok : caller.interferes old S a)
    (hstep : caller.machine.env S a = some S') :
    step S.sys a = some S'.sys ∧ S'.recovering = S.recovering ∧ caller.Inv old S'.sys ∧
      ∀ m k t, S'.sys.claimedSince old caller.inst m k t →
        S.sys.claimedSince old caller.inst m k t := by
  simp only [machine, Option.map_eq_some_iff] at hstep
  obtain ⟨sys, hsys, rfl⟩ := hstep
  refine ⟨hsys, rfl, hi.step hsys hok.2.2, fun m k t hclaimed => ?_⟩
  rcases claimedSince_of_step hi.valid hsys hclaimed with hold | ⟨w, lane, n, rfl⟩
  · exact hold
  · rcases hok.2.1 with hother | ⟨-, hrecovers⟩
    · exact absurd rfl hother
    · exact absurd hrecovers (by simp [Action.recovers])

/-- Once the call has left recovery, its process is not moved by others. -/
theorem interferes_attempt {S' : CallState} (hstarted : S.recovering = false)
    (hok : caller.interferes old S a) (hstep : caller.machine.env S a = some S') (k : TaskId) :
    S'.sys.attempt caller.inst k = S.sys.attempt caller.inst k := by
  simp only [machine, Option.map_eq_some_iff] at hstep
  obtain ⟨sys, hsys, rfl⟩ := hstep
  have hother : a.process ≠ some caller.inst := hok.2.1.resolve_right fun h => by
    rw [hstarted] at h
    exact absurd h.1 (by simp)
  exact congrFun (congrArg Process.claims (procs_of_step hsys hother)) k

theorem stable_clear : Stable caller.machine (caller.rules old) (caller.Clear old) := by
  intro S a S' hS hok hstep
  obtain ⟨-, -, hinv, hsub⟩ := interferes_step hS.inv hok hstep
  exact ⟨hinv, fun m k t hclaimed => hS.unclaimed m k t (hsub m k t hclaimed)⟩

theorem stable_holding : Stable caller.machine (caller.rules old)
    fun S => caller.Holding old S pre held := by
  intro S a S' hS hok hstep
  obtain ⟨-, hrec, hinv, hsub⟩ := interferes_step hS.inv hok hstep
  refine ⟨hinv, hrec.trans hS.started, fun m k t hclaimed => ?_⟩
  rw [interferes_attempt hS.started hok hstep]
  exact hS.held m k t (hsub m k t hclaimed)

theorem stable_attempt (o : Option Attempt) : Stable caller.machine (caller.rules old)
    fun S => caller.Holding old S pre held ∧ S.sys.attempt caller.inst id = o := by
  intro S a S' hS hok hstep
  exact ⟨stable_holding S a S' hS.1 hok hstep,
    (interferes_attempt hS.1.started hok hstep id).trans hS.2⟩

theorem stable_marked : Stable caller.machine (caller.rules old)
    fun S => caller.Holding old S pre held ∧ caller.Marked old S pre id := by
  rintro S a S' ⟨hS, c, hc, hstage, hclaimed, hfence⟩ hok hstep
  obtain ⟨hsys, -, -, -⟩ := interferes_step hS.inv hok hstep
  have hother : a.process ≠ some caller.inst := hok.2.1.resolve_right fun h => by
    rw [hS.started] at h
    exact absurd h.1 (by simp)
  exact ⟨stable_holding S a S' hS hok hstep, c,
    (interferes_attempt hS.started hok hstep id).trans hc, hstage,
    marked_of_step hS.inv hsys hok.1 (hS.inv.not_authorizes hclaimed hother) hclaimed hfence⟩

end Caller

end KernelGym
