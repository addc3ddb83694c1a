import KernelGym.PoolShutdown

/-! What a recovery can rely on when it starts its validation constructor. It shuts down the handles that
the pool has retained at the gate and then drains the older tickets, but it does not look at the retained
handles again. So everything hangs on what the owners of the older tickets do with a process that they
cannot prove gone: most of them quarantine the pool before they close their ticket, a failed constructor
and a cancelled registration do not. -/

namespace KernelGym.WorkerPool

open Library

/-! ### The steps that matter -/

/-- While the pool is suspended, a failed constructor has its child proven reaped, and so has the reap of
a registration that was cancelled. -/
def Sys.confirms (s : Sys) : Action → Bool
  | .move _ (.constructorFailed _ _ _ reaped) => s.pool.admission.healthState ≠ .suspect || reaped
  | .move i (.callbackReaped _ _) => s.pool.admission.healthState ≠ .suspect ||
      (s.activities[i]?.map fun a => a.reap.unproven) = some []
  | _ => true

/-- While the pool is suspended, no task takes its worker out of service. -/
def Sys.keepsWorkers (s : Sys) : Action → Bool
  | .move _ (.recycle _ _) | .move _ (.recycleFaulted _ _ _) =>
    s.pool.admission.healthState ≠ .suspect
  | _ => true

/-! ### Stages -/

/-- The generation for which the recovery at this stage has gated the pool and not probed it yet. -/
def Stage.gated : Stage → Option Nat
  | .retiring _ _ g | .draining _ _ g | .drained _ _ g => some g
  | _ => none

/-- Where an activity goes on after it has declared an unreaped context. -/
def Stage.afterQuarantine : Stage → Bool
  | .recycled _ _ _ _ _ | .reconciled _ _ | .unsafeRecovery _ _ _ | .callbackDone _ _
  | .failureDone _ => true
  | .unreaped _ resume => resume.afterQuarantine
  | _ => false

/-- A restart replaces its worker in the generation of its own ticket. -/
def Stage.Orderly : Stage → Prop
  | .recycling _ _ t next => ∀ x, next = some x → x.1 = t
  | .unreaped _ resume | .quarantining resume => resume.afterQuarantine = true
  | _ => True

/-- The stages that are entered in quarantine only. -/
def Stage.condemned : Stage → Bool
  | .quarantining _ | .containingFailure _ => true
  | _ => false

/-- An activity with a ticket older than `g` sees to the process of `w`: it awaits its shutdown, it is
about to register it, or it is about to quarantine the pool. -/
def Activity.chases (b : Activity) (g : Nat) (w : Handle) : Prop :=
  (∃ t, b.stage.ticket = some t ∧ t < g) ∧
    (b.stage.awaits = true ∧ (w ∈ b.reap.todo ∨ (w, false) ∈ b.reap.results) ∨
      (∃ t v, b.stage = .ready t v w) ∨ ∃ extra resume, b.stage = .unreaped extra resume)

/-- The recovery itself waits for the shutdown of `w`, or has not proven it gone. -/
def Activity.retires (a : Activity) (w : Handle) : Prop :=
  (∃ x e g, a.stage = .retiring x e g) ∧ (w ∈ a.reap.todo ∨ (w, false) ∈ a.reap.results)

def Chased (s : Sys) (a : Activity) (g : Nat) (w : Handle) : Prop :=
  a.retires w ∨ ∃ b ∈ s.activities, b.chases g w

theorem Stage.locks_of_gated {stage : Stage} {g : Nat} (h : stage.gated = some g) :
    stage.locks = true ∧ stage.gates = some g := by
  cases stage with
  | retiring x e g' | draining x e g' | drained x e g' => exact ⟨rfl, h⟩
  | _ => cases h

theorem Stage.retiring_of_gated {stage : Stage} {g : Nat} (h : stage.gated = some g)
    (hawaits : stage.awaits = true) : ∃ x e g, stage = .retiring x e g := by
  cases stage with
  | retiring x e g' => exact ⟨x, e, g', rfl⟩
  | draining x e g' | drained x e g' => cases hawaits
  | _ => cases h

/-- Whoever shuts the pool down has closed it. -/
theorem Stage.Attached.closing {p : Pool} {stage : Stage} (h : stage.Attached p)
    (hshuts : stage.shutsDown = true) : p.admission.closing = true := by
  cases stage with
  | shutdownReaping | shutdownDraining | shutdownDrained | shutdownLate => exact h
  | _ => cases hshuts

theorem Stage.built_of_unlocked {stage : Stage} (h : stage.locks = false) : stage.built = none := by
  cases stage with
  | probed w e g v => cases h
  | _ => rfl

theorem mem_unproven {r : Reap} {w : Handle} : w ∈ r.unproven ↔ (w, false) ∈ r.results := by
  simp [Reap.unproven]

theorem afterQuarantine_unreapedEach {ws : List Handle} {last : Stage}
    (h : last.afterQuarantine = true) : (unreapedEach ws last).afterQuarantine = true := by
  induction ws with
  | nil => exact h
  | cons w ws ih => exact ih

section Run

variable {p : Pool} {r : Reap}

theorem run_orderly (m : Move) (h : m.source.Orderly) : (m.run p r).activity.stage.Orderly := by
  cases m with
  | recycle w e | recycleFaulted w e v =>
      intro x hx
      exact (Admitted.restart_replenishes hx).1
  | reapRecycled w e t next =>
      simp only [Move.run]
      (repeat' split) <;> trivial
  | drainTimeout w e g => exact rfl
  | probeFailed w e g reaped => cases reaped <;> trivial
  | reapStaleProbe w e g v | reapStaleReplacement g w =>
      simp only [Move.run]
      split <;> trivial
  | reapDetached t n =>
      simp only [Move.run]
      split <;> trivial
  | reapFailure g =>
      cases hunproven : r.unproven with
      | nil =>
          simp only [Move.run, hunproven]
          trivial
      | cons w ws =>
          simp only [Move.run, hunproven]
          exact afterQuarantine_unreapedEach rfl
  | quarantine extra resume => exact h
  | endQuarantine resume =>
      have hafter : resume.afterQuarantine = true := h
      cases resume with
      | unreaped extra resume => exact hafter
      | recycled | reconciled | unsafeRecovery | callbackDone | failureDone => trivial
      | _ => cases hafter
  | contextFault w e => cases hanswer : p.contextFaultAnswer e <;> rw [Move.run, hanswer] <;> trivial
  | settleProbe w e g v => cases v <;> simp only [Move.run] <;> split <;> trivial
  | markFailed g v physical => cases hdecision : p.failure g physical <;> rw [Move.run, hdecision] <;> trivial
  | _ => simp only [Move.run]; (repeat' split) <;> trivial

/-- A recovery reaches the stages before its probe from the gate only. -/
theorem run_gated (m : Move) (hafter : m.source.Orderly) {g : Nat}
    (h : (m.run p r).activity.stage.gated = some g) :
    (∃ w e, m = .recoverOnce w e ∧ p.admission.closing = false ∧ g = p.admission.poolGeneration + 1 ∧
      (m.run p r).activity = ⟨.retiring w e g, .of (p.trackedWorkers [w])⟩ ∧
      (m.run p r).pool.registry = p.registry) ∨
    (∃ w e, m = .retire w e g ∧ r.unproven = []) ∨ ∃ w e, m = .drain w e g := by
  cases m with
  | recoverOnce w e =>
      revert h
      simp only [Move.run]
      split_ifs with hclosing hq hwarned <;> intro h
      · cases h
      · cases h
      · cases h
      · obtain rfl := Option.some.inj h
        exact .inl ⟨w, e, rfl, by simpa using hclosing, rfl, rfl, rfl⟩
  | retire w e g' =>
      revert h
      simp only [Move.run]
      split <;> intro h
      · rename_i hproven
        obtain rfl := Option.some.inj h
        exact .inr (.inl ⟨w, e, rfl, hproven⟩)
      · cases h
  | drain w e g' =>
      obtain rfl := Option.some.inj h
      exact .inr (.inr ⟨w, e, rfl⟩)
  | endQuarantine resume =>
      have hafter : resume.afterQuarantine = true := hafter
      rw [Move.run] at h
      cases resume with
      | retiring | draining | drained => cases hafter
      | _ => cases h
  | contextFault w e => cases hanswer : p.contextFaultAnswer e <;> rw [Move.run, hanswer] at h <;> cases h
  | settleProbe w e g' v =>
      revert h
      cases v <;> simp only [Move.run] <;> split <;> (intro h; cases h)
  | markFailed g' v physical =>
      cases hdecision : p.failure g' physical <;> rw [Move.run, hdecision] at h <;> cases h
  | reapFailure g' =>
      revert h
      cases hunproven : r.unproven <;> simp only [Move.run, hunproven] <;>
        (intro h; cases h)
  | _ =>
      revert h
      simp only [Move.run]
      (repeat' split) <;> (intro h; cases h)

theorem run_condemned (m : Move) (hafter : m.source.Orderly)
    (h : (m.run p r).activity.stage.condemned = true) :
    (m.run p r).pool.admission.healthState = .quarantined := by
  cases m with
  | quarantine extra resume => rfl
  | endQuarantine resume =>
      have hafter : resume.afterQuarantine = true := hafter
      rw [Move.run] at h
      cases resume with
      | quarantining | containingFailure => cases hafter
      | _ => cases h
  | markFailed g v physical =>
      cases hdecision : p.failure g physical <;> rw [Move.run, hdecision] at h ⊢ <;>
        first | rfl | cases h
  | contextFault w e => cases hanswer : p.contextFaultAnswer e <;> rw [Move.run, hanswer] at h <;> cases h
  | settleProbe w e g v =>
      revert h
      cases v <;> simp only [Move.run] <;> split <;> exact fun h => Bool.noConfusion h
  | reapFailure g =>
      revert h
      cases hunproven : r.unproven <;> simp only [Move.run, hunproven] <;>
        exact fun h => Bool.noConfusion h
  | _ =>
      revert h
      simp only [Move.run]
      (repeat' split) <;> exact fun h => Bool.noConfusion h

/-- An activity that sees to a process goes on doing so while the pool stays suspended, except for a
registration that is cancelled after the handle was released. -/
theorem run_chases (m : Move) {g : Nat} {w : Handle} (h : (⟨m.source, r⟩ : Activity).chases g w)
    (hready : m.ready p r = true → r.todo = []) (hcan : m.ready p r = true)
    (hfree : m.source.locks = false) (hcondemned : m.source.condemned = false)
    (hsuspect : p.admission.healthState = .suspect)
    (hconfirm : ∀ k x, m = .callbackReaped k x → r.unproven = [])
    (hstill : (m.run p r).pool.admission.healthState = .suspect) :
    (m.run p r).activity.chases g w ∨
      (∃ k v, m = .registerCancelled k v w) ∧ w ∉ p.registry.unreaped := by
  obtain ⟨⟨t, ht, hlt⟩, ⟨hawaits, hw⟩ | ⟨k, v, hregisters⟩ | ⟨extra, resume, hdeclares⟩⟩ := h
  · -- All the shutdowns have come back, so one of them did without a proof.
    have hfalse : (w, false) ∈ r.results := by
      rcases hw with hw | hw
      · rw [hready hcan] at hw
        cases hw
      · exact hw
    have hunproven : r.unproven ≠ [] := List.ne_nil_of_mem (mem_unproven.mpr hfalse)
    refine .inl ?_
    cases m with
    | reapRecycled x e t' next =>
        simp only [Move.run, if_neg hunproven]
        exact ⟨⟨t, ht, hlt⟩, .inr (.inr ⟨_, _, rfl⟩)⟩
    | reapStaleReplacement t' x =>
        simp only [Move.run, if_neg hunproven]
        exact ⟨⟨t, ht, hlt⟩, .inr (.inr ⟨_, _, rfl⟩)⟩
    | reapDetached t' n =>
        cases hlist : r.unproven with
        | nil => exact absurd hlist hunproven
        | cons x rest =>
            simp only [Move.run, hlist]
            exact ⟨⟨t, ht, hlt⟩, .inr (.inr ⟨_, _, rfl⟩)⟩
    | callbackReaped t' x => exact absurd (hconfirm t' x rfl) hunproven
    | reapFailure | endQuarantine => cases hcondemned
    | retire | raiseContained | reportContained | reapStaleProbe => cases hfree
    | shutdownReaped | shutdownEnd => cases ht
    | _ => cases hawaits
  · cases m with
    | register k' v' x =>
        have hx : x = w := (Stage.ready.inj hregisters).2.2
        subst hx
        have hstale : p.registration k' v' = .stale := by
          by_contra hne
          have hstate := (Pool.registration_fresh hne).2.2
          rw [hsuspect] at hstate
          cases v' <;> cases hstate
        rw [Move.run, hstale]
        exact .inl ⟨⟨t, ht, hlt⟩, .inl ⟨rfl, .inl (List.mem_singleton.mpr rfl)⟩⟩
    | registerCancelled k' v' x =>
        have hx : x = w := (Stage.ready.inj hregisters).2.2
        subst hx
        simp only [Move.run]
        split
        · exact .inl ⟨⟨t, ht, hlt⟩, .inl ⟨rfl, .inl (List.mem_singleton.mpr rfl)⟩⟩
        · rename_i hkept
          exact .inr ⟨⟨k', v', rfl⟩, hkept⟩
    | _ => cases hregisters
  · cases m with
    | quarantine extra' resume' => cases hstill
    | _ => cases hdeclares

/-- A block keeps the ticket of its activity, or opens one of the current generation. -/
theorem run_ticket (m : Move) {k : Nat} (h : (m.run p r).activity.stage.ticket = some k) :
    m.source.ticket = some k ∨ k = (m.run p r).pool.admission.poolGeneration ∧
      ((∃ w e, m = .recycle w e) ∨ (∃ w e g, m = .recycleFaulted w e g) ∨
        ∃ w e, m = .recoverOnce w e) := by
  cases m with
  | recycle w e => exact .inr ⟨(Option.some.inj h).symm, .inl ⟨w, e, rfl⟩⟩
  | recycleFaulted w e g => exact .inr ⟨(Option.some.inj h).symm, .inr (.inl ⟨w, e, g, rfl⟩)⟩
  | recoverOnce w e =>
      revert h
      simp only [Move.run]
      split_ifs <;> intro h
      · cases h
      · cases h
      · cases h
      · exact .inr ⟨(Option.some.inj h).symm, .inr (.inr ⟨w, e, rfl⟩)⟩
  | contextFault w e => cases hanswer : p.contextFaultAnswer e <;> rw [Move.run, hanswer] at h <;> cases h
  | settleProbe w e g v =>
      revert h
      cases v <;> simp only [Move.run] <;> split <;> intro h <;> first | exact .inl h | cases h
  | markFailed g v physical =>
      cases hdecision : p.failure g physical <;> rw [Move.run, hdecision] at h <;> exact .inl h
  | reapFailure g =>
      rw [Move.run, ticket_unreapedEach] at h
      exact .inl h
  | register g v w =>
      cases hdecision : p.registration g v <;> rw [Move.run, hdecision] at h <;> exact .inl h
  | _ =>
      revert h
      simp only [Move.run]
      (repeat' split) <;> intro h <;> first | exact .inl h | cases h

/-- A ticket that is open after a block was open before, or has just been opened. -/
theorem run_opens (m : Move) (horderly : m.source.Orderly)
    (hopen : ∀ t, m.source.ticket = some t → t ∈ p.activeReplenishments) {k : Nat}
    (hk : k ∈ (m.run p r).pool.activeReplenishments) :
    k ∈ p.activeReplenishments ∨ k = (m.run p r).pool.admission.poolGeneration ∧
      ((∃ w e, m = .recycle w e) ∨ (∃ w e g, m = .recycleFaulted w e g) ∨
        ∃ w e, m = .recoverOnce w e) := by
  have hcount := run_tickets (r := r) m hopen k
  have hleaves := leaves_le (r := r) m k
  by_cases hold : k ∈ p.activeReplenishments
  · exact .inl hold
  have hzero : p.activeReplenishments.count k = 0 := List.count_eq_zero.mpr hold
  have hpos := List.count_pos_iff.mpr hk
  by_cases hmine : (m.run p r).activity.stage.ticket = some k
  · rcases run_ticket m hmine with hsource | hnew
    · exact .inl (hopen k hsource)
    · exact .inr hnew
  · have hshare : ticketShare k (m.run p r).activity = 0 := if_neg hmine
    have hstarted : 0 < tally (ticketShare k) (m.run p r).started := by omega
    obtain ⟨b, hb, hshares⟩ := tally_pos.mp hstarted
    obtain ⟨w, e, t, g, v, rfl, rfl⟩ := run_started p r m hb
    have hkg : g = k := by
      by_contra hne
      simp [ticketShare, marks, Stage.ticket, hne] at hshares
    have hgt : g = t := horderly (g, v) rfl
    exact .inl (hopen k (by rw [← hkg, hgt]; rfl))

theorem Registry.constructFailed_retains {r : Registry} {w : Handle}
    (hw : w ∈ (r.constructFailed true).unreaped) : w ∈ r.unreaped := by
  rw [constructFailed, shutdown] at hw
  split at hw
  · exact (r.construct.1.mem_release.mp hw).1
  · exact (r.construct.1.mem_release.mp hw).1

/-- Why a handle is retained after a block. -/
theorem run_retains (m : Move) {w : Handle} (hw : w ∈ (m.run p r).pool.registry.unreaped) :
    w ∈ p.registry.unreaped ∨ (m.source.awaits = true ∧ (w, false) ∈ r.results) ∨
      (∃ x e, m = .recycle x e) ∨ (∃ x e g, m = .recycleFaulted x e g) ∨
      (∃ g v, m = .constructed g v ∧ w = p.registry.constructed) ∨
      (∃ x e g, m = .probeFailed x e g false) ∨ ∃ g v d, m = .constructorFailed g v d false := by
  cases m with
  | recycle x e => exact .inr (.inr (.inl ⟨x, e, rfl⟩))
  | recycleFaulted x e g => exact .inr (.inr (.inr (.inl ⟨x, e, g, rfl⟩)))
  | reapRecycled | retire | reapStaleProbe | raiseContained | reportContained | reapDetached | reapStaleReplacement
  | callbackReaped | reapFailure | endQuarantine | shutdownEnd =>
      have hrecorded : w ∈ (p.registry.recordResults r.results).unreaped := by
        revert hw
        simp only [Move.run]
        (repeat' split) <;> exact id
      exact ((p.registry.mem_recordResults).2 hrecorded).imp_right fun hfalse => .inl ⟨rfl, hfalse⟩
  | register g v x =>
      cases hdecision : p.registration g v <;> rw [Move.run, hdecision] at hw
      · exact .inl hw
      · exact .inl (p.registry.mem_release.mp hw).1
      · exact .inl hw
  | constructed g v =>
      rcases p.registry.construct.1.mem_retain.mp hw with hold | hnew
      · exact .inl hold
      · exact .inr (.inr (.inr (.inr (.inl ⟨g, v, rfl, hnew⟩))))
  | probeFailed x e g reaped =>
      cases reaped with
      | true => exact .inl (Registry.constructFailed_retains hw)
      | false => exact .inr (.inr (.inr (.inr (.inr (.inl ⟨x, e, g, rfl⟩)))))
  | constructorFailed g v d reaped =>
      cases reaped with
      | true => exact .inl (Registry.constructFailed_retains hw)
      | false => exact .inr (.inr (.inr (.inr (.inr (.inr ⟨g, v, d, rfl⟩)))))
  | contextFault x e => cases hanswer : p.contextFaultAnswer e <;> rw [Move.run, hanswer] at hw <;> exact .inl hw
  | quarantineOld x e g =>
      revert hw
      simp only [Move.run, Move.endRecovery, Pool.quarantineOldWorkers]
      split <;> exact .inl
  | settleProbe x e g v =>
      revert hw
      cases v <;> simp only [Move.run] <;> split <;> exact .inl
  | markFailed g v physical =>
      cases hdecision : p.failure g physical <;> rw [Move.run, hdecision] at hw <;> exact .inl hw
  | _ => revert hw; simp only [Move.run]; (repeat' split) <;> exact .inl

end Run

theorem Registry.constructFailed_proven (r : Registry) :
    r.constructed ∈ (r.constructFailed true).reaped := by
  rw [constructFailed, shutdown]
  split
  · assumption
  · exact List.mem_cons_self

/-- A shutdown that answers true releases the handle. -/
theorem Registry.shutdown_released {r : Registry} {x : Handle} {stopped : Bool}
    (h : (r.shutdown x stopped).2 = true) : x ∉ (r.shutdown x stopped).1.unreaped := by
  revert h
  rw [shutdown]
  split
  · exact fun _ hmem => (r.mem_release.mp hmem).2 rfl
  · split
    · exact fun _ hmem => (r.mem_release.mp hmem).2 rfl
    · exact fun h => Bool.noConfusion h

/-- The activity after the shutdown of `w` came back with the answer `proven`. -/
def Activity.answered (a : Activity) (w : Handle) (proven : Bool) : Activity :=
  { a with reap := { todo := a.reap.todo.erase w, results := a.reap.results ++ [(w, proven)] } }

/-- What an activity waits for it goes on waiting for, unless the answer was a proof. -/
theorem answered_waits {a : Activity} {w x : Handle} {proven : Bool}
    (h : x ∈ a.reap.todo ∨ (x, false) ∈ a.reap.results) (hx : x = w → proven = false) :
    x ∈ (a.answered w proven).reap.todo ∨ (x, false) ∈ (a.answered w proven).reap.results := by
  rcases h with htodo | hfalse
  · by_cases hxw : x = w
    · subst hxw
      rw [hx rfl]
      exact .inr (List.mem_append_right _ (List.mem_singleton.mpr rfl))
    · exact .inl ((List.mem_erase_of_ne hxw).mpr htodo)
  · exact .inr (List.mem_append_left _ hfalse)

/-! ### The invariant -/

structure Chasing (s : Sys) : Prop where
  owned : Owned s
  prior : ∀ k ∈ s.pool.activeReplenishments, k ≤ s.pool.admission.poolGeneration
  orderly : ∀ a ∈ s.activities, a.stage.Orderly
  condemned : ∀ a ∈ s.activities, a.stage.condemned = true →
    s.pool.admission.healthState = .quarantined
  registering : ∀ a ∈ s.activities, ∀ g v w, a.stage = .ready g v w →
    w ∈ s.pool.registry.reaped ∨ w ∈ s.pool.registry.unreaped
  chased : ∀ a ∈ s.activities, ∀ g, a.stage.gated = some g → s.pool.recoveryCurrent g = true →
    ∀ w < s.pool.registry.constructed, w ∈ s.pool.registry.reaped ∨ Chased s a g w
  drained : ∀ a ∈ s.activities, ∀ x e g, a.stage = .drained x e g →
    s.pool.recoveryCurrent g = true → ∀ k ∈ s.pool.activeReplenishments, g ≤ k

theorem chasing_init (n : Nat) : Chasing (init n) where
  owned := owned_init n
  prior k hk := by cases hk
  orderly a ha := by cases ha
  condemned a ha := by cases ha
  registering a ha := by cases ha
  chased a ha := by cases ha
  drained a ha := by cases ha

namespace Chasing

variable {s : Sys}

/-- A recovery that is current after a block of another activity was current before. -/
theorem current_before (h : Chasing s) {i j : Nat} {m : Move} {r : Reap} {a : Activity} {g : Nat}
    (hij : j ≠ i) (ha : s.activities[j]? = some a) (hm : s.activities[i]? = some ⟨m.source, r⟩)
    (hgated : a.stage.gated = some g) (hafter : (m.run s.pool r).pool.recoveryCurrent g = true) :
    m.source.locks = false ∧ g = s.pool.admission.poolGeneration ∧
      s.pool.admission.healthState = .suspect ∧ s.pool.recoveryCurrent g = true := by
  obtain ⟨hlocks, hgates⟩ := Stage.locks_of_gated hgated
  have hadmitted := h.owned.accounted.admitted
  have hfree := hadmitted.unlocked (fun heq => hij heq.symm) ha hm hlocks
  obtain ⟨hle, hsuspect⟩ := hadmitted.gating a (List.mem_of_getElem? ha) g hgates
  obtain ⟨hopen, hgen, -⟩ := Pool.recoveryCurrent_iff.mp hafter
  have hadvances : s.pool.admission.Advances (m.run s.pool r).pool.admission :=
    run_advances (hadmitted.replenishes_of hm) (hadmitted.gates_of hm)
  have hcurrent : g = s.pool.admission.poolGeneration :=
    Nat.le_antisymm hle (Nat.le_trans hadvances.generation (Nat.le_of_eq hgen.symm))
  refine ⟨hfree, hcurrent, hsuspect hcurrent, ?_⟩
  rw [run_closing] at hopen
  exact Pool.recoveryCurrent_iff.mpr ⟨hopen, hcurrent, hsuspect hcurrent⟩

/-- At the gate everything that is not proven gone is shut down by the recovery, or has an owner with an
older ticket. -/
theorem chased_gate (h : Chasing s) {i : Nat} {w : Handle} {e : Nat} {r : Reap} {b' : Activity}
    (ha : s.activities[i]? = some ⟨.admitted w e, r⟩) (hopen : s.pool.admission.closing = false)
    {x : Handle} (hx : x < s.pool.registry.constructed)
    (hb' : b' = ⟨.retiring w e (s.pool.admission.poolGeneration + 1),
      .of (s.pool.trackedWorkers [w])⟩) :
    x ∈ s.pool.registry.reaped ∨ b'.retires x ∨
      ∃ b ∈ s.activities, b ≠ ⟨.admitted w e, r⟩ ∧
        b.chases (s.pool.admission.poolGeneration + 1) x := by
  have hmem := List.mem_of_getElem? ha
  have hmine : x ∈ s.pool.trackedWorkers [w] → b'.retires x := by
    intro htracked
    rw [hb']
    exact ⟨⟨w, e, _, rfl⟩, .inl htracked⟩
  rcases h.owned.covered x hx with hgone | hmember | hkept | ⟨b, hb, hcustody⟩
  · exact .inl hgone
  · exact .inr (.inl (hmine (Pool.mem_trackedWorkers.mpr (.inl hmember))))
  · exact .inr (.inl (hmine (Pool.mem_trackedWorkers.mpr (.inr (.inr (.inr (.inl hkept)))))))
  · have hdiligent := h.owned.diligent b hb
    have hne : b ≠ ⟨.admitted w e, r⟩ := by
      rintro rfl
      rcases List.mem_append.mp hcustody with htodo | hbuilt
      · cases hdiligent.awaiting (List.ne_nil_of_mem htodo)
      · cases hbuilt
    have hfree : b.stage.locks = false := by
      obtain ⟨j, hj⟩ := List.mem_iff_getElem?.mp hb
      refine h.owned.accounted.admitted.unlocked (i := i) ?_ ha hj rfl
      rintro rfl
      exact hne (Option.some.inj (hj.symm.trans ha))
    have htodo : x ∈ b.reap.todo := by
      rcases List.mem_append.mp hcustody with htodo | hbuilt
      · exact htodo
      · rw [Stage.built_of_unlocked hfree] at hbuilt
        cases hbuilt
    rcases h.owned.responsible hb hcustody with ⟨t, ht, hactive⟩ | hshuts
    · refine .inr (.inr ⟨b, hb, hne, ⟨t, ht, Nat.lt_succ_of_le (h.prior t hactive)⟩, .inl ?_⟩)
      exact ⟨hdiligent.awaiting (List.ne_nil_of_mem htodo), .inl htodo⟩
    · have hclosing := (h.owned.accounted.bounded.attached b hb).closing hshuts
      rw [hopen] at hclosing
      cases hclosing

/-- Whoever sees to a process does so after the block, or the process is gone and its handle released. -/
theorem chased_kept (h : Chasing s) {i : Nat} {m : Move} {r : Reap} {g : Nat} {w : Handle}
    {b : Activity} (ha : s.activities[i]? = some ⟨m.source, r⟩)
    (hready : m.ready s.pool r = true) (hok : s.confirms (.move i m) = true)
    (hfree : m.source.locks = false) (hsuspect : s.pool.admission.healthState = .suspect)
    (hstill : (m.run s.pool r).pool.admission.healthState = .suspect)
    (hb : b ∈ s.activities) (hchases : b.chases g w) :
    (∃ b ∈ s.activities.set i (m.run s.pool r).activity, b.chases g w) ∨
      w ∈ s.pool.registry.reaped ∧ w ∉ s.pool.registry.unreaped ∧
        ∃ k v, m = .registerCancelled k v w := by
  have hmem : (⟨m.source, r⟩ : Activity) ∈ s.activities := List.mem_of_getElem? ha
  by_cases hb' : b = ⟨m.source, r⟩
  · subst hb'
    have hcondemned : m.source.condemned = false := by
      cases hc : m.source.condemned with
      | false => rfl
      | true =>
          have hq := h.condemned _ hmem hc
          rw [hsuspect] at hq
          cases hq
    have hconfirm : ∀ k x, m = .callbackReaped k x → r.unproven = [] := by
      rintro k x rfl
      simpa [Sys.confirms, hsuspect, ha] using hok
    rcases run_chases m hchases (fun _ => h.owned.ready_empty ha hready) hready hfree hcondemned
      hsuspect hconfirm hstill with hgoes | ⟨⟨k, v, rfl⟩, hreleased⟩
    · exact .inl ⟨_, mem_set_self _ ha, hgoes⟩
    · refine .inr ⟨?_, hreleased, k, v, rfl⟩
      exact (h.registering _ hmem k v w rfl).resolve_right hreleased
  · exact .inl ⟨b, mem_set_of_ne ha hb hb', hchases⟩

theorem chases_other {a : Activity} {g : Nat} (hticket : a.stage.ticket = some g) {w : Handle} :
    ¬a.chases g w := by
  rintro ⟨⟨t, ht, hlt⟩, -⟩
  rw [hticket] at ht
  exact Nat.lt_irrefl _ (Option.some.inj ht ▸ hlt)

theorem chased_move (h : Chasing s) {i : Nat} (m : Move) (r : Reap)
    (ha : s.activities[i]? = some ⟨m.source, r⟩) (hready : m.ready s.pool r = true)
    (hok : s.confirms (.move i m) = true) {b : Activity} {g : Nat}
    (hb : b ∈ s.activities.set i (m.run s.pool r).activity) (hgated : b.stage.gated = some g)
    (hcurrent : (m.run s.pool r).pool.recoveryCurrent g = true) {w : Handle}
    (hw : w < (m.run s.pool r).pool.registry.constructed) :
    w ∈ (m.run s.pool r).pool.registry.reaped ∨
      Chased ((m.run s.pool r).base (s.activities.set i (m.run s.pool r).activity)) b g w := by
  have hmem : (⟨m.source, r⟩ : Activity) ∈ s.activities := List.mem_of_getElem? ha
  have hbase : (∃ b ∈ s.activities.set i (m.run s.pool r).activity, b.chases g w) →
      Chased ((m.run s.pool r).base (s.activities.set i (m.run s.pool r).activity)) b g w :=
    fun ⟨c, hc, hchases⟩ => .inr ⟨c, List.mem_append_left _ hc, hchases⟩
  rcases mem_set_cases hb with rfl | ⟨j, hj, hb⟩
  · rcases run_gated m (h.orderly _ hmem) hgated with ⟨x, e, rfl, hopen, rfl, hact, hregistry⟩ |
      ⟨x, e, rfl, hproven⟩ | ⟨x, e, rfl⟩
    · rw [hregistry] at hw ⊢
      rcases h.chased_gate ha hopen hw hact with hgone | hmine | ⟨c, hc, hne, hchases⟩
      · exact .inl hgone
      · exact .inr (.inl hmine)
      · exact .inr (hbase ⟨c, mem_set_of_ne ha hc hne, hchases⟩)
    · -- The recovery has proven the old workers gone.
      have hold : s.pool.recoveryCurrent g = true := by
        simp only [Move.run, hproven] at hcurrent
        exact hcurrent
      have hcount : w < s.pool.registry.constructed := by
        rw [run_constructed_still _ rfl] at hw
        exact hw
      rcases h.chased _ hmem g rfl hold w hcount with hgone | ⟨-, hmine⟩ | ⟨c, hc, hchases⟩
      · exact .inl (run_reaped _ hgone)
      · rcases hmine with htodo | hfalse
        · rw [h.owned.ready_empty ha hready] at htodo
          cases htodo
        · have hmine := mem_unproven.mpr hfalse
          rw [hproven] at hmine
          cases hmine
      · have hne : c ≠ ⟨(Move.retire x e g).source, r⟩ := by
          rintro rfl
          exact chases_other rfl hchases
        exact .inr (hbase ⟨c, mem_set_of_ne ha hc hne, hchases⟩)
    · rcases h.chased _ hmem g rfl hcurrent w hw with hgone | ⟨⟨x', e', g', hstage⟩, -⟩ |
        ⟨c, hc, hchases⟩
      · exact .inl hgone
      · cases hstage
      · have hne : c ≠ ⟨(Move.drain x e g).source, r⟩ := by
          rintro rfl
          exact chases_other rfl hchases
        exact .inr (hbase ⟨c, mem_set_of_ne ha hc hne, hchases⟩)
  · obtain ⟨hfree, hgen, hsuspect, hbefore⟩ := h.current_before hj hb ha hgated hcurrent
    have hstill := (Pool.recoveryCurrent_iff.mp hcurrent).2.2
    have hbmem := List.mem_of_getElem? hb
    rcases Nat.lt_or_ge w s.pool.registry.constructed with hold | hnew
    · rcases h.chased b hbmem g hgated hbefore w hold with hgone | hmine | ⟨c, hc, hchases⟩
      · exact .inl (run_reaped m hgone)
      · exact .inr (.inl hmine)
      · rcases h.chased_kept ha hready hok hfree hsuspect hstill hc hchases with hgoes |
          ⟨hgone, -⟩
        · exact .inr (hbase hgoes)
        · exact .inl (run_reaped m hgone)
    · -- The block has built the worker.
      rcases run_registry s.pool r m with hr | hr | ⟨x, e, -, hr⟩ | ⟨g', v, x, -, -, hr⟩ |
        ⟨x, e, g', rfl, hr⟩ | ⟨g', v, rfl, hr⟩ | ⟨c, ⟨x, e, g', rfl⟩ | ⟨g', v, d, rfl⟩, hr⟩
      · rw [hr] at hw
        exact absurd hw (Nat.not_lt_of_le hnew)
      · rw [hr, Registry.recordResults_constructed] at hw
        exact absurd hw (Nat.not_lt_of_le hnew)
      · rw [hr] at hw
        exact absurd hw (Nat.not_lt_of_le hnew)
      · rw [hr] at hw
        exact absurd hw (Nat.not_lt_of_le hnew)
      · cases hfree
      · rw [hr] at hw
        have heq : w = s.pool.registry.constructed :=
          Nat.le_antisymm (Nat.le_of_lt_succ hw) hnew
        subst heq
        refine .inr (hbase ⟨_, mem_set_self _ ha, ⟨g', rfl, ?_⟩, .inr (.inl ⟨g', v, rfl⟩)⟩)
        obtain ⟨hle, hserves⟩ := h.owned.accounted.admitted.replenishing _ hmem g' rfl
        refine Nat.lt_of_le_of_ne (hgen ▸ hle) fun heq => ?_
        have hbad := hserves (heq.trans hgen)
        simp [HealthState.serves, hsuspect] at hbad
      · cases hfree
      · have hproven : c = true := by simpa [Sys.confirms, hsuspect] using hok
        subst hproven
        rw [hr, Registry.constructFailed_constructed] at hw
        have heq : w = s.pool.registry.constructed :=
          Nat.le_antisymm (Nat.le_of_lt_succ hw) hnew
        subst heq
        rw [hr]
        exact .inl (Registry.constructFailed_proven _)

theorem drained_move (h : Chasing s) {i : Nat} (m : Move) (r : Reap)
    (ha : s.activities[i]? = some ⟨m.source, r⟩) (hready : m.ready s.pool r = true) {b : Activity}
    {x : Handle} {e g : Nat} (hb : b ∈ s.activities.set i (m.run s.pool r).activity)
    (hstage : b.stage = .drained x e g)
    (hcurrent : (m.run s.pool r).pool.recoveryCurrent g = true) {k : Nat}
    (hk : k ∈ (m.run s.pool r).pool.activeReplenishments) : g ≤ k := by
  have hmem : (⟨m.source, r⟩ : Activity) ∈ s.activities := List.mem_of_getElem? ha
  have hgated : b.stage.gated = some g := by rw [hstage]; rfl
  rcases mem_set_cases hb with rfl | ⟨j, hj, hb⟩
  · rcases run_gated m (h.orderly _ hmem) hgated with ⟨y, e', rfl, -, rfl, hact, -⟩ |
      ⟨y, e', rfl, hproven⟩ | ⟨y, e', rfl⟩
    · rw [hact] at hstage
      cases hstage
    · simp [Move.run, hproven] at hstage
    · have hnone : s.pool.olderReplenishments g = false := by simpa [Move.ready] using hready
      simp only [Pool.olderReplenishments, List.any_eq_false, decide_eq_true_eq] at hnone
      exact Nat.le_of_not_lt (hnone k hk)
  · obtain ⟨-, -, -, hbefore⟩ := h.current_before hj hb ha hgated hcurrent
    have hgen := (Pool.recoveryCurrent_iff.mp hcurrent).2.1
    rcases run_opens (r := r) m (h.orderly _ hmem) (fun t ht => h.owned.counted.active hmem ht) hk with
      hold | ⟨hnew, -⟩
    · exact h.drained b (List.mem_of_getElem? hb) x e g hstage hbefore k hold
    · exact Nat.le_of_eq (hgen.trans hnew.symm)

theorem registering_move (h : Chasing s) {i : Nat} (m : Move) (r : Reap)
    (ha : s.activities[i]? = some ⟨m.source, r⟩) (hready : m.ready s.pool r = true) {b : Activity}
    {g : Nat} {v : Bool} {w : Handle} (hb : b ∈ s.activities.set i (m.run s.pool r).activity)
    (hstage : b.stage = .ready g v w) :
    w ∈ (m.run s.pool r).pool.registry.reaped ∨ w ∈ (m.run s.pool r).pool.registry.unreaped := by
  have hmem : (⟨m.source, r⟩ : Activity) ∈ s.activities := List.mem_of_getElem? ha
  rcases List.mem_or_eq_of_mem_set hb with hold | rfl
  · rcases h.registering b hold g v w hstage with hgone | hkept
    · exact .inl (run_reaped m hgone)
    · rcases run_retained m hkept (h.owned.diligent _ hmem).proven with hgone | hmember | hkept
      · exact .inl hgone
      · -- A worker that waits for its registration is not in the pool.
        have hnew := (Owned.preserved.move m r h.owned ha hready).accounted.structured.fits w
        have hcandidate : 0 < ((m.run s.pool r).base
            (s.activities.set i (m.run s.pool r).activity)).candidates w :=
          tally_pos.mpr ⟨b, List.mem_append_left _ hb, by simp [marks, hstage, Stage.candidate]⟩
        have hmember : 0 < ((m.run s.pool r).base (s.activities.set i
            (m.run s.pool r).activity)).pool.roster.workers.count w :=
          List.count_pos_iff.mpr hmember
        have honce := hnew.once
        omega
      · exact .inr hkept
  · cases m with
    | constructed g' v' =>
        obtain ⟨-, -, rfl⟩ := Stage.ready.inj hstage
        exact .inr (s.pool.registry.construct.1.mem_retain.mpr (.inr rfl))
    | endQuarantine resume =>
        have hafter : resume.afterQuarantine = true := h.orderly _ hmem
        rw [Move.run] at hstage
        obtain rfl := hstage
        cases hafter
    | contextFault x e =>
        revert hstage
        cases hanswer : s.pool.contextFaultAnswer e <;> rw [Move.run, hanswer] <;>
          exact fun h => Stage.noConfusion h
    | settleProbe x e g' v' =>
        revert hstage
        cases v' <;> simp only [Move.run] <;> split <;> exact fun h => Stage.noConfusion h
    | markFailed g' v' physical =>
        revert hstage
        cases hdecision : s.pool.failure g' physical <;> rw [Move.run, hdecision] <;>
          exact fun h => Stage.noConfusion h
    | reapFailure g' =>
        revert hstage
        cases hunproven : r.unproven <;> simp only [Move.run, hunproven] <;>
          exact fun h => Stage.noConfusion h
    | _ =>
        revert hstage
        simp only [Move.run]
        (repeat' split) <;> exact fun h => Stage.noConfusion h

theorem move (h : Chasing s) {i : Nat} (m : Move) (r : Reap)
    (ha : s.activities[i]? = some ⟨m.source, r⟩) (hready : m.ready s.pool r = true)
    (hok : s.confirms (.move i m) = true) :
    Chasing ((m.run s.pool r).base (s.activities.set i (m.run s.pool r).activity)) := by
  have hmem : (⟨m.source, r⟩ : Activity) ∈ s.activities := List.mem_of_getElem? ha
  have hadmitted := h.owned.accounted.admitted
  have hadvances : s.pool.admission.Advances (m.run s.pool r).pool.admission :=
    run_advances (hadmitted.replenishes_of ha) (hadmitted.gates_of ha)
  have hbase : ∀ b ∈ ((m.run s.pool r).base
      (s.activities.set i (m.run s.pool r).activity)).activities,
      b ∈ s.activities.set i (m.run s.pool r).activity ∨ ∃ g v, b = ⟨.replenishing g v, {}⟩ := by
    intro b hb
    rcases List.mem_append.mp hb with hb | hb
    · exact .inl hb
    · obtain ⟨w, e, t, g, v, -, rfl⟩ := run_started s.pool r m hb
      exact .inr ⟨g, v, rfl⟩
  refine ⟨Owned.preserved.move m r h.owned ha hready, fun k hk => ?_, fun b hb => ?_,
    fun b hb hc => ?_, fun b hb g v w hstage => ?_, fun b hb g hgated hcurrent w hw => ?_,
    fun b hb x e g hstage hcurrent k hk => ?_⟩
  · rcases run_opens (r := r) m (h.orderly _ hmem) (fun t ht => h.owned.counted.active hmem ht) hk with
      hold | ⟨hnew, -⟩
    · exact Nat.le_trans (h.prior k hold) hadvances.generation
    · exact Nat.le_of_eq hnew
  · rcases hbase b hb with hb | ⟨g, v, rfl⟩
    · exact forall_mem_set h.orderly (run_orderly m (h.orderly _ hmem)) b hb
    · trivial
  · rcases hbase b hb with hb | ⟨g, v, rfl⟩
    · rcases List.mem_or_eq_of_mem_set hb with hb | rfl
      · exact hadvances.quarantined (h.condemned b hb hc)
      · exact run_condemned m (h.orderly _ hmem) hc
    · cases hc
  · rcases hbase b hb with hb | ⟨g', v', rfl⟩
    · exact h.registering_move m r ha hready hb hstage
    · cases hstage
  · rcases hbase b hb with hb | ⟨g', v', rfl⟩
    · exact h.chased_move m r ha hready hok hb hgated hcurrent hw
    · cases hgated
  · rcases hbase b hb with hb | ⟨g', v', rfl⟩
    · exact h.drained_move m r ha hready hb hstage hcurrent hk
    · cases hstage

end Chasing

/-- A call is made while the pool serves, or ends the recovery. -/
theorem call_not_current {p : Pool} (c : Call) (hready : c.ready p = true) (g : Nat) :
    (c.run p).pool.recoveryCurrent g = false := by
  cases hcurrent : (c.run p).pool.recoveryCurrent g with
  | false => rfl
  | true =>
      obtain ⟨hopen, -, hsuspect⟩ := Pool.recoveryCurrent_iff.mp hcurrent
      cases c with
      | checkout w | poll | reconcile =>
          simp only [Call.ready, Bool.and_eq_true, Bool.not_eq_true'] at hready
          have hblocked : p.admissionBlocked = false := by tauto
          have hserves := (Pool.admissionBlocked_eq_false hblocked).2
          have hstate : p.admission.healthState = .suspect := hsuspect
          simp [hstate] at hserves
      | foundOrphan => cases hsuspect
      | shutdown => cases hopen

namespace Chasing

variable {s : Sys}

theorem call (h : Chasing s) (c : Call) (hready : c.ready s.pool = true) :
    Chasing ((c.run s.pool).base (s.activities ++ [(c.run s.pool).activity])) := by
  have hadvances := call_advances (p := s.pool) c
  have hregistry : (c.run s.pool).pool.registry = s.pool.registry := by cases c <;> rfl
  have hbase : ∀ b ∈ ((c.run s.pool).base (s.activities ++ [(c.run s.pool).activity])).activities,
      b ∈ s.activities ∨ b = (c.run s.pool).activity := by
    intro b hb
    rw [Result.base, (call_activity c).2.2.2, List.append_nil] at hb
    simpa using hb
  refine ⟨Owned.preserved.call c h.owned hready, fun k hk => ?_, fun b hb => ?_,
    fun b hb hc => ?_, fun b hb g v w hstage => ?_, fun b hb g hgated hcurrent => ?_,
    fun b hb x e g hstage hcurrent => ?_⟩
  · refine Nat.le_trans ?_ hadvances.generation
    cases c with
    | checkout w | poll | shutdown => exact h.prior k hk
    | reconcile | foundOrphan =>
        rcases List.mem_cons.mp hk with rfl | hk
        · exact Nat.le_refl _
        · exact h.prior k hk
  · rcases hbase b hb with hb | rfl
    · exact h.orderly b hb
    · cases c <;> trivial
  · rcases hbase b hb with hb | rfl
    · exact hadvances.quarantined (h.condemned b hb hc)
    · cases c <;> cases hc
  · rw [Result.base, hregistry]
    rcases hbase b hb with hb | rfl
    · exact h.registering b hb g v w hstage
    · cases c <;> cases hstage
  · have hnot := call_not_current c hready g
    rw [Result.base, hnot] at hcurrent
    cases hcurrent
  · have hnot := call_not_current c hready g
    rw [Result.base, hnot] at hcurrent
    cases hcurrent

theorem topUp (h : Chasing s) : Chasing s.topUp := by
  have hthread : ∀ b ∈ s.topUp.activities,
      b ∈ s.activities ∨ b = ⟨.replenishing s.pool.admission.poolGeneration false, {}⟩ := by
    intro b hb
    rcases List.mem_append.mp hb with hb | hb
    · exact .inl hb
    · exact .inr (List.mem_replicate.mp hb).2
  refine ⟨Owned.preserved.topUp h.owned, fun k hk => ?_, fun b hb => ?_, fun b hb hc => ?_,
    fun b hb g v w hstage => ?_, fun b hb g hgated hcurrent w hw => ?_,
    fun b hb x e g hstage hcurrent k hk => ?_⟩
  · rcases List.mem_append.mp hk with hk | hk
    · exact Nat.le_of_eq (List.mem_replicate.mp hk).2
    · exact h.prior k hk
  · rcases hthread b hb with hb | rfl
    · exact h.orderly b hb
    · trivial
  · rcases hthread b hb with hb | rfl
    · exact h.condemned b hb hc
    · cases hc
  · rcases hthread b hb with hb | rfl
    · exact h.registering b hb g v w hstage
    · cases hstage
  · rcases hthread b hb with hb | rfl
    · rcases h.chased b hb g hgated hcurrent w hw with hgone | hmine | ⟨c, hc, hchases⟩
      · exact .inl hgone
      · exact .inr (.inl hmine)
      · exact .inr (.inr ⟨c, List.mem_append_left _ hc, hchases⟩)
    · cases hgated
  · rcases hthread b hb with hb | rfl
    · rcases List.mem_append.mp hk with hk | hk
      · rw [(List.mem_replicate.mp hk).2]
        exact Nat.le_of_eq (Pool.recoveryCurrent_iff.mp hcurrent).2.1
      · exact h.drained b hb x e g hstage hcurrent k hk
    · cases hstage

/-- Whoever sees to a process does so after a shutdown has come back, or the process is gone and its
handle released. -/
theorem chases_stopped {i : Nat} {a : Activity} {w : Handle} (proven : Bool)
    (ha : s.activities[i]? = some a) {g : Nat} {x : Handle} {c : Activity} (hc : c ∈ s.activities)
    (hchases : c.chases g x) :
    (∃ c ∈ (s.stopped i a w proven).activities, c.chases g x) ∨
      x ∈ (s.stopped i a w proven).pool.registry.reaped ∧
        x ∉ (s.stopped i a w proven).pool.registry.unreaped := by
  by_cases hca : c = a
  · subst hca
    by_cases hproof : x = w ∧ (s.pool.registry.shutdown w proven).2 = true
    · obtain ⟨rfl, hanswer⟩ := hproof
      exact .inr ⟨Registry.shutdown_proven hanswer, Registry.shutdown_released hanswer⟩
    · refine .inl ⟨_, mem_set_self _ ha, hchases.1, hchases.2.imp_left fun ⟨hawaits, hwaits⟩ => ?_⟩
      refine ⟨hawaits, answered_waits hwaits fun hx => ?_⟩
      cases hanswer : (s.pool.registry.shutdown w proven).2 with
      | true => exact absurd ⟨hx, hanswer⟩ hproof
      | false => rfl
  · exact .inl ⟨c, mem_set_of_ne ha hc hca, hchases⟩

/-- An activity after a shutdown has come back, and what it was before. -/
theorem stopped_from {i : Nat} {a : Activity} {w : Handle} (proven : Bool)
    (ha : s.activities[i]? = some a) {b : Activity} (hb : b ∈ (s.stopped i a w proven).activities) :
    ∃ c ∈ s.activities, c.stage = b.stage ∧ ∀ g x, Chased s c g x →
      (x ∈ (s.stopped i a w proven).pool.registry.reaped ∧
        x ∉ (s.stopped i a w proven).pool.registry.unreaped) ∨
      Chased (s.stopped i a w proven) b g x := by
  have hothers : ∀ g x, (∃ c ∈ s.activities, c.chases g x) →
      (x ∈ (s.stopped i a w proven).pool.registry.reaped ∧
        x ∉ (s.stopped i a w proven).pool.registry.unreaped) ∨
      Chased (s.stopped i a w proven) b g x := by
    rintro g x ⟨c, hc, hchases⟩
    exact (chases_stopped proven ha hc hchases).elim (fun h => .inr (.inr h)) .inl
  rcases List.mem_or_eq_of_mem_set hb with hb | rfl
  · refine ⟨b, hb, rfl, fun g x h => ?_⟩
    rcases h with hmine | hchases
    · exact .inr (.inl hmine)
    · exact hothers g x hchases
  · refine ⟨a, List.mem_of_getElem? ha, rfl, fun g x h => ?_⟩
    rcases h with ⟨hstage, hwaits⟩ | hchases
    · by_cases hproof : x = w ∧ (s.pool.registry.shutdown w proven).2 = true
      · obtain ⟨rfl, hanswer⟩ := hproof
        exact .inl ⟨Registry.shutdown_proven hanswer, Registry.shutdown_released hanswer⟩
      · refine .inr (.inl ⟨hstage, answered_waits hwaits fun hxw => ?_⟩)
        cases hanswer : (s.pool.registry.shutdown w proven).2 with
        | true => exact absurd ⟨hxw, hanswer⟩ hproof
        | false => rfl
    · exact hothers g x hchases

theorem stopped (h : Chasing s) {i : Nat} {a : Activity} {w : Handle} (proven : Bool)
    (ha : s.activities[i]? = some a) (hw : w ∈ a.reap.todo) : Chasing (s.stopped i a w proven) := by
  refine ⟨Owned.preserved.stopped proven h.owned ha hw, h.prior, fun b hb => ?_, fun b hb hc => ?_,
    fun b hb g v x hstage => ?_, fun b hb g hgated hcurrent x hx => ?_,
    fun b hb x e g hstage => ?_⟩
  all_goals obtain ⟨c, hcmem, hcb, hkeeps⟩ := stopped_from proven ha hb
  · exact hcb ▸ h.orderly c hcmem
  · exact h.condemned c hcmem (hcb ▸ hc)
  · rcases h.registering c hcmem g v x (hcb.trans hstage) with hgone | hkept
    · exact .inl (Registry.shutdown_reaped hgone)
    · exact Registry.shutdown_unreaped hkept
  · rw [Sys.stopped, Registry.shutdown_constructed] at hx
    rcases h.chased c hcmem g (hcb ▸ hgated) hcurrent x hx with hgone | hchased
    · exact .inl (Registry.shutdown_reaped hgone)
    · exact (hkeeps g x hchased).imp_left And.left
  · exact h.drained c hcmem x e g (hcb.trans hstage)

theorem dies (h : Chasing s) (w : Handle) : Chasing (s.dies w) :=
  ⟨Owned.preserved.dies w h.owned, h.prior, h.orderly, h.condemned, h.registering, h.chased,
    h.drained⟩

theorem finish {r : Result} {activities : List Activity} (h : Chasing (r.base activities)) :
    Chasing (r.finish activities) := by
  rw [Result.finish_eq]
  split
  · exact h.topUp
  · exact h

theorem step {t : Sys} {c : Action} (h : Chasing s) (hok : s.confirms c = true)
    (hstep : WorkerPool.step s c = some t) : Chasing t := by
  cases c with
  | move i m =>
      obtain ⟨r, ha, hready, rfl⟩ := step_move hstep
      exact (h.move m r ha hready hok).finish
  | call c =>
      obtain ⟨hready, rfl⟩ := step_call hstep
      exact (h.call c hready).finish
  | stopped i w proven =>
      obtain ⟨a, ha, hw, rfl⟩ := step_stopped hstep
      exact h.stopped proven ha hw
  | dies w =>
      obtain rfl := step_dies hstep
      exact h.dies w

theorem run {n : Nat} (hs : RunWhen WorkerPool.step (fun s c => s.confirms c = true) (init n) s) :
    Chasing s :=
  hs.invariant (fun _ _ _ h hok hstep => h.step hok hstep) (chasing_init n)

end Chasing

/-! ### Retained handles -/

/-- If moreover no worker is taken out of service while the pool is suspended, then every open ticket but
the recovery's own is an older one, and every retained handle is seen to. -/
structure Cleared (s : Sys) : Prop where
  chasing : Chasing s
  others : ∀ a ∈ s.activities, ∀ g, a.stage.gated = some g → s.pool.recoveryCurrent g = true →
    ∀ b ∈ s.activities, ∀ t, b.stage.ticket = some t → t < g ∨ b.stage.locks = true
  retained : ∀ a ∈ s.activities, ∀ g, a.stage.gated = some g → s.pool.recoveryCurrent g = true →
    ∀ w ∈ s.pool.registry.unreaped, Chased s a g w

namespace Cleared

variable {s : Sys}

theorem others_move (h : Cleared s) {i : Nat} (m : Move) (r : Reap)
    (ha : s.activities[i]? = some ⟨m.source, r⟩) (hkeeps : s.keepsWorkers (.move i m) = true)
    {b c : Activity} {g t : Nat} (hb : b ∈ s.activities.set i (m.run s.pool r).activity)
    (hgated : b.stage.gated = some g)
    (hcurrent : (m.run s.pool r).pool.recoveryCurrent g = true)
    (hc : c ∈ ((m.run s.pool r).base (s.activities.set i (m.run s.pool r).activity)).activities)
    (ht : c.stage.ticket = some t) : t < g ∨ c.stage.locks = true := by
  have hmem : (⟨m.source, r⟩ : Activity) ∈ s.activities := List.mem_of_getElem? ha
  have horderly := h.chasing.orderly _ hmem
  rcases mem_set_cases hb with rfl | ⟨j, hj, hb⟩
  · have hmine : (m.run s.pool r).activity.stage.locks = true := (Stage.locks_of_gated hgated).1
    rcases run_gated m horderly hgated with ⟨x, e, rfl, -, rfl, -, -⟩ | ⟨x, e, rfl, hproven⟩ |
      ⟨x, e, rfl⟩
    · rcases List.mem_append.mp hc with hc | hc
      · rcases List.mem_or_eq_of_mem_set hc with hc | rfl
        · exact .inl (Nat.lt_succ_of_le
            (h.chasing.prior t (h.chasing.owned.counted.active hc ht)))
        · exact .inr hmine
      · obtain ⟨y, e', t', g', v, hm, -⟩ := run_started s.pool r _ hc
        cases hm
    · have hold : s.pool.recoveryCurrent g = true := by
        simp only [Move.run, hproven] at hcurrent
        exact hcurrent
      rcases List.mem_append.mp hc with hc | hc
      · rcases List.mem_or_eq_of_mem_set hc with hc | rfl
        · exact h.others _ hmem g rfl hold c hc t ht
        · exact .inr hmine
      · obtain ⟨y, e', t', g', v, hm, -⟩ := run_started s.pool r _ hc
        cases hm
    · rcases List.mem_append.mp hc with hc | hc
      · rcases List.mem_or_eq_of_mem_set hc with hc | rfl
        · exact h.others _ hmem g rfl hcurrent c hc t ht
        · exact .inr hmine
      · obtain ⟨y, e', t', g', v, hm, -⟩ := run_started s.pool r _ hc
        cases hm
  · obtain ⟨hfree, -, hsuspect, hbefore⟩ := h.chasing.current_before hj hb ha hgated hcurrent
    have hothers := h.others b (List.mem_of_getElem? hb) g hgated hbefore
    have holder : ∀ k, m.source.ticket = some k → k < g := by
      intro k hk
      rcases hothers _ hmem k hk with hlt | hlocks
      · exact hlt
      · rw [hfree] at hlocks
        cases hlocks
    rcases List.mem_append.mp hc with hc | hc
    · rcases List.mem_or_eq_of_mem_set hc with hc | rfl
      · exact hothers c hc t ht
      · rcases run_ticket m ht with hsource | ⟨-, ⟨x, e, rfl⟩ | ⟨x, e, g', rfl⟩ | ⟨x, e, rfl⟩⟩
        · exact .inl (holder t hsource)
        · simp [Sys.keepsWorkers, hsuspect] at hkeeps
        · simp [Sys.keepsWorkers, hsuspect] at hkeeps
        · cases hfree
    · obtain ⟨x, e, t', g', v, rfl, rfl⟩ := run_started s.pool r m hc
      have hgt : g' = t' := horderly (g', v) rfl
      obtain rfl := Option.some.inj ht
      exact .inl (hgt ▸ holder t' rfl)

theorem retained_move (h : Cleared s) {i : Nat} (m : Move) (r : Reap)
    (ha : s.activities[i]? = some ⟨m.source, r⟩) (hready : m.ready s.pool r = true)
    (hok : s.confirms (.move i m) = true) (hkeeps : s.keepsWorkers (.move i m) = true)
    {b : Activity} {g : Nat} (hb : b ∈ s.activities.set i (m.run s.pool r).activity)
    (hgated : b.stage.gated = some g)
    (hcurrent : (m.run s.pool r).pool.recoveryCurrent g = true) {w : Handle}
    (hw : w ∈ (m.run s.pool r).pool.registry.unreaped) :
    Chased ((m.run s.pool r).base (s.activities.set i (m.run s.pool r).activity)) b g w := by
  have hmem : (⟨m.source, r⟩ : Activity) ∈ s.activities := List.mem_of_getElem? ha
  have hempty := h.chasing.owned.ready_empty ha hready
  have hbase : (∃ b ∈ s.activities.set i (m.run s.pool r).activity, b.chases g w) →
      Chased ((m.run s.pool r).base (s.activities.set i (m.run s.pool r).activity)) b g w :=
    fun ⟨c, hc, hchases⟩ => .inr ⟨c, List.mem_append_left _ hc, hchases⟩
  rcases mem_set_cases hb with rfl | ⟨j, hj, hb⟩
  · rcases run_gated m (h.chasing.orderly _ hmem) hgated with ⟨x, e, rfl, -, rfl, hact, hregistry⟩ |
      ⟨x, e, rfl, hproven⟩ | ⟨x, e, rfl⟩
    · rw [hregistry] at hw
      refine .inl ?_
      rw [hact]
      exact ⟨⟨x, e, _, rfl⟩, .inl (Pool.mem_trackedWorkers.mpr (.inr (.inr (.inr (.inl hw)))))⟩
    · have hold : s.pool.recoveryCurrent g = true := by
        simp only [Move.run, hproven] at hcurrent
        exact hcurrent
      have hnone : ∀ y, (y, false) ∉ r.results := by
        intro y hy
        have hmine := mem_unproven.mpr hy
        rw [hproven] at hmine
        cases hmine
      have hkept : w ∈ s.pool.registry.unreaped := by
        simp only [Move.run, hproven] at hw
        exact ((s.pool.registry.mem_recordResults).2 hw).resolve_right (hnone w)
      rcases h.retained _ hmem g rfl hold w hkept with ⟨-, htodo | hfalse⟩ | ⟨c, hc, hchases⟩
      · rw [hempty] at htodo
        cases htodo
      · exact absurd hfalse (hnone w)
      · have hne : c ≠ ⟨(Move.retire x e g).source, r⟩ := by
          rintro rfl
          exact Chasing.chases_other rfl hchases
        exact hbase ⟨c, mem_set_of_ne ha hc hne, hchases⟩
    · rcases h.retained _ hmem g rfl hcurrent w hw with ⟨⟨x', e', g', hstage⟩, -⟩ |
        ⟨c, hc, hchases⟩
      · cases hstage
      · have hne : c ≠ ⟨(Move.drain x e g).source, r⟩ := by
          rintro rfl
          exact Chasing.chases_other rfl hchases
        exact hbase ⟨c, mem_set_of_ne ha hc hne, hchases⟩
  · obtain ⟨hfree, hgen, hsuspect, hbefore⟩ := h.chasing.current_before hj hb ha hgated hcurrent
    have hstill := (Pool.recoveryCurrent_iff.mp hcurrent).2.2
    have hbmem := List.mem_of_getElem? hb
    rcases run_retains m hw with hold | ⟨hawaits, hfalse⟩ | ⟨x, e, rfl⟩ | ⟨x, e, g', rfl⟩ |
      ⟨g', v, rfl, hnew⟩ | ⟨x, e, g', rfl⟩ | ⟨g', v, d, rfl⟩
    · rcases h.retained b hbmem g hgated hbefore w hold with hmine | ⟨c, hc, hchases⟩
      · exact .inl hmine
      · rcases h.chasing.chased_kept ha hready hok hfree hsuspect hstill hc hchases with hgoes |
          ⟨-, hreleased, -⟩
        · exact hbase hgoes
        · exact absurd hold hreleased
    · -- The block records that its own shutdown of the worker was no proof.
      have hdeclares := (h.chasing.owned.diligent _ hmem).declares
      have hnotclosing := (Pool.recoveryCurrent_iff.mp hbefore).1
      have hticket : m.source.ticket ≠ none := by
        rcases Stage.responsible hdeclares (.inl hawaits) with hticket | hshuts
        · exact hticket
        · have hclosing := (h.chasing.owned.accounted.bounded.attached _ hmem).closing hshuts
          rw [hnotclosing] at hclosing
          cases hclosing
      obtain ⟨t, ht⟩ := Option.ne_none_iff_exists'.mp hticket
      have hlt : t < g := by
        rcases h.others b hbmem g hgated hbefore _ hmem t ht with hlt | hlocks
        · exact hlt
        · rw [hfree] at hlocks
          cases hlocks
      have hchases : (⟨m.source, r⟩ : Activity).chases g w :=
        ⟨⟨t, ht, hlt⟩, .inl ⟨hawaits, .inr hfalse⟩⟩
      rcases h.chasing.chased_kept ha hready hok hfree hsuspect hstill hmem hchases with hgoes |
        ⟨-, -, k, v, rfl⟩
      · exact hbase hgoes
      · cases hawaits
    · simp [Sys.keepsWorkers, hsuspect] at hkeeps
    · simp [Sys.keepsWorkers, hsuspect] at hkeeps
    · refine hbase ⟨_, mem_set_self _ ha, ⟨g', rfl, ?_⟩, .inr (.inl ⟨g', v, ?_⟩)⟩
      · obtain ⟨hle, hserves⟩ := h.chasing.owned.accounted.admitted.replenishing _ hmem g' rfl
        refine Nat.lt_of_le_of_ne (hgen ▸ hle) fun heq => ?_
        have hbad := hserves (heq.trans hgen)
        simp [HealthState.serves, hsuspect] at hbad
      · rw [hnew]
        rfl
    · cases hfree
    · simp [Sys.confirms, hsuspect] at hok

theorem move (h : Cleared s) {i : Nat} (m : Move) (r : Reap)
    (ha : s.activities[i]? = some ⟨m.source, r⟩) (hready : m.ready s.pool r = true)
    (hok : s.confirms (.move i m) = true) (hkeeps : s.keepsWorkers (.move i m) = true) :
    Cleared ((m.run s.pool r).base (s.activities.set i (m.run s.pool r).activity)) := by
  have hstarted : ∀ b ∈ (m.run s.pool r).started, b.stage.gated = none := by
    intro b hb
    obtain ⟨w, e, t, g, v, -, rfl⟩ := run_started s.pool r m hb
    rfl
  refine ⟨h.chasing.move m r ha hready hok, fun b hb g hgated hcurrent c hc t ht => ?_,
    fun b hb g hgated hcurrent w hw => ?_⟩
  · rcases List.mem_append.mp hb with hb | hb
    · exact h.others_move m r ha hkeeps hb hgated hcurrent hc ht
    · rw [hstarted b hb] at hgated
      cases hgated
  · rcases List.mem_append.mp hb with hb | hb
    · exact h.retained_move m r ha hready hok hkeeps hb hgated hcurrent hw
    · rw [hstarted b hb] at hgated
      cases hgated

theorem call (h : Cleared s) (c : Call) (hready : c.ready s.pool = true) :
    Cleared ((c.run s.pool).base (s.activities ++ [(c.run s.pool).activity])) := by
  refine ⟨h.chasing.call c hready, fun b hb g hgated hcurrent => ?_, fun b hb g hgated hcurrent => ?_⟩
  all_goals
    have hnot := call_not_current c hready g
    rw [Result.base, hnot] at hcurrent
    cases hcurrent

theorem topUp (h : Cleared s) : Cleared s.topUp := by
  have hthread : ∀ b ∈ s.topUp.activities, b ∈ s.activities ∨
      s.pool.admission.healthState = .healthy ∧
        b = ⟨.replenishing s.pool.admission.poolGeneration false, {}⟩ := by
    intro b hb
    rcases List.mem_append.mp hb with hb | hb
    · exact .inl hb
    · obtain ⟨hpos, rfl⟩ := List.mem_replicate.mp hb
      exact .inr ⟨(Admitted.topUps_pos (Nat.pos_of_ne_zero hpos)).2, rfl⟩
  refine ⟨h.chasing.topUp, fun b hb g hgated hcurrent c hc t ht => ?_,
    fun b hb g hgated hcurrent w hw => ?_⟩
  · have hsuspect := (Pool.recoveryCurrent_iff.mp hcurrent).2.2
    rcases hthread b hb with hb | ⟨hhealthy, rfl⟩
    · rcases hthread c hc with hc | ⟨hhealthy, rfl⟩
      · exact h.others b hb g hgated hcurrent c hc t ht
      · exact absurd (hhealthy.symm.trans hsuspect) (by decide)
    · cases hgated
  · rcases hthread b hb with hb | ⟨-, rfl⟩
    · rcases h.retained b hb g hgated hcurrent w hw with hmine | ⟨c, hc, hchases⟩
      · exact .inl hmine
      · exact .inr ⟨c, List.mem_append_left _ hc, hchases⟩
    · cases hgated

theorem stopped (h : Cleared s) {i : Nat} {a : Activity} {w : Handle} (proven : Bool)
    (ha : s.activities[i]? = some a) (hw : w ∈ a.reap.todo) : Cleared (s.stopped i a w proven) := by
  have hmem := List.mem_of_getElem? ha
  have hdiligent := h.chasing.owned.diligent a hmem
  have hawaits := hdiligent.awaiting (List.ne_nil_of_mem hw)
  refine ⟨h.chasing.stopped proven ha hw, fun b hb g hgated hcurrent c hc t ht => ?_,
    fun b hb g hgated hcurrent x hx => ?_⟩
  · obtain ⟨b', hb', hstage, -⟩ := Chasing.stopped_from proven ha hb
    obtain ⟨c', hc', hstage', -⟩ := Chasing.stopped_from proven ha hc
    rw [← hstage']
    exact h.others b' hb' g (hstage ▸ hgated) hcurrent c' hc' t (hstage' ▸ ht)
  · obtain ⟨b', hb', hstage, hkept⟩ := Chasing.stopped_from proven ha hb
    have hgated' : b'.stage.gated = some g := hstage ▸ hgated
    have hold : Chased s b' g x := by
      by_cases hretained : x ∈ s.pool.registry.unreaped
      · exact h.retained b' hb' g hgated' hcurrent x hretained
      · have hxw : x = w := by
          rw [Sys.stopped, Registry.shutdown] at hx
          split at hx
          · exact absurd (s.pool.registry.mem_release.mp hx).1 hretained
          · split at hx
            · exact absurd (s.pool.registry.mem_release.mp hx).1 hretained
            · exact (s.pool.registry.mem_retain.mp hx).resolve_left hretained
        subst hxw
        by_cases hba : b' = a
        · subst hba
          exact .inl ⟨Stage.retiring_of_gated hgated' hawaits, .inl hw⟩
        · refine .inr ⟨a, hmem, ?_, .inl ⟨hawaits, .inl hw⟩⟩
          have hopen := (Pool.recoveryCurrent_iff.mp hcurrent).1
          rcases h.chasing.owned.responsible hmem (List.mem_append_left _ hw) with
            ⟨t, ht, -⟩ | hshuts
          · refine ⟨t, ht, ?_⟩
            rcases h.others b' hb' g hgated' hcurrent a hmem t ht with hlt | hlocks
            · exact hlt
            · obtain ⟨j, hj⟩ := List.mem_iff_getElem?.mp hb'
              have hij : i ≠ j := by
                rintro rfl
                exact hba (Option.some.inj (hj.symm.trans ha))
              have hfree := h.chasing.owned.accounted.admitted.unlocked hij hj ha
                (Stage.locks_of_gated hgated').1
              rw [hlocks] at hfree
              cases hfree
          · have hclosing := (h.chasing.owned.accounted.bounded.attached a hmem).closing hshuts
            have hopen' : s.pool.admission.closing = false := hopen
            rw [hopen'] at hclosing
            cases hclosing
    rcases hkept g x hold with ⟨-, hreleased⟩ | hchased
    · exact absurd hx hreleased
    · exact hchased

theorem finish {r : Result} {activities : List Activity} (h : Cleared (r.base activities)) :
    Cleared (r.finish activities) := by
  rw [Result.finish_eq]
  split
  · exact h.topUp
  · exact h

theorem step {t : Sys} {c : Action} (h : Cleared s) (hok : s.confirms c = true)
    (hkeeps : s.keepsWorkers c = true) (hstep : WorkerPool.step s c = some t) : Cleared t := by
  cases c with
  | move i m =>
      obtain ⟨r, ha, hready, rfl⟩ := step_move hstep
      exact (h.move m r ha hready hok hkeeps).finish
  | call c =>
      obtain ⟨hready, rfl⟩ := step_call hstep
      exact (h.call c hready).finish
  | stopped i w proven =>
      obtain ⟨a, ha, hw, rfl⟩ := step_stopped hstep
      exact h.stopped proven ha hw
  | dies w =>
      obtain rfl := step_dies hstep
      exact ⟨h.chasing.dies w, h.others, h.retained⟩

theorem run {n : Nat} (hs : RunWhen WorkerPool.step
    (fun s c => s.confirms c = true ∧ s.keepsWorkers c = true) (init n) s) : Cleared s := by
  refine hs.invariant (fun _ _ _ h hok hstep => h.step hok.1 hok.2 hstep) ⟨chasing_init n, ?_, ?_⟩
  · intro a ha
    cases ha
  · intro a ha
    cases ha

end Cleared

/-! ### The probe -/

/-- A recovery that starts its probe is current. -/
theorem startProbe_current {s t : Sys} {i : Nat} {w : Handle} {e g : Nat}
    (hstep : step s (.move i (.startProbe w e g)) = some t)
    (hprobe : t.pool.probes ≠ s.pool.probes) :
    s.pool.recoveryCurrent g = true ∧ ∃ r, s.activities[i]? = some ⟨.drained w e g, r⟩ := by
  obtain ⟨r, ha, -, rfl⟩ := step_move hstep
  refine ⟨?_, r, ha⟩
  cases hcurrent : s.pool.recoveryCurrent g with
  | true => rfl
  | false =>
      refine absurd ?_ hprobe
      rw [Result.finish_eq]
      simp only [Move.run, hcurrent, Bool.false_eq_true, if_false]
      split <;> rfl

theorem builds_of_afterQuarantine {stage : Stage} (h : stage.afterQuarantine = true) :
    stage.builds = false := by
  induction stage with
  | unreaped extra resume ih => exact ih h
  | recycled | reconciled | unsafeRecovery | callbackDone | failureDone => rfl
  | _ => cases h

/-- The recovery has the device to itself: every process ever constructed is gone, every older ticket is
closed, and no constructor is running. -/
theorem Chasing.alone {s : Sys} (h : Chasing s) {i : Nat} {w : Handle} {e g : Nat} {r : Reap}
    (ha : s.activities[i]? = some ⟨.drained w e g, r⟩) (hcurrent : s.pool.recoveryCurrent g = true) :
    (∀ x < s.pool.registry.constructed, x ∈ s.pool.registry.reaped) ∧
      (∀ k ∈ s.pool.activeReplenishments, g ≤ k) ∧ ∀ b ∈ s.activities, b.stage.builds = false := by
  have hmem := List.mem_of_getElem? ha
  have hclosed := h.drained _ hmem w e g rfl hcurrent
  obtain ⟨-, hgen, hsuspect⟩ := Pool.recoveryCurrent_iff.mp hcurrent
  refine ⟨fun x hx => ?_, hclosed, fun b hb => ?_⟩
  · rcases h.chased _ hmem g rfl hcurrent x hx with hgone | ⟨⟨x', e', g', hstage⟩, -⟩ |
      ⟨b, hb, ⟨t, ht, hlt⟩, -⟩
    · exact hgone
    · cases hstage
    · exact absurd (hclosed t (h.owned.counted.active hb ht)) (Nat.not_le_of_lt hlt)
  · cases hbuilds : b.stage.builds with
    | false => rfl
    | true =>
        have horderly := h.orderly b hb
        cases hstage : b.stage with
        | constructing k v =>
            have hticket : b.stage.ticket = some k := by rw [hstage]; rfl
            have hreplenishes : b.stage.replenishes = some k := by rw [hstage]; rfl
            obtain ⟨hle, hserves⟩ := h.owned.accounted.admitted.replenishing b hb k hreplenishes
            have hge := hclosed k (h.owned.counted.active hb hticket)
            have hbad := hserves (Nat.le_antisymm hle (hgen ▸ hge))
            simp [HealthState.serves, hsuspect] at hbad
        | probing x e' g' =>
            obtain ⟨j, hj⟩ := List.mem_iff_getElem?.mp hb
            have hij : j ≠ i := by
              rintro rfl
              have hsame := Option.some.inj (hj.symm.trans ha)
              rw [hsame] at hstage
              cases hstage
            have hfree := h.owned.accounted.admitted.unlocked hij ha hj rfl
            rw [hstage] at hfree
            cases hfree
        | unreaped extra resume | quarantining resume =>
            rw [hstage] at hbuilds horderly
            have hstill : resume.builds = false := builds_of_afterQuarantine horderly
            rw [Stage.builds, hstill] at hbuilds
            cases hbuilds
        | _ =>
            rw [hstage] at hbuilds
            cases hbuilds

/-- **The probe is alone on the device.** In every run in which, while the pool is suspended, a failed
constructor and the reap of a cancelled registration always prove their process gone: the tickets open
when the recovery gates the pool are older than its own, and when it starts its probe every process
that the pool ever constructed is proven gone, every older ticket is closed and no constructor runs. If
moreover no task takes its worker out of service while the pool is suspended, no handle is retained. -/
theorem probe_alone (n : Nat) :
    (∀ s, RunWhen step (fun s c => s.confirms c = true) (init n) s →
      (∀ i w e g r t, step s (.move i (.recoverOnce w e)) = some t →
        t.activities[i]? = some ⟨.retiring w e g, r⟩ → ∀ k ∈ s.pool.activeReplenishments, k < g) ∧
      ∀ i w e g t, step s (.move i (.startProbe w e g)) = some t → t.pool.probes ≠ s.pool.probes →
        (∀ x < s.pool.registry.constructed, x ∈ s.pool.registry.reaped) ∧
          (∀ k ∈ s.pool.activeReplenishments, g ≤ k) ∧
          ∀ b ∈ s.activities, b.stage.builds = false) ∧
    ∀ s, RunWhen step (fun s c => s.confirms c = true ∧ s.keepsWorkers c = true) (init n) s →
      ∀ i w e g t, step s (.move i (.startProbe w e g)) = some t → t.pool.probes ≠ s.pool.probes →
        s.pool.registry.unreaped = [] := by
  refine ⟨fun s hs => ⟨fun i w e g r t hstep hgate k hk => ?_, fun i w e g t hstep hprobe => ?_⟩,
    fun s hs i w e g t hstep hprobe => ?_⟩
  · obtain ⟨r', ha, -, rfl⟩ := step_move hstep
    rw [finish_activity _ ha] at hgate
    have hgated : ((Move.recoverOnce w e).run s.pool r').activity.stage.gated = some g := by
      rw [Option.some.inj hgate]
      rfl
    rcases run_gated (Move.recoverOnce w e) trivial hgated with ⟨x, e', -, -, rfl, -, -⟩ |
      ⟨x, e', hm, -⟩ | ⟨x, e', hm⟩
    · exact Nat.lt_succ_of_le ((Chasing.run hs).prior k hk)
    · cases hm
    · cases hm
  · obtain ⟨hcurrent, r, ha⟩ := startProbe_current hstep hprobe
    exact (Chasing.run hs).alone ha hcurrent
  · obtain ⟨hcurrent, r, ha⟩ := startProbe_current hstep hprobe
    have h := Cleared.run hs
    have hmem := List.mem_of_getElem? ha
    refine List.eq_nil_iff_forall_not_mem.mpr fun x hx => ?_
    rcases h.retained _ hmem g rfl hcurrent x hx with ⟨⟨x', e', g', hstage⟩, -⟩ |
      ⟨b, hb, ⟨t, ht, hlt⟩, -⟩
    · cases hstage
    · have hge := (h.chasing.alone ha hcurrent).2.1 t (h.chasing.owned.counted.active hb ht)
      exact absurd hge (Nat.not_le_of_lt hlt)

/-- A pool of one in which the recovery from the first fault is about to start its probe. -/
def drainedRun : List Action :=
  [.call (.checkout 0), .move 0 (.deviceFault 0 0), .move 0 (.enterRecovery 0 0),
    .move 0 (.recoverOnce 0 0), .stopped 0 0 true, .move 0 (.retire 0 0 1), .move 0 (.drain 0 0 1)]

def drainedPool : Sys :=
  (execute (fun s c => if s.confirms c && s.keepsWorkers c then step s c else none) drainedRun
    (init 1)).getD (init 1)

theorem drainedPool_run :
    RunWhen step (fun s c => s.confirms c = true ∧ s.keepsWorkers c = true) (init 1) drainedPool := by
  have hexec : execute
      (fun s c => if s.confirms c && s.keepsWorkers c then step s c else none) drainedRun (init 1) =
      some drainedPool := rfl
  exact execute_run_of_test (fun s c h => Bool.and_eq_true_iff.mp h) hexec

theorem probe_alone_drained : drainedPool.pool.registry.unreaped = [] ∧
    ∀ x < drainedPool.pool.registry.constructed, x ∈ drainedPool.pool.registry.reaped := by
  have hstep : step drainedPool (.move 0 (.startProbe 0 0 1)) =
      some ((step drainedPool (.move 0 (.startProbe 0 0 1))).getD drainedPool) :=
    step_getD (by decide)
  refine ⟨(probe_alone 1).2 drainedPool drainedPool_run 0 0 0 1 _ hstep (by decide), ?_⟩
  exact (((probe_alone 1).1 drainedPool (drainedPool_run.mono fun _ _ h => h.1)).2 0 0 0 1 _ hstep
    (by decide)).1

/-- A constructor from before the fault that fails while the recovery drains, and whose child is not
proven gone. -/
def unconfirmed : Sys :=
  (execute step [.call (.checkout 0), .call (.checkout 1), .move 0 (.recycle 0 0), .stopped 0 0 true,
    .move 0 (.reapRecycled 0 0 0 (some (0, false))), .move 2 (.threadStarts 0 false),
    .move 2 (.startConstructor 0 false), .move 1 (.deviceFault 1 0), .move 1 (.enterRecovery 1 0),
    .move 1 (.recoverOnce 1 0), .stopped 1 1 true, .move 1 (.retire 1 0 1),
    .move 2 (.constructorFailed 0 false false false), .move 0 (.settleRecycled 0 0 0 false .returned),
    .move 2 (.markFailed 0 false true), .move 2 (.finishFailure 0), .move 1 (.drain 1 0 1)]
    (init 2)).getD (init 2)

/-- The probe starts although the process of that constructor may be alive, and its handle retained. -/
theorem probe_alone_unconfirmed : Reachable 2 unconfirmed ∧
    ((step unconfirmed (.move 1 (.startProbe 1 0 1))).map fun t => t.pool.probes) = some [0] ∧
    unconfirmed.pool.probes = [] ∧ 2 < unconfirmed.pool.registry.constructed ∧
    2 ∉ unconfirmed.pool.registry.reaped ∧ 2 ∈ unconfirmed.pool.registry.unreaped :=
  ⟨reachable_execute (by decide), by decide⟩

end KernelGym.WorkerPool
