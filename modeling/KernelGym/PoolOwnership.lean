import KernelGym.PoolCapacity

/-! Who is responsible for a worker process. Every process that the pool constructed and that is not
proven reaped is a member of the pool, or its handle is retained, or somebody awaits its shutdown; that
somebody is the shutdown of the pool or the owner of an open ticket. -/

namespace KernelGym.WorkerPool

open Library

/-! ### Tickets -/

/-- One for an activity that keeps a ticket of generation `g` open. -/
def ticketShare (g : Nat) : Activity → Nat := marks (fun a : Activity => a.stage.ticket) g

theorem count_opened (tickets : List Nat) (t g : Nat) :
    (t :: tickets).count g = tickets.count g + if some t = some g then 1 else 0 := by
  rw [List.count_cons]
  simp

theorem count_closed {tickets : List Nat} {t : Nat} (ht : t ∈ tickets) (g : Nat) :
    (tickets.erase t).count g + (if some t = some g then 1 else 0) = tickets.count g := by
  by_cases heq : t = g
  · subst heq
    have hpos := List.count_pos_iff.mpr ht
    rw [List.count_erase_self, if_pos rfl]
    omega
  · have hne : g ≠ t := fun h => heq h.symm
    rw [List.count_erase_of_ne hne, if_neg (by simpa using heq), Nat.add_zero]

section Run

variable {p : Pool} {r : Reap}

/-- One for the ticket that a cancelled restart leaves open for good. -/
def Move.leaves (g : Nat) : Move → Nat
  | .interruptRecycled _ _ t _ _ _ => if some t = some g then 1 else 0
  | _ => 0

theorem leaves_le (m : Move) (g : Nat) : m.leaves g ≤ ticketShare g ⟨m.source, r⟩ := by
  cases m with
  | interruptRecycled w e t topUp o report => exact Nat.le_refl _
  | _ => exact Nat.zero_le _

/-- A block closes the ticket of its activity, hands it on or leaves it open; those it opens belong to its activity or
to the thread it starts. -/
theorem run_tickets (m : Move) (hopen : ∀ t, m.source.ticket = some t → t ∈ p.activeReplenishments)
    (g : Nat) :
    (m.run p r).pool.activeReplenishments.count g + ticketShare g ⟨m.source, r⟩ =
      p.activeReplenishments.count g + ticketShare g (m.run p r).activity +
        tally (ticketShare g) (m.run p r).started + m.leaves g := by
  cases m with
  | contextFault w e => cases h : p.contextFaultAnswer e <;> rw [Move.run, h] <;> rfl
  | recycle w e | recycleFaulted w e v => exact count_opened _ _ g
  | reapRecycled w e t next =>
      simp only [Move.run]
      split
      · cases next with
        | none => rfl
        | some x =>
            have hopened := count_opened p.activeReplenishments x.1 g
            exact (congrArg (· + ticketShare g ⟨_, r⟩) hopened).trans (Nat.add_right_comm _ _ _)
      · rfl
  | settleRecycled w e t topUp o =>
      cases topUp <;> exact count_closed (hopen t rfl) g
  | cancelRecycled w e t report =>
      cases report <;> exact count_closed (hopen t rfl) g
  | interruptRecycled w e t topUp o report => cases report <;> rfl
  | recoverOnce w e =>
      simp only [Move.run]
      split_ifs
      · rfl
      · rfl
      · rfl
      · exact count_opened _ _ g
  | quarantineOld w e t =>
      simp only [Move.run, Move.endRecovery, Pool.quarantineOldWorkers]
      split <;> exact count_closed (hopen t rfl) g
  | startProbe w e t | reapStaleProbe w e t v | reportContained w e t =>
      simp only [Move.run]
      (repeat' split) <;> first | rfl | exact count_closed (hopen t rfl) g
  | raiseUnsafe w e t | raiseContained w e t => exact count_closed (hopen t rfl) g
  | settleProbe w e t v =>
      cases v <;> simp only [Move.run] <;> split <;> first | rfl | exact count_closed (hopen t rfl) g
  | reapDetached t n => simp only [Move.run]; split <;> rfl
  | settleDetached t n | dropFailure t v physical | finishFailure t | callbackReaped t w =>
      exact count_closed (hopen t rfl) g
  | threadStarts t v | startConstructor t v =>
      simp only [Move.run]
      split
      · exact count_closed (hopen t rfl) g
      · cases v <;> rfl
  | register t v w => cases h : p.registration t v <;> rw [Move.run, h] <;> rfl
  | registerCancelled t v w | finishCallback t w =>
      simp only [Move.run]
      split
      · rfl
      · exact count_closed (hopen t rfl) g
  | markFailed t v physical => cases h : p.failure t physical <;> rw [Move.run, h] <;> rfl
  | reapFailure t =>
      simp only [Move.run, ticketShare, marks, ticket_unreapedEach]
      rfl
  | _ => simp only [Move.run]; (repeat' split) <;> rfl

end Run

/-- The counter of the tickets has one for each activity that keeps one open. -/
def Counted (s : Sys) : Prop :=
  ∀ g, tally (ticketShare g) s.activities ≤ s.pool.activeReplenishments.count g

theorem Counted.active {s : Sys} (h : Counted s) {a : Activity} (ha : a ∈ s.activities) {t : Nat}
    (ht : a.stage.ticket = some t) : t ∈ s.pool.activeReplenishments := by
  have hle : ticketShare t a ≤ tally (ticketShare t) s.activities := le_tally ha
  rw [ticketShare, marks, if_pos ht] at hle
  exact List.count_pos_iff.mp (hle.trans (h t))

theorem counted_preserved : Preserved Counted where
  move {s i} m r h ha _ := by
    intro g
    have hrun := run_tickets (r := r) m (fun t ht => h.active (List.mem_of_getElem? ha) ht) g
    have hset := tally_set (f := ticketShare g) ha (m.run s.pool r).activity
    have hold := h g
    rw [Result.base, tally_append]
    simp only
    omega
  call {s} c h _ := by
    intro g
    have hold := h g
    rw [Result.base, (call_activity c).2.2.2, List.append_nil, tally_append, tally_cons, tally_nil, Nat.add_zero]
    cases c with
    | checkout w | poll | shutdown => exact hold
    | reconcile | foundOrphan => exact (Nat.add_le_add_right hold _).trans_eq (count_opened _ _ g).symm
  topUp {s} h := by
    intro g
    have hold := h g
    rw [Sys.topUp, tally_append, topUpThreads, tally_replicate]
    simp only [Pool.ensureCapacity, List.count_append, List.count_replicate]
    by_cases heq : s.pool.admission.poolGeneration = g
    · simp [heq, ticketShare, marks, Stage.ticket] at hold ⊢
      omega
    · simp [heq, ticketShare, marks, Stage.ticket] at hold ⊢
      exact hold
  stopped {s i a w} proven h ha _ := by
    intro g
    have hset := tally_set (f := ticketShare g) ha
      { a with reap :=
          { todo := a.reap.todo.erase w
            results := a.reap.results ++ [(w, (s.pool.registry.shutdown w proven).2)] } }
    exact (Nat.add_right_cancel hset).trans_le (h g)
  dies _ h := h

/-! ### Shutdowns that are awaited -/

/-- `_shutdown_once` runs. -/
def Stage.shutsDown : Stage → Bool
  | .shutdownReaping | .shutdownDraining | .shutdownDrained _ | .shutdownLate _ => true
  | _ => false

/-- The stages that await the shutdown of workers. -/
def Stage.awaits : Stage → Bool
  | .recycling _ _ _ _ | .retiring _ _ _ | .containing _ _ _ | .staleProbe _ _ _ _
  | .reconciling _ _ | .staleReplacement _ _ | .callbackReap _ _ | .containingFailure _
  | .shutdownReaping | .shutdownLate _ | .quarantining _ => true
  | _ => false

/-- A quarantine of an unreaped context is always declared on behalf of an open ticket. -/
def Stage.Declares : Stage → Prop
  | .unreaped _ resume | .quarantining resume => resume.ticket ≠ none ∧ resume.Declares
  | _ => True

/-- The validation worker of a recovery that is not in any list yet. -/
def Stage.built : Stage → Option Handle
  | .probed _ _ _ v => v
  | _ => none

/-- The workers whose fate is in the hands of the activity. -/
def Activity.custody (a : Activity) : List Handle := a.reap.todo ++ a.stage.built.toList

structure Diligent (r : Registry) (a : Activity) : Prop where
  /-- A shutdown that came back with a proof has left one. -/
  proven : ∀ w, (w, true) ∈ a.reap.results → w ∈ r.reaped
  awaiting : a.reap.todo ≠ [] → a.stage.awaits = true
  declares : a.stage.Declares

theorem declares_unreapedEach (ws : List Handle) {last : Stage} (hticket : last.ticket ≠ none)
    (h : last.Declares) : (unreapedEach ws last).Declares := by
  induction ws with
  | nil => exact h
  | cons w ws ih =>
      refine ⟨?_, ih⟩
      change (unreapedEach ws last).ticket ≠ none
      rw [ticket_unreapedEach]
      exact hticket

/-- Who awaits shutdowns has a ticket, or is the shutdown of the pool. -/
theorem Stage.responsible {stage : Stage} (hdeclares : stage.Declares)
    (h : stage.awaits = true ∨ stage.built ≠ none) :
    stage.ticket ≠ none ∨ stage.shutsDown = true := by
  cases stage with
  | quarantining resume => exact .inl hdeclares.1
  | shutdownReaping | shutdownLate => exact .inr rfl
  | _ => first | exact .inl (Option.some_ne_none _) | (rcases h with h | h <;> simp [awaits, built] at h)

/-! ### Handles -/

namespace Registry

variable {r : Registry} {w x : Handle} {stopped : Bool}

theorem shutdown_reaped (hw : w ∈ r.reaped) : w ∈ (r.shutdown x stopped).1.reaped := by
  rw [shutdown]
  split
  · exact hw
  · split
    · exact List.mem_cons_of_mem _ hw
    · exact hw

/-- A shutdown answers true only with a proof. -/
theorem shutdown_proven (h : (r.shutdown x stopped).2 = true) : x ∈ (r.shutdown x stopped).1.reaped := by
  revert h
  rw [shutdown]
  split
  · rename_i hreaped
    exact fun _ => hreaped
  · split
    · exact fun _ => List.mem_cons_self
    · exact fun h => Bool.noConfusion h

/-- A shutdown proves its worker gone, or retains the handle. -/
theorem shutdown_settles (r : Registry) (x : Handle) (stopped : Bool) :
    x ∈ (r.shutdown x stopped).1.reaped ∨ x ∈ (r.shutdown x stopped).1.unreaped := by
  rw [shutdown]
  split
  · rename_i hreaped
    exact .inl hreaped
  · split
    · exact .inl List.mem_cons_self
    · exact .inr (r.mem_retain.mpr (.inr rfl))

/-- A shutdown drops no handle but the one it proves gone. -/
theorem shutdown_unreaped (hw : w ∈ r.unreaped) :
    w ∈ (r.shutdown x stopped).1.reaped ∨ w ∈ (r.shutdown x stopped).1.unreaped := by
  by_cases hx : w = x
  · subst hx
    exact r.shutdown_settles w stopped
  · refine .inr ?_
    rw [shutdown]
    split
    · exact r.mem_release.mpr ⟨hw, hx⟩
    · split
      · exact r.mem_release.mpr ⟨hw, hx⟩
      · exact r.mem_retain.mpr (.inl hw)

theorem constructFailed_reaped (hw : w ∈ r.reaped) : w ∈ (r.constructFailed stopped).reaped :=
  shutdown_reaped (r := r.construct.1) hw

end Registry

theorem Pool.mem_trackedWorkers {p : Pool} {extra : List Handle} {w : Handle} :
    w ∈ p.trackedWorkers extra ↔ w ∈ p.roster.workers ∨ w ∈ p.roster.idleWorkers ∨
      w ∈ p.roster.busyWorkers ∨ w ∈ p.registry.unreaped ∨ w ∈ extra := by
  simp [Pool.trackedWorkers, List.mem_eraseDups]

section Run

variable {p : Pool} {r : Reap}

theorem run_declares (m : Move) (h : m.source.Declares) :
    (m.run p r).activity.stage.Declares := by
  cases m with
  | quarantine extra resume => exact h
  | endQuarantine resume => exact h.2
  | contextFault w e => cases hanswer : p.contextFaultAnswer e <;> rw [Move.run, hanswer] <;> trivial
  | reapRecycled w e t next =>
      simp only [Move.run]
      (repeat' split) <;> first | trivial | exact ⟨Option.some_ne_none _, trivial⟩
  | reapFailure g => exact declares_unreapedEach _ (Option.some_ne_none _) trivial
  | markFailed g v physical =>
      cases hdecision : p.failure g physical <;> rw [Move.run, hdecision] <;> trivial
  | settleProbe w e g v => cases v <;> simp only [Move.run] <;> split <;> trivial
  | drainTimeout w e g => exact ⟨Option.some_ne_none _, trivial⟩
  | _ =>
      simp only [Move.run]
      (repeat' split) <;> first | trivial | exact ⟨Option.some_ne_none _, trivial⟩

/-- Nothing is forgotten: a block leaves its activity at a stage that awaits what it has to await. -/
theorem run_awaiting (m : Move) (hempty : r.todo = []) :
    (m.run p r).activity.reap.todo ≠ [] → (m.run p r).activity.stage.awaits = true := by
  cases m with
  | contextFault w e =>
      cases hanswer : p.contextFaultAnswer e <;> rw [Move.run, hanswer] <;>
        exact fun h => absurd rfl h
  | markFailed g v physical =>
      cases hdecision : p.failure g physical <;> rw [Move.run, hdecision] <;>
        first | exact fun _ => rfl | exact fun h => absurd rfl h
  | settleProbe w e g v =>
      cases v <;> simp only [Move.run] <;> split <;>
        first | exact fun _ => rfl | exact fun h => absurd rfl h
  | _ =>
      simp only [Move.run]
      (repeat' split) <;>
        first | exact fun _ => rfl | exact fun h => absurd rfl h | exact fun h => absurd hempty h

/-- An activity keeps the results it has, or starts over. -/
theorem run_results (m : Move) :
    (m.run p r).activity.reap.results = r.results ∨ (m.run p r).activity.reap.results = [] := by
  cases m with
  | contextFault w e => exact .inr rfl
  | markFailed g v physical => cases h : p.failure g physical <;> rw [Move.run, h] <;> exact .inr rfl
  | settleProbe w e g v => cases v <;> simp only [Move.run] <;> split <;> exact .inr rfl
  | _ =>
      simp only [Move.run]
      (repeat' split) <;> first | exact .inr rfl | exact .inl rfl | exact .inl trivial | exact .inr trivial

/-- A proof of a shutdown is kept for good. -/
theorem run_reaped (m : Move) {w : Handle} (hw : w ∈ p.registry.reaped) :
    w ∈ (m.run p r).pool.registry.reaped := by
  rcases run_registry p r m with h | h | ⟨x, e, -, h⟩ | ⟨g, v, x, -, -, h⟩ | ⟨x, e, g, -, h⟩ |
    ⟨g, v, -, h⟩ | ⟨b, -, h⟩
  · rwa [h]
  · rwa [h, Registry.recordResults_reaped]
  · rwa [h]
  · rwa [h]
  · rwa [h]
  · rwa [h]
  · rw [h]
    exact Registry.constructFailed_reaped hw

/-- A worker that leaves the pool has its handle retained, or its shutdown is awaited. -/
theorem run_detached (m : Move) {w : Handle} (hw : w ∈ p.roster.workers)
    (hclosed : (∃ b, m = .shutdownSnapshot b) → p.roster.workers = []) :
    w ∈ (m.run p r).pool.roster.workers ∨ w ∈ (m.run p r).pool.registry.unreaped ∨
      w ∈ (m.run p r).activity.reap.todo := by
  have htracked : ∀ extra, w ∈ p.trackedWorkers extra :=
    fun _ => Pool.mem_trackedWorkers.mpr (.inl hw)
  by_cases hquiet : m.rearranges = false
  · rw [(run_lists p hquiet).1]
    exact .inl hw
  cases m with
  | recycle x e | recycleFaulted x e g =>
      by_cases hx : w = x
      · subst hx
        exact .inr (.inl (p.registry.mem_retain.mpr (.inr rfl)))
      · exact .inl ((List.mem_erase_of_ne hx).mpr hw)
  | returnWorker x e o => exact .inl hw
  | recoverOnce x e =>
      simp only [Move.run]
      split_ifs
      · exact .inl hw
      · exact .inl hw
      · exact .inl hw
      · exact .inr (.inr (htracked _))
  | settleProbe x e g v =>
      refine .inl ?_
      simp only [Move.run]
      split
      · cases v
        · exact hw
        · exact List.mem_append_left _ hw
      · cases v <;> exact hw
  | contain x e g | quarantine extra resume => exact .inr (.inr (htracked _))
  | register g v x =>
      refine .inl ?_
      cases h : p.registration g v <;> rw [Move.run, h]
      · exact hw
      · exact List.mem_append_left _ hw
      · exact hw
  | markFailed g v physical =>
      cases h : p.failure g physical <;> rw [Move.run, h]
      · exact .inl hw
      · exact .inr (.inr (htracked _))
      · exact .inl hw
      · exact .inl hw
  | shutdownSnapshot stopped =>
      rw [hclosed ⟨stopped, rfl⟩] at hw
      cases hw
  | _ => exact absurd rfl hquiet

/-- A handle is released when its worker is proven gone, or when the worker joins the pool. -/
theorem run_retained (m : Move) {w : Handle} (hw : w ∈ p.registry.unreaped)
    (hproven : ∀ x, (x, true) ∈ r.results → x ∈ p.registry.reaped) :
    w ∈ (m.run p r).pool.registry.reaped ∨ w ∈ (m.run p r).pool.roster.workers ∨
      w ∈ (m.run p r).pool.registry.unreaped := by
  rcases run_registry p r m with h | h | ⟨x, e, -, h⟩ | ⟨g, v, x, rfl, hadded, h⟩ | ⟨x, e, g, -, h⟩ |
    ⟨g, v, -, h⟩ | ⟨b, -, h⟩ <;> rw [h]
  · exact .inr (.inr hw)
  · rcases (p.registry.mem_recordResults).1 hw with hkept | hgone
    · exact .inr (.inr hkept)
    · rw [Registry.recordResults_reaped]
      exact .inl (hproven w hgone)
  · exact .inr (.inr (p.registry.mem_retain.mpr (.inl hw)))
  · by_cases hx : w = x
    · subst hx
      rw [Move.run, hadded]
      exact .inr (.inl (List.mem_append_right _ (List.mem_singleton.mpr rfl)))
    · exact .inr (.inr (p.registry.mem_release.mpr ⟨hw, hx⟩))
  · exact .inr (.inr hw)
  · exact .inr (.inr (p.registry.construct.1.mem_retain.mpr (.inl hw)))
  · rcases Registry.shutdown_unreaped (r := p.registry.construct.1) hw with hgone | hkept
    · exact .inl hgone
    · exact .inr (.inr hkept)

/-- What the activity of a block was responsible for. -/
theorem run_custody (m : Move) (hempty : r.todo = []) {w : Handle}
    (hw : w ∈ (⟨m.source, r⟩ : Activity).custody) :
    w ∈ (m.run p r).pool.roster.workers ∨ w ∈ (m.run p r).activity.custody := by
  simp only [Activity.custody, hempty, List.nil_append] at hw
  cases m with
  | settleProbe x e g v =>
      cases v with
      | none => cases hw
      | some v =>
          obtain rfl := List.mem_singleton.mp hw
          simp only [Move.run]
          split
          · exact .inl (List.mem_append_right _ (List.mem_singleton.mpr rfl))
          · exact .inr (List.mem_append_left _ (List.mem_singleton.mpr rfl))
  | _ => cases hw

/-- A worker that has just been built has an owner. -/
theorem run_builds (m : Move) {w : Handle}
    (hw : w < (m.run p r).pool.registry.constructed) :
    w < p.registry.constructed ∨ w ∈ (m.run p r).pool.registry.reaped ∨
      w ∈ (m.run p r).pool.registry.unreaped ∨ w ∈ (m.run p r).activity.custody := by
  rcases run_registry p r m with h | h | ⟨x, e, -, h⟩ | ⟨g, v, x, -, -, h⟩ |
    ⟨x, e, g, rfl, h⟩ | ⟨g, v, -, h⟩ | ⟨b, -, h⟩ <;> rw [h] at hw
  · exact .inl hw
  · rw [Registry.recordResults_constructed] at hw
    exact .inl hw
  · exact .inl hw
  · exact .inl hw
  · rcases Nat.lt_succ_iff_lt_or_eq.mp hw with hw | rfl
    · exact .inl hw
    · exact .inr (.inr (.inr (List.mem_singleton.mpr rfl)))
  · rcases Nat.lt_succ_iff_lt_or_eq.mp hw with hw | rfl
    · exact .inl hw
    · rw [h]
      exact .inr (.inr (.inl (p.registry.construct.1.mem_retain.mpr (.inr rfl))))
  · rw [Registry.constructFailed_constructed] at hw
    rcases Nat.lt_succ_iff_lt_or_eq.mp hw with hw | rfl
    · exact .inl hw
    · rw [h]
      rcases p.registry.construct.1.shutdown_settles p.registry.constructed b with hgone | hkept
      · exact .inr (.inl hgone)
      · exact .inr (.inr (.inl hkept))

end Run

/-! ### The invariant -/

/-- Somebody answers for the process of `w`, or it is gone. -/
def Covered (s : Sys) (w : Handle) : Prop :=
  w ∈ s.pool.registry.reaped ∨ w ∈ s.pool.roster.workers ∨ w ∈ s.pool.registry.unreaped ∨
    ∃ a ∈ s.activities, w ∈ a.custody

structure Owned (s : Sys) : Prop where
  accounted : Accounted s
  counted : Counted s
  diligent : ∀ a ∈ s.activities, Diligent s.pool.registry a
  covered : ∀ w < s.pool.registry.constructed, Covered s w

theorem Diligent.mono {r r' : Registry} {a : Activity} (h : Diligent r a)
    (hreaped : ∀ w ∈ r.reaped, w ∈ r'.reaped) : Diligent r' a :=
  ⟨fun w hw => hreaped w (h.proven w hw), h.awaiting, h.declares⟩

/-- An activity that has nothing to wait for. -/
theorem Diligent.of_idle {r : Registry} {stage : Stage} (h : stage.Declares) :
    Diligent r ⟨stage, {}⟩ :=
  ⟨fun _ hw => (by cases hw), fun hne => absurd rfl hne, h⟩

theorem owned_init (n : Nat) : Owned (init n) where
  accounted := ⟨admitted_init n, structured_init n, bounded_init n⟩
  counted _ := Nat.le_refl _
  diligent a ha := by cases ha
  covered w hw := .inr (.inl (List.mem_range.mpr hw))

namespace Owned

variable {s : Sys}

/-- A block starts when nothing is left to wait for. -/
theorem ready_empty (h : Owned s) {i : Nat} {m : Move} {r : Reap}
    (ha : s.activities[i]? = some ⟨m.source, r⟩) (hready : m.ready s.pool r = true) :
    r.todo = [] := by
  by_contra hne
  have hawaits := (h.diligent _ (List.mem_of_getElem? ha)).awaiting hne
  cases m with
  | enterRecovery | drain | drainTimeout | olderDrained | olderTimeout | shutdownProof
  | shutdownDrain => cases hawaits
  | _ => exact hne (of_decide_eq_true hready)

theorem closed_of_snapshot (h : Owned s) {i : Nat} {m : Move} {r : Reap}
    (ha : s.activities[i]? = some ⟨m.source, r⟩) (hm : ∃ b, m = .shutdownSnapshot b) :
    s.pool.roster.workers = [] := by
  obtain ⟨stopped, rfl⟩ := hm
  exact h.accounted.bounded.closed
    (h.accounted.bounded.attached _ (List.mem_of_getElem? ha))

theorem diligent_move (h : Owned s) {i : Nat} (m : Move) (r : Reap)
    (ha : s.activities[i]? = some ⟨m.source, r⟩) (hready : m.ready s.pool r = true) :
    Diligent (m.run s.pool r).pool.registry (m.run s.pool r).activity := by
  have hold := h.diligent _ (List.mem_of_getElem? ha)
  refine ⟨fun w hw => ?_, run_awaiting m (h.ready_empty ha hready), run_declares m hold.declares⟩
  rcases run_results (p := s.pool) (r := r) m with hresults | hresults <;> rw [hresults] at hw
  · exact run_reaped m (hold.proven w hw)
  · cases hw

theorem covered_move (h : Owned s) {i : Nat} (m : Move) (r : Reap)
    (ha : s.activities[i]? = some ⟨m.source, r⟩) (hready : m.ready s.pool r = true) {w : Handle}
    (hw : w < (m.run s.pool r).pool.registry.constructed) :
    Covered ((m.run s.pool r).base (s.activities.set i (m.run s.pool r).activity)) w := by
  have hnew : w ∈ (m.run s.pool r).activity.custody →
      Covered ((m.run s.pool r).base (s.activities.set i (m.run s.pool r).activity)) w :=
    fun hmine => .inr (.inr (.inr
      ⟨_, List.mem_append_left _ (mem_set_self _ ha), hmine⟩))
  rcases run_builds m hw with hw | hgone | hkept | hmine
  · rcases h.covered w hw with hgone | hmember | hkept | ⟨b, hb, hmine⟩
    · exact .inl (run_reaped m hgone)
    · rcases run_detached (r := r) m hmember (h.closed_of_snapshot ha) with hmember | hkept | hmine
      · exact .inr (.inl hmember)
      · exact .inr (.inr (.inl hkept))
      · exact hnew (List.mem_append_left _ hmine)
    · rcases run_retained m hkept (h.diligent _ (List.mem_of_getElem? ha)).proven with
        hgone | hmember | hkept
      · exact .inl hgone
      · exact .inr (.inl hmember)
      · exact .inr (.inr (.inl hkept))
    · by_cases hb' : b = ⟨m.source, r⟩
      · subst hb'
        rcases run_custody m (h.ready_empty ha hready) hmine with hmember | hmine
        · exact .inr (.inl hmember)
        · exact hnew hmine
      · exact .inr (.inr (.inr ⟨b, List.mem_append_left _ (mem_set_of_ne ha hb hb'), hmine⟩))
  · exact .inl hgone
  · exact .inr (.inr (.inl hkept))
  · exact hnew hmine

theorem covered_call (h : Owned s) (c : Call) {w : Handle}
    (hw : w < (c.run s.pool).pool.registry.constructed) :
    Covered ((c.run s.pool).base (s.activities ++ [(c.run s.pool).activity])) w := by
  have hnew : w ∈ (c.run s.pool).activity.reap.todo →
      Covered ((c.run s.pool).base (s.activities ++ [(c.run s.pool).activity])) w :=
    fun hmine => .inr (.inr (.inr ⟨_, List.mem_append_left _
      (List.mem_append_right _ (List.mem_singleton.mpr rfl)), List.mem_append_left _ hmine⟩))
  have hregistry : (c.run s.pool).pool.registry = s.pool.registry := by cases c <;> rfl
  rw [hregistry] at hw
  rcases h.covered w hw with hgone | hmember | hkept | ⟨b, hb, hmine⟩
  · refine .inl ?_
    rw [Result.base, hregistry]
    exact hgone
  · cases c with
    | checkout x | poll => exact .inr (.inl hmember)
    | reconcile =>
        by_cases hdead : w ∈ s.pool.deadWorkers
        · exact hnew hdead
        · exact .inr (.inl (List.mem_filter.mpr ⟨hmember, by simpa using hdead⟩))
    | foundOrphan | shutdown => exact hnew (Pool.mem_trackedWorkers.mpr (.inl hmember))
  · refine .inr (.inr (.inl ?_))
    rw [Result.base, hregistry]
    exact hkept
  · refine .inr (.inr (.inr ⟨b, ?_, hmine⟩))
    exact List.mem_append_left _ (List.mem_append_left _ hb)

theorem covered_stopped (h : Owned s) {i : Nat} {a : Activity} {x : Handle} (proven : Bool)
    (ha : s.activities[i]? = some a) {w : Handle} (hw : w < s.pool.registry.constructed) :
    Covered (s.stopped i a x proven) w := by
  rcases h.covered w hw with hgone | hmember | hkept | ⟨b, hb, hmine⟩
  · exact .inl (Registry.shutdown_reaped hgone)
  · exact .inr (.inl hmember)
  · exact (Registry.shutdown_unreaped hkept).imp_right fun hkept => .inr (.inl hkept)
  · by_cases hx : w = x
    · subst hx
      rcases s.pool.registry.shutdown_settles w proven with hgone | hkept
      · exact .inl hgone
      · exact .inr (.inr (.inl hkept))
    · refine .inr (.inr (.inr ?_))
      by_cases hb' : b = a
      · subst hb'
        refine ⟨_, mem_set_self _ ha, ?_⟩
        rcases List.mem_append.mp hmine with hmine | hmine
        · exact List.mem_append_left _ ((List.mem_erase_of_ne hx).mpr hmine)
        · exact List.mem_append_right _ hmine
      · exact ⟨b, mem_set_of_ne ha hb hb', hmine⟩

theorem preserved : Preserved Owned where
  move {s i} m r h ha hready := by
    refine ⟨Accounted.preserved.move m r h.accounted ha hready,
      counted_preserved.move m r h.counted ha hready, fun b hb => ?_,
      fun w hw => h.covered_move m r ha hready hw⟩
    rcases List.mem_append.mp hb with hb | hb
    · refine forall_mem_set (fun b hb => ?_) (h.diligent_move m r ha hready) b hb
      exact (h.diligent b hb).mono fun w => run_reaped m
    · obtain ⟨w, e, t, g, v, -, rfl⟩ := run_started s.pool r m hb
      exact .of_idle trivial
  call {s} c h hready := by
    refine ⟨Accounted.preserved.call c h.accounted hready,
      counted_preserved.call c h.counted hready, fun b hb => ?_,
      fun w hw => h.covered_call c hw⟩
    have hregistry : (c.run s.pool).pool.registry = s.pool.registry := by cases c <;> rfl
    rw [Result.base, hregistry]
    rw [Result.base, (call_activity c).2.2.2, List.append_nil] at hb
    rcases List.mem_append.mp hb with hb | hb
    · exact h.diligent b hb
    · obtain rfl := List.mem_singleton.mp hb
      refine ⟨fun w hw => ?_, fun hne => ?_, ?_⟩
      · cases c <;> cases hw
      · cases c <;> first | rfl | exact absurd rfl hne
      · cases c <;> trivial
  topUp {s} h := by
    refine ⟨Accounted.preserved.topUp h.accounted, counted_preserved.topUp h.counted,
      fun b hb => ?_, fun w hw => ?_⟩
    · rcases List.mem_append.mp hb with hb | hb
      · exact h.diligent b hb
      · obtain ⟨-, rfl⟩ := List.mem_replicate.mp hb
        exact .of_idle trivial
    · rcases h.covered w hw with hgone | hmember | hkept | ⟨b, hb, hmine⟩
      · exact .inl hgone
      · exact .inr (.inl hmember)
      · exact .inr (.inr (.inl hkept))
      · exact .inr (.inr (.inr ⟨b, List.mem_append_left _ hb, hmine⟩))
  stopped {s i a w} proven h ha hw := by
    refine ⟨Accounted.preserved.stopped proven h.accounted ha hw,
      counted_preserved.stopped proven h.counted ha hw, ?_, fun x hx => ?_⟩
    · have hold := h.diligent a (List.mem_of_getElem? ha)
      refine forall_mem_set (fun b hb => (h.diligent b hb).mono fun x => Registry.shutdown_reaped) ?_
      refine ⟨fun x hx => ?_, fun hne => hold.awaiting (List.ne_nil_of_mem hw), hold.declares⟩
      rcases List.mem_append.mp hx with hx | hx
      · exact Registry.shutdown_reaped (hold.proven x hx)
      · obtain ⟨rfl, hproven⟩ := Prod.mk.inj (List.mem_singleton.mp hx)
        exact Registry.shutdown_proven hproven.symm
    · rw [Sys.stopped, Registry.shutdown_constructed] at hx
      exact h.covered_stopped proven ha hx
  dies w h := ⟨Accounted.preserved.dies w h.accounted, h.counted, fun b hb => (h.diligent b hb).mono
    fun _ => id, fun x hx => h.covered x hx⟩

theorem reachable {n : Nat} (hs : Reachable n s) : Owned s :=
  preserved.reachable (owned_init n) hs

/-- Everybody who answers for a worker has an open ticket, or shuts the pool down. -/
theorem responsible (h : Owned s) {a : Activity} (ha : a ∈ s.activities) {w : Handle}
    (hw : w ∈ a.custody) :
    (∃ t, a.stage.ticket = some t ∧ t ∈ s.pool.activeReplenishments) ∨
      a.stage.shutsDown = true := by
  have hold := h.diligent a ha
  have hwaits : a.stage.awaits = true ∨ a.stage.built ≠ none := by
    rcases List.mem_append.mp hw with hw | hw
    · exact .inl (hold.awaiting (List.ne_nil_of_mem hw))
    · refine .inr fun hnone => ?_
      rw [hnone] at hw
      cases hw
  rcases Stage.responsible hold.declares hwaits with hticket | hshuts
  · obtain ⟨t, ht⟩ := Option.ne_none_iff_exists'.mp hticket
    exact .inl ⟨t, ht, h.counted.active ha ht⟩
  · exact .inr hshuts

end Owned

end KernelGym.WorkerPool
