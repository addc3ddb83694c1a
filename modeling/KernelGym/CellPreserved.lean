import KernelGym.CellValid

/-! Every step keeps the cell invariant. The hash is followed first, then the attempt it belongs to,
then what processes remember about it. -/

namespace KernelGym

variable {s s' : Sys} {a : Action} {m : KeyPrefix} {k : TaskId} {C' : Cell}

/-- The drawn tokens of a system, as a property. -/
abbrev Sys.used (s : Sys) (t : Token) : Prop := t ∈ s.tokens

abbrev Sys.CellValid (s : Sys) (m : KeyPrefix) (k : TaskId) : Prop :=
  (s.cell m k).Valid s.issued s.used m k

/-! ### The hash -/

theorem CellStep.sound (hcell : CellStep s m k (s.cell m k) a C') (h : step s a = some s')
    (hv : s.CellValid m k) (hids : ∀ g issue, s.issued g = some issue → issue.id ≠ "") :
    ∀ h', C'.view.hash = some h' → h'.Sound s'.issued s'.used m k := by
  have hframe := stepFrame_of_step h
  have hold : ∀ h', (s.cell m k).view.hash = some h' → h'.Sound s'.issued s'.used m k :=
    fun h' hh' => (hv.sound h' hh').mono hframe.issued hframe.tokens
  have hheld : ∀ {t}, (s.cell m k).hash.claim.token = some t →
      (s.cell m k).hash.Sound s'.issued s'.used m k :=
    fun ht => hold _ (Cell.exists_of_token ht)
  intro h' hh'
  cases hcell with
  | idle | forgotten | loaded | checked | observed | adopted | superseded | finalizeSuperseded
  | entryDropped | staleCopy | resultExpired | cpuPopped | cpuPushed => exact hold h' hh'
  | debris _ hlow =>
      obtain ⟨n, -, rfl⟩ := hlow
      exact hold h' hh'
  | submitted hpayload hid hallowed hnone =>
      obtain rfl := Option.some.inj hh'
      subst hid
      rw [submit_issued h]
      exact sound_taskMapping (submitted_kind hids hpayload hallowed (fun _ => hnone) _)
  | refreshed hpayload hid hallowed hold' hlanes =>
      obtain rfl := Option.some.inj hh'
      subst hid
      rw [submit_issued h]
      exact sound_taskMapping (submitted_kind hids hpayload hallowed (fun hchild => by simp at hchild) _)
  | claimed ht hlane hclaimable hqueued =>
      obtain rfl := Option.some.inj hh'
      obtain ⟨task, htask, hstatus, -, hdata⟩ := claimable_data hv hclaimable
      rw [Cell.hash_of_some htask]
      exact (hold task htask).claimedBy hstatus hdata (claim_tokens h) _ _ _
  | marked hc hstage hd ht hstatus hadmits =>
      obtain rfl := Option.some.inj hh'
      exact (hheld ht).marked ht _ _ _ _ _
  | markRefused hc hstage hd ht hrefused =>
      obtain rfl := Option.some.inj hh'
      exact (hheld ht).clearClaim
  | returned hc hstage ht =>
      obtain rfl := Option.some.inj hh'
      exact (hheld ht).clearClaim
  | acked hc hack ht hfence =>
      obtain rfl := Option.some.inj hh'
      exact (hheld ht).clearClaim
  | requeued hc hd hseen ht hmode hadmits =>
      obtain rfl := Option.some.inj hh'
      have hmatch := hv.matching _ _ _ hc (Cell.exists_of_token ht) ht
      exact (hheld ht).of_restored rfl rfl rfl rfl (hmatch.loaded _ hd) rfl
  | requeueRefused hc hd ht hmode hrefused =>
      obtain rfl := Option.some.inj hh'
      exact (hheld ht).clearClaim
  | frozen hc hstage ht =>
      obtain rfl := Option.some.inj hh'
      have hfence := (hv.matching _ _ _ hc (Cell.exists_of_token ht) ht).running hstage
      exact (hheld ht).frozen ht ((hheld ht).fenced hfence) _ _
  | finalized hc hterminal ht hfrozen =>
      obtain rfl := Option.some.inj hh'
      exact (hheld ht).applied hterminal
  | stamped hh =>
      obtain rfl := Option.some.inj hh'
      exact (hold _ hh).cancelStamped _
  | stampedAbsent hnone =>
      obtain rfl := Option.some.inj hh'
      exact sound_blank rfl rfl rfl rfl rfl
  | cancelled hh hchildren =>
      unfold TaskView.withdrawn at hh'
      split_ifs at hh' with hstop
      · obtain rfl := Option.some.inj hh'
        exact ((hold _ hh).cancelStamped _).stopped hstop _
      · rw [Cell.withView_view, TaskView.purgeLanes_hash] at hh'
        obtain rfl := Option.some.inj hh'
        exact (hold _ hh).cancelStamped _
  | swept hne hmem =>
      unfold TaskView.swept TaskView.withdrawn at hh'
      split_ifs at hh' with hstop
      · obtain rfl := Option.some.inj hh'
        have hexists : (s.cell m k).view.hash = some (s.cell m k).hash := by
          simp only [TaskHash.stoppable, Bool.and_eq_true, beq_iff_eq] at hstop
          exact Cell.exists_of_status hstop.1
        exact (hold _ hexists).stopped hstop _
      · rw [Cell.withView_view, TaskView.purgeLanes_hash] at hh'
        exact hold _ hh'
  | accepted hid hfresh hreply =>
      obtain rfl := Option.some.inj hh'
      exact sound_parentRecord (accept_issued h hreply) rfl rfl _ _
  | renewed hallowed hgen =>
      obtain rfl := Option.some.inj hh'
      exact (hold _ (Cell.exists_of_generation hgen)).renewed
        (workflowAllowed_parent rfl rfl rfl hallowed).2.1 _
  | committed hissued hpre hid hterminal hreason hgen hactive =>
      rw [Cell.withView_view] at hh'
      change (TaskView.purgeLanes _ _).hash = some h' at hh'
      rw [TaskView.purgeLanes_hash] at hh'
      obtain rfl := Option.some.inj hh'
      have hexists := Cell.exists_of_generation hgen
      have hparent := (hv.sound _ hexists).kind.isParent_of_issued hgen hissued hid
      exact (hold _ hexists).committed hparent.claim (finishPayload_terminal _ _ _ _ hterminal) _
  | moved hdata hassigned hstatus htoken hadmits hqueued =>
      obtain rfl := Option.some.inj hh'
      exact (hold _ (Cell.exists_of_status hstatus)).of_restored rfl rfl rfl rfl hdata rfl
  | taskExpired | discarded | deleted => exact absurd hh' (by simp)
  | cpuMarked hpre hid hstatus hadmits =>
      obtain rfl := Option.some.inj hh'
      exact (hold _ (Cell.exists_of_status hstatus)).cpuMarked hstatus _
  | published hpublishing hterminal =>
      obtain rfl := Option.some.inj hh'
      cases hh : (s.cell m k).view.hash with
      | none =>
          have hempty : (s.cell m k).hash = {} := by rw [Cell.hash, hh]; rfl
          rw [hempty]
          exact sound_blank rfl rfl rfl rfl
            (TaskHash.not_active_of_terminal (TaskHash.Sound.apply_terminal hterminal {}))
      | some task =>
          rw [Cell.hash_of_some hh]
          exact (hold _ hh).applied hterminal

/-- A token that was drawn before the step is carried by the same attempt before it. -/
theorem CellStep.sameAttempt (hcell : CellStep s m k (s.cell m k) a C') (hv : s.CellValid m k)
    {h' : TaskHash} (hh' : C'.view.hash = some h') {t : Token} (ht' : h'.claim.token = some t)
    (hused : s.used t) : ∃ h, (s.cell m k).view.hash = some h ∧ h.SameAttempt h' := by
  cases hcell with
  | idle | forgotten | loaded | checked | observed | adopted | superseded | finalizeSuperseded
  | entryDropped | staleCopy | resultExpired | cpuPopped | cpuPushed =>
      exact ⟨h', hh', TaskHash.SameAttempt.refl h'⟩
  | debris _ hlow =>
      obtain ⟨n, -, rfl⟩ := hlow
      exact ⟨h', hh', TaskHash.SameAttempt.refl h'⟩
  | submitted | refreshed | markRefused | returned | acked | requeued | requeueRefused | finalized
  | moved | stampedAbsent | accepted | published =>
      obtain rfl := Option.some.inj hh'
      exact absurd ht' (by simp [taskMapping, parentRecord, TaskHash.clearClaim, TaskHash.requeued,
        TaskHash.moved, TerminalMapping.apply, TaskHash.cancelStamped])
  | taskExpired | discarded | deleted => exact absurd hh' (by simp)
  | claimed ht hlane hclaimable hqueued =>
      obtain rfl := Option.some.inj hh'
      obtain rfl := Option.some.inj ht'
      exact absurd hused ht
  | marked hc hstage hd ht hstatus hadmits =>
      obtain rfl := Option.some.inj hh'
      have hexists := Cell.exists_of_token ht
      have hmatch := hv.matching _ _ _ hc hexists ht
      exact ⟨_, hexists, rfl, hmatch.inflightQueue.symm, hmatch.sourceQueue.symm,
        hmatch.workerInstance.symm, rfl, rfl, rfl⟩
  | frozen hc hstage ht =>
      obtain rfl := Option.some.inj hh'
      exact ⟨_, Cell.exists_of_token ht, rfl, rfl, rfl, rfl, rfl, rfl, rfl⟩
  | stamped hh =>
      obtain rfl := Option.some.inj hh'
      exact ⟨_, hh, rfl, rfl, rfl, rfl, rfl, rfl, rfl⟩
  | cancelled hh hchildren =>
      unfold TaskView.withdrawn at hh'
      split_ifs at hh' with hstop
      · obtain rfl := Option.some.inj hh'
        exact absurd ht' (by simp [TaskHash.stopped, ClaimFields.cleared])
      · rw [Cell.withView_view, TaskView.purgeLanes_hash] at hh'
        obtain rfl := Option.some.inj hh'
        exact ⟨_, hh, rfl, rfl, rfl, rfl, rfl, rfl, rfl⟩
  | swept hne hmem =>
      unfold TaskView.swept TaskView.withdrawn at hh'
      split_ifs at hh' with hstop
      · obtain rfl := Option.some.inj hh'
        exact absurd ht' (by simp [TaskHash.stopped, ClaimFields.cleared])
      · rw [Cell.withView_view, TaskView.purgeLanes_hash] at hh'
        exact ⟨h', hh', TaskHash.SameAttempt.refl h'⟩
  | renewed hallowed hgen =>
      obtain rfl := Option.some.inj hh'
      exact ⟨_, Cell.exists_of_generation hgen, rfl, rfl, rfl, rfl, rfl, rfl, rfl⟩
  | committed hissued hpre hid hterminal hreason hgen hactive =>
      change (TaskView.purgeLanes _ _).hash = some h' at hh'
      rw [TaskView.purgeLanes_hash] at hh'
      obtain rfl := Option.some.inj hh'
      exact ⟨_, Cell.exists_of_generation hgen, rfl, rfl, rfl, rfl, rfl, rfl, rfl⟩
  | cpuMarked hpre hid hstatus hadmits =>
      obtain rfl := Option.some.inj hh'
      exact ⟨_, Cell.exists_of_status hstatus, rfl, rfl, rfl, rfl, rfl, rfl, rfl⟩

/-- While a token that was drawn before the step is carried, only a mark or a freeze by the process
that owns the attempt changes its fence. -/
theorem CellStep.sameFence (hcell : CellStep s m k (s.cell m k) a C') {h h' : TaskHash}
    (hh : (s.cell m k).view.hash = some h) (hh' : C'.view.hash = some h')
    (hsame : h.SameAttempt h') {t : Token} (ht : h.claim.token = some t) (hused : s.used t) :
    h'.claim.recoveryState = h.claim.recoveryState ∨
      (h'.claim.recoveryState ≠ .clear ∧ ∃ p c c', (s.cell m k).attempts p = some c ∧ c.own ∧
        c.token = t ∧ C'.attempts p = some c' ∧ c'.stage = .running) := by
  have ht' : h'.claim.token = some t := hsame.token.trans ht
  cases hcell with
  | idle | forgotten | loaded | checked | observed | adopted | superseded | finalizeSuperseded
  | entryDropped | staleCopy | resultExpired | cpuPopped | cpuPushed =>
      obtain rfl := Option.some.inj (hh.symm.trans hh')
      exact Or.inl rfl
  | debris _ hlow =>
      obtain ⟨n, -, rfl⟩ := hlow
      obtain rfl := Option.some.inj (hh.symm.trans hh')
      exact Or.inl rfl
  | submitted | refreshed | markRefused | returned | acked | requeued | requeueRefused | finalized
  | moved | stampedAbsent | accepted | published =>
      obtain rfl := Option.some.inj hh'
      exact absurd ht' (by simp [taskMapping, parentRecord, TaskHash.clearClaim, TaskHash.requeued,
        TaskHash.moved, TerminalMapping.apply, TaskHash.cancelStamped])
  | taskExpired | discarded | deleted => exact absurd hh' (by simp)
  | claimed hfresh hlane hclaimable hqueued =>
      obtain rfl := Option.some.inj hh'
      obtain rfl := Option.some.inj ht'
      exact absurd hused hfresh
  | @marked p c d now hc hstage hd htoken hstatus hadmits =>
      obtain rfl := Option.some.inj hh'
      rw [Cell.hash_of_some hh] at htoken
      refine Or.inr ⟨by simp [TaskHash.marked], p, c, _, hc, Or.inl hstage, ?_,
        Function.update_self _ _ _, rfl⟩
      exact Option.some.inj (htoken.symm.trans ht)
  | @frozen p c reason now hc hstage htoken =>
      obtain rfl := Option.some.inj hh'
      rw [Cell.hash_of_some hh] at htoken
      refine Or.inr ⟨by simp [TaskHash.frozen], p, c, c, hc, Or.inr hstage, ?_, hc, hstage⟩
      exact Option.some.inj (htoken.symm.trans ht)
  | stamped hh₁ =>
      obtain rfl := Option.some.inj hh'
      obtain rfl := Option.some.inj (hh.symm.trans hh₁)
      exact Or.inl rfl
  | cancelled hh₁ hchildren =>
      obtain rfl := Option.some.inj (hh.symm.trans hh₁)
      unfold TaskView.withdrawn at hh'
      split_ifs at hh' with hstop
      · obtain rfl := Option.some.inj hh'
        exact Or.inl rfl
      · rw [Cell.withView_view, TaskView.purgeLanes_hash] at hh'
        obtain rfl := Option.some.inj hh'
        exact Or.inl rfl
  | swept hne hmem =>
      unfold TaskView.swept TaskView.withdrawn at hh'
      split_ifs at hh' with hstop
      · obtain rfl := Option.some.inj hh'
        exact absurd ht' (by simp [TaskHash.stopped, ClaimFields.cleared])
      · rw [Cell.withView_view, TaskView.purgeLanes_hash] at hh'
        obtain rfl := Option.some.inj (hh.symm.trans hh')
        exact Or.inl rfl
  | renewed hallowed hgen =>
      obtain rfl := Option.some.inj hh'
      rw [Cell.hash_of_some hh]
      exact Or.inl rfl
  | committed hissued hpre hid hterminal hreason hgen hactive =>
      change (TaskView.purgeLanes _ _).hash = some h' at hh'
      rw [TaskView.purgeLanes_hash] at hh'
      obtain rfl := Option.some.inj hh'
      rw [Cell.hash_of_some hh]
      exact Or.inl rfl
  | cpuMarked hpre hid hstatus hadmits =>
      obtain rfl := Option.some.inj hh'
      rw [Cell.hash_of_some hh]
      exact Or.inl rfl

/-! ### Inflight entries -/

theorem CellStep.entryOf (hcell : CellStep s m k (s.cell m k) a C') (h : step s a = some s')
    (hv : s.CellValid m k) {w : WorkerId} {t : Token} (he : (s.cell m k).EntryOf s.used w t) :
    C'.EntryOf s'.used w t := by
  refine ⟨(stepFrame_of_step h).tokens t he.1, fun h' hh' ht' => ?_⟩
  obtain ⟨task, htask, hsame⟩ := hcell.sameAttempt hv hh' ht' he.1
  rw [hsame.inflightQueue]
  exact he.2 task htask (hsame.token ▸ ht')

/-- An inflight count is written at one worker and one token. -/
theorem update_inflight (f : WorkerId → Token → Nat) (w w' : WorkerId) (t t' : Token) (n : Nat) :
    Function.update f w (Function.update (f w) t n) w' t' =
      if w' = w ∧ t' = t then n else f w' t' := by
  by_cases hw : w' = w
  · subst hw
    rw [Function.update_self]
    by_cases ht : t' = t
    · subst ht
      simp
    · simp [ht]
  · simp [hw]

theorem TaskView.release_inflight (v : TaskView) (w w' : WorkerId) (t t' : Token) :
    (v.release w t).inflight w' t' =
      if w' = w ∧ t' = t then v.inflight w t - 1 else v.inflight w' t' :=
  update_inflight v.inflight w w' t t' _

theorem TaskView.hold_inflight (v : TaskView) (w w' : WorkerId) (t t' : Token) :
    (v.hold w t).inflight w' t' =
      if w' = w ∧ t' = t then v.inflight w t + 1 else v.inflight w' t' :=
  update_inflight v.inflight w w' t t' _

theorem TaskView.release_inflight_le (v : TaskView) (w w' : WorkerId) (t t' : Token) :
    (v.release w t).inflight w' t' ≤ v.inflight w' t' := by
  rw [release_inflight]
  split_ifs with heq
  · obtain ⟨rfl, rfl⟩ := heq
    omega
  · exact Nat.le_refl _

theorem TaskView.releaseHeld_inflight_le (v : TaskView) (h : TaskHash) (w : WorkerId) (t : Token) :
    (v.releaseHeld h).inflight w t ≤ v.inflight w t := by
  unfold TaskView.releaseHeld
  split
  · exact TaskView.release_inflight_le _ _ _ _ _
  · exact Nat.le_refl _

theorem TaskView.withdrawn_inflight_le (v : TaskView) (h : TaskHash) (now : Timestamp)
    (result : ResultMapping) (retention : Retention) (w : WorkerId) (t : Token) :
    (v.withdrawn h now result retention).inflight w t ≤ v.inflight w t := by
  unfold TaskView.withdrawn
  split_ifs
  · refine Nat.le_trans (TaskView.releaseHeld_inflight_le _ h w t) (Nat.le_of_eq ?_)
    rw [TaskView.purgeLanes_inflight]
  · refine Nat.le_of_eq ?_
    rw [TaskView.purgeLanes_inflight]

/-- Only a claim adds an inflight entry. -/
theorem CellStep.inflight_le (hcell : CellStep s m k (s.cell m k) a C') (w : WorkerId) (t : Token) :
    C'.view.inflight w t ≤ (s.cell m k).view.inflight w t ∨
      (∃ p lane n, a = .claim p m w lane t n ∧
        C'.view.hash = some { (s.cell m k).hash with claim := newClaim t w p lane }) := by
  cases hcell with
  | debris _ hlow =>
      obtain ⟨n, -, rfl⟩ := hlow
      exact Or.inl (Nat.le_refl _)
  | @claimed p w' lane t' n hfresh hlane hclaimable hqueued =>
      by_cases heq : w = w' ∧ t = t'
      · obtain ⟨rfl, rfl⟩ := heq
        exact Or.inr ⟨p, lane, n, rfl, rfl⟩
      · refine Or.inl (Nat.le_of_eq ?_)
        exact (TaskView.hold_inflight _ _ _ _ _).trans (if_neg heq)
  | markRefused | acked | requeueRefused | superseded | finalizeSuperseded | finalized
  | entryDropped | requeued => exact Or.inl (TaskView.release_inflight_le _ _ _ _ _)
  | returned =>
      refine Or.inl ?_
      rw [Cell.setAttempt_view, Cell.withView_view, TaskView.returned]
      split_ifs <;> exact TaskView.release_inflight_le _ _ _ _ _
  | refreshed _ _ _ _ _ =>
      refine Or.inl (Nat.le_of_eq ?_)
      change (TaskView.purgeLanes _ _).inflight w t = _
      rw [TaskView.purgeLanes_inflight]
  | cancelled => exact Or.inl (TaskView.withdrawn_inflight_le _ _ _ _ _ _ _)
  | swept => exact Or.inl (TaskView.withdrawn_inflight_le _ _ _ _ _ _ _)
  | committed =>
      refine Or.inl (Nat.le_of_eq ?_)
      change (TaskView.purgeLanes _ _).inflight w t = _
      rw [TaskView.purgeLanes_inflight]
      rfl
  | _ => exact Or.inl (Nat.le_refl _)

theorem CellStep.entries (hcell : CellStep s m k (s.cell m k) a C') (h : step s a = some s')
    (hv : s.CellValid m k) {w : WorkerId} {t : Token} (hpos : 0 < C'.view.inflight w t) :
    C'.EntryOf s'.used w t := by
  rcases hcell.inflight_le w t with hle | ⟨p, lane, n, rfl, hhash⟩
  · exact hcell.entryOf h hv (hv.entries w t (Nat.lt_of_lt_of_le hpos hle))
  · refine ⟨claim_tokens h, fun h' hh' _ => ?_⟩
    obtain rfl := Option.some.inj (hhash.symm.trans hh')
    rfl

/-! ### Retention -/

/-- A key with a time to live holds a terminal record. -/
theorem CellStep.retained (hcell : CellStep s m k (s.cell m k) a C') (hv : s.CellValid m k) :
    C'.view.ttl = true → ∃ h, C'.view.hash = some h ∧ h.terminal = true := by
  have hactive : ∀ h, (s.cell m k).view.hash = some h → h.terminal = false →
      (s.cell m k).view.ttl = true → False := by
    intro h hh hterm httl
    obtain ⟨h', hh', hterm'⟩ := hv.retained httl
    obtain rfl := Option.some.inj (hh.symm.trans hh')
    rw [hterm] at hterm'
    exact absurd hterm' (by simp)
  have hheld : ∀ {t}, (s.cell m k).hash.claim.token = some t →
      (s.cell m k).view.ttl = true → False := fun ht =>
    hactive _ (Cell.exists_of_token ht)
      ((hv.sound _ (Cell.exists_of_token ht)).not_terminal_of_claimed ht)
  have hpending : (s.cell m k).hash.status = some .pending → (s.cell m k).view.ttl = true →
      False := fun hs =>
    hactive _ (Cell.exists_of_status hs)
      (TaskHash.not_terminal_of_active ((TaskHash.active_iff _).mpr (Or.inl hs)))
  have habsent : (s.cell m k).view.hash = none → (s.cell m k).view.ttl = true → False := by
    intro hnone httl
    obtain ⟨h, hh, -⟩ := hv.retained httl
    rw [hnone] at hh
    exact absurd hh (by simp)
  intro httl
  cases hcell with
  | idle | forgotten | loaded | checked | observed | adopted | superseded | finalizeSuperseded
  | entryDropped | staleCopy | resultExpired | cpuPopped | cpuPushed => exact hv.retained httl
  | debris _ hlow =>
      obtain ⟨n, -, rfl⟩ := hlow
      exact hv.retained httl
  | submitted hpayload hid hallowed hnone => exact (habsent hnone httl).elim
  | refreshed | accepted | taskExpired | discarded | deleted => exact absurd httl (by simp [TaskView.refreshed,
      TaskView.push, TaskView.setHash])
  | claimed hfresh hlane hclaimable hqueued =>
      obtain ⟨task, htask, hstatus, -, -⟩ := claimable_data hv hclaimable
      have hhash : (s.cell m k).hash = task := Cell.hash_of_some htask
      exact (hpending (hhash ▸ hstatus) httl).elim
  | marked hc hstage hd ht => exact (hheld ht httl).elim
  | markRefused hc hstage hd ht => exact (hheld ht httl).elim
  | returned hc hstage ht =>
      refine (hheld ht ?_).elim
      rw [Cell.setAttempt_view, Cell.withView_view, TaskView.returned] at httl
      split_ifs at httl <;> exact httl
  | acked hc hack ht => exact (hheld ht httl).elim
  | requeued hc hd hseen ht => exact (hheld ht httl).elim
  | requeueRefused hc hd ht => exact (hheld ht httl).elim
  | frozen hc hstage ht => exact (hheld ht httl).elim
  | finalized hc hterminal ht hfrozen =>
      exact ⟨_, rfl, TaskHash.Sound.apply_terminal hterminal _⟩
  | stamped hh =>
      obtain ⟨task, htask, hterm⟩ := hv.retained httl
      obtain rfl := Option.some.inj (hh.symm.trans htask)
      exact ⟨_, rfl, hterm⟩
  | stampedAbsent hnone => exact (habsent hnone httl).elim
  | cancelled hh hchildren =>
      rw [Cell.withView_view, TaskView.withdrawn] at httl ⊢
      split_ifs at httl ⊢ with hstop
      · exact ⟨_, rfl, rfl⟩
      · rw [TaskView.purgeLanes_ttl] at httl
        obtain ⟨task, htask, hterm⟩ := hv.retained httl
        obtain rfl := Option.some.inj (hh.symm.trans htask)
        exact ⟨_, TaskView.purgeLanes_hash _ _, hterm⟩
  | swept hne hmem =>
      rw [Cell.withView_view, TaskView.swept, TaskView.withdrawn] at httl ⊢
      split_ifs at httl ⊢ with hstop
      · exact ⟨_, rfl, rfl⟩
      · rw [TaskView.purgeLanes_ttl] at httl
        rw [TaskView.purgeLanes_hash]
        exact hv.retained httl
  | renewed hallowed hgen =>
      exact (hactive _ (Cell.exists_of_generation hgen) (TaskHash.not_terminal_of_active
        (workflowAllowed_parent rfl rfl rfl hallowed).2.1) httl).elim
  | committed hissued hpre hid hterminal hreason hgen hactive' =>
      refine ⟨_, TaskView.purgeLanes_hash _ _, ?_⟩
      exact finishPayload_terminal _ _ _ _ hterminal
  | moved hdata hassigned hstatus => exact (hpending hstatus httl).elim
  | cpuMarked hpre hid hstatus => exact (hpending hstatus httl).elim
  | published hpublishing hterminal =>
      exact ⟨_, rfl, TaskHash.Sound.apply_terminal hterminal _⟩

/-! ### What processes remember -/

/-- Where a claim that a process holds after a step comes from. -/
inductive AttemptStep (s : Sys) (m : KeyPrefix) (k : TaskId) (a : Action) (C C' : Cell)
    (q : InstanceId) (c' : Attempt) : Prop
  | kept (hc : C.attempts q = some c')
  | loaded (c : Attempt) (hc : C.attempts q = some c) (heq : c' = c.load C.view.hash)
      (hview : C'.view = C.view)
  | checked (c : Attempt) (d : TaskData) (hc : C.attempts q = some c) (hd : c.loaded = some d)
      (heq : c' = { c with
        cancelSeen := c.cancelSeen || (s.spaces m).dequeuedTaskCancelled k d.baseTaskId })
      (hview : C'.view = C.view)
  | observed (c : Attempt) (hc : C.attempts q = some c)
      (heq : c' = { c with snapshot := some (C.hash.assignedWorker, C.hash.assignedAt) })
      (hview : C'.view = C.view)
  | adopted (entry : Scanned) (release : Bool) (h : TaskHash) (hscan : entry ∈ (s.procs q).scanned)
      (hpre : entry.pre = m) (hid : entry.id = k) (hh : C.view.hash = some h)
      (ht : h.claim.token = some entry.token) (heq : c' = adoptedAttempt entry h release)
      (hview : C'.view = C.view) (ha : a = .recoverRead q entry release)
  | claimed (w : WorkerId) (lane : Lane) (t : Token) (n : Nat) (ha : a = .claim q m w lane t n)
      (ht : t ∉ s.tokens) (heq : c' = claimedAttempt m w lane t q)
      (hhash : C'.view.hash = some { C.hash with claim := newClaim t w q lane })
  | marked (c : Attempt) (now : Timestamp) (hc : C.attempts q = some c)
      (hstage : c.stage = .dequeued) (ht : C.hash.claim.token = some c.token)
      (heq : c' = { c with stage := .running })
      (hhash : C'.view.hash = some (C.hash.marked now c.inflightQueue c.workerInstance
        c.sourceQueue c.inflightQueue))

theorem CellStep.attemptStep (hcell : CellStep s m k (s.cell m k) a C') {q : InstanceId}
    {c' : Attempt} (hc' : C'.attempts q = some c') :
    AttemptStep s m k a (s.cell m k) C' q c' := by
  have hupdate : ∀ {p : InstanceId} {o : Option Attempt},
      Function.update (s.cell m k).attempts p o q = some c' →
        (q = p ∧ o = some c') ∨ (s.cell m k).attempts q = some c' := by
    intro p o h
    rw [Function.update_apply] at h
    split_ifs at h with hq
    · exact Or.inl ⟨hq, h⟩
    · exact Or.inr h
  cases hcell with
  | @loaded p c hc =>
      rcases hupdate hc' with ⟨rfl, heq⟩ | hkept
      · exact AttemptStep.loaded c hc (Option.some.inj heq).symm rfl
      · exact AttemptStep.kept hkept
  | @checked p c d hc hd =>
      rcases hupdate hc' with ⟨rfl, heq⟩ | hkept
      · exact AttemptStep.checked c d hc hd (Option.some.inj heq).symm rfl
      · exact AttemptStep.kept hkept
  | @observed p c hc =>
      rcases hupdate hc' with ⟨rfl, heq⟩ | hkept
      · exact AttemptStep.observed c hc (Option.some.inj heq).symm rfl
      · exact AttemptStep.kept hkept
  | @adopted p entry release h hscan hpre hid hh ht hfence howner =>
      rcases hupdate hc' with ⟨rfl, heq⟩ | hkept
      · exact AttemptStep.adopted entry release h hscan hpre hid hh ht (Option.some.inj heq).symm rfl
          rfl
      · exact AttemptStep.kept hkept
  | @claimed p w lane t n hfresh hlane hclaimable hqueued =>
      rcases hupdate hc' with ⟨rfl, heq⟩ | hkept
      · exact AttemptStep.claimed w lane t n rfl hfresh (Option.some.inj heq).symm rfl
      · exact AttemptStep.kept hkept
  | @marked p c d now hc hstage hd ht hstatus hadmits =>
      rcases hupdate hc' with ⟨rfl, heq⟩ | hkept
      · exact AttemptStep.marked c now hc hstage ht (Option.some.inj heq).symm rfl
      · exact AttemptStep.kept hkept
  | forgotten | markRefused | returned | acked | requeued | requeueRefused | superseded
  | finalized => exact AttemptStep.kept (Cell.attempts_of_forgotten hc')
  | _ => exact AttemptStep.kept hc'

theorem CellStep.minted (hcell : CellStep s m k (s.cell m k) a C') (h : step s a = some s')
    (hv : s.CellValid m k) {q : InstanceId} {c' : Attempt} (hc' : C'.attempts q = some c') :
    s'.used c'.token := by
  have hmono := (stepFrame_of_step h).tokens
  have hold : ∀ c, (s.cell m k).attempts q = some c → s'.used c.token :=
    fun c hc => hmono _ (hv.minted _ _ hc)
  cases hcell.attemptStep hc' with
  | kept hc => exact hold c' hc
  | loaded c hc heq =>
      subst heq
      exact hold c hc
  | checked c d hc hd heq =>
      subst heq
      exact hold c hc
  | observed c hc heq =>
      subst heq
      exact hold c hc
  | adopted entry release task hscan hpre hid hh ht heq =>
      subst heq
      exact hmono _ ((hv.sound _ hh).claimed _ ht).2.1
  | claimed w lane t n ha ht heq =>
      subst ha heq
      exact claim_tokens h
  | marked c now hc hstage ht heq =>
      subst heq
      exact hold c hc

/-- A claim of one's own was one's own before, or was just made with a fresh token. -/
theorem CellStep.own_cases (hcell : CellStep s m k (s.cell m k) a C') {q : InstanceId}
    {c' : Attempt} (hc' : C'.attempts q = some c') (hown : c'.own) :
    (∃ c, (s.cell m k).attempts q = some c ∧ c.own ∧ c.token = c'.token ∧
      c.workerInstance = c'.workerInstance) ∨
    (c'.token ∉ s.tokens ∧ c'.workerInstance = q ∧
      ∃ w lane n, a = .claim q m w lane c'.token n) := by
  cases hcell.attemptStep hc' with
  | kept hc => exact Or.inl ⟨c', hc, hown, rfl, rfl⟩
  | loaded c hc heq =>
      subst heq
      exact Or.inl ⟨c, hc, hown, rfl, rfl⟩
  | checked c d hc hd heq =>
      subst heq
      exact Or.inl ⟨c, hc, hown, rfl, rfl⟩
  | observed c hc heq =>
      subst heq
      exact Or.inl ⟨c, hc, hown, rfl, rfl⟩
  | adopted entry release task hscan hpre hid hh ht heq =>
      subst heq
      rcases hown with hstage | hstage <;> exact absurd hstage (by simp [adoptedAttempt])
  | claimed w lane t n ha ht heq =>
      subst heq
      exact Or.inr ⟨ht, rfl, w, lane, n, ha⟩
  | marked c now hc hstage ht heq =>
      subst heq
      exact Or.inl ⟨c, hc, Or.inl hstage, rfl, rfl⟩

theorem CellStep.owner (hcell : CellStep s m k (s.cell m k) a C') (hv : s.CellValid m k)
    {q : InstanceId} {c' : Attempt} (hc' : C'.attempts q = some c') (hown : c'.own) :
    c'.workerInstance = q := by
  rcases hcell.own_cases hc' hown with ⟨c, hc, hown', -, hinst⟩ | ⟨-, hinst, -⟩
  · exact hinst ▸ hv.owner _ _ hc hown'
  · exact hinst

theorem CellStep.unique (hcell : CellStep s m k (s.cell m k) a C') (hv : s.CellValid m k)
    {p q : InstanceId} {c c' : Attempt} (hc : C'.attempts p = some c) (hc' : C'.attempts q = some c')
    (hown : c.own) (hown' : c'.own) (ht : c.token = c'.token) : p = q := by
  rcases hcell.own_cases hc hown with ⟨b, hb, hbown, hbt, -⟩ | ⟨hfresh, -, w, lane, n, ha⟩ <;>
    rcases hcell.own_cases hc' hown' with ⟨b', hb', hbown', hbt', -⟩ | ⟨hfresh', -, w', lane', n', ha'⟩
  · exact hv.unique p q b b' hb hb' hbown hbown' (hbt.trans (ht.trans hbt'.symm))
  · exact absurd (ht ▸ hbt ▸ hv.minted _ _ hb) hfresh'
  · exact absurd (ht ▸ hbt' ▸ hv.minted _ _ hb') hfresh
  · rw [ha] at ha'
    injection ha'

theorem CellStep.matching (hcell : CellStep s m k (s.cell m k) a C') (hv : s.CellValid m k)
    (hscan : ∀ p, ∀ entry ∈ (s.procs p).scanned, entry.pre = m → entry.id = k →
      (s.cell m k).EntryOf s.used entry.worker entry.token)
    {q : InstanceId} {c' : Attempt} {h' : TaskHash} (hc' : C'.attempts q = some c')
    (hh' : C'.view.hash = some h') (ht' : h'.claim.token = some c'.token) : c'.Matches h' := by
  cases hcell.attemptStep hc' with
  | kept hc =>
      obtain ⟨h, hh, hsame⟩ := hcell.sameAttempt hv hh' ht' (hv.minted _ _ hc)
      have ht : h.claim.token = some c'.token := hsame.token ▸ ht'
      refine (hv.matching _ _ _ hc hh ht).congr hsame ?_
      rcases hcell.sameFence hh hh' hsame ht (hv.minted _ _ hc) with
        heq | ⟨hfence, p, c, c'', hp, hown, htoken, hp', hrunning⟩
      · exact Or.inl heq
      · by_cases hown' : c'.own
        · obtain rfl := hv.unique p q c c' hp hc hown hown' htoken
          rw [hc', Option.some.injEq] at hp'
          exact Or.inr (Or.inr ⟨hfence, by simp [hp', hrunning]⟩)
        · exact Or.inr (Or.inl hown')
  | loaded c hc heq hview =>
      subst heq
      rw [hview] at hh'
      have hmatch := hv.matching _ _ _ hc hh' ht'
      have hsound := hv.sound _ hh'
      refine { hmatch with loaded := ?_, unloadable := ?_ }
      · intro d hd
        simpa [Attempt.load, hh'] using hd
      · have hdata := hsound.data_of_claimed ht'
        have hterm := hsound.not_terminal_of_claimed ht'
        simp only [Attempt.load, hh', Option.all_some, droppedBeforeDispatch, hterm, Bool.or_false]
        simpa using hdata
  | checked c d hc hd heq hview =>
      subst heq
      rw [hview] at hh'
      exact { hv.matching _ _ _ hc hh' ht' with }
  | observed c hc heq hview =>
      subst heq
      rw [hview] at hh'
      refine { hv.matching _ _ _ hc hh' ht' with snapshot := ?_ }
      intro seen hseen
      rw [← Option.some.inj hseen, Cell.hash_of_some hh']
  | adopted entry release h hscanned hpre hid hh ht heq hview =>
      subst heq
      rw [hview, hh, Option.some.injEq] at hh'
      subst hh'
      have hsound := hv.sound _ hh
      have hclaimed := hsound.claimed _ ht
      constructor
      · exact (hscan q entry hscanned hpre hid).2 h hh ht
      · obtain ⟨lane, hlane⟩ := Option.isSome_iff_exists.mp hclaimed.2.2.2
        rw [hlane]
        simp [adoptedAttempt, hlane]
      · rfl
      · exact fun d hd => hd
      · have hdata := hsound.data_of_claimed ht
        have hterm := hsound.not_terminal_of_claimed ht
        simp only [adoptedAttempt, droppedBeforeDispatch, hterm, Bool.or_false]
        simpa using hdata
      · exact fun seen hseen => absurd hseen (by simp [adoptedAttempt])
      · exact fun hstage => absurd hstage (by simp [adoptedAttempt])
      · exact fun hstage => absurd hstage (by simp [adoptedAttempt])
  | claimed w lane t n ha ht heq hhash =>
      subst heq
      obtain rfl := Option.some.inj (hhash.symm.trans hh')
      exact ⟨rfl, rfl, rfl, fun d hd => absurd hd (by simp [claimedAttempt]), rfl,
        fun seen hseen => absurd hseen (by simp [claimedAttempt]), fun _ => rfl,
        fun hstage => absurd hstage (by simp [claimedAttempt])⟩
  | marked c now hc hstage ht heq hhash =>
      subst heq
      obtain rfl := Option.some.inj (hhash.symm.trans hh')
      have hmatch := hv.matching _ _ _ hc (Cell.exists_of_token ht) ht
      exact ⟨rfl, rfl, rfl, hmatch.loaded, hmatch.unloadable, hmatch.snapshot,
        fun hstage' => absurd hstage' (by simp), fun _ => by simp [TaskHash.marked]⟩

end KernelGym
