import KernelGym.CellSettled

/-! Claim tokens and inflight entries are in bijection in every state that the transactions lead to,
and a transaction that presents an old token leaves the attempt that superseded it alone. -/

namespace KernelGym

variable {s s' : Sys} {a : Action} {m : KeyPrefix} {k : TaskId} {p : InstanceId}

/-- What the claim fields of a task, its status and the inflight lists say about each other. -/
structure Store.ClaimConsistent (S : Store) (k : TaskId) : Prop where
  /-- The token is carried exactly when its entry is listed once where the hash says, and nowhere
  else. -/
  entry : ∀ t, (S.hgetall k).claim.token = some t ↔
    ∃ w, (S.hgetall k).claim.inflightQueue = some w ∧ (S.inflight w).count (t, k) = 1 ∧
      ∀ w' ≠ w, (t, k) ∉ S.inflight w'
  /-- No list holds an entry of a token the task does not carry. -/
  listed : ∀ w t, (t, k) ∈ S.inflight w → (S.hgetall k).claim.token = some t
  claimed : (S.hgetall k).claim.token.isSome →
    (S.hgetall k).status = some .pending ∨ (S.hgetall k).status = some .processing
  fenced : (S.hgetall k).claim.recoveryState ≠ .clear → (S.hgetall k).claim.token.isSome
  terminal : (S.hgetall k).terminal = true → (S.hgetall k).claim.token = none

/-- The action is one of process `p` on its claim for task `k`. -/
def Action.presents (p : InstanceId) (k : TaskId) : Action → Bool
  | .mark q id _ | .returnClaim q id | .ack q id | .requeue q id _ _ _ _ | .freeze q id _ _
  | .finalize q id _ _ _ _ => q == p && id == k
  | _ => false

theorem Cell.Settled.claimConsistent (hs : (s.cell m k).Settled) (hv : s.CellValid m k) :
    (s.spaces m).ClaimConsistent k := by
  have hcount : ∀ w t, ((s.spaces m).inflight w).count (t, k) =
      if ((s.spaces m).hgetall k).claim.token = some t ∧
        ((s.spaces m).hgetall k).claim.inflightQueue = some w then 1 else 0 := hs.entry
  have hmem : ∀ {w t}, (t, k) ∈ (s.spaces m).inflight w →
      ((s.spaces m).hgetall k).claim.token = some t ∧
        ((s.spaces m).hgetall k).claim.inflightQueue = some w := by
    intro w t hmem
    have hpos := List.count_pos_iff.mpr hmem
    rw [hcount] at hpos
    split_ifs at hpos with heq
    · exact heq
    · exact absurd hpos (Nat.lt_irrefl _)
  have hsound : ∀ {t}, ((s.spaces m).hgetall k).claim.token = some t →
      (s.cell m k).hash.Sound s.issued s.used m k :=
    fun ht => hv.sound _ (Cell.exists_of_token ht)
  constructor
  · intro t
    constructor
    · intro ht
      obtain ⟨-, -, hinflight, -⟩ := (hsound ht).claimed t ht
      obtain ⟨w, hw⟩ := Option.isSome_iff_exists.mp hinflight
      refine ⟨w, hw, by rw [hcount, if_pos ⟨ht, hw⟩], fun w' hne hmem' => hne ?_⟩
      exact (Option.some.inj (hw.symm.trans (hmem hmem').2)).symm
    · rintro ⟨w, -, hone, -⟩
      exact (hmem (List.count_pos_iff.mp (by rw [hone]; exact Nat.one_pos))).1
  · exact fun w t hentry => (hmem hentry).1
  · intro hsome
    obtain ⟨t, ht⟩ := Option.isSome_iff_exists.mp hsome
    exact (TaskHash.active_iff _).mp ((hsound ht).claimed t ht).1
  · intro hfence
    have hexists : (s.cell m k).view.hash = some (s.cell m k).hash :=
      Cell.exists_of_ne fun heq => hfence (by
        rw [show (s.spaces m).hgetall k = (s.cell m k).hash from rfl, heq])
    by_contra hnone
    exact hfence ((hv.sound _ hexists).unfenced (Option.not_isSome_iff_eq_none.mp hnone))
  · intro hterminal
    obtain ⟨status, hstatus, -⟩ := (TaskHash.terminal_iff _).mp hterminal
    exact (hv.sound _ (Cell.exists_of_status hstatus)).unclaimed hterminal

/-- An action of a process whose claim was superseded changes neither the hash of the task nor any
inflight entry or queue entry of it. -/
theorem CellStep.superseded_unchanged {C' : Cell} (hcell : CellStep s m k (s.cell m k) a C')
    (hs : (s.cell m k).Settled) {c : Attempt} (hpresents : a.presents p k = true)
    (hc : (s.cell m k).attempts p = some c) (ht : (s.cell m k).hash.claim.token ≠ some c.token) :
    C'.hash = (s.cell m k).hash ∧
      (∀ w t, C'.view.inflight w t = (s.cell m k).view.inflight w t) ∧
      C'.view.queued = (s.cell m k).view.queued := by
  cases hcell with
  | idle | forgotten => exact ⟨rfl, fun _ _ => rfl, rfl⟩
  | superseded hc' ht' => exact ⟨rfl, hs.inflight_release_superseded ht' _, rfl⟩
  | finalizeSuperseded hc' ht' => exact ⟨rfl, hs.inflight_release_superseded ht' _, rfl⟩
  | stamped hh hstamps =>
      exact absurd hstamps (by
        cases a <;> simp_all [Action.presents, Action.stampsCancelled])
  | marked hc' _ _ ht' | markRefused hc' _ _ ht' | returned hc' _ ht' | acked hc' _ ht'
  | requeued hc' _ _ ht' | requeueRefused hc' _ ht' | frozen hc' _ ht' | finalized hc' _ ht' =>
      simp only [Action.presents, Bool.and_eq_true, beq_iff_eq] at hpresents
      obtain ⟨rfl, -⟩ := hpresents
      obtain rfl := Option.some.inj (hc.symm.trans hc')
      exact absurd ht' ht
  | _ => exact absurd hpresents (by simp [Action.presents])

/-- In every state that the transactions lead to, claim tokens and inflight entries correspond to
each other, and whoever presents a superseded claim leaves the hash, the inflight entries and the
queue entries of the task as they are. -/
theorem claim_entry_bijection (hs : TransactionRun {} s) (m : KeyPrefix) (k : TaskId) :
    (s.spaces m).ClaimConsistent k ∧
    ∀ p a c s', a.presents p k = true → s.attempt p k = some c → c.pre = m →
      ((s.spaces m).hgetall k).claim.token ≠ some c.token → step s a = some s' →
      (s'.spaces m).hgetall k = (s.spaces m).hgetall k ∧
      (∀ w t, ((s'.spaces m).inflight w).count (t, k) = ((s.spaces m).inflight w).count (t, k)) ∧
      ∀ lane, ((s'.spaces m).queues lane).count k = ((s.spaces m).queues lane).count k := by
  have hsettled := hs.settled m k
  refine ⟨hsettled.claimConsistent (hs.valid.cell m k), fun p a c s' hpresents hc hpre ht hstep => ?_⟩
  have hattempt : (s.cell m k).attempts p = some c := by
    simp [Sys.cell, hc, hpre]
  obtain ⟨hhash, hinflight, hqueued⟩ :=
    (cellStep_of_step m k hstep).superseded_unchanged hsettled hpresents hattempt ht
  exact ⟨hhash, hinflight, fun lane => congrFun hqueued lane⟩

/-- A task of one process that another one claims again after a requeue. -/
def reclaimed : List Action :=
  [.submit "kernelgym" { taskId := "task" } none false [] "0",
    .claim "old" "kernelgym" "gpu0" (.resource .gpu) "first" 32, .load "old" "task",
    .recoverScan "new" "kernelgym" "gpu0" 32,
    .recoverRead "new" ⟨"kernelgym", "gpu0", "first", "task"⟩ false, .snapshot "new" "task",
    .requeue "new" "task" true .none "" "1",
    .claim "new" "kernelgym" "gpu0" (.resource .gpu) "second" 32]

/-- The old process returns its claim: the entry of the second attempt stays. -/
theorem claim_entry_bijection_reclaimed :
    (((Sys.after reclaimed).spaces "kernelgym").ClaimConsistent "task") ∧
    ((((step (Sys.after reclaimed) (.returnClaim "old" "task")).getD {}).spaces
      "kernelgym").inflight "gpu0").count ("second", "task") = 1 := by
  have hrun : TransactionRun {} (Sys.after reclaimed) := TransactionRun.after (by decide) (by decide)
  obtain ⟨hconsistent, hold⟩ := claim_entry_bijection hrun "kernelgym" "task"
  have hkept := (hold "old" (.returnClaim "old" "task")
    { claimedAttempt "kernelgym" "gpu0" (.resource .gpu) "first" "old" with
      loaded := some { taskId := "task", requiredResource := some .gpu } }
    _ (by decide) rfl rfl (by decide) (Library.step_getD (by decide))).2.1
  exact ⟨hconsistent, (hkept "gpu0" "second").trans (by decide)⟩

end KernelGym
