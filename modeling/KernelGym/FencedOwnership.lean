import KernelGym.ClaimEntries

/-! A fenced attempt owns its task. Once the processing mark or a freeze has set the fence under a
token, only a step that presents this token with the authority the fence asks for ends the claim. -/

namespace KernelGym

variable {s s' : Sys} {a : Action} {m : KeyPrefix} {k : TaskId} {p : InstanceId} {t : Token}

/-- Process `p` holds a claim for `k` under prefix `m` with token `t`. -/
def Sys.holds (s : Sys) (m : KeyPrefix) (k : TaskId) (t : Token) (p : InstanceId) (c : Attempt) :
    Prop :=
  s.attempt p k = some c ∧ c.pre = m ∧ c.token = t

/-- The action presents exactly token `t` for task `k` with the authority its fence asks for. -/
def Sys.authorizes (s : Sys) (m : KeyPrefix) (k : TaskId) (t : Token) : Action → Prop
  | .finalize p id _ _ _ allowFrozen => id = k ∧ (∃ c, s.holds m k t p c) ∧
      (((s.spaces m).hgetall k).claim.recoveryState = .frozen → allowFrozen = true)
  | .ack p id => id = k ∧ ∃ c, s.holds m k t p c ∧ c.releasesFence = true
  | .requeue p id _ mode _ _ => id = k ∧ (∃ c, s.holds m k t p c) ∧
      mode.releases ((s.spaces m).hgetall k).claim.recoveryState = true
  | _ => False

theorem Sys.holds_of_cell {c : Attempt} (hc : (s.cell m k).attempts p = some c) (ht : c.token = t) :
    s.holds m k t p c :=
  ⟨(Sys.attempt_of_cell hc).1, (Sys.attempt_of_cell hc).2, ht⟩

/-- Between two fenced states of one attempt the fence is kept or was strengthened to `frozen`. -/
def RecoveryState.staysFenced (r r' : RecoveryState) : Prop :=
  r' ≠ .clear ∧ (r = .frozen → r' = .frozen)

theorem RecoveryState.staysFenced_refl {r : RecoveryState} (h : r ≠ .clear) : r.staysFenced r :=
  ⟨h, fun hr => hr⟩

theorem CellStep.fence_kept {C' : Cell} (hcell : CellStep s m k (s.cell m k) a C')
    (hcore : a.transactional = true) (hv : s.Valid) (hnot : ¬s.authorizes m k t a)
    (ht : (s.cell m k).hash.claim.token = some t)
    (hfence : (s.cell m k).hash.claim.recoveryState ≠ .clear) :
    C'.hash.claim.token = some t ∧
      (s.cell m k).hash.claim.recoveryState.staysFenced C'.hash.claim.recoveryState := by
  have hcv := hv.cell m k
  have hexists := Cell.exists_of_token ht
  have hsound := hcv.sound _ hexists
  have hprocessing := hsound.fenced hfence
  have hkept := RecoveryState.staysFenced_refl hfence
  -- A claim that was not marked yet belongs to a task without a fence.
  have hunmarked : ∀ {p c}, (s.cell m k).attempts p = some c → c.stage = .dequeued →
      (s.cell m k).hash.claim.token = some c.token → False := fun hc hstage htoken =>
    hfence ((hcv.matching _ _ _ hc hexists htoken).dequeued hstage)
  have hsame : ∀ {p c}, (s.cell m k).attempts p = some c →
      (s.cell m k).hash.claim.token = some c.token → s.holds m k t p c := fun hc htoken =>
    Sys.holds_of_cell hc (Option.some.inj (htoken.symm.trans ht))
  have hfree : (s.cell m k).hash.claim.token = none → False := fun hnone => by
    rw [ht] at hnone
    exact absurd hnone (by simp)
  have hnotTerminal : ∀ {h}, (s.cell m k).view.hash = some h → h.terminal = true → False := by
    intro h hh hterminal
    rw [Cell.hash_of_some hh] at hprocessing
    rw [TaskHash.terminal, hprocessing] at hterminal
    exact absurd hterminal (by simp [TaskStatus.terminal])
  have hunstoppable : ∀ {h : TaskHash}, h.claim = (s.cell m k).hash.claim → ¬h.stoppable = true := by
    intro h hclaim hstop
    simp only [TaskHash.stoppable, Bool.and_eq_true, beq_iff_eq] at hstop
    exact hfence (hclaim ▸ hstop.2)
  cases hcell with
  | idle | forgotten | loaded | checked | observed | adopted | superseded | finalizeSuperseded
  | entryDropped | staleCopy | resultExpired => exact ⟨ht, hkept⟩
  | cpuPopped | cpuPushed | cpuMarked | published | deleted =>
      exact absurd hcore (by simp [Action.transactional])
  | debris _ hlow =>
      obtain ⟨n, -, rfl⟩ := hlow
      exact ⟨ht, hkept⟩
  | submitted hpayload hid hallowed hnone =>
      rw [hexists] at hnone
      exact absurd hnone (by simp)
  | refreshed hpayload hid hallowed hold => exact (hfree (hold _ hexists).2).elim
  | claimed hfresh hlane hclaimable =>
      obtain ⟨task, htask, -, hnone, -⟩ := claimable_data hcv hclaimable
      rw [← show (s.cell m k).hash = task from Cell.hash_of_some htask] at hnone
      exact (hfree hnone).elim
  | marked hc hstage hd htoken => exact (hunmarked hc hstage htoken).elim
  | markRefused hc hstage hd htoken => exact (hunmarked hc hstage htoken).elim
  | returned hc hstage htoken => exact (hunmarked hc hstage htoken).elim
  | acked hc hack htoken hrelease =>
      exact absurd ⟨rfl, _, hsame hc htoken, hrelease.resolve_left hfence⟩ hnot
  | requeued hc hd hseen htoken hmode =>
      exact absurd ⟨rfl, ⟨_, hsame hc htoken⟩, hmode⟩ hnot
  | requeueRefused hc hd htoken hmode => exact absurd ⟨rfl, ⟨_, hsame hc htoken⟩, hmode⟩ hnot
  | finalized hc hterminal htoken hfrozen =>
      exact absurd ⟨rfl, ⟨_, hsame hc htoken⟩, hfrozen⟩ hnot
  | frozen hc hstage htoken =>
      exact ⟨ht, by simp [Cell.hash, TaskView.setHash, TaskHash.frozen], fun _ => rfl⟩
  | stamped hh =>
      rw [← Cell.hash_of_some hh]
      exact ⟨ht, hkept⟩
  | stampedAbsent hnone =>
      rw [hexists] at hnone
      exact absurd hnone (by simp)
  | @cancelled now retention h hh hchildren =>
      rw [← Cell.hash_of_some hh]
      have hstop := hunstoppable (h := (s.cell m k).hash.cancelStamped now) rfl
      rw [Cell.hash, Cell.withView_view, TaskView.withdrawn_hash_of_not _ hstop]
      exact ⟨ht, hkept⟩
  | swept hne hmem =>
      have hstop := hunstoppable (h := (s.cell m k).view.hash.getD {}) rfl
      rw [Cell.hash, Cell.withView_view, TaskView.swept, TaskView.withdrawn_hash_of_not _ hstop]
      exact ⟨ht, hkept⟩
  | accepted hid hfresh hreply =>
      exact (hnotTerminal hexists ((acceptReply_one hreply).2 _ hexists).1).elim
  | renewed => exact ⟨ht, hkept⟩
  | committed hissued hpre hid hterminal hreason hgen =>
      have hparent := hsound.kind.isParent_of_issued hgen hissued hid
      exact (hfree (by rw [hparent.claim])).elim
  | moved hdata hassigned hstatus htoken => exact (hfree htoken).elim
  | taskExpired httl =>
      obtain ⟨h, hh, hterminal⟩ := hcv.retained httl
      exact (hnotTerminal hh hterminal).elim
  | discarded hgen hterminal htoken => exact (hfree htoken).elim

/-- A fenced attempt stays the only one of its task until a step presents its token with the
authority the fence asks for: the task is on no queue, no claim takes it, no processing mark of it
succeeds, and its inflight entry stays. -/
theorem fenced_attempt_exclusive (hs : TransactionRun {} s)
    (ht : ((s.spaces m).hgetall k).claim.token = some t)
    (hfence : ((s.spaces m).hgetall k).claim.recoveryState ≠ .clear)
    (hrun : Library.RunWhen step (fun u a => a.transactional = true ∧ ¬u.authorizes m k t a) s s') :
    ((s'.spaces m).hgetall k).claim.token = some t ∧
    RecoveryState.staysFenced ((s.spaces m).hgetall k).claim.recoveryState
      ((s'.spaces m).hgetall k).claim.recoveryState ∧
    (∀ lane, k ∉ (s'.spaces m).queues lane) ∧
    (∃ w, ((s'.spaces m).hgetall k).claim.inflightQueue = some w ∧
      ((s'.spaces m).inflight w).count (t, k) = 1) ∧
    (∀ token w p lane scanLimit,
      (claimGpuTask token w p lane scanLimit (s'.spaces m)).2 ≠ some k) ∧
    ∀ w own parent token startedAt worker inst source,
      (markClaimProcessing k w own parent token startedAt worker inst source
        (s'.spaces m)).2 ≠ 1 := by
  have hstart : (s.cell m k).hash.claim.recoveryState ≠ .clear := hfence
  have hinv : s'.Valid ∧ (s'.cell m k).Settled ∧ (s'.cell m k).hash.claim.token = some t ∧
      (s.cell m k).hash.claim.recoveryState.staysFenced
        (s'.cell m k).hash.claim.recoveryState := by
    refine Library.RunWhen.invariant (I := fun u => u.Valid ∧ (u.cell m k).Settled ∧
      (u.cell m k).hash.claim.token = some t ∧
      RecoveryState.staysFenced (s.cell m k).hash.claim.recoveryState
        (u.cell m k).hash.claim.recoveryState)
      ?_ hrun ⟨hs.valid, hs.settled m k, ht, RecoveryState.staysFenced_refl hstart⟩
    rintro u b u' ⟨hv, hsettled, htoken, hstays⟩ ⟨hcore, hnot⟩ hstep
    have hcell := cellStep_of_step m k hstep
    obtain ⟨htoken', hstays'⟩ := hcell.fence_kept hcore hv hnot htoken hstays.1
    exact ⟨hv.step hstep, hcell.settled hcore hv hsettled, htoken', hstays'.1,
      fun hfrozen => hstays'.2 (hstays.2 hfrozen)⟩
  obtain ⟨hv, hsettled, htoken, hstays⟩ := hinv
  have hsound := (hv.cell m k).sound _ (Cell.exists_of_token htoken)
  have hprocessing := hsound.fenced hstays.1
  refine ⟨htoken, hstays, fun lane hmem => ?_, ?_, fun token w p lane scanLimit hclaim => ?_, ?_⟩
  · have hpos : 0 < (s'.cell m k).view.queued lane := Store.mem_queue_iff.mp hmem
    rw [hsettled.unqueued_of_claimed htoken] at hpos
    exact absurd hpos (Nat.lt_irrefl _)
  · obtain ⟨w, hw⟩ := Option.isSome_iff_exists.mp (hsound.claimed t htoken).2.2.1
    exact ⟨w, hw, (hsettled.entry w t).trans (if_pos ⟨htoken, hw⟩)⟩
  · rcases claimGpuTask_cases token w p lane scanLimit (s'.spaces m) k with
      ⟨-, hclaimable, -⟩ | ⟨hne, -⟩
    · obtain ⟨task, htask, -, hnone, -⟩ := claimable_data (hv.cell m k) hclaimable
      rw [show (s'.cell m k).hash = task from Cell.hash_of_some htask, hnone] at htoken
      exact absurd htoken (by simp)
    · exact hne hclaim
  · intro w own parent token startedAt worker inst source hmarked
    rcases markClaimProcessing_cases k w own parent token startedAt worker inst source
      (s'.spaces m) with ⟨-, hreply, -⟩ | ⟨-, -, hreply, -⟩ | ⟨-, hpending, -⟩
    · rw [hreply] at hmarked
      exact absurd hmarked (by decide)
    · exact hreply hmarked
    · exact absurd (hpending.symm.trans hprocessing) (by simp)

/-- A worker process has marked its task. -/
def markedTask : List Action :=
  [.submit "kernelgym" { taskId := "task" } none false [] "0",
    .claim "old" "kernelgym" "gpu0" (.resource .gpu) "first" 32, .load "old" "task",
    .mark "old" "task" "1"]

/-- The process crashes, another one recovers its list, and the task is cancelled. -/
def restarted : List Action :=
  [.crash "old", .recoverScan "new" "kernelgym" "gpu0" 32,
    .recoverRead "new" ⟨"kernelgym", "gpu0", "first", "task"⟩ false,
    .cancel "kernelgym" "task" "2" {}]

theorem fenced_attempt_exclusive_restarted :
    "task" ∉ (((Sys.after markedTask).follow restarted).spaces "kernelgym").queues
      (.resource .gpu) := by
  have hs : TransactionRun {} (Sys.after markedTask) := TransactionRun.after (by decide) (by decide)
  have hrun : Library.RunWhen step
      (fun u a => a.transactional = true ∧ ¬u.authorizes "kernelgym" "task" "first" a)
      (Sys.after markedTask) ((Sys.after markedTask).follow restarted) :=
    Library.RunWhen.mono
      (fun u a (h : a.transactional = true ∧ ∀ v : Sys, ¬v.authorizes "kernelgym" "task" "first" a) =>
        ⟨h.1, h.2 u⟩)
      (Library.execute_run_getD (by simp [restarted, Action.transactional, Sys.authorizes])
        (by decide))
  exact (fenced_attempt_exclusive hs (by decide) (by decide) hrun).2.2.1 (.resource .gpu)

end KernelGym
