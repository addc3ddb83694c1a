import KernelGym.CellSteps

/-! What no step takes back: drawn tokens and issued generations stay, the clock does not run
backwards, tombstones stay, and a lease is only ever given to a new generation. A cancel marker goes
away in four actions only. -/

namespace KernelGym

/-- The actions that can delete the cancel marker of `id` under `m`. -/
def Action.clearsMarker (m : KeyPrefix) (id : TaskId) : Action → Prop
  | .accept pre i _ _ _ _ _ _ => pre = m ∧ i = id
  | .discardWorkflow pre i _ _ => pre = m ∧ i = id
  | .expireCancel pre i => pre = m ∧ i = id
  | .deleteRecords pre i => pre = m ∧ i = id
  | _ => False

/-- The fences of `m` between the two ends of a step. -/
structure FencesAfter (s s' : Sys) (a : Action) (m : KeyPrefix) : Prop where
  now : (s.spaces m).now ≤ (s'.spaces m).now
  tombstones : ∀ id, (s.spaces m).tombstones id = true → (s'.spaces m).tombstones id = true
  leases : ∀ id g, (s'.spaces m).leases id = some g →
    (s.spaces m).leases id = some g ∨
      (s.issued g = none ∧ ∃ issue, s'.issued g = some issue ∧ issue.pre = m ∧ issue.id = id)
  cancelMarks : ∀ id, (s.spaces m).cancelMarks id = true →
    (s'.spaces m).cancelMarks id = true ∨ a.clearsMarker m id

variable {s s' : Sys} {a : Action} {m pre : KeyPrefix} {S : Store}

theorem FencesAfter.of_eq (h : (s'.spaces m).fences = (s.spaces m).fences) :
    FencesAfter s s' a m where
  now := Nat.le_of_eq (congrArg Fences.now h).symm
  tombstones id hid := (congrFun (congrArg Fences.tombstones h) id).trans hid
  leases id _ hg := Or.inl ((congrFun (congrArg Fences.leases h) id).symm.trans hg)
  cancelMarks id hid := Or.inl ((congrFun (congrArg Fences.cancelMarks h) id).trans hid)

/-- An action that writes one store is judged by the fences of that store. -/
theorem FencesAfter.of_written (hspaces : s'.spaces = Function.update s.spaces pre S)
    (hnow : (s.spaces pre).now ≤ S.now)
    (htomb : ∀ id, (s.spaces pre).tombstones id = true → S.tombstones id = true)
    (hlease : ∀ id g, S.leases id = some g → (s.spaces pre).leases id = some g ∨
      (s.issued g = none ∧ ∃ issue, s'.issued g = some issue ∧ issue.pre = pre ∧ issue.id = id))
    (hmark : ∀ id, (s.spaces pre).cancelMarks id = true →
      S.cancelMarks id = true ∨ a.clearsMarker pre id) : FencesAfter s s' a m := by
  by_cases hm : m = pre
  · subst hm
    have hstore : s'.spaces m = S := by rw [hspaces, Function.update_self]
    exact ⟨hstore ▸ hnow, hstore ▸ htomb, hstore ▸ hlease, hstore ▸ hmark⟩
  · exact FencesAfter.of_eq (by rw [hspaces, Function.update_of_ne hm])

theorem FencesAfter.of_raised (hspaces : s'.spaces = Function.update s.spaces pre S)
    (h : (s.spaces pre).fences.Raised S.fences) : FencesAfter s s' a m :=
  FencesAfter.of_written hspaces (Nat.le_of_eq h.now.symm) h.tombstones
    (fun id _ hg => Or.inl ((congrFun h.leases id).symm.trans hg))
    fun id hid => Or.inl (h.cancelMarks id hid)

/-- An action that writes one store and leaves its fences alone. -/
theorem FencesAfter.of_update (hspaces : s'.spaces = Function.update s.spaces pre S)
    (hS : S.fences = (s.spaces pre).fences) : FencesAfter s s' a m :=
  FencesAfter.of_raised hspaces (hS ▸ Fences.Raised.refl _)

/-- An action that deletes a lease, or a cancel marker that it may delete. -/
theorem FencesAfter.of_dropped (id : TaskId)
    (hspaces : s'.spaces = Function.update s.spaces pre S) (hnow : S.now = (s.spaces pre).now)
    (htomb : S.tombstones = (s.spaces pre).tombstones)
    (hlease : S.leases = Function.update (s.spaces pre).leases id none)
    (hmark : ∀ i, i ≠ id → S.cancelMarks i = (s.spaces pre).cancelMarks i)
    (hself : (s.spaces pre).cancelMarks id = true → S.cancelMarks id = true ∨ a.clearsMarker pre id) :
    FencesAfter s s' a m := by
  refine FencesAfter.of_written hspaces (Nat.le_of_eq hnow.symm) (htomb ▸ fun _ h => h) ?_ ?_
  · intro i g hi
    rw [hlease, Function.update_apply] at hi
    split_ifs at hi
    exact Or.inl hi
  · intro i hi
    by_cases hid : i = id
    · exact hid ▸ hself (hid ▸ hi)
    · exact Or.inl (hmark i hid ▸ hi)

/-- What every step leaves in place. -/
structure StepFrame (s s' : Sys) (a : Action) : Prop where
  tokens : ∀ t ∈ s.tokens, t ∈ s'.tokens
  issued : ∀ g issue, s.issued g = some issue → s'.issued g = some issue
  created : ∀ g issue, s'.issued g = some issue → s.issued g = some issue ∨
    (s.issued g = none ∧ issue.id ≠ "" ∧ ∃ name timeout force now,
      a = .accept issue.pre issue.id g issue.requestHash name timeout force now ∧
      acceptReply issue.id issue.requestHash force (s.spaces issue.pre) = 1)
  fences : ∀ m, FencesAfter s s' a m

theorem StepFrame.of_same (htokens : s'.tokens = s.tokens) (hissued : s'.issued = s.issued)
    (hfences : ∀ m, FencesAfter s s' a m) : StepFrame s s' a where
  tokens _ ht := htokens ▸ ht
  issued _ _ h := hissued ▸ h
  created _ _ h := Or.inl (hissued ▸ h)
  fences := hfences

theorem stepFrame_claim {p : InstanceId} {w : WorkerId} {lane : Lane} {t : Token} {scanLimit : Nat}
    (h : step s (.claim p pre w lane t scanLimit) = some s') :
    StepFrame s s' (.claim p pre w lane t scanLimit) := by
  simp only [step, Option.ite_none_right_eq_some, Option.some.injEq] at h
  obtain ⟨-, rfl⟩ := h
  have hfences : (claimGpuTask t w p lane scanLimit (s.spaces pre)).1.fences =
      (s.spaces pre).fences := claimGpuTask_fences scanLimit (s.spaces pre)
  unfold claimTask
  generalize claimGpuTask t w p lane scanLimit (s.spaces pre) = outcome at hfences
  obtain ⟨store, result⟩ := outcome
  cases result <;> exact
    { tokens := fun _ ht => List.mem_cons_of_mem _ ht
      issued := fun _ _ h => h
      created := fun _ _ h => Or.inl h
      fences := fun _ => FencesAfter.of_update rfl hfences }

theorem stepFrame_accept {id : TaskId} {g : Generation} {requestHash name : String} {timeout : Nat}
    {force : Bool} {now : Timestamp}
    (h : step s (.accept pre id g requestHash name timeout force now) = some s') :
    StepFrame s s' (.accept pre id g requestHash name timeout force now) := by
  simp only [step, Option.ite_none_right_eq_some, Option.some.injEq] at h
  obtain ⟨⟨hid, hfresh⟩, rfl⟩ := h
  rcases acceptWorkflow_cases id g requestHash name timeout force now (s.spaces pre) with
    ⟨hreply, heq⟩ | ⟨hreply, hcode, hfences, -⟩
  · rw [heq, if_neg hreply]
    exact StepFrame.of_same rfl rfl fun _ => FencesAfter.of_update rfl rfl
  · rw [if_pos hcode]
    refine ⟨fun _ ht => ht, ?_, ?_, fun m => ?_⟩
    · intro g' issue hissue
      have hne : g' ≠ g := by
        rintro rfl
        rw [hfresh] at hissue
        exact absurd hissue (by simp)
      exact (Function.update_of_ne hne _ _).trans hissue
    · intro g' issue hissue
      change Function.update s.issued g _ g' = some issue at hissue
      rw [Function.update_apply] at hissue
      split_ifs at hissue with hg
      · obtain rfl := Option.some.inj hissue
        subst hg
        exact Or.inr ⟨hfresh, hid, name, timeout, force, now, rfl, hreply⟩
      · exact Or.inl hissue
    · have hlease := congrArg Fences.leases hfences
      have hmark := congrArg Fences.cancelMarks hfences
      simp only [Store.fences] at hlease hmark
      refine FencesAfter.of_written (S := (acceptWorkflow id g requestHash name timeout force now
        (s.spaces pre)).1) rfl (Nat.le_of_eq (congrArg Fences.now hfences).symm) ?_ ?_ ?_
      · intro i hi
        exact (congrFun (congrArg Fences.tombstones hfences) i).trans hi
      · intro i g' hi
        rw [hlease, Function.update_apply] at hi
        split_ifs at hi with hid
        · obtain rfl := Option.some.inj hi
          exact Or.inr ⟨hfresh, _, Function.update_self _ _ _, rfl, hid.symm⟩
        · exact Or.inl hi
      · intro i hi
        by_cases hid : i = id
        · exact Or.inr ⟨rfl, hid.symm⟩
        · exact Or.inl (by rw [hmark, Function.update_of_ne hid, hi])

theorem stepFrame_finish {id : TaskId} {g : Generation} {payload : ResultPayload} {reason : String}
    {now : Timestamp} {retention : Retention}
    (h : step s (.finish pre id g payload reason now retention) = some s') :
    StepFrame s s' (.finish pre id g payload reason now retention) := by
  simp only [step, Option.ite_none_right_eq_some, Option.some.injEq] at h
  obtain ⟨-, rfl⟩ := h
  refine StepFrame.of_same rfl rfl fun m => ?_
  rcases finishWorkflow_cases id g payload reason now retention (s.spaces pre) with
    ⟨hsame, -⟩ | ⟨-, -, hfences, -, -⟩
  · rw [hsame]
    exact FencesAfter.of_update rfl rfl
  · have hlease := congrArg Fences.leases hfences
    have hmark := congrArg Fences.cancelMarks hfences
    simp only [Store.fences] at hlease hmark
    refine FencesAfter.of_dropped id rfl (congrArg Fences.now hfences)
      (congrArg Fences.tombstones hfences) hlease ?_ ?_
    · intro i hid
      rw [hmark, Function.update_of_ne hid]
    · intro
      left
      rw [hmark, Function.update_self]

theorem stepFrame_discardWorkflow {id : TaskId} {g : Generation} {children : Bool}
    (h : step s (.discardWorkflow pre id g children) = some s') :
    StepFrame s s' (.discardWorkflow pre id g children) := by
  obtain rfl := Option.some.inj h
  refine StepFrame.of_same rfl rfl fun m => ?_
  rcases discardWorkflowRecords_cases id g children (s.spaces pre) with
    hsame | ⟨-, -, -, hfences, -⟩
  · rw [hsame]
    exact FencesAfter.of_update rfl rfl
  · have hlease := congrArg Fences.leases hfences
    have hmark := congrArg Fences.cancelMarks hfences
    simp only [Store.fences] at hlease hmark
    refine FencesAfter.of_dropped id rfl (congrArg Fences.now hfences)
      (congrArg Fences.tombstones hfences) hlease ?_ ?_
    · intro i hid
      rw [hmark, Function.update_of_ne hid]
    · exact fun _ => Or.inr ⟨rfl, rfl⟩

/-- No step takes back a token, a generation, a tombstone or time. -/
theorem stepFrame_of_step (h : step s a = some s') : StepFrame s s' a := by
  cases a with
  | claim => exact stepFrame_claim h
  | accept => exact stepFrame_accept h
  | finish => exact stepFrame_finish h
  | discardWorkflow => exact stepFrame_discardWorkflow h
  | submit pre d child force known now =>
      simp only [step] at h
      split_ifs at h
      simp only [Option.map_eq_some_iff] at h
      obtain ⟨payload, -, rfl⟩ := h
      exact StepFrame.of_same rfl rfl fun _ => FencesAfter.of_update rfl submitTask_fences
  | load p id =>
      simp only [step, Option.map_eq_some_iff] at h
      obtain ⟨c, -, rfl⟩ := h
      exact StepFrame.of_same rfl rfl fun _ => FencesAfter.of_eq rfl
  | checkCancelled p id =>
      simp only [step, Option.bind_eq_some_iff, Option.map_eq_some_iff] at h
      obtain ⟨c, -, d, -, rfl⟩ := h
      exact StepFrame.of_same rfl rfl fun _ => FencesAfter.of_eq rfl
  | mark p id now =>
      simp only [step, Option.bind_eq_some_iff, Option.ite_none_right_eq_some,
        Option.some.injEq] at h
      obtain ⟨c, -, d, -, -, rfl⟩ := h
      exact StepFrame.of_same rfl rfl fun _ => FencesAfter.of_update rfl markClaimProcessing_fences
  | returnClaim p id =>
      simp only [step, Option.bind_eq_some_iff, Option.ite_none_right_eq_some,
        Option.some.injEq] at h
      obtain ⟨c, -, -, rfl⟩ := h
      exact StepFrame.of_same rfl rfl fun _ => FencesAfter.of_update rfl returnClaim_fences
  | ack p id =>
      simp only [step, Option.bind_eq_some_iff, Option.ite_none_right_eq_some,
        Option.some.injEq] at h
      obtain ⟨c, -, -, rfl⟩ := h
      split_ifs <;>
        exact StepFrame.of_same rfl rfl fun _ => FencesAfter.of_update rfl ackClaim_fences
  | snapshot p id =>
      simp only [step, Option.map_eq_some_iff] at h
      obtain ⟨c, -, rfl⟩ := h
      exact StepFrame.of_same rfl rfl fun _ => FencesAfter.of_eq rfl
  | requeue p id restore mode reason now =>
      simp only [step, Option.bind_eq_some_iff, Option.map_eq_some_iff] at h
      obtain ⟨c, -, d, -, seen, -, rfl⟩ := h
      unfold requeueTask
      dsimp only
      split_ifs <;>
        exact StepFrame.of_same rfl rfl fun _ => FencesAfter.of_update rfl conditionalRequeue_fences
  | freeze p id reason now =>
      simp only [step, Option.bind_eq_some_iff, Option.ite_none_right_eq_some,
        Option.some.injEq] at h
      obtain ⟨c, -, -, rfl⟩ := h
      split_ifs <;>
        exact StepFrame.of_same rfl rfl fun _ => FencesAfter.of_update rfl freezeClaimRecovery_fences
  | finalize p id task result retention allowFrozen =>
      simp only [step, Option.bind_eq_some_iff, Option.ite_none_right_eq_some,
        Option.some.injEq] at h
      obtain ⟨c, -, -, rfl⟩ := h
      split_ifs <;>
        exact StepFrame.of_same rfl rfl fun _ => FencesAfter.of_update rfl finalizeClaim_fences
  | recoverScan p pre w scanLimit =>
      obtain rfl := Option.some.inj h
      exact StepFrame.of_same rfl rfl fun _ => FencesAfter.of_eq rfl
  | recoverRead p entry release =>
      simp only [step, Option.ite_none_right_eq_some, Option.some.injEq] at h
      obtain ⟨-, rfl⟩ := h
      unfold recoverRead
      split
      · exact StepFrame.of_same rfl rfl fun _ => FencesAfter.of_eq rfl
      · split_ifs <;> exact StepFrame.of_same rfl rfl fun _ => FencesAfter.of_eq rfl
  | recoverDrop p entry =>
      simp only [step, Option.ite_none_right_eq_some, Option.some.injEq] at h
      obtain ⟨-, rfl⟩ := h
      exact StepFrame.of_same rfl rfl fun _ => FencesAfter.of_update rfl rfl
  | stampCancelled pre id now =>
      obtain rfl := Option.some.inj h
      exact StepFrame.of_same rfl rfl fun _ => FencesAfter.of_update rfl rfl
  | queueWait pre w id seen operation reason now moveToken =>
      simp only [step, Option.map_eq_some_iff] at h
      obtain ⟨d, -, rfl⟩ := h
      exact StepFrame.of_same rfl rfl fun _ => FencesAfter.of_update rfl queueWaitRequeue_fences
  | cancel pre id now retention =>
      obtain rfl := Option.some.inj h
      exact StepFrame.of_same rfl rfl fun _ => FencesAfter.of_raised rfl cancelTask_raised
  | renew pre id g now =>
      obtain rfl := Option.some.inj h
      exact StepFrame.of_same rfl rfl fun _ => FencesAfter.of_update rfl renewWorkflow_fences
  | tick duration =>
      obtain rfl := Option.some.inj h
      exact StepFrame.of_same rfl rfl fun _ =>
        ⟨Nat.le_add_right _ _, fun _ h => h, fun _ _ h => Or.inl h, fun _ h => Or.inl h⟩
  | expireTask pre id =>
      simp only [step, Option.ite_none_right_eq_some, Option.some.injEq] at h
      obtain ⟨-, rfl⟩ := h
      exact StepFrame.of_same rfl rfl fun _ => FencesAfter.of_update rfl rfl
  | expireResult pre id =>
      simp only [step, Option.ite_none_right_eq_some, Option.some.injEq] at h
      obtain ⟨-, rfl⟩ := h
      exact StepFrame.of_same rfl rfl fun _ => FencesAfter.of_update rfl rfl
  | expireCancel pre id =>
      simp only [step, Option.ite_none_right_eq_some, Option.some.injEq] at h
      obtain ⟨-, rfl⟩ := h
      exact StepFrame.of_same rfl rfl fun _ => FencesAfter.of_written rfl (Nat.le_refl _)
        (fun _ h => h) (fun _ _ h => Or.inl h) fun i hi => by
          by_cases hid : i = id
          · exact Or.inr ⟨rfl, hid.symm⟩
          · exact Or.inl ((Function.update_of_ne hid _ _).trans hi)
  | expireChildren pre id g =>
      simp only [step, Option.ite_none_right_eq_some, Option.some.injEq] at h
      obtain ⟨-, rfl⟩ := h
      exact StepFrame.of_same rfl rfl fun _ => FencesAfter.of_update rfl rfl
  | expireLease pre id =>
      obtain rfl := Option.some.inj h
      exact StepFrame.of_same rfl rfl fun _ => FencesAfter.of_dropped id rfl rfl rfl rfl
        (fun _ _ => rfl) fun h => Or.inl h
  | crash p =>
      obtain rfl := Option.some.inj h
      exact StepFrame.of_same rfl rfl fun _ => FencesAfter.of_eq rfl
  | cpuPop p pre lane =>
      simp only [step, Option.map_eq_some_iff] at h
      obtain ⟨id, -, rfl⟩ := h
      exact StepFrame.of_same rfl rfl fun _ => FencesAfter.of_update rfl rfl
  | cpuMark p entry base now =>
      simp only [step, Option.ite_none_right_eq_some, Option.some.injEq] at h
      obtain ⟨-, rfl⟩ := h
      exact StepFrame.of_same rfl rfl fun _ => FencesAfter.of_update rfl markCpuProcessing_fences
  | cpuRepush p entry =>
      simp only [step, Option.ite_none_right_eq_some, Option.some.injEq] at h
      obtain ⟨-, rfl⟩ := h
      exact StepFrame.of_same rfl rfl fun _ => FencesAfter.of_update rfl rfl
  | readUnclaimed p pre id =>
      simp only [step, Option.ite_none_right_eq_some, Option.some.injEq] at h
      obtain ⟨-, rfl⟩ := h
      split_ifs <;> exact StepFrame.of_same rfl rfl fun _ => FencesAfter.of_eq rfl
  | publishUnclaimed p pre id task result retention =>
      simp only [step, Option.ite_none_right_eq_some, Option.some.injEq] at h
      obtain ⟨-, rfl⟩ := h
      exact StepFrame.of_same rfl rfl fun _ => FencesAfter.of_update rfl publishUnclaimed_fences
  | deleteRecords pre id =>
      obtain rfl := Option.some.inj h
      exact StepFrame.of_same rfl rfl fun _ => FencesAfter.of_dropped id rfl rfl rfl rfl
        (fun _ hid => Function.update_of_ne hid _ _) fun _ => Or.inr ⟨rfl, rfl⟩

end KernelGym
