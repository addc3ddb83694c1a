import KernelGym.CellPreserved

/-! The invariant of the whole system, preserved by every step and so true in every reachable state.
Entries that a recovery has read, and entries it has found superseded, keep what was known about them
when they were read. -/

namespace KernelGym

variable {s s' : Sys} {a : Action} {p q : InstanceId}

/-- What a process remembers besides its claims, after a step. -/
structure MemoryAfter (s s' : Sys) (a : Action) (q : InstanceId) : Prop where
  scanned : ∀ e ∈ (s'.procs q).scanned, e ∈ (s.procs q).scanned ∨
    (e.token, e.id) ∈ (s.spaces e.pre).inflight e.worker
  stale : ∀ e ∈ (s'.procs q).stale, e ∈ (s.procs q).stale ∨
    (e ∈ (s.procs q).scanned ∧ ((s.spaces e.pre).hgetall e.id).claim.token ≠ some e.token)
  publishing : ∀ x ∈ (s'.procs q).publishing, x ∈ (s.procs q).publishing ∨
    (a = .readUnclaimed q x.1 x.2 ∧
      unclaimedPublicationAllowed ((s.spaces x.1).hgetall x.2) = true)

theorem MemoryAfter.of_eq (hscanned : (s'.procs q).scanned = (s.procs q).scanned)
    (hstale : (s'.procs q).stale = (s.procs q).stale)
    (hpublishing : (s'.procs q).publishing = (s.procs q).publishing) : MemoryAfter s s' a q where
  scanned _ he := Or.inl (hscanned ▸ he)
  stale _ he := Or.inl (hstale ▸ he)
  publishing _ hx := Or.inl (hpublishing ▸ hx)

theorem MemoryAfter.of_attempt {t : Sys} {id : TaskId} {o : Option Attempt}
    (hprocs : t.procs = s.procs) : MemoryAfter s (t.setAttempt p id o) a q := by
  by_cases hq : q = p
  · subst hq
    refine MemoryAfter.of_eq ?_ ?_ ?_ <;> simp [Sys.setAttempt, Sys.setProc, hprocs]
  · refine MemoryAfter.of_eq ?_ ?_ ?_ <;> simp [Sys.setAttempt, Sys.setProc, hprocs, hq]

/-- An action of process `p` that rewrites its memory. -/
theorem MemoryAfter.of_setProc {t : Sys} {f : Process → Process} (hprocs : t.procs = s.procs)
    (hscanned : ∀ e ∈ (f (s.procs p)).scanned, e ∈ (s.procs p).scanned ∨
      (e.token, e.id) ∈ (s.spaces e.pre).inflight e.worker)
    (hstale : ∀ e ∈ (f (s.procs p)).stale, e ∈ (s.procs p).stale ∨
      (e ∈ (s.procs p).scanned ∧ ((s.spaces e.pre).hgetall e.id).claim.token ≠ some e.token))
    (hpublishing : ∀ x ∈ (f (s.procs p)).publishing, x ∈ (s.procs p).publishing ∨
      (a = .readUnclaimed p x.1 x.2 ∧
        unclaimedPublicationAllowed ((s.spaces x.1).hgetall x.2) = true)) :
    MemoryAfter s (t.setProc p f) a q := by
  by_cases hq : q = p
  · subst hq
    have hself : (t.setProc q f).procs q = f (s.procs q) := by simp [Sys.setProc, hprocs]
    exact ⟨hself ▸ hscanned, hself ▸ hstale, hself ▸ hpublishing⟩
  · refine MemoryAfter.of_eq ?_ ?_ ?_ <;> simp [Sys.setProc, hprocs, hq]

theorem memoryAfter_recoverRead {entry : Scanned} {release : Bool}
    (h : step s (.recoverRead p entry release) = some s') :
    MemoryAfter s s' (.recoverRead p entry release) q := by
  simp only [step, Option.ite_none_right_eq_some, Option.some.injEq] at h
  obtain ⟨hscan, rfl⟩ := h
  have hstale : ((s.spaces entry.pre).hgetall entry.id).claim.token ≠ some entry.token →
      MemoryAfter s (s.setProc p fun proc => { proc with stale := entry :: proc.stale })
        (.recoverRead p entry release) q := by
    intro hne
    refine MemoryAfter.of_setProc rfl (fun _ he => Or.inl he) (fun e he => ?_) fun _ hx => Or.inl hx
    rcases List.mem_cons.mp he with rfl | he
    · exact Or.inr ⟨hscan, hne⟩
    · exact Or.inl he
  unfold recoverRead
  split
  · rename_i hnone
    exact hstale (by simp [Store.hgetall, hnone])
  · rename_i task htask
    split_ifs with htoken hfence howner
    · exact hstale (by rwa [Store.hgetall_of_some htask])
    · exact MemoryAfter.of_eq rfl rfl rfl
    · exact MemoryAfter.of_eq rfl rfl rfl
    · exact MemoryAfter.of_attempt rfl

theorem memoryAfter_of_step (h : step s a = some s') (q : InstanceId) : MemoryAfter s s' a q := by
  cases a with
  | submit pre d child force known now =>
      simp only [step] at h
      split_ifs at h
      simp only [Option.map_eq_some_iff] at h
      obtain ⟨payload, -, rfl⟩ := h
      exact MemoryAfter.of_eq rfl rfl rfl
  | claim p pre w lane t scanLimit =>
      simp only [step, Option.ite_none_right_eq_some, Option.some.injEq] at h
      obtain ⟨-, rfl⟩ := h
      unfold claimTask
      generalize claimGpuTask t w p lane scanLimit (s.spaces pre) = outcome
      obtain ⟨store, result⟩ := outcome
      cases result with
      | none => exact MemoryAfter.of_eq rfl rfl rfl
      | some id => exact MemoryAfter.of_attempt rfl
  | load p id =>
      simp only [step, Option.map_eq_some_iff] at h
      obtain ⟨c, -, rfl⟩ := h
      exact MemoryAfter.of_attempt rfl
  | checkCancelled p id =>
      simp only [step, Option.bind_eq_some_iff, Option.map_eq_some_iff] at h
      obtain ⟨c, -, d, -, rfl⟩ := h
      exact MemoryAfter.of_attempt rfl
  | mark p id now =>
      simp only [step, Option.bind_eq_some_iff, Option.ite_none_right_eq_some,
        Option.some.injEq] at h
      obtain ⟨c, -, d, -, -, rfl⟩ := h
      exact MemoryAfter.of_attempt rfl
  | returnClaim p id =>
      simp only [step, Option.bind_eq_some_iff, Option.ite_none_right_eq_some,
        Option.some.injEq] at h
      obtain ⟨c, -, -, rfl⟩ := h
      exact MemoryAfter.of_attempt rfl
  | ack p id =>
      simp only [step, Option.bind_eq_some_iff, Option.ite_none_right_eq_some,
        Option.some.injEq] at h
      obtain ⟨c, -, -, rfl⟩ := h
      split_ifs
      · exact MemoryAfter.of_eq rfl rfl rfl
      · exact MemoryAfter.of_attempt rfl
  | snapshot p id =>
      simp only [step, Option.map_eq_some_iff] at h
      obtain ⟨c, -, rfl⟩ := h
      exact MemoryAfter.of_attempt rfl
  | requeue p id restore mode reason now =>
      simp only [step, Option.bind_eq_some_iff, Option.map_eq_some_iff] at h
      obtain ⟨c, -, d, -, seen, -, rfl⟩ := h
      unfold requeueTask
      dsimp only
      split_ifs
      · exact MemoryAfter.of_eq rfl rfl rfl
      · exact MemoryAfter.of_attempt rfl
  | freeze p id reason now =>
      simp only [step, Option.bind_eq_some_iff, Option.ite_none_right_eq_some,
        Option.some.injEq] at h
      obtain ⟨c, -, -, rfl⟩ := h
      split_ifs
      · exact MemoryAfter.of_eq rfl rfl rfl
      · exact MemoryAfter.of_attempt rfl
  | finalize p id task result retention allowFrozen =>
      simp only [step, Option.bind_eq_some_iff, Option.ite_none_right_eq_some,
        Option.some.injEq] at h
      obtain ⟨c, -, -, rfl⟩ := h
      split_ifs
      · exact MemoryAfter.of_attempt rfl
      · exact MemoryAfter.of_eq rfl rfl rfl
  | recoverScan p pre w scanLimit =>
      obtain rfl := Option.some.inj h
      refine MemoryAfter.of_setProc rfl (fun e he => Or.inr ?_) (fun _ he => Or.inl he)
        fun _ hx => Or.inl hx
      obtain ⟨entry, hentry, rfl⟩ := List.mem_map.mp he
      exact List.mem_of_mem_take hentry
  | recoverRead => exact memoryAfter_recoverRead h
  | recoverDrop p entry =>
      simp only [step, Option.ite_none_right_eq_some, Option.some.injEq] at h
      obtain ⟨-, rfl⟩ := h
      exact MemoryAfter.of_eq rfl rfl rfl
  | queueWait pre w id seen operation reason now moveToken =>
      simp only [step, Option.map_eq_some_iff] at h
      obtain ⟨d, -, rfl⟩ := h
      exact MemoryAfter.of_eq rfl rfl rfl
  | accept pre id g requestHash name timeout force now =>
      simp only [step, Option.ite_none_right_eq_some, Option.some.injEq] at h
      obtain ⟨-, rfl⟩ := h
      split_ifs <;> exact MemoryAfter.of_eq rfl rfl rfl
  | finish pre id g payload reason now retention =>
      simp only [step, Option.ite_none_right_eq_some, Option.some.injEq] at h
      obtain ⟨-, rfl⟩ := h
      exact MemoryAfter.of_eq rfl rfl rfl
  | stampCancelled | cancel | renew | discardWorkflow | tick | expireLease | deleteRecords =>
      obtain rfl := Option.some.inj h
      exact MemoryAfter.of_eq rfl rfl rfl
  | expireTask | expireResult | expireCancel | expireChildren =>
      simp only [step, Option.ite_none_right_eq_some, Option.some.injEq] at h
      obtain ⟨-, rfl⟩ := h
      exact MemoryAfter.of_eq rfl rfl rfl
  | crash p =>
      obtain rfl := Option.some.inj h
      exact MemoryAfter.of_setProc rfl (by simp) (by simp) (by simp)
  | cpuPop p pre lane =>
      simp only [step, Option.map_eq_some_iff] at h
      obtain ⟨id, -, rfl⟩ := h
      exact MemoryAfter.of_setProc rfl (fun _ he => Or.inl he) (fun _ he => Or.inl he)
        fun _ hx => Or.inl hx
  | cpuMark | cpuRepush =>
      simp only [step, Option.ite_none_right_eq_some, Option.some.injEq] at h
      obtain ⟨-, rfl⟩ := h
      exact MemoryAfter.of_setProc rfl (fun _ he => Or.inl he) (fun _ he => Or.inl he)
        fun _ hx => Or.inl hx
  | readUnclaimed p pre id =>
      simp only [step, Option.ite_none_right_eq_some, Option.some.injEq] at h
      obtain ⟨-, rfl⟩ := h
      split_ifs with hallowed
      · refine MemoryAfter.of_setProc rfl (fun _ he => Or.inl he) (fun _ he => Or.inl he)
          fun x hx => ?_
        rcases List.mem_cons.mp hx with rfl | hx
        · exact Or.inr ⟨rfl, hallowed⟩
        · exact Or.inl hx
      · exact MemoryAfter.of_eq rfl rfl rfl
  | publishUnclaimed p pre id task result retention =>
      simp only [step, Option.ite_none_right_eq_some, Option.some.injEq] at h
      obtain ⟨-, rfl⟩ := h
      exact MemoryAfter.of_setProc rfl (fun _ he => Or.inl he) (fun _ he => Or.inl he)
        fun x hx => Or.inl (List.mem_of_mem_erase hx)

/-- The invariant of the control plane. -/
structure Sys.Valid (s : Sys) : Prop where
  cell : ∀ m k, s.CellValid m k
  named : ∀ g issue, s.issued g = some issue → issue.id ≠ ""
  lease : ∀ m k g, (s.spaces m).leases k = some g →
    ∃ issue, s.issued g = some issue ∧ issue.pre = m ∧ issue.id = k
  scanned : ∀ p, ∀ e ∈ (s.procs p).scanned, (s.cell e.pre e.id).EntryOf s.used e.worker e.token
  stale : ∀ p, ∀ e ∈ (s.procs p).stale, s.used e.token ∧
    ∀ h, (s.cell e.pre e.id).view.hash = some h → h.claim.token ≠ some e.token

theorem Sys.valid_empty : ({} : Sys).Valid where
  cell m k :=
    { sound := fun h hh => absurd hh (by simp [Sys.cell, Store.view])
      retained := fun httl => absurd httl (by simp [Sys.cell, Store.view])
      entries := fun w t hpos => absurd hpos (by simp [Sys.cell, Store.view])
      minted := fun p c hc => absurd hc (by simp [Sys.cell, Sys.attempt])
      owner := fun p c hc => absurd hc (by simp [Sys.cell, Sys.attempt])
      unique := fun p q c c' hc => absurd hc (by simp [Sys.cell, Sys.attempt])
      matching := fun p c h hc => absurd hc (by simp [Sys.cell, Sys.attempt]) }
  named g issue h := absurd h (by simp)
  lease m k g h := absurd h (by simp)
  scanned p e he := absurd he (by simp)
  stale p e he := absurd he (by simp)

theorem Sys.Valid.step (hv : s.Valid) (h : step s a = some s') : s'.Valid where
  cell m k := by
    have hcell := cellStep_of_step m k h
    have hcv := hv.cell m k
    exact
      { sound := hcell.sound h hcv hv.named
        retained := hcell.retained hcv
        entries := fun w t hpos => hcell.entries h hcv hpos
        minted := fun p c hc => hcell.minted h hcv hc
        owner := fun p c hc hown => hcell.owner hcv hc hown
        unique := fun p q c c' hc hc' hown hown' ht => hcell.unique hcv hc hc' hown hown' ht
        matching := fun p c h' hc hh' ht' => hcell.matching hcv
          (fun p e he hpre hid => hpre ▸ hid ▸ hv.scanned p e he) hc hh' ht' }
  named g issue hissue := by
    rcases (stepFrame_of_step h).created g issue hissue with hold | ⟨-, hid, -⟩
    · exact hv.named g issue hold
    · exact hid
  lease m k g hg := by
    have hframe := stepFrame_of_step h
    rcases (hframe.fences m).leases k g hg with hold | ⟨-, issue, hissue, hpre, hid⟩
    · obtain ⟨issue, hissue, hpre, hid⟩ := hv.lease m k g hold
      exact ⟨issue, hframe.issued g issue hissue, hpre, hid⟩
    · exact ⟨issue, hissue, hpre, hid⟩
  scanned p e he := by
    refine (cellStep_of_step e.pre e.id h).entryOf h (hv.cell e.pre e.id) ?_
    rcases (memoryAfter_of_step h p).scanned e he with hold | hnew
    · exact hv.scanned p e hold
    · exact (hv.cell e.pre e.id).entries _ _ (List.count_pos_iff.mpr hnew)
  stale p e he := by
    have hbefore : s.used e.token ∧
        ∀ h, (s.cell e.pre e.id).view.hash = some h → h.claim.token ≠ some e.token := by
      rcases (memoryAfter_of_step h p).stale e he with hold | ⟨hscanned, hne⟩
      · exact hv.stale p e hold
      · refine ⟨(hv.scanned p e hscanned).1, fun task htask => ?_⟩
        rwa [← Cell.hash_of_some htask]
    refine ⟨(stepFrame_of_step h).tokens _ hbefore.1, fun h' hh' ht' => ?_⟩
    obtain ⟨task, htask, hsame⟩ :=
      (cellStep_of_step e.pre e.id h).sameAttempt (hv.cell e.pre e.id) hh' ht' hbefore.1
    exact hbefore.2 task htask (hsame.token ▸ ht')

/-- A run of the control plane from an empty Redis. -/
abbrev Reachable (s : Sys) : Prop := Library.Run step {} s

/-- A run in which every step meets a condition. -/
abbrev ReachableWhen (ok : Sys → Action → Prop) (s : Sys) : Prop := Library.RunWhen step ok {} s

/-- The state after a list of actions, when all of them are possible. -/
def Sys.follow (s : Sys) (actions : List Action) : Sys :=
  (Library.execute KernelGym.step actions s).getD s

/-- The state after a list of actions from an empty Redis. -/
def Sys.after (actions : List Action) : Sys := Sys.follow {} actions

theorem ReachableWhen.valid {ok : Sys → Action → Prop} (h : ReachableWhen ok s) : s.Valid :=
  Library.RunWhen.invariant (fun _ _ _ hv _ hstep => hv.step hstep) h Sys.valid_empty

theorem Sys.Valid.run {ok : Sys → Action → Prop} (hv : s.Valid)
    (h : Library.RunWhen KernelGym.step ok s s') : s'.Valid :=
  Library.RunWhen.invariant (fun _ _ _ hv _ hstep => hv.step hstep) h hv

theorem issued_run {ok : Sys → Action → Prop} {g : Generation} {issue : Issue}
    (h : Library.RunWhen step ok s s') (hissued : s.issued g = some issue) :
    s'.issued g = some issue :=
  Library.RunWhen.invariant (I := fun t => t.issued g = some issue)
    (fun _ _ _ hi _ hstep => (stepFrame_of_step hstep).issued g issue hi) h hissued

end KernelGym
