import KernelGym.CorrectnessTrials
import Mathlib.Algebra.Order.Ring.Rat

/-! The verdict of the trial loop says what the trials that were executed did, and a forbidden operator of any
of them marks the kernel as a decoy on every exit. -/

namespace KernelGym.Correctness

/-! ### What the trials do -/

/-- The reference makes the trial a skipped perturbation. -/
def Settings.skips (c : Settings) (w : Surroundings) (trial : ℕ) : Bool :=
  c.skippable trial &&
    match w.outcome trial with
    | .referenceRaised _ => true
    | .referenceRan finite _ => !finite
    | .inputsRaised => false

/-- The outputs of the trial were compared and are close. -/
def Settings.passes (c : Settings) (w : Surroundings) (trial : ℕ) : Bool :=
  !c.skips w trial &&
    match w.outcome trial with
    | .referenceRan _ (.ran _ (.compared true)) => true
    | _ => false

/-- The profile of the trial's candidate has an operator that is not allowed. -/
def Settings.forbids (c : Settings) (w : Surroundings) (trial : ℕ) : Bool :=
  c.detectAtenFallback && !c.skips w trial &&
    match w.outcome trial with
    | .referenceRan _ (.ran (.events events) _) =>
      events.any fun e => isAten e.key && !isAllowedAtenOperator c.allowlist e.key
    | _ => false

/-- How many of the first trials passed. -/
def Settings.passesBefore (c : Settings) (w : Surroundings) (trial : ℕ) : ℕ :=
  (List.range trial).countP (c.passes w)

/-- Every trial before this one passed or was skipped. -/
def Settings.NoFailureBefore (c : Settings) (w : Surroundings) (trial : ℕ) : Prop :=
  ∀ k < trial, c.passes w k = true ∨ c.skips w k = true

/-- The wall limit is reached before this trial, with enough passes to accept the kernel. -/
def Settings.BudgetAccepts (c : Settings) (w : Surroundings) (trial : ℕ) : Prop :=
  c.passOnBudget = true ∧ (∃ limit, c.maxWall = some limit ∧ limit ≤ w.elapsed trial) ∧
    c.minPassTrials ≤ c.passesBefore w trial

/-- The kernel is accepted when this many trials were executed. -/
def Settings.Accepts (c : Settings) (w : Surroundings) (executed : ℕ) : Prop :=
  c.NoFailureBefore w executed ∧ (∃ k < executed, c.passes w k = true) ∧
    (executed = c.totalCorrectTrials ∨ c.BudgetAccepts w executed)

/-! ### Operator records -/

variable {allowlist : List String} {c : Settings} {w : Surroundings}

/-- The records are those of profiles read with the allowlist. -/
def Metadata.Recorded (allowlist : List String) (m : Metadata) : Prop :=
  ∀ r ∈ m.atenDetectionTrials, ∀ op ∈ r.2.ops, op.allowed = isAllowedAtenOperator allowlist op.name

theorem extract_recorded {profile : Profile} {op : AtenOp}
    (hop : op ∈ (extractAtenOperatorMetrics allowlist profile).ops) :
    op.allowed = isAllowedAtenOperator allowlist op.name := by
  cases profile with
  | events events =>
      simp only [extractAtenOperatorMetrics, sortedByName, List.mem_insertionSort, List.mem_map] at hop
      obtain ⟨e, -, rfl⟩ := hop
      rfl
  | _ => exact absurd hop (by simp [extractAtenOperatorMetrics])

theorem mergeOp_allowed {merged : List AtenOp} {item : AtenOp} {test : String → Bool}
    (hmerged : ∀ m ∈ merged, m.allowed = test m.name) (hitem : item.allowed = test item.name) :
    ∀ m ∈ mergeOp merged item, m.allowed = test m.name := by
  intro m hm
  unfold mergeOp at hm
  split_ifs at hm with hname
  · obtain ⟨old, hold, rfl⟩ := List.mem_map.1 hm
    split_ifs <;> exact hmerged old hold
  · rcases List.mem_append.1 hm with hold | hnew
    · exact hmerged m hold
    · rw [List.mem_singleton.1 hnew]
      exact hitem

theorem mem_names_mergeOp {merged : List AtenOp} {item : AtenOp} {name : String} :
    name ∈ (mergeOp merged item).map AtenOp.name ↔ name ∈ merged.map AtenOp.name ∨ name = item.name := by
  unfold mergeOp
  split_ifs with hname
  · have hsame : (merged.map fun m => if m.name = item.name then
        { m with count := m.count + item.count, cpuTimeUs := m.cpuTimeUs + item.cpuTimeUs } else m).map
          AtenOp.name = merged.map AtenOp.name := by
      rw [List.map_map]
      refine List.map_congr_left fun m _ => ?_
      simp only [Function.comp_apply]
      split_ifs <;> rfl
    rw [hsame]
    refine ⟨.inl, fun hor => hor.elim id ?_⟩
    rintro rfl
    obtain ⟨m, hm, heq⟩ := List.any_eq_true.1 hname
    exact List.mem_map.2 ⟨m, hm, of_decide_eq_true heq⟩
  · simp

/-- Merging keeps what is known of every operator, and the names. -/
theorem foldl_mergeOp {test : String → Bool} (items merged : List AtenOp)
    (hmerged : ∀ m ∈ merged, m.allowed = test m.name) (hitems : ∀ m ∈ items, m.allowed = test m.name) :
    (∀ m ∈ items.foldl mergeOp merged, m.allowed = test m.name) ∧
      ∀ name, name ∈ (items.foldl mergeOp merged).map AtenOp.name ↔
        name ∈ merged.map AtenOp.name ∨ name ∈ items.map AtenOp.name := by
  induction items generalizing merged with
  | nil => exact ⟨hmerged, fun name => by simp⟩
  | cons item rest ih =>
      have hnext := mergeOp_allowed hmerged (hitems item List.mem_cons_self)
      obtain ⟨hallowed, hnames⟩ := ih _ hnext fun m hm => hitems m (List.mem_cons_of_mem _ hm)
      refine ⟨hallowed, fun name => ?_⟩
      rw [List.foldl_cons, hnames, mem_names_mergeOp, List.map_cons, List.mem_cons, or_assoc]

theorem recordAten_trials {m : Metadata} {metrics : AtenMetrics} {trial : ℕ} :
    (m.recordAtenTrialMetrics metrics trial).atenDetectionTrials = m.atenDetectionTrials ++ [(trial, metrics)] := by
  unfold Metadata.recordAtenTrialMetrics
  dsimp only
  split_ifs <;> rfl

theorem recordAten_recorded {m : Metadata} {profile : Profile} {trial : ℕ} (hm : m.Recorded allowlist) :
    (m.recordAtenTrialMetrics (extractAtenOperatorMetrics allowlist profile) trial).Recorded allowlist := by
  intro r hr
  rw [recordAten_trials] at hr
  rcases List.mem_append.1 hr with hold | hnew
  · exact hm r hold
  · rw [List.mem_singleton.1 hnew]
    exact fun op hop => extract_recorded hop

theorem recordAten_keeps {m : Metadata} {metrics : AtenMetrics} {trial : ℕ} (hm : m.policyViolation = true) :
    (m.recordAtenTrialMetrics metrics trial).policyViolation = true := by
  unfold Metadata.recordAtenTrialMetrics
  dsimp only
  split_ifs
  · exact hm
  · rfl

/-- A forbidden operator of the profile is found among the merged ones. -/
theorem recordAten_violation {m : Metadata} {events : List AtenEvent} {trial : ℕ} (hm : m.Recorded allowlist)
    (hforbidden : events.any fun e => isAten e.key && !isAllowedAtenOperator allowlist e.key) :
    (m.recordAtenTrialMetrics (extractAtenOperatorMetrics allowlist (.events events)) trial).policyViolation =
      true := by
  obtain ⟨e, he, hbad⟩ := List.any_eq_true.1 hforbidden
  rw [Bool.and_eq_true, Bool.not_eq_true'] at hbad
  set metrics := extractAtenOperatorMetrics allowlist (.events events) with hmetrics
  set items := (m.atenDetectionTrials ++ [(trial, metrics)]).flatMap fun r => r.2.ops with hitems
  have hallowed : ∀ op ∈ items, op.allowed = isAllowedAtenOperator allowlist op.name := by
    intro op hop
    obtain ⟨r, hr, hmem⟩ := List.mem_flatMap.1 hop
    rcases List.mem_append.1 hr with hold | hnew
    · exact hm r hold op hmem
    · rw [List.mem_singleton.1 hnew] at hmem
      exact extract_recorded hmem
  have hop : e.op allowlist ∈ metrics.ops := by
    simp only [hmetrics, extractAtenOperatorMetrics, sortedByName, List.mem_insertionSort]
    exact List.mem_map_of_mem (List.mem_filter.2 ⟨he, hbad.1⟩)
  have hitem : e.op allowlist ∈ items :=
    List.mem_flatMap.2 ⟨(trial, metrics), List.mem_append_right _ (List.mem_singleton.2 rfl), hop⟩
  obtain ⟨hmerged, hnames⟩ := foldl_mergeOp items [] (by simp) hallowed
  obtain ⟨op, hopmem, hname⟩ := List.mem_map.1 ((hnames e.key).2 (.inr (List.mem_map.2 ⟨_, hitem, rfl⟩)))
  have hfalse : op.allowed = false := by rw [hmerged op hopmem, hname, hbad.2]
  unfold Metadata.recordAtenTrialMetrics
  dsimp only
  split_ifs with hempty
  · refine absurd (List.isEmpty_iff.1 hempty) (List.ne_nil_of_mem (a := op) ?_)
    exact List.mem_filter.2 ⟨(List.mem_insertionSort _).2 hopmem, by rw [hfalse]; rfl⟩
  · rfl

/-! ### One trial -/

/-- The counters before a trial say what the earlier trials did. -/
structure Counted (c : Settings) (w : Surroundings) (trial : ℕ) (s : State) : Prop where
  run : s.trialsRun = trial
  passed : s.passCount = c.passesBefore w trial
  skipped : s.skippedReferencePerturbations = (List.range trial).countP (c.skips w)
  expected : s.expectedPassCount = c.totalCorrectTrials - s.skippedReferencePerturbations
  recorded : s.metadata.Recorded c.allowlist
  violation : ∀ k < trial, c.forbids w k = true → s.metadata.policyViolation = true

/-- A failed trial was neither passed nor skipped, and the operator records are up to date. -/
structure Failed (c : Settings) (w : Surroundings) (trial : ℕ) (s : State) : Prop where
  passes : c.passes w trial = false
  skips : c.skips w trial = false
  violation : ∀ k < trial + 1, c.forbids w k = true → s.metadata.policyViolation = true

theorem passesBefore_succ {trial : ℕ} :
    c.passesBefore w (trial + 1) = c.passesBefore w trial + if c.passes w trial then 1 else 0 := by
  rw [Settings.passesBefore, List.range_succ, List.countP_append, List.countP_singleton]
  rfl

theorem skipsBefore_succ {trial : ℕ} : (List.range (trial + 1)).countP (c.skips w) =
    (List.range trial).countP (c.skips w) + if c.skips w trial then 1 else 0 := by
  rw [List.range_succ, List.countP_append, List.countP_singleton]

theorem passes_of_skips {trial : ℕ} (h : c.skips w trial = true) : c.passes w trial = false := by
  rw [Settings.passes, h]
  rfl

theorem forbids_of_skips {trial : ℕ} (h : c.skips w trial = true) : c.forbids w trial = false := by
  rw [Settings.forbids, h, Bool.not_true, Bool.and_false, Bool.false_and]

/-- The counters do not depend on the metadata, apart from the operator records. -/
theorem Counted.metadata {trial : ℕ} {s : State} (h : Counted c w trial s) {m : Metadata}
    (htrials : m.atenDetectionTrials = s.metadata.atenDetectionTrials)
    (hviolation : m.policyViolation = s.metadata.policyViolation) :
    Counted c w trial { s with metadata := m } := by
  refine ⟨h.run, h.passed, h.skipped, h.expected, ?_, fun k hk hf => ?_⟩
  · rw [Metadata.Recorded, htrials]
    exact h.recorded
  · rw [hviolation]
    exact h.violation k hk hf

theorem Counted.skip {trial : ℕ} {s : State} (h : Counted c w trial s) (hskip : c.skips w trial = true)
    (reason : String) : Counted c w (trial + 1) (c.recordReferencePerturbationSkip trial reason s) := by
  refine ⟨rfl, ?_, ?_, ?_, h.recorded, fun k hk hforbids => ?_⟩
  · rw [passesBefore_succ, passes_of_skips hskip]
    exact h.passed
  · rw [skipsBefore_succ, hskip]
    change s.skippedReferencePerturbations + 1 = _
    rw [h.skipped]
    push_cast
    rfl
  · change s.expectedPassCount - 1 = c.totalCorrectTrials - (s.skippedReferencePerturbations + 1)
    rw [h.expected]
    omega
  · rcases Nat.lt_succ_iff_lt_or_eq.1 hk with hlt | rfl
    · exact h.violation k hlt hforbids
    · rw [forbids_of_skips hskip] at hforbids
      cases hforbids

/-- The candidate of a trial that is not skipped has run. -/
theorem Counted.candidate {trial : ℕ} {s : State} {finite : Bool} {profile : Profile} {verdict : Verdict}
    (h : Counted c w trial s) (hrun : w.outcome trial = .referenceRan finite (.ran profile verdict)) :
    (c.recordCandidate trial profile s).metadata.Recorded c.allowlist ∧
      ∀ k < trial + 1, c.forbids w k = true →
        (c.recordCandidate trial profile s).metadata.policyViolation = true := by
  cases hdetect : c.detectAtenFallback with
  | false =>
      simp only [Settings.recordCandidate, hdetect, Bool.false_eq_true, if_false]
      refine ⟨h.recorded, fun k hk hforbids => ?_⟩
      simp [Settings.forbids, hdetect] at hforbids
  | true =>
      simp only [Settings.recordCandidate, hdetect, if_true]
      have hrecorded : Metadata.Recorded c.allowlist { s.metadata with
          candidateForwardCompletedTrials := s.metadata.candidateForwardCompletedTrials ++ [trial] } := h.recorded
      refine ⟨recordAten_recorded hrecorded, fun k hk hforbids => ?_⟩
      rcases Nat.lt_succ_iff_lt_or_eq.1 hk with hlt | rfl
      · exact recordAten_keeps (h.violation k hlt hforbids)
      · rw [Settings.forbids, hrun] at hforbids
        cases profile with
        | events events => exact recordAten_violation hrecorded (Bool.and_eq_true .. ▸ hforbids).2
        | _ => simp at hforbids

/-- What one trial does: it goes on with counters that include it, or it failed. -/
theorem runTrial_spec {trial : ℕ} {s : State} (h : Counted c w trial s) :
    match c.runTrial trial s (w.outcome trial) with
    | .goesOn s' => Counted c w (trial + 1) s'
    | .returned s' correctness => correctness = false ∧ Failed c w trial s'
    | .raised _ => c.passes w trial = false ∧ c.skips w trial = false := by
  cases hout : w.outcome trial with
  | inputsRaised =>
      exact ⟨by simp [Settings.passes, hout], by simp [Settings.skips, hout]⟩
  | referenceRaised reason =>
      simp only [Settings.runTrial]
      split_ifs with hskippable
      · exact h.skip (by simp [Settings.skips, hskippable, hout]) reason
      · exact ⟨by simp [Settings.passes, hout], by simp [Settings.skips, hskippable]⟩
  | referenceRan finite candidate =>
      have hskips : c.skips w trial = (c.skippable trial && !finite) := by rw [Settings.skips, hout]
      simp only [Settings.runTrial, ← hskips]
      split_ifs with hskip
      · exact h.skip hskip _
      · have hnoskip : c.skips w trial = false := Bool.eq_false_iff.2 hskip
        cases candidate with
        | escaped => exact ⟨by simp [Settings.passes, hout], hnoskip⟩
        | raised error =>
            refine ⟨rfl, by simp [Settings.passes, hout], hnoskip, fun k hk hforbids => ?_⟩
            rcases Nat.lt_succ_iff_lt_or_eq.1 hk with hlt | rfl
            · exact h.violation k hlt hforbids
            · simp [Settings.forbids, hout] at hforbids
        | ran profile verdict =>
            obtain ⟨hrecorded, hviolation⟩ := h.candidate hout
            -- the counters after the verdict, for the trials that go on
            have hcounted : ∀ passed : ℤ, passed = c.passesBefore w (trial + 1) →
                Counted c w (trial + 1) { c.recordCandidate trial profile s with passCount := passed } := by
              refine fun passed hpassed => ⟨rfl, hpassed, ?_, h.expected, hrecorded, hviolation⟩
              rw [skipsBefore_succ, hnoskip]
              exact h.skipped
            cases verdict with
            | raised error => exact ⟨rfl, by simp [Settings.passes, hout], hnoskip, hviolation⟩
            | structureMismatch => exact ⟨rfl, by simp [Settings.passes, hout], hnoskip, hviolation⟩
            | compared outputsClose =>
                cases outputsClose with
                | true =>
                    have hpasses : c.passes w trial = true := by simp [Settings.passes, hout, hnoskip]
                    refine hcounted (s.passCount + 1) ?_
                    rw [passesBefore_succ, hpasses, h.passed]
                    push_cast
                    rfl
                | false =>
                    have hpasses : c.passes w trial = false := by simp [Settings.passes, hout]
                    simp only [Settings.judge]
                    split_ifs with hstop
                    · exact ⟨rfl, hpasses, hnoskip, hviolation⟩
                    · refine (hcounted s.passCount ?_).metadata rfl rfl
                      rw [passesBefore_succ, hpasses]
                      exact h.passed

/-! ### The loop -/

/-- The counters add up exactly when no trial has failed. -/
theorem counts_iff {trial : ℕ} :
    c.passesBefore w trial + (List.range trial).countP (c.skips w) = trial ↔ c.NoFailureBefore w trial := by
  have hle : ∀ n, c.passesBefore w n + (List.range n).countP (c.skips w) ≤ n := by
    intro n
    induction n with
    | zero => exact le_rfl
    | succ n ih =>
        rw [passesBefore_succ, skipsBefore_succ]
        cases hskips : c.skips w n with
        | true =>
            rw [passes_of_skips hskips, if_neg Bool.false_ne_true, if_pos rfl]
            omega
        | false =>
            rw [if_neg Bool.false_ne_true]
            split_ifs <;> omega
  induction trial with
  | zero => exact ⟨fun _ k hk => absurd hk (Nat.not_lt_zero k), fun _ => rfl⟩
  | succ n ih =>
      have hn := hle n
      have hsplit : c.NoFailureBefore w (n + 1) ↔
          c.NoFailureBefore w n ∧ (c.passes w n = true ∨ c.skips w n = true) := by
        refine ⟨fun h => ⟨fun k hk => h k (by omega), h n (by omega)⟩, fun h k hk => ?_⟩
        rcases Nat.lt_succ_iff_lt_or_eq.1 hk with hlt | rfl
        · exact h.1 k hlt
        · exact h.2
      rw [hsplit, ih.symm.and Iff.rfl, passesBefore_succ, skipsBefore_succ]
      cases hskips : c.skips w n with
      | true =>
          rw [passes_of_skips hskips, if_neg Bool.false_ne_true, if_pos rfl]
          simp only [or_true, and_true]
          omega
      | false =>
          rw [if_neg Bool.false_ne_true]
          cases c.passes w n with
          | true =>
              rw [if_pos rfl]
              simp only [true_or, and_true]
              omega
          | false =>
              rw [if_neg Bool.false_ne_true]
              simp only [Bool.false_eq_true, or_self, and_false, iff_false]
              omega

theorem passesBefore_pos {trial : ℕ} : 0 < c.passesBefore w trial ↔ ∃ k < trial, c.passes w k = true := by
  simp [Settings.passesBefore, List.countP_pos_iff]

/-- The verdict of a finished call, and its mark as a decoy. -/
def Finished.Right (c : Settings) (w : Surroundings) (r : Finished) : Prop :=
  ((∃ decoyKernel, r.ending = .returned true decoyKernel) ↔ c.Accepts w r.executed) ∧
    ∀ correctness decoyKernel, r.ending = .returned correctness decoyKernel →
      (∃ k < r.executed, c.forbids w k = true) → decoyKernel = true

/-- A return with the counters of the trials that were executed. -/
theorem right_returned {trial : ℕ} {s : State} {correctness : Bool}
    (hviolation : ∀ k < trial, c.forbids w k = true → s.metadata.policyViolation = true)
    (haccepts : correctness = true ↔ c.Accepts w trial) :
    (⟨trial, s, s.result correctness⟩ : Finished).Right c w := by
  refine ⟨?_, fun correctness' decoyKernel h => ?_⟩
  · rw [← haccepts]
    simp [State.result]
  · obtain ⟨-, rfl⟩ := Ending.returned.inj h
    rintro ⟨k, hk, hforbids⟩
    exact hviolation k hk hforbids

theorem not_accepts_of_failed {trial : ℕ} (hpasses : c.passes w trial = false)
    (hskips : c.skips w trial = false) : ¬c.Accepts w (trial + 1) := by
  rintro ⟨hgood, -⟩
  have h := hgood trial (Nat.lt_succ_self trial)
  rw [hpasses, hskips] at h
  simp at h

/-- The check of the time budget: it returns the verdict, or the trial goes on with the same counters. -/
theorem budget_spec {trial : ℕ} {s : State} (h : Counted c w trial s)
    (hleft : (trial : ℤ) < c.totalCorrectTrials) :
    match c.maybeFinishOnTimeBudget (w.elapsed trial) s with
    | (s', some correctness) =>
        (∀ k < trial, c.forbids w k = true → s'.metadata.policyViolation = true) ∧
          (correctness = true ↔ c.Accepts w trial)
    | (s', none) => Counted c w trial s' := by
  unfold Settings.maybeFinishOnTimeBudget
  cases hlimit : c.maxWall with
  | none => exact h
  | some limit =>
      dsimp only
      have hcounts : s.passCount + s.skippedReferencePerturbations = (s.trialsRun : ℤ) ↔
          c.NoFailureBefore w trial := by
        rw [← counts_iff, h.passed, h.skipped, h.run]
        omega
      have hpassed := h.passed
      split_ifs with hearly haccepted hmin
      · exact h
      · refine ⟨h.violation, iff_of_true rfl ⟨hcounts.1 haccepted.2, passesBefore_pos.1 ?_, .inr ?_⟩⟩
        · have hmin' : c.minPassTrials ≤ s.passCount := hmin
          have hone : 1 ≤ c.minPassTrials := le_max_left _ _
          omega
        · refine ⟨haccepted.1, ⟨limit, hlimit, not_lt.1 fun hlt => hearly (.inr hlt)⟩, ?_⟩
          rw [← hpassed]
          exact hmin
      · exact h.metadata rfl rfl
      · refine ⟨h.violation, iff_of_false Bool.false_ne_true ?_⟩
        rintro ⟨hgood, -, hall | hbudget⟩
        · omega
        · exact haccepted ⟨hbudget.1, hcounts.2 hgood⟩

theorem runTrials_right (left trial : ℕ) (s : State) (htotal : trial + left = c.totalCorrectTrials.toNat)
    (h : Counted c w trial s) : (c.runTrials w left trial s).Right c w := by
  induction left generalizing trial s with
  | zero =>
      refine right_returned (s := s.recordTrialMetadata) h.violation ?_
      rw [decide_eq_true_eq]
      change s.passCount = s.expectedPassCount ∧ 0 < s.expectedPassCount ↔ _
      rw [h.expected, h.passed, h.skipped, Settings.Accepts, ← counts_iff, ← passesBefore_pos]
      constructor
      · rintro ⟨heq, hpos⟩
        exact ⟨by omega, by omega, .inl (by omega)⟩
      · rintro ⟨heq, hpos, -⟩
        exact ⟨by omega, by omega⟩
  | succ left ih =>
      -- the rounds after the check of the budget
      have hround : ∀ s, Counted c w trial s →
          (match c.runTrial trial s (w.outcome trial) with
            | .goesOn s => c.runTrials w left (trial + 1) s
            | .returned s correctness => ⟨trial + 1, s, s.result correctness⟩
            | .raised s => ⟨trial + 1, s, .raised⟩ : Finished).Right c w := by
        intro s hs
        have hspec := runTrial_spec hs
        cases hend : c.runTrial trial s (w.outcome trial) with
        | goesOn s' =>
            rw [hend] at hspec
            exact ih (trial + 1) s' (by omega) hspec
        | returned s' correctness =>
            rw [hend] at hspec
            obtain ⟨rfl, hfailed⟩ := hspec
            exact right_returned hfailed.violation
              (iff_of_false Bool.false_ne_true (not_accepts_of_failed hfailed.passes hfailed.skips))
        | raised s' =>
            rw [hend] at hspec
            refine ⟨iff_of_false ?_ (not_accepts_of_failed hspec.1 hspec.2), fun _ _ hend => by cases hend⟩
            rintro ⟨_, hend⟩
            cases hend
      unfold Settings.runTrials
      split_ifs with hpos
      · have hspec := budget_spec h (by omega)
        cases hfinish : c.maybeFinishOnTimeBudget (w.elapsed trial) s with
        | mk s' finish =>
            rw [hfinish] at hspec
            cases finish with
            | some correctness => exact right_returned hspec.1 hspec.2
            | none => exact hround s' hspec
      · exact hround s h

/-- **The verdict of the trial loop.** A call returns `correctness=True` exactly when every executed trial
passed or was a perturbation skipped because of the reference, one trial passed, and all planned trials were
executed or the time budget accepts the kernel; and every return after a trial that recorded a forbidden
operator marks a decoy. -/
theorem verdict_right (c : Settings) (w : Surroundings) (metadata : Metadata)
    (hrecorded : metadata.Recorded c.allowlist) : (runAndCheckCorrectness c w metadata).Right c w := by
  unfold runAndCheckCorrectness
  dsimp only
  split_ifs with hsetup
  · refine ⟨iff_of_false ?_ ?_, fun _ _ hend => by cases hend⟩
    · rintro ⟨_, hend⟩
      cases hend
    · rintro ⟨-, ⟨k, hk, -⟩, -⟩
      exact absurd hk (Nat.not_lt_zero k)
  · refine runTrials_right _ 0 _ (Nat.zero_add _) ⟨rfl, rfl, rfl, ?_, hrecorded, fun k hk => ?_⟩
    · exact (Int.sub_zero _).symm
    · exact absurd hk (Nat.not_lt_zero k)

/-- Four perturbed trials; the reference overflows in the second one, and the first one profiles a forbidden
operator. -/
def overflowing (verdict : Verdict) : Surroundings where
  elapsed _ := 0
  outcome
    | 0 => .referenceRan true (.ran (.events [⟨"aten::mm", 1, 0⟩]) (.compared true))
    | 1 => .referenceRan false .escaped
    | 2 => .referenceRan true (.ran (.events [⟨"aten::empty.memory_format", 2, 0⟩]) (.compared true))
    | _ => .referenceRan true (.ran .unavailable verdict)

def perturbed : Settings where
  numCorrectTrials := 1
  enableInputPerturbations := true
  detectAtenFallback := true
  allowlist := ["aten::empty"]

theorem verdict_right_overflowing :
    ((runAndCheckCorrectness perturbed (overflowing (.compared true)) {}).ending = .returned true true ∧
        (runAndCheckCorrectness perturbed (overflowing (.compared true)) {}).Right perturbed
          (overflowing (.compared true))) ∧
      (runAndCheckCorrectness perturbed (overflowing (.raised "CUDA error")) {}).ending = .returned false true ∧
        (runAndCheckCorrectness perturbed (overflowing (.raised "CUDA error")) {}).Right perturbed
          (overflowing (.raised "CUDA error")) := by
  have hrecorded : ({} : Metadata).Recorded perturbed.allowlist := fun r hr => absurd hr List.not_mem_nil
  refine ⟨⟨?_, verdict_right _ _ _ hrecorded⟩, ?_, verdict_right _ _ _ hrecorded⟩ <;> decide +kernel

end KernelGym.Correctness
