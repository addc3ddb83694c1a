import KernelGym.NoiseFloor
import Mathlib.Data.Rat.Floor

/-! Held-out blocks do not reach the noise floor: the calibration of two lists of blocks that differ in held-out blocks
only, the split of the rows of a case, and an analysis that always ends. -/

namespace KernelGym.NoiseFloor

open Library

variable {K : Type}

/-- The kernel and the index of a block. -/
def Block.key (b : Block K) : String × ℤ := (b.kernelId, b.blockIndex)

/-- The block does not lie in the held-out window of its kernel. -/
def isOutside (heldoutBlocks : ℤ) (blocks : List (Block K)) (b : Block K) : Bool :=
  b.blockIndex < heldoutStart heldoutBlocks (caseRows blocks b.kernelId)

/-- Two lists with the same kernels and indices, in any order, and the same blocks outside the held-out windows. -/
structure Agree (heldoutBlocks : ℤ) (xs ys : List (Block K)) : Prop where
  keys : (xs.map Block.key).Perm (ys.map Block.key)
  outside : (xs.filter (isOutside heldoutBlocks xs)).Perm (ys.filter (isOutside heldoutBlocks ys))

/-- What the calibration says of a kernel. -/
def KernelEntry.calibration (entry : KernelEntry K) : NoiseFloorCase × ℕ × Option (Estimate K) :=
  (entry.case, entry.calibrationBlocks, entry.estimate)

theorem validKernels_eq (perKernel : List (KernelEntry K)) : validKernels perKernel =
    (perKernel.map KernelEntry.calibration).filterMap fun part => part.2.2.map fun item => (part.1, item) := by
  rw [List.filterMap_map]
  rfl

/-! ### Calibration rows -/

section

variable {heldoutBlocks : ℤ} {xs ys : List (Block K)}

/-- The calibration rows of a case lie outside the window. -/
theorem calibrationRows_perm (blocks : List (Block K)) (caseId : String) :
    (calibrationRows heldoutBlocks (caseRows blocks caseId)).Perm
      ((blocks.filter (isOutside heldoutBlocks blocks)).filter fun b => b.passed && decide (b.kernelId = caseId)) := by
  refine ((List.perm_insertionSort _ _).filter _).trans (List.Perm.of_eq ?_)
  rw [caseRows, List.filter_filter, List.filter_filter, List.filter_filter]
  refine List.filter_congr fun b _ => ?_
  by_cases hcase : b.kernelId = caseId
  · subst hcase
    simp only [isOutside, decide_true, Bool.and_true]
    exact Bool.and_comm _ _
  · simp [hcase]

theorem Agree.calibrationRows (h : Agree heldoutBlocks xs ys) (caseId : String) :
    (calibrationRows heldoutBlocks (caseRows xs caseId)).Perm (calibrationRows heldoutBlocks (caseRows ys caseId)) :=
  (calibrationRows_perm xs caseId).trans ((h.outside.filter _).trans (calibrationRows_perm ys caseId).symm)

/-- **The passed blocks of a case are calibration rows or held-out rows.** -/
theorem rows_partition (heldoutBlocks : ℤ) (rows : List (Block K)) :
    (NoiseFloor.calibrationRows heldoutBlocks rows ++ heldoutRows heldoutBlocks rows).Perm (rows.filter Block.passed) ∧
      (∀ b ∈ NoiseFloor.calibrationRows heldoutBlocks rows, b.blockIndex < heldoutStart heldoutBlocks rows) ∧
      ∀ b ∈ heldoutRows heldoutBlocks rows, heldoutStart heldoutBlocks rows ≤ b.blockIndex := by
  refine ⟨?_, fun b hb => of_decide_eq_true (List.mem_filter.mp hb).2,
    fun b hb => of_decide_eq_true (List.mem_filter.mp hb).2⟩
  have hnot : heldoutRows heldoutBlocks rows =
      (passedRows rows).filter fun b => !decide (b.blockIndex < heldoutStart heldoutBlocks rows) :=
    List.filter_congr fun b _ => (decide_eq_decide.mpr not_lt.symm).trans decide_not
  rw [hnot]
  exact (List.filter_append_perm _ _).trans (List.perm_insertionSort _ _)

end

/-! ### Estimates -/

theorem mapM_ok {α β ε : Type} {f : α → Except ε β} {l : List α} (h : ∀ x ∈ l, ∃ y, f x = .ok y) :
    ∃ ys, l.mapM f = .ok ys ∧ ys.length = l.length := by
  induction l with
  | nil => exact ⟨[], rfl, rfl⟩
  | cons x rest ih =>
      obtain ⟨y, hy⟩ := h x List.mem_cons_self
      obtain ⟨ys, hys, hlength⟩ := ih fun z hz => h z (List.mem_cons_of_mem x hz)
      refine ⟨y :: ys, ?_, congrArg Nat.succ hlength⟩
      rw [List.mapM_cons, hy, hys]
      rfl

theorem getIndex_ok (values : List K) {index : ℤ} (hlow : 0 ≤ index) (hhigh : index < values.length) :
    ∃ x, getIndex values index = .ok x := by
  obtain ⟨position, rfl⟩ := Int.eq_ofNat_of_zero_le hlow
  have hposition : position < values.length := Int.ofNat_lt.mp hhigh
  have hget : values[position]? = some values[position] := List.getElem?_eq_getElem hposition
  rw [getIndex]
  simp only [if_neg (not_lt.mpr hlow), Int.toNat_natCast, hget]
  exact ⟨_, rfl⟩

theorem mapM_toFloat (f : Block K → Option K) (rows : List (Block K)) : (rows.mapM fun row => toFloat (f row)) =
    if rows.all fun row => (f row).isSome then .ok (rows.filterMap f) else .error .typeError := by
  induction rows with
  | nil => rfl
  | cons row rest ih =>
      rw [List.mapM_cons, ih, List.all_cons]
      cases hrow : f row with
      | none => rfl
      | some x =>
          rw [List.filterMap_cons_some hrow]
          simp only [toFloat, Option.isSome_some, Bool.true_and]
          split_ifs <;> rfl

theorem mapM_toFloat_perm (f : Block K → Option K) {rows rows' : List (Block K)} (h : rows.Perm rows') :
    (∃ data data', (rows.mapM fun row => toFloat (f row)) = .ok data ∧
        (rows'.mapM fun row => toFloat (f row)) = .ok data' ∧ data.Perm data') ∨
      ((rows.mapM fun row => toFloat (f row)) = .error .typeError ∧
        (rows'.mapM fun row => toFloat (f row)) = .error .typeError) := by
  rw [mapM_toFloat, mapM_toFloat, h.all_eq]
  split_ifs
  · exact .inl ⟨_, _, rfl, rfl, h.filterMap f⟩
  · exact .inr ⟨rfl, rfl⟩

theorem isEmpty_perm {data data' : List K} (h : data.Perm data') : data = [] ↔ data' = [] := by
  rw [← List.length_eq_zero_iff, ← List.length_eq_zero_iff, h.length_eq]

section

variable [Field K] {data data' : List K}

theorem statisticsVariance_perm (h : data.Perm data') : statisticsVariance data = statisticsVariance data' := by
  rw [statisticsVariance, statisticsVariance, h.length_eq, variance_perm h]

theorem statisticsFmean_perm (h : data.Perm data') : statisticsFmean data = statisticsFmean data' := by
  simp only [statisticsFmean, isEmpty_perm h, mean_perm h]

theorem statisticsFmean_ok {data : List K} (h : 0 < data.length) : statisticsFmean data = .ok (mean data) :=
  if_neg (List.ne_nil_of_length_pos h)

theorem statisticsMedian_perm [LinearOrder K] (h : data.Perm data') : statisticsMedian data = statisticsMedian data' := by
  simp only [statisticsMedian, isEmpty_perm h, median_perm h]

end

variable [Field K] [LinearOrder K] {m : MathFunctions K}

/-- The estimate does not depend on the order of the rows. -/
theorem estimate_perm {rows rows' : List (Block K)} (h : rows.Perm rows') : estimate m rows = estimate m rows' := by
  rw [estimate, estimate]
  rcases mapM_toFloat_perm Block.logSpeedup h with ⟨logs, logs', hlogs, hlogs', hlogsPerm⟩ | ⟨hlogs, hlogs'⟩
  · rw [hlogs, hlogs']
    rcases mapM_toFloat_perm Block.withinLogSpeedupVariance h with ⟨withins, withins', hwithins, hwithins', hperm⟩ |
      ⟨hwithins, hwithins'⟩
    · rw [hwithins, hwithins']
      rcases mapM_toFloat_perm Block.kernelMean h with ⟨means, means', hmeans, hmeans', hmeansPerm⟩ | ⟨hmeans, hmeans'⟩
      · rw [hmeans, hmeans']
        simp only [bind, Except.bind, statisticsVariance_perm hlogsPerm, statisticsFmean_perm hperm,
          statisticsFmean_perm hlogsPerm, statisticsMedian_perm hmeansPerm]
      · rw [hmeans, hmeans']
        simp only [bind, Except.bind, statisticsVariance_perm hlogsPerm, statisticsFmean_perm hperm]
    · rw [hwithins, hwithins']
      rfl
  · rw [hlogs, hlogs']
    rfl

/-! ### Held-out blocks -/

section

variable {heldoutBlocks : ℤ} {xs ys : List (Block K)}

/-- A case is calibrated alike. -/
theorem analyzeCase_agree (h : Agree heldoutBlocks xs ys) (case : NoiseFloorCase) :
    (analyzeCase m xs heldoutBlocks case).map KernelEntry.calibration =
      (analyzeCase m ys heldoutBlocks case).map KernelEntry.calibration := by
  have hrows := h.calibrationRows case.caseId
  simp only [analyzeCase, hrows.length_eq, estimate_perm (m := m) hrows]
  split_ifs
  · rfl
  · cases estimate m (calibrationRows heldoutBlocks (caseRows ys case.caseId)) <;> rfl

theorem mapM_map {α β γ ε : Type} {f g : α → Except ε β} {part : β → γ} {l : List α}
    (h : ∀ x ∈ l, (f x).map part = (g x).map part) {r r' : List β} (hr : l.mapM f = .ok r) (hr' : l.mapM g = .ok r') :
    r.map part = r'.map part := by
  induction l generalizing r r' with
  | nil =>
      obtain rfl := Except.ok.inj hr
      obtain rfl := Except.ok.inj hr'
      rfl
  | cons x rest ih =>
      have hx := h x List.mem_cons_self
      rw [List.mapM_cons] at hr hr'
      cases hf : f x with
      | error e =>
          rw [hf] at hr
          exact nomatch hr
      | ok y =>
          cases hg : g x with
          | error e =>
              rw [hg] at hr'
              exact nomatch hr'
          | ok y' =>
              cases hrest : rest.mapM f with
              | error e =>
                  rw [hf, hrest] at hr
                  exact nomatch hr
              | ok tail =>
                  cases hrest' : rest.mapM g with
                  | error e =>
                      rw [hg, hrest'] at hr'
                      exact nomatch hr'
                  | ok tail' =>
                      rw [hf, hrest] at hr
                      rw [hg, hrest'] at hr'
                      rw [hf, hg] at hx
                      obtain rfl := Except.ok.inj hr
                      obtain rfl := Except.ok.inj hr'
                      exact congrArg₂ List.cons (Except.ok.inj hx)
                        (ih (fun z hz => h z (List.mem_cons_of_mem x hz)) hrest hrest')

end

/-! ### Blocks with numbers -/

/-- A block that passed has its numbers, and its variance is not negative. -/
def Block.WellFormed (b : Block K) : Prop :=
  b.passed = true → (∃ x, b.logSpeedup = some x) ∧ (∃ x, b.withinLogSpeedupVariance = some x ∧ 0 ≤ x) ∧
    ∃ x, b.kernelMean = some x

theorem isPositive_iff {x : Option K} : isPositive x = true ↔ ∃ y, x = some y ∧ 0 < y := by
  cases x <;> simp [isPositive]

theorem mathSqrt_ok {x : K} (h : 0 ≤ x) : mathSqrt m x = .ok (m.sqrt x) := if_neg (not_lt.mpr h)

/-- Rows that the analysis uses: they are well-formed and have passed. -/
def Usable (rows : List (Block K)) : Prop := ∀ b ∈ rows, b.WellFormed ∧ b.passed = true

theorem usable_passedRows {blocks : List (Block K)} (h : ∀ b ∈ blocks, b.WellFormed) (caseId : String) :
    Usable (passedRows (caseRows blocks caseId)) := by
  intro b hb
  obtain ⟨hb, hpassed⟩ := List.mem_filter.mp ((List.mem_insertionSort _).mp hb)
  exact ⟨h b (List.mem_filter.mp hb).1, hpassed⟩

section

variable {rows : List (Block K)}

theorem Usable.filter (h : Usable rows) (p : Block K → Bool) : Usable (rows.filter p) := fun b hb =>
  h b (List.mem_filter.mp hb).1

theorem Usable.logSpeedups (h : Usable rows) :
    ∃ data, (rows.mapM fun row => toFloat row.logSpeedup) = .ok data ∧ data.length = rows.length :=
  mapM_ok fun b hb => by
    obtain ⟨⟨x, hx⟩, -⟩ := (h b hb).1 (h b hb).2
    exact ⟨x, by rw [hx]; rfl⟩

theorem Usable.withinVariances (h : Usable rows) :
    ∃ data, (rows.mapM fun row => toFloat row.withinLogSpeedupVariance) = .ok data ∧ data.length = rows.length :=
  mapM_ok fun b hb => by
    obtain ⟨-, ⟨x, hx, -⟩, -⟩ := (h b hb).1 (h b hb).2
    exact ⟨x, by rw [hx]; rfl⟩

theorem Usable.kernelMeans (h : Usable rows) :
    ∃ data, (rows.mapM fun row => toFloat row.kernelMean) = .ok data ∧ data.length = rows.length :=
  mapM_ok fun b hb => by
    obtain ⟨-, -, x, hx⟩ := (h b hb).1 (h b hb).2
    exact ⟨x, by rw [hx]; rfl⟩

end

theorem estimate_ok {rows : List (Block K)} (h : Usable rows) (hlength : 2 ≤ rows.length) :
    ∃ item, estimate m rows = .ok item := by
  obtain ⟨logs, hlogs, hlogsLength⟩ := h.logSpeedups
  obtain ⟨withins, hwithins, hwithinsLength⟩ := h.withinVariances
  obtain ⟨means, hmeans, hmeansLength⟩ := h.kernelMeans
  have hvariance : statisticsVariance logs = .ok (variance logs) := if_neg (by omega)
  have hmedian : statisticsMedian means = .ok (median means) := if_neg (List.ne_nil_of_length_pos (by omega))
  rw [estimate, hlogs, hwithins, hmeans]
  simp only [bind, Except.bind, hvariance, statisticsFmean_ok (show 0 < withins.length by omega),
    statisticsFmean_ok (show 0 < logs.length by omega), hmedian, mathSqrt_ok (le_max_right _ 0)]
  exact ⟨_, rfl⟩

variable {blocks : List (Block K)}

theorem analyzeCase_ok (h : ∀ b ∈ blocks, b.WellFormed) (heldoutBlocks : ℤ) (case : NoiseFloorCase) :
    ∃ entry, analyzeCase m blocks heldoutBlocks case = .ok entry := by
  rw [analyzeCase]
  by_cases hfew : (calibrationRows heldoutBlocks (caseRows blocks case.caseId)).length < 2
  · simp only [if_pos hfew]
    exact ⟨_, rfl⟩
  · obtain ⟨item, hitem⟩ := estimate_ok (m := m) ((usable_passedRows h case.caseId).filter _) (not_lt.mp hfew)
    have hfound : estimate m (calibrationRows heldoutBlocks (caseRows blocks case.caseId)) = .ok item := hitem
    simp only [if_neg hfew, hfound]
    exact ⟨_, rfl⟩

/-! ### Validation -/

theorem coverageRow_ok {row : Block K} (hrow : row.WellFormed ∧ row.passed = true) (globalFloor zValue center : K)
    (caseId : String) : ∃ covered, coverageRow m globalFloor zValue center caseId row = .ok covered := by
  obtain ⟨⟨log, hlog⟩, ⟨within, hwithin, -⟩, -⟩ := hrow.1 hrow.2
  rw [coverageRow, hlog, hwithin]
  by_cases hpos : 0 < within + globalFloor * globalFloor
  · have hdivide : divide (log - center) (m.sqrt (within + globalFloor * globalFloor)) =
        .ok ((log - center) / m.sqrt (within + globalFloor * globalFloor)) := if_neg (m.sqrt_pos _ hpos).ne'
    simp only [toFloat, bind, Except.bind, if_pos hpos, mathSqrt_ok hpos.le, hdivide]
    exact ⟨_, rfl⟩
  · simp only [toFloat, bind, Except.bind, if_neg hpos]
    exact ⟨_, rfl⟩

section

variable [IsStrictOrderedRing K]

/-- A square over a number of trials is not negative. -/
theorem square_div_nonneg (x : K) (n : ℕ) : 0 ≤ x * x / n := div_nonneg (mul_self_nonneg x) (Nat.cast_nonneg n)

/-- **The rows of the program are well-formed.** -/
theorem extractBlockResult_wellFormed (case : NoiseFloorCase) (blockIndex scheduleIndex : ℤ) (taskId status : String)
    (result : TaskResult K) : (extractBlockResult m case blockIndex scheduleIndex taskId status result).WellFormed := by
  intro hpassed
  have htests := hpassed
  simp only [extractBlockResult, Bool.and_eq_true] at htests
  obtain ⟨⟨⟨⟨⟨-, hspeedup⟩, hmean⟩, hstd⟩, htrials⟩, -⟩ := htests
  obtain ⟨speedup, hspeedup, -⟩ := isPositive_iff.mp hspeedup
  obtain ⟨mean, hmean, hpos⟩ := isPositive_iff.mp hmean
  obtain ⟨std, hstd⟩ := Option.isSome_iff_exists.mp hstd
  obtain ⟨trials, htrials⟩ := Option.isSome_iff_exists.mp htrials
  simp only [extractBlockResult] at hpassed ⊢
  refine ⟨⟨m.log speedup, by rw [if_pos hpassed, hspeedup]; rfl⟩, ?_, ⟨mean, hmean⟩⟩
  rw [hstd, hmean, htrials] at hpassed ⊢
  simp only [hpassed, hpos.ne', ne_eq, not_false_eq_true, decide_true, Bool.and_true, if_true]
  split
  · refine ⟨_, rfl, add_nonneg (square_div_nonneg _ _) ?_⟩
    split_ifs
    · exact le_rfl
    · exact square_div_nonneg _ _
  · exact ⟨_, rfl, square_div_nonneg _ _⟩

theorem decision_ok {calibration heldout : List (Block K)} (hcalibration : Usable calibration) (hheldout : Usable heldout)
    (globalFloor zValue : K) : ∃ decided, decision m globalFloor zValue calibration heldout = .ok decided := by
  rw [decision]
  split
  · exact ⟨_, rfl⟩
  · rename_i decisionRow hlast
    split_ifs with hnone
    · exact ⟨_, rfl⟩
    · have hrow := hcalibration decisionRow (List.mem_of_getLast? hlast)
      obtain ⟨⟨log, hlog⟩, ⟨within, hwithin, hwithinNonneg⟩, -⟩ := hrow.1 hrow.2
      obtain ⟨logs, hlogs, hlength⟩ := hheldout.logSpeedups
      have hpos : 0 < logs.length := hlength ▸ List.length_pos_of_ne_nil hnone
      have hvariance : 0 ≤ within + globalFloor * globalFloor := add_nonneg hwithinNonneg (mul_self_nonneg _)
      rw [hlog, hwithin, hlogs]
      simp only [toFloat, bind, Except.bind, mathSqrt_ok hvariance, statisticsFmean_ok hpos]
      split_ifs <;> exact ⟨_, rfl⟩

theorem validateKernel_ok (h : ∀ b ∈ blocks, b.WellFormed) (heldoutBlocks : ℤ) (globalFloor zValue : K)
    (case : NoiseFloorCase) (item : Estimate K) :
    ∃ validated, validateKernel m blocks heldoutBlocks globalFloor zValue case item = .ok validated := by
  have hheldout : Usable (heldoutRows heldoutBlocks (caseRows blocks case.caseId)) :=
    (usable_passedRows h case.caseId).filter _
  have hcalibration : Usable (calibrationRows heldoutBlocks (caseRows blocks case.caseId)) :=
    (usable_passedRows h case.caseId).filter _
  obtain ⟨coverage, hcoverage, -⟩ := mapM_ok fun row hrow =>
    coverageRow_ok (m := m) (hheldout row hrow) globalFloor zValue item.meanLogSpeedup case.caseId
  obtain ⟨decided, hdecided⟩ := decision_ok (m := m) hcalibration hheldout globalFloor zValue
  refine ⟨(coverage, decided), ?_⟩
  rw [validateKernel]
  simp only [hcoverage, hdecided]
  rfl

theorem validateKernels_ok (h : ∀ b ∈ blocks, b.WellFormed) (heldoutBlocks : ℤ) (globalFloor : Option K) (zValue : K)
    (valid : List (NoiseFloorCase × Estimate K)) :
    ∃ validated, validateKernels m blocks heldoutBlocks globalFloor zValue valid = .ok validated := by
  cases globalFloor with
  | none => exact ⟨[], rfl⟩
  | some floor =>
      obtain ⟨validated, hvalidated, -⟩ := mapM_ok (l := valid) fun item _ =>
        validateKernel_ok (m := m) h heldoutBlocks floor zValue item.1 item.2
      exact ⟨validated, hvalidated⟩

end

/-! ### The floors -/

variable [FloorRing K] {render : Value K → String}

/-- What an analysis that ends has computed on its way. -/
theorem analyzeCalibration_ok {cases : List NoiseFloorCase} {blocks : List (Block K)} {heldoutBlocks : ℤ} {p z : K}
    {r : Analysis K} (h : analyzeCalibration m render cases blocks heldoutBlocks p z = .ok r) :
    cases.mapM (analyzeCase m blocks heldoutBlocks) = .ok r.perKernel ∧
      percentileOf ((validKernels r.perKernel).map fun item => item.2.noiseFloor) p = .ok r.globalNoiseFloor ∧
      buckets.mapM (bucketFloor ((validKernels r.perKernel).map Prod.snd)) = .ok r.runtimeBuckets ∧
      r.validKernelCount = (validKernels r.perKernel).length := by
  rw [analyzeCalibration] at h
  cases hper : cases.mapM (analyzeCase m blocks heldoutBlocks) with
  | error e =>
      rw [hper] at h
      exact nomatch h
  | ok perKernel =>
      rw [hper] at h
      simp only [bind, Except.bind] at h
      cases hglobal : percentileOf ((validKernels perKernel).map fun item => item.2.noiseFloor) p with
      | error e =>
          rw [hglobal] at h
          exact nomatch h
      | ok floor =>
          rw [hglobal] at h
          cases hbuckets : buckets.mapM (bucketFloor ((validKernels perKernel).map Prod.snd)) with
          | error e =>
              rw [hbuckets] at h
              exact nomatch h
          | ok bucketFloors =>
              rw [hbuckets] at h
              cases hvalidated : validateKernels m blocks heldoutBlocks floor z (validKernels perKernel) with
              | error e =>
                  simp only [hvalidated] at h
                  exact nomatch h
              | ok validated =>
                  simp only [hvalidated] at h
                  obtain rfl := Except.ok.inj h
                  exact ⟨rfl, hglobal, hbuckets, rfl⟩

/-- **Held-out blocks do not influence the floors.** -/
theorem floors_agree {cases : List NoiseFloorCase} {xs ys : List (Block K)} {heldoutBlocks : ℤ} {p z : K}
    (h : Agree heldoutBlocks xs ys) {r r' : Analysis K} (hr : analyzeCalibration m render cases xs heldoutBlocks p z = .ok r)
    (hr' : analyzeCalibration m render cases ys heldoutBlocks p z = .ok r') :
    r.perKernel.map KernelEntry.calibration = r'.perKernel.map KernelEntry.calibration ∧
      r.globalNoiseFloor = r'.globalNoiseFloor ∧ r.runtimeBuckets = r'.runtimeBuckets ∧
      r.validKernelCount = r'.validKernelCount := by
  obtain ⟨hper, hglobal, hbuckets, hcount⟩ := analyzeCalibration_ok hr
  obtain ⟨hper', hglobal', hbuckets', hcount'⟩ := analyzeCalibration_ok hr'
  have hsame := mapM_map (fun case _ => analyzeCase_agree h case) hper hper'
  have hvalid : validKernels r.perKernel = validKernels r'.perKernel := by
    rw [validKernels_eq, hsame, validKernels_eq]
  rw [hvalid] at hglobal hbuckets hcount
  exact ⟨hsame, Except.ok.inj (hglobal.symm.trans hglobal'), Except.ok.inj (hbuckets.symm.trans hbuckets'),
    hcount.trans hcount'.symm⟩

/-! ### The analysis ends -/

section

variable [IsStrictOrderedRing K]

/-- A percentile between 0 and 100 lies between two values. -/
theorem percentile_ok {values : List K} (hne : values ≠ []) {p : K} (hlow : 0 ≤ p) (hhigh : p ≤ 100) :
    ∃ x, percentile values p = .ok x := by
  have hpos : 0 < (ordered values).length := by
    rw [ordered_length]
    exact List.length_pos_of_ne_nil hne
  obtain ⟨last, hlast⟩ := Nat.exists_eq_succ_of_ne_zero hpos.ne'
  have hrank : ((ordered values).length : K) - 1 = last := by
    rw [hlast, Nat.cast_succ, add_sub_cancel_right]
  have hbelow : (last : K) * p / 100 ≤ (last : ℤ) := by
    rw [div_le_iff₀ (by norm_num), Int.cast_natCast]
    exact mul_le_mul_of_nonneg_left hhigh (Nat.cast_nonneg last)
  have habove : 0 ≤ (last : K) * p / 100 := div_nonneg (mul_nonneg (Nat.cast_nonneg last) hlow) (by norm_num)
  have hfloor : 0 ≤ ⌊(last : K) * p / 100⌋ := Int.floor_nonneg.mpr habove
  have hceil : ⌈(last : K) * p / 100⌉ ≤ last := Int.ceil_le.mpr hbelow
  have horder := Int.floor_le_ceil ((last : K) * p / 100)
  rw [percentile, if_neg hne]
  by_cases hone : (ordered values).length = 1
  · rw [if_pos hone]
    exact getIndex_ok _ le_rfl (by omega)
  · simp only [if_neg hone, hrank]
    obtain ⟨low, hgetLow⟩ := getIndex_ok (ordered values) hfloor (by omega)
    obtain ⟨high, hgetHigh⟩ := getIndex_ok (ordered values) (hfloor.trans horder) (by omega)
    rw [hgetLow, hgetHigh]
    split_ifs <;> exact ⟨_, rfl⟩

theorem percentileOf_ok (values : List K) {p : K} (hlow : 0 ≤ p) (hhigh : p ≤ 100) :
    ∃ x, percentileOf values p = .ok x := by
  rw [percentileOf]
  split_ifs with hne
  · exact ⟨_, rfl⟩
  · obtain ⟨x, hx⟩ := percentile_ok hne hlow hhigh
    exact ⟨some x, by rw [hx]; rfl⟩

theorem bucketFloor_ok (estimates : List (Estimate K)) (bucket : RuntimeBucket) :
    ∃ floor, bucketFloor estimates bucket = .ok floor := by
  obtain ⟨x, hx⟩ := percentileOf_ok (((estimates.filter fun item => item.runtimeBucket = bucket).map Estimate.noiseFloor))
    (p := (75 : K)) (by norm_num) (by norm_num)
  exact ⟨_, by rw [bucketFloor, hx]; rfl⟩

/-- **The analysis of well-formed blocks ends.** -/
theorem analyzeCalibration_total (render : Value K → String) (cases : List NoiseFloorCase)
    (h : ∀ b ∈ blocks, b.WellFormed) (heldoutBlocks : ℤ) {p : K} (hlow : 0 ≤ p) (hhigh : p ≤ 100) (zValue : K) :
    ∃ r, analyzeCalibration m render cases blocks heldoutBlocks p zValue = .ok r := by
  obtain ⟨perKernel, hper, -⟩ := mapM_ok (l := cases) fun case _ => analyzeCase_ok (m := m) h heldoutBlocks case
  obtain ⟨globalFloor, hglobal⟩ :=
    percentileOf_ok ((validKernels perKernel).map fun item => item.2.noiseFloor) hlow hhigh
  obtain ⟨bucketFloors, hbuckets, -⟩ := mapM_ok (l := buckets) fun bucket _ =>
    bucketFloor_ok ((validKernels perKernel).map Prod.snd) bucket
  obtain ⟨validated, hvalidated⟩ :=
    validateKernels_ok (m := m) h heldoutBlocks globalFloor zValue (validKernels perKernel)
  rw [analyzeCalibration, hper]
  simp only [bind, Except.bind, hglobal, hbuckets, hvalidated]
  exact ⟨_, rfl⟩

end

/-! ### The calibration -/

/-- **Held-out blocks do not influence the noise floor; the passed blocks of a case are split exactly; and the analysis of
rows of the program ends, for a percentile that a request can have.** -/
theorem heldout_isolated [IsStrictOrderedRing K] (m : MathFunctions K) (render : Value K → String) :
    (∀ cases xs ys heldoutBlocks p z, Agree heldoutBlocks xs ys → ∀ r r',
      analyzeCalibration m render cases xs heldoutBlocks p z = .ok r →
      analyzeCalibration m render cases ys heldoutBlocks p z = .ok r' →
        r.perKernel.map KernelEntry.calibration = r'.perKernel.map KernelEntry.calibration ∧
          r.globalNoiseFloor = r'.globalNoiseFloor ∧ r.runtimeBuckets = r'.runtimeBuckets ∧
          r.validKernelCount = r'.validKernelCount) ∧
    (∀ (blocks : List (Block K)) heldoutBlocks caseId,
      (calibrationRows heldoutBlocks (caseRows blocks caseId) ++ heldoutRows heldoutBlocks (caseRows blocks caseId)).Perm
          ((caseRows blocks caseId).filter Block.passed) ∧
        (∀ b ∈ calibrationRows heldoutBlocks (caseRows blocks caseId),
          b.blockIndex < heldoutStart heldoutBlocks (caseRows blocks caseId)) ∧
        ∀ b ∈ heldoutRows heldoutBlocks (caseRows blocks caseId),
          heldoutStart heldoutBlocks (caseRows blocks caseId) ≤ b.blockIndex) ∧
    ∀ cases (blocks : List (Block K)) heldoutBlocks p z, 0 ≤ p → p ≤ 100 →
      (∀ b ∈ blocks, ∃ case blockIndex scheduleIndex taskId status result,
        b = extractBlockResult m case blockIndex scheduleIndex taskId status result) →
      ∃ r, analyzeCalibration m render cases blocks heldoutBlocks p z = .ok r := by
  refine ⟨fun cases xs ys heldoutBlocks p z h r r' hr hr' => floors_agree h hr hr',
    fun blocks heldoutBlocks caseId => rows_partition heldoutBlocks _, ?_⟩
  intro cases blocks heldoutBlocks p z hlow hhigh hblocks
  refine analyzeCalibration_total render cases (fun b hb => ?_) heldoutBlocks hlow hhigh z
  obtain ⟨case, blockIndex, scheduleIndex, taskId, status, result, rfl⟩ := hblocks b hb
  exact extractBlockResult_wellFormed case blockIndex scheduleIndex taskId status result

/-- Functions that are exact where a steady kernel needs them: the logarithm at 1, the others at 0. -/
def tangentFunctions : MathFunctions ℚ where
  sqrt x := x
  exp x := 1 + x
  expm1 x := x
  log x := x - 1
  sqrt_pos _ h := h

/-- A block with a measured speedup, without deviation. -/
def measuredBlock (speedup : ℚ) (blockIndex : ℕ) : Block ℚ :=
  extractBlockResult tangentFunctions ⟨"matmul", "matmul", "short"⟩ blockIndex blockIndex "task" "completed"
    { compiled := .bool true
      correctness := .bool true
      speedup := .float speedup
      metadata := some
        { kgKernelPerfMeanMs := .float 1, kgKernelPerfStdMs := .float 0, kgKernelPerfNumTrials := .int 50
          cached := .bool true } }

/-- The blocks of a kernel that is always as fast as its reference. -/
def steadyRun : List (Block ℚ) := (List.range 5).map (measuredBlock 1)

/-- The same kernel, reported in another order, with other speedups in its last two blocks. -/
def driftingRun : List (Block ℚ) :=
  [measuredBlock 1 2, measuredBlock 3 4, measuredBlock 1 0, measuredBlock (1 / 2) 3, measuredBlock 1 1]

theorem runs_agree : Agree 2 steadyRun driftingRun where
  keys := by decide +kernel
  outside := by
    have hsteady : steadyRun.filter (isOutside 2 steadyRun) =
        [measuredBlock 1 0, measuredBlock 1 1] ++ [measuredBlock 1 2] := rfl
    have hdrifting : driftingRun.filter (isOutside 2 driftingRun) =
        [measuredBlock 1 2] ++ [measuredBlock 1 0, measuredBlock 1 1] := rfl
    rw [hsteady, hdrifting]
    exact List.perm_append_comm

theorem heldout_isolated_steady :
    ¬ (heldoutRows 2 (caseRows steadyRun "matmul")).Perm (heldoutRows 2 (caseRows driftingRun "matmul")) ∧
    ∃ r r', analyzeCalibration tangentFunctions (fun _ => "") [⟨"matmul", "matmul", "short"⟩] steadyRun 2 75 2 = .ok r ∧
      analyzeCalibration tangentFunctions (fun _ => "") [⟨"matmul", "matmul", "short"⟩] driftingRun 2 75 2 = .ok r' ∧
      r.globalNoiseFloor = r'.globalNoiseFloor ∧ r.validKernelCount = r'.validKernelCount := by
  obtain ⟨hfloors, -, hends⟩ := heldout_isolated tangentFunctions fun _ => ""
  have hmeasured (blocks : List (Block ℚ)) (h : ∀ b ∈ blocks, ∃ speedup index, b = measuredBlock speedup index) :
      ∃ r, analyzeCalibration tangentFunctions (fun _ => "") [⟨"matmul", "matmul", "short"⟩] blocks 2 75 2 = .ok r := by
    refine hends _ _ _ _ _ (by norm_num) (by norm_num) fun b hb => ?_
    obtain ⟨speedup, index, rfl⟩ := h b hb
    exact ⟨_, _, _, _, _, _, rfl⟩
  obtain ⟨r, hr⟩ := hmeasured steadyRun fun b hb => by
    obtain ⟨index, -, rfl⟩ := List.mem_map.mp hb
    exact ⟨1, index, rfl⟩
  obtain ⟨r', hr'⟩ := hmeasured driftingRun fun b hb => by
    simp only [driftingRun, List.mem_cons, List.not_mem_nil, or_false] at hb
    rcases hb with rfl | rfl | rfl | rfl | rfl <;> exact ⟨_, _, rfl⟩
  obtain ⟨-, hfloor, -, hcount⟩ := hfloors _ _ _ _ _ _ runs_agree r r' hr hr'
  exact ⟨fun hsame => absurd (hsame.map Block.speedup) (by decide +kernel), r, r', hr, hr', hfloor, hcount⟩

end KernelGym.NoiseFloor
