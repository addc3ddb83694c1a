import KernelGym.MismatchLocalization
import KernelGym.TensorVerdict
import Mathlib.Data.List.Perm.Subperm

/-! The scores of the elements of one tensor: when a score stays below a multiplier exactly for the elements that
pass at it, and what the curve and the selected coordinates are then. -/

namespace KernelGym.Correctness

open Library

/-! ### Elements that pass -/

/-- Values compared for equality have a difference of zero or one and no tolerance. -/
def measureEqual {A : Type} [DecidableEq A] (e : A × A) : Extended × Extended :=
  (.finite (if e.1 = e.2 then 0 else 1), .finite 0)

/-- The difference and the tolerance of a pair. -/
def measure (hypot : ℚ → ℚ → ℚ) (tolerance : ℚ) : (k : Kind) → k.Element × k.Element → Extended × Extended
  | .bool, e => measureEqual (A := Bool) e
  | .uint8, e => measureEqual (A := BitVec 8) e
  | .signed w, e => measureSigned (w := w) tolerance tolerance e
  | .floating, e => measureFloating tolerance tolerance e
  | .complex, e => measureComplex hypot tolerance tolerance e

/-- The difference is at most the multiple of the tolerance. -/
def passesAt (multiplier : ℕ) (m : Extended × Extended) : Bool := m.1.le (m.2.mul (.finite multiplier))

/-- An infinite reference with an infinite difference, or the least integer as reference. -/
def Distorted : (k : Kind) → k.Element × k.Element → Prop
  | .bool, _ | .uint8, _ => False
  | .signed w, e => (show BitVec (w + 1) from e.1).toInt = -2 ^ w
  | .floating, e =>
    let r : Extended := e.1
    let c : Extended := e.2
    r.isInf = true ∧ (c.sub r).isInf = true
  | .complex, e =>
    let r : Complex := e.1
    let c : Complex := e.2
    r.isInf = true ∧ (r.sub c).isInf = true

/-- A tolerance that is positive or NaN. -/
def PositiveTolerance (t : Extended) : Prop := (∃ x, 0 < x ∧ t = .finite x) ∨ t = .infinite false ∨ t = .nan

/-- A difference and a tolerance whose quotient tells which multiples of the tolerance suffice. -/
structure Regular (m : Extended × Extended) : Prop where
  difference : m.1 ≠ .infinite true
  tolerance : PositiveTolerance m.2
  finite : ¬(m.1.isInf = true ∧ m.2.isInf = true)

variable {d t : Extended} {finiteMax tolerance : ℚ} {multiplier multiplier' w : ℕ}

theorem mul_multiplier_mono (ht : PositiveTolerance t) (hpos : 1 ≤ multiplier) (hle : multiplier ≤ multiplier')
    (hpass : d.le (t.mul (.finite multiplier)) = true) : d.le (t.mul (.finite multiplier')) = true := by
  have hpos' : (0 : ℚ) < multiplier := by exact_mod_cast hpos
  have hle' : (multiplier : ℚ) ≤ multiplier' := by exact_mod_cast hle
  rcases ht with ⟨x, hx, rfl⟩ | rfl | rfl
  · rw [Extended.mul_finite] at hpass ⊢
    have hscaled : x * multiplier ≤ x * multiplier' := mul_le_mul_of_nonneg_left hle' hx.le
    cases d with
    | finite y => simp only [Extended.le_finite, decide_eq_true_eq] at hpass ⊢; exact hpass.trans hscaled
    | infinite negative => cases negative <;> first | rfl | exact Bool.noConfusion hpass
    | nan => exact Bool.noConfusion hpass
  · rw [Extended.infinite_mul_of_pos hpos'] at hpass
    rw [Extended.infinite_mul_of_pos (hpos'.trans_le hle')]
    exact hpass
  · rw [Extended.nan_mul, Extended.le_nan] at hpass
    exact Bool.noConfusion hpass

/-- The score of a regular pair is at most a multiplier exactly when the pair passes at it. -/
theorem score_le_iff (h : Regular (d, t)) (hpos : 1 ≤ multiplier) (hmax : (multiplier : ℚ) < finiteMax) :
    normalizeDifference finiteMax false (d, t) ≤ multiplier ↔ passesAt multiplier (d, t) = true := by
  have hpos' : (0 : ℚ) < multiplier := by exact_mod_cast hpos
  have hnot : ¬finiteMax ≤ multiplier := not_le.mpr hmax
  obtain ⟨hdifference, htolerance, hfinite⟩ := h
  unfold passesAt normalizeDifference
  rcases htolerance with ⟨x, hx, rfl⟩ | rfl | rfl
  · cases d with
    | finite y => simp [Extended.div, nanToNum, hx.ne', div_le_iff₀ hx, mul_comm]
    | infinite negative =>
        cases negative with
        | false => simpa [Extended.div, nanToNum] using hmax
        | true => exact absurd rfl hdifference
    | nan => simpa [Extended.div, nanToNum] using hmax
  · rw [Extended.infinite_mul_of_pos hpos']
    cases d with
    | finite y => simp [Extended.div, nanToNum]
    | infinite negative => exact absurd ⟨rfl, rfl⟩ hfinite
    | nan => simpa [Extended.div, nanToNum] using hmax
  · rw [Extended.nan_mul, Extended.le_nan]
    have hnan : d.div .nan = .nan := by cases d <;> rfl
    simpa [hnan, nanToNum] using hmax

/-! ### The measured pairs -/

theorem abs_float_cases (a : Extended) : ∃ x, 0 ≤ x ∧ (a.abs = .finite x ∨ a.abs = .infinite false ∨ a.abs = .nan) := by
  cases a with
  | finite x => exact ⟨|x|, abs_nonneg x, Or.inl rfl⟩
  | infinite negative => exact ⟨0, le_refl _, Or.inr (Or.inl rfl)⟩
  | nan => exact ⟨0, le_refl _, Or.inr (Or.inr rfl)⟩

theorem abs_complex_cases (torch : Torch) (a : Complex) :
    ∃ x, 0 ≤ x ∧ (a.abs torch.hypot = .finite x ∨ a.abs torch.hypot = .infinite false ∨ a.abs torch.hypot = .nan) := by
  rcases complex_cases a with hinf | ⟨x, y, rfl⟩ | ⟨hnan, hinf⟩
  · exact ⟨0, le_refl _, Or.inr (Or.inl (abs_of_isInf hinf))⟩
  · exact ⟨torch.hypot x y, torch.hypot_nonneg x y, Or.inl rfl⟩
  · exact ⟨0, le_refl _, Or.inr (Or.inr (abs_of_isNan hnan hinf))⟩

/-- A magnitude scaled and shifted by a positive tolerance. -/
theorem positiveTolerance_of_magnitude {a : Extended} (hpos : 0 < tolerance)
    (ha : ∃ x, 0 ≤ x ∧ (a = .finite x ∨ a = .infinite false ∨ a = .nan)) :
    PositiveTolerance ((a.mul (.finite tolerance)).add (.finite tolerance)) := by
  obtain ⟨x, hx, rfl | rfl | rfl⟩ := ha
  · exact Or.inl ⟨x * tolerance + tolerance, by positivity, rfl⟩
  · rw [Extended.infinite_mul_of_pos hpos]
    exact Or.inr (Or.inl rfl)
  · exact Or.inr (Or.inr rfl)

theorem ne_negative_of_magnitude {a : Extended}
    (ha : ∃ x, 0 ≤ x ∧ (a = .finite x ∨ a = .infinite false ∨ a = .nan)) : a ≠ .infinite true := by
  obtain ⟨x, -, rfl | rfl | rfl⟩ := ha
  · exact Extended.noConfusion
  · intro h
    injection h with hsign
    exact Bool.noConfusion hsign
  · exact Extended.noConfusion

theorem isInf_abs (a : Extended) : a.abs.isInf = a.isInf := by
  cases a <;> rfl

theorem isInf_abs_complex (hypot : ℚ → ℚ → ℚ) (a : Complex) : (a.abs hypot).isInf = a.isInf := by
  rcases complex_cases a with hinf | ⟨x, y, rfl⟩ | ⟨hnan, hinf⟩
  · rw [abs_of_isInf hinf, hinf]
    rfl
  · rfl
  · rw [abs_of_isNan hnan hinf, hinf]
    rfl

theorem isInf_scaled {a : Extended} (ha : ((a.mul (.finite tolerance)).add (.finite tolerance)).isInf = true) :
    a.isInf = true := by
  cases a with
  | finite x => exact Bool.noConfusion ha
  | infinite negative => rfl
  | nan => exact Bool.noConfusion ha

theorem regular_signed (hpos : 0 < tolerance) {x y : BitVec (w + 1)} (hmin : x.toInt ≠ -2 ^ w) :
    Regular (measureSigned tolerance tolerance (x, y)) := by
  have hmagnitude : (0 : ℚ) ≤ x.abs.toInt := by
    rw [abs_toInt, storedMagnitude, if_neg hmin]
    exact_mod_cast abs_nonneg _
  have htolerance : 0 < x.abs.toInt * tolerance + tolerance := by positivity
  exact ⟨Extended.noConfusion, Or.inl ⟨_, htolerance, rfl⟩, fun hinf => Bool.noConfusion hinf.1⟩

/-- A pair that is compared by its difference is regular unless it is distorted. -/
theorem regular_measure (torch : Torch) (hpos : 0 < tolerance) {k : Kind} (hbool : k ≠ .bool) (huint8 : k ≠ .uint8)
    {e : k.Element × k.Element} (h : ¬Distorted k e) : Regular (measure torch.hypot tolerance k e) := by
  cases k with
  | bool => exact absurd rfl hbool
  | uint8 => exact absurd rfl huint8
  | signed w => exact regular_signed hpos h
  | floating =>
      refine ⟨ne_negative_of_magnitude (abs_float_cases _), positiveTolerance_of_magnitude hpos (abs_float_cases _),
        fun hinf => h ⟨?_, ?_⟩⟩
      · exact (isInf_abs _).symm.trans (isInf_scaled hinf.2)
      · exact (isInf_abs _).symm.trans hinf.1
  | complex =>
      refine ⟨ne_negative_of_magnitude (abs_complex_cases torch _),
        positiveTolerance_of_magnitude hpos (abs_complex_cases torch _), fun hinf => h ⟨?_, ?_⟩⟩
      · exact (isInf_abs_complex _ _).symm.trans (isInf_scaled hinf.2)
      · exact (isInf_abs_complex _ _).symm.trans hinf.1

theorem passesAt_equal {A : Type} [DecidableEq A] (e : A × A) (multiplier : ℕ) :
    passesAt multiplier (measureEqual e) = decide (e.1 = e.2) := by
  unfold passesAt measureEqual
  rw [Extended.mul_finite, zero_mul, Extended.le_finite]
  by_cases h : e.1 = e.2
  · simp [h]
  · simp [h]

/-- The tolerance of the least integer is not positive: only a wrapped difference or none is within it, and both
are within each of its multiples below one. -/
theorem least_passes_mono {M d multiple multiple' : ℚ} (hM : 1 ≤ M) (hpos : 0 < tolerance) (hone : 1 ≤ multiple)
    (hsmall : tolerance * multiple' ≤ 1) (hd : d = -M ∨ 0 ≤ d)
    (hpass : d ≤ (-M * tolerance + tolerance) * multiple) : d ≤ (-M * tolerance + tolerance) * multiple' := by
  have hneg : -M * tolerance + tolerance ≤ 0 := by nlinarith
  rcases hd with rfl | hnonneg
  · nlinarith
  · have hzero : -M * tolerance + tolerance = 0 := by
      by_contra hne
      have hlt : -M * tolerance + tolerance < 0 := lt_of_le_of_ne hneg hne
      have hprod : (-M * tolerance + tolerance) * multiple < 0 := mul_neg_of_neg_of_pos hlt (by linarith)
      linarith
    rw [hzero, zero_mul] at hpass ⊢
    exact hpass

/-- An integer in its own width passes at every larger multiplier that keeps the tolerance below one. -/
theorem passesAt_mono_signed (hpos : 0 < tolerance) (hle : multiplier ≤ multiplier')
    (hsmall : tolerance * multiplier' ≤ 1) (h1 : 1 ≤ multiplier) (x y : BitVec (w + 1))
    (hpass : passesAt multiplier (measureSigned tolerance tolerance (x, y)) = true) :
    passesAt multiplier' (measureSigned tolerance tolerance (x, y)) = true := by
  by_cases hmin : x.toInt = -2 ^ w
  · unfold passesAt measureSigned at hpass ⊢
    rw [Extended.mul_finite, Extended.le_finite, decide_eq_true_iff] at hpass ⊢
    have hmagnitude : (x.abs.toInt : ℚ) = -2 ^ w := by
      rw [abs_toInt, storedMagnitude, if_pos hmin]
      push_cast
      rfl
    have hdifference : ((x - y).abs.toInt : ℚ) = -2 ^ w ∨ (0 : ℚ) ≤ (x - y).abs.toInt := by
      rw [abs_toInt, storedMagnitude]
      split_ifs
      · exact Or.inl (by push_cast; rfl)
      · exact Or.inr (by exact_mod_cast abs_nonneg _)
    dsimp only at hpass ⊢
    rw [hmagnitude] at hpass ⊢
    exact least_passes_mono (one_le_pow₀ one_le_two) hpos (by exact_mod_cast h1) hsmall hdifference
      hpass
  · exact mul_multiplier_mono (regular_signed hpos hmin).tolerance h1 hle hpass

/-- Whatever passes at a multiplier passes at the larger ones. -/
theorem passesAt_mono (torch : Torch) (hpos : 0 < tolerance) (h1 : 1 ≤ multiplier) (hle : multiplier ≤ multiplier')
    (hsmall : tolerance * multiplier' ≤ 1) (k : Kind) (e : k.Element × k.Element)
    (hpass : passesAt multiplier (measure torch.hypot tolerance k e) = true) :
    passesAt multiplier' (measure torch.hypot tolerance k e) = true := by
  cases k with
  | bool => exact (passesAt_equal (A := Bool) e _).trans ((passesAt_equal (A := Bool) e _).symm.trans hpass)
  | uint8 => exact (passesAt_equal (A := BitVec 8) e _).trans ((passesAt_equal (A := BitVec 8) e _).symm.trans hpass)
  | signed w => exact passesAt_mono_signed hpos hle hsmall h1 e.1 e.2 hpass
  | floating => exact mul_multiplier_mono (positiveTolerance_of_magnitude hpos (abs_float_cases _)) h1 hle hpass
  | complex => exact mul_multiplier_mono (positiveTolerance_of_magnitude hpos (abs_complex_cases torch _)) h1 hle hpass

/-! ### The curve -/

/-- The early stop of the curve fills in what the remaining counts are. -/
theorem countCurve_eq {scores : List ℚ} {multipliers : List ℕ} (hsorted : multipliers.Pairwise (· ≤ ·)) :
    countCurve scores multipliers =
      multipliers.map fun multiplier : ℕ => (multiplier, scores.countP fun score : ℚ => score ≤ multiplier) := by
  induction multipliers with
  | nil => rfl
  | cons multiplier rest ih =>
      obtain ⟨hle, hrest⟩ := List.pairwise_cons.mp hsorted
      rw [countCurve, List.map_cons]
      split_ifs with hall
      · congr 1
        refine List.map_congr_left fun next hnext => ?_
        have hbelow := List.countP_eq_length.mp hall
        have hfull : scores.countP (fun score : ℚ => score ≤ next) = scores.length := by
          refine List.countP_eq_length.mpr fun score hscore => ?_
          have hscore' : score ≤ multiplier := of_decide_eq_true (hbelow score hscore)
          have hnext' : (multiplier : ℚ) ≤ next := by exact_mod_cast hle next hnext
          exact decide_eq_true (hscore'.trans hnext')
        rw [hfull]
      · rw [ih hrest]

/-! ### The selected coordinates -/

variable {mask : List Bool}

/-- The indices that a mask selects. -/
def maskIndices (mask : List Bool) : List ℕ := trueIndices mask.length fun index => mask.getD index false

theorem getD_iff {index : ℕ} : mask.getD index false = true ↔ mask[index]? = some true := by
  rw [List.getD_eq_getElem?_getD]
  cases mask[index]? with
  | none => simp
  | some bit => exact Option.some_inj.symm

theorem mem_maskIndices {index : ℕ} : index ∈ maskIndices mask ↔ mask.getD index false = true := by
  rw [maskIndices, mem_trueIndices, and_iff_right_iff_imp, getD_iff]
  intro h
  exact (List.getElem?_eq_some_iff.mp h).1

theorem map_getD_range {A : Type} (xs : List A) (default : A) :
    (List.range xs.length).map (fun index => xs.getD index default) = xs := by
  refine List.ext_getElem (by rw [List.length_map, List.length_range]) fun index _ h => ?_
  rw [List.getElem_map, List.getElem_range, List.getD_eq_getElem?_getD, List.getElem?_eq_getElem h]
  rfl

theorem length_maskIndices (mask : List Bool) : (maskIndices mask).length = mask.count true := by
  conv_rhs => rw [← map_getD_range mask false]
  rw [List.count, List.countP_map, List.countP_eq_length_filter]
  exact congrArg List.length (List.filter_congr fun index _ => (beq_true _).symm)

theorem firstTrue_isLeast (h : true ∈ mask) : IsLeast {index | mask.getD index false = true} (firstTrue mask) := by
  have hany : mask.any id = true := List.any_eq_true.mpr ⟨true, h, rfl⟩
  have hlt : mask.findIdx id < mask.length := List.findIdx_lt_length.mpr ⟨true, h, rfl⟩
  rw [firstTrue, if_pos hany]
  constructor
  · have hbit : id mask[mask.findIdx id] = true := List.findIdx_getElem
    exact getD_iff.mpr ((List.getElem?_eq_getElem hlt).trans (congrArg some hbit))
  · intro index hindex
    by_contra hbefore
    obtain ⟨hin, hbit⟩ := List.getElem?_eq_some_iff.mp (getD_iff.mp hindex)
    have hfalse : id mask[index] = false := List.not_of_lt_findIdx (not_le.mp hbefore)
    rw [id, hbit] at hfalse
    exact Bool.noConfusion hfalse

theorem lastTrue_isGreatest (h : true ∈ mask) :
    IsGreatest {index | mask.getD index false = true} (mask.length - 1 - firstTrue mask.reverse) := by
  obtain ⟨hbit, hleast⟩ := firstTrue_isLeast (List.mem_reverse.mpr h)
  generalize firstTrue mask.reverse = first at hbit hleast
  have hbit' : mask.reverse[first]? = some true := getD_iff.mp hbit
  have hlt : first < mask.length := by
    have := (List.getElem?_eq_some_iff.mp hbit').1
    rwa [List.length_reverse] at this
  rw [List.getElem?_reverse hlt] at hbit'
  refine ⟨getD_iff.mpr hbit', fun index hindex => ?_⟩
  have hindex' : mask[index]? = some true := getD_iff.mp hindex
  have hin : index < mask.length := (List.getElem?_eq_some_iff.mp hindex').1
  have hreverse : mask.reverse[mask.length - 1 - index]? = some true := by
    rw [List.getElem?_reverse (by omega), show mask.length - 1 - (mask.length - 1 - index) = index by omega]
    exact hindex'
  have hle : first ≤ mask.length - 1 - index := hleast (getD_iff.mpr hreverse)
  omega

/-- The first and the last selected index. -/
theorem maskIndices_ends (h : true ∈ mask) :
    (maskIndices mask).head? = some (firstTrue mask) ∧
      (maskIndices mask).getLast? = some (mask.length - 1 - firstTrue mask.reverse) := by
  have hset (x : ℕ) : x ∈ {index | mask.getD index false = true} ↔ x < mask.length ∧ mask.getD x false = true := by
    exact mem_maskIndices.symm.trans mem_trueIndices
  obtain ⟨first, last, hhead, hlast, hleast, hgreatest⟩ := trueIndices_ends hset ⟨_, (firstTrue_isLeast h).1⟩
  rw [(firstTrue_isLeast h).unique hleast, (lastTrue_isGreatest h).unique hgreatest]
  exact ⟨hhead, hlast⟩

/-- Where every selected index has a higher score than the others, the largest scores are those of selected ones. -/
theorem topk_selected (topk : TopK) {scores : List ℚ} {k : ℕ} (hlength : scores.length = mask.length)
    (hk : k ≤ mask.count true)
    (hseparate : ∀ i < mask.length, ∀ j < mask.length, mask.getD i false = true → mask.getD j false = false →
      scores.getD j 0 < scores.getD i 0) :
    ∀ i ∈ topk.indices scores k, i ∈ maskIndices mask := by
  intro i hi
  have hlt : i < mask.length := hlength ▸ topk.lt scores k i hi
  rw [mem_maskIndices]
  by_contra hbad
  have hfalse : mask.getD i false = false := Bool.eq_false_iff.mpr hbad
  have hall : maskIndices mask ⊆ topk.indices scores k := by
    intro j hj
    by_contra hout
    have hjlt : j < mask.length := (mem_trueIndices.mp hj).1
    have hle := topk.largest scores k i hi j (hlength.symm ▸ hjlt) hout
    exact absurd (hseparate j hjlt i hlt (mem_maskIndices.mp hj) hfalse) (not_lt.mpr hle)
  have hnodup : (i :: maskIndices mask).Nodup := by
    rw [List.nodup_cons, mem_maskIndices]
    exact ⟨hbad, List.Nodup.filter _ List.nodup_range⟩
  have hsub := (List.subperm_of_subset hnodup (List.cons_subset.mpr ⟨hi, hall⟩)).length_le
  have hcount : mask.count true ≤ mask.length := List.count_le_length
  rw [List.length_cons, length_maskIndices, topk.length scores k (by omega)] at hsub
  omega

end KernelGym.Correctness
