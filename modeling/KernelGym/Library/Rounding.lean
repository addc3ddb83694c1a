import Mathlib

/-! Rounding of rational numbers to a floating-point format, to nearest with ties to even. A format says
how far right the digits of a number reach, given the exponent of its first digit. -/

namespace KernelGym.Library

/-! ### Integers -/

/-- The nearest integer, of two the even one. -/
def roundEven (x : ℚ) : ℤ :=
  if Int.fract x < 1 / 2 then ⌊x⌋
  else if 1 / 2 < Int.fract x then ⌊x⌋ + 1
  else if ⌊x⌋ % 2 = 0 then ⌊x⌋ else ⌊x⌋ + 1

theorem abs_roundEven_sub_le (x : ℚ) : |(roundEven x : ℚ) - x| ≤ 1 / 2 := by
  have hx := Int.floor_add_fract x
  have hnonneg := Int.fract_nonneg x
  have hlt := Int.fract_lt_one x
  rw [abs_le]
  unfold roundEven
  split_ifs <;> push_cast <;> constructor <;> linarith

/-- An integer that is nearer than one half is the rounded value. -/
theorem roundEven_eq_of_abs_lt {x : ℚ} {m : ℤ} (h : |x - m| < 1 / 2) : roundEven x = m := by
  have hround := abs_le.mp (abs_roundEven_sub_le x)
  have hm := abs_lt.mp h
  have hlow : (roundEven x : ℚ) < (m + 1 : ℤ) := by
    push_cast
    linarith [hround.2, hm.2]
  have hhigh : ((m - 1 : ℤ) : ℚ) < roundEven x := by
    push_cast
    linarith [hround.1, hm.1]
  have hlow' : roundEven x < m + 1 := by exact_mod_cast hlow
  have hhigh' : m - 1 < roundEven x := by exact_mod_cast hhigh
  omega

/-- Half way between two integers the even one is the rounded value. -/
theorem roundEven_tie {x : ℚ} {m : ℤ} (h : |x - m| = 1 / 2) : roundEven x = m ↔ m % 2 = 0 := by
  have hfloor : (⌊x⌋ = m ∨ ⌊x⌋ = m - 1) ∧ Int.fract x = 1 / 2 := by
    rcases abs_choice (x - m) with habs | habs
    · have hx : x = m + 1 / 2 := by linarith
      have hm : ⌊x⌋ = m := by
        rw [Int.floor_eq_iff]
        constructor <;> linarith
      refine ⟨Or.inl hm, ?_⟩
      rw [Int.fract, hm]
      linarith
    · have hx : x = m - 1 / 2 := by linarith
      have hm : ⌊x⌋ = m - 1 := by
        rw [Int.floor_eq_iff]
        push_cast
        constructor <;> linarith
      refine ⟨Or.inr hm, ?_⟩
      rw [Int.fract, hm]
      push_cast
      linarith
  obtain ⟨hfloor, hfract⟩ := hfloor
  rw [roundEven, hfract, if_neg (by norm_num), if_neg (by norm_num)]
  rcases hfloor with hfloor | hfloor <;> rw [hfloor] <;> split_ifs with heven <;> omega

@[simp] theorem roundEven_intCast (m : ℤ) : roundEven (m : ℚ) = m :=
  roundEven_eq_of_abs_lt (by rw [sub_self, abs_zero]; norm_num)

/-- No integer is nearer than the rounded value. -/
theorem abs_roundEven_sub_le_abs (x : ℚ) (m : ℤ) : |(roundEven x : ℚ) - x| ≤ |(m : ℚ) - x| := by
  by_cases h : |(m : ℚ) - x| < 1 / 2
  · rw [abs_sub_comm] at h
    rw [roundEven_eq_of_abs_lt h]
  · exact (abs_roundEven_sub_le x).trans (not_lt.mp h)

/-- What is not farther from the rounded value than `x` has the same rounded value. -/
theorem roundEven_of_not_farther {x y : ℚ} (h : |y - roundEven x| ≤ |x - roundEven x|) :
    roundEven y = roundEven x := by
  have hx : |x - roundEven x| ≤ 1 / 2 := by
    rw [abs_sub_comm]
    exact abs_roundEven_sub_le x
  rcases lt_or_eq_of_le (h.trans hx) with hlt | htie
  · exact roundEven_eq_of_abs_lt hlt
  · have htie' : |x - roundEven x| = 1 / 2 := le_antisymm hx (htie ▸ h)
    rw [roundEven_tie htie, ← roundEven_tie htie']

theorem roundEven_le {x : ℚ} {m : ℤ} (h : x ≤ m) : roundEven x ≤ m := by
  by_contra hlt
  have hge : (m + 1 : ℤ) ≤ roundEven x := by omega
  have hge' : ((m + 1 : ℤ) : ℚ) ≤ roundEven x := by exact_mod_cast hge
  push_cast at hge'
  have := (abs_le.mp (abs_roundEven_sub_le x)).2
  linarith

theorem le_roundEven {x : ℚ} {m : ℤ} (h : m ≤ x) : m ≤ roundEven x := by
  by_contra hlt
  have hge : roundEven x ≤ m - 1 := by omega
  have hge' : (roundEven x : ℚ) ≤ (m - 1 : ℤ) := by exact_mod_cast hge
  push_cast at hge'
  have := (abs_le.mp (abs_roundEven_sub_le x)).1
  linarith

theorem le_abs_roundEven {x : ℚ} {m : ℤ} (h : (m : ℚ) ≤ |x|) : m ≤ |roundEven x| := by
  rcases abs_choice x with habs | habs
  · rw [habs] at h
    exact (le_roundEven h).trans (le_abs_self _)
  · rw [habs] at h
    have hle : roundEven x ≤ -m := by
      apply roundEven_le
      push_cast
      linarith
    have := neg_le_abs (roundEven x)
    omega

theorem abs_roundEven_le {x : ℚ} {m : ℤ} (h : |x| ≤ m) : |roundEven x| ≤ m := by
  obtain ⟨hlow, hhigh⟩ := abs_le.mp h
  refine abs_le.mpr ⟨le_roundEven ?_, roundEven_le hhigh⟩
  push_cast
  exact hlow

/-! ### Formats -/

/-- A floating-point format: `last e` is the exponent of the last digit of a number whose first digit has
exponent `e`. Where not even the first digit is kept, all smaller numbers share one last digit. -/
structure Format where
  base : ℕ
  one_lt : 1 < base
  last : ℤ → ℤ
  mono : Monotone last
  flat : ∀ e, e < last e → ∀ e' ≤ last e, last e' = last e

namespace Format

/-- Numbers with a fixed count of significant digits. -/
def digits (base : ℕ) (one_lt : 1 < base) (count : ℕ) : Format where
  base := base
  one_lt := one_lt
  last e := e - (count - 1 : ℕ)
  mono e e' h := by
    change e - _ ≤ e' - _
    omega
  flat e h := by
    omega

/-- Binary numbers with a fixed count of significant digits, above the least exponent. -/
def binary (count : ℕ) (least : ℤ) : Format where
  base := 2
  one_lt := by decide
  last e := max (e - (count - 1 : ℕ)) least
  mono e e' h := by
    change max _ _ ≤ max _ _
    omega
  flat e h e' he' := by
    omega

variable (f : Format)

/-- The unit of the last digit of `x`. -/
def unit (x : ℚ) : ℚ := (f.base : ℚ) ^ f.last (Int.log f.base |x|)

/-- Rounding to nearest, ties to even. -/
def round (x : ℚ) : ℚ := roundEven (x / f.unit x) * f.unit x

/-- `x` has no digits right of its last one. -/
def InFormat (x : ℚ) : Prop := ∃ m : ℤ, x = m * f.unit x

variable {f} {x y : ℚ}

theorem base_pos (f : Format) : (0 : ℚ) < f.base := by
  have := f.one_lt
  exact_mod_cast (by omega : 0 < f.base)

theorem unit_pos (f : Format) (x : ℚ) : 0 < f.unit x := zpow_pos f.base_pos _

theorem one_lt_base (f : Format) : (1 : ℚ) < f.base := by exact_mod_cast f.one_lt

/-- Powers of the base with larger exponents are multiples of those with smaller ones. -/
theorem zpow_eq_mul {e e' : ℤ} (h : e ≤ e') : ∃ m : ℤ, (f.base : ℚ) ^ e' = m * (f.base : ℚ) ^ e := by
  refine ⟨(f.base : ℤ) ^ (e' - e).toNat, ?_⟩
  push_cast
  rw [← zpow_natCast, ← zpow_add₀ f.base_pos.ne']
  congr 1
  omega

theorem round_zero : f.round 0 = 0 := by
  rw [round, zero_div]
  have h : roundEven 0 = 0 := by simpa using roundEven_intCast 0
  rw [h, Int.cast_zero, zero_mul]

/-- The rounding error is at most half a unit. -/
theorem abs_round_sub_le (x : ℚ) : |f.round x - x| ≤ f.unit x / 2 := by
  have hunit := f.unit_pos x
  have hx : f.round x - x = (roundEven (x / f.unit x) - x / f.unit x) * f.unit x := by
    rw [round]
    field_simp
  rw [hx, abs_mul, abs_of_pos hunit]
  nlinarith [abs_roundEven_sub_le (x / f.unit x)]

/-- No multiple of the unit of `x` is nearer to `x` than its rounded value. -/
theorem abs_round_sub_le_of_multiple {m : ℤ} (hy : y = m * f.unit x) : |f.round x - x| ≤ |y - x| := by
  have hunit := f.unit_pos x
  have hround : f.round x - x = (roundEven (x / f.unit x) - x / f.unit x) * f.unit x := by
    rw [round]
    field_simp
  have hother : y - x = (m - x / f.unit x) * f.unit x := by
    rw [hy]
    field_simp
  rw [hround, hother, abs_mul, abs_mul]
  exact mul_le_mul_of_nonneg_right (abs_roundEven_sub_le_abs _ m) (abs_nonneg _)

theorem zpow_log_le_abs (hx : x ≠ 0) : (f.base : ℚ) ^ Int.log f.base |x| ≤ |x| :=
  Int.zpow_log_le_self f.one_lt (abs_pos.mpr hx)

theorem abs_lt_zpow_log (f : Format) (x : ℚ) : |x| < (f.base : ℚ) ^ (Int.log f.base |x| + 1) :=
  Int.lt_zpow_succ_log_self f.one_lt |x|

theorem log_mono (hx : x ≠ 0) (h : |x| ≤ |y|) : Int.log f.base |x| ≤ Int.log f.base |y| :=
  Int.log_mono_right (abs_pos.mpr hx) h

/-- A number of the format is a multiple of the unit of every number that is not larger. -/
theorem InFormat.multiple (hy : f.InFormat y) (hx : x ≠ 0) (h : |x| ≤ |y|) :
    ∃ m : ℤ, y = m * f.unit x := by
  obtain ⟨m, hm⟩ := hy
  obtain ⟨n, hn⟩ := f.zpow_eq_mul (f.mono (log_mono (f := f) hx h))
  refine ⟨m * n, ?_⟩
  rw [hm, unit, hn, unit]
  push_cast
  ring

theorem log_eq {e : ℤ} (hlow : (f.base : ℚ) ^ e ≤ |x|) (hhigh : |x| < (f.base : ℚ) ^ (e + 1)) :
    Int.log f.base |x| = e := by
  have hx : 0 < |x| := (zpow_pos f.base_pos e).trans_le hlow
  have h1 := (Int.zpow_le_iff_le_log f.one_lt hx).mp hlow
  have h2 := (Int.lt_zpow_iff_log_lt f.one_lt hx).mp hhigh
  omega

theorem log_zpow (f : Format) (e : ℤ) : Int.log f.base ((f.base : ℚ) ^ e) = e :=
  Int.log_zpow f.one_lt e

/-- Where the first digit is kept, the power of the base below `x` is a multiple of its unit. -/
theorem zpow_log_multiple (h : f.last (Int.log f.base |x|) ≤ Int.log f.base |x|) :
    ∃ m : ℤ, (f.base : ℚ) ^ Int.log f.base |x| = m * f.unit x := f.zpow_eq_mul h

theorem last_le_succ {e : ℤ} (h : f.last e ≤ e) : f.last (e + 1) ≤ e + 1 := by
  by_contra hlt
  have hsame := f.flat (e + 1) (by omega) e (by omega)
  omega

/-- A number of the format that is smaller than `x` is a multiple of its unit, or farther from `x` than
the power of the base below it. -/
theorem InFormat.smaller (hy : f.InFormat y) (h : |y| < |x|) :
    (∃ m : ℤ, y = m * f.unit x) ∨ (f.last (Int.log f.base |x|) ≤ Int.log f.base |x| ∧
      |y| < (f.base : ℚ) ^ Int.log f.base |x|) := by
  obtain ⟨m, hm⟩ := hy
  by_cases hzero : y = 0
  · exact Or.inl ⟨0, by rw [hzero, Int.cast_zero, zero_mul]⟩
  rcases le_or_gt ((f.base : ℚ) ^ Int.log f.base |x|) |y| with hlow | hlow
  · have hlog : Int.log f.base |y| = Int.log f.base |x| :=
      log_eq hlow (h.trans (f.abs_lt_zpow_log x))
    exact Or.inl ⟨m, by rw [unit, ← hlog]; exact hm⟩
  · rcases le_or_gt (f.last (Int.log f.base |x|)) (Int.log f.base |x|) with hlast | hlast
    · exact Or.inr ⟨hlast, hlow⟩
    · have hle : Int.log f.base |y| ≤ Int.log f.base |x| := log_mono hzero h.le
      have hsame := f.flat _ hlast (Int.log f.base |y|) (by omega)
      exact Or.inl ⟨m, by rw [unit, ← hsame]; exact hm⟩

/-- **Rounding is to nearest.** No number of the format is nearer than the rounded value. -/
theorem abs_round_sub_le_of_inFormat (x : ℚ) (hy : f.InFormat y) : |f.round x - x| ≤ |y - x| := by
  by_cases hx : x = 0
  · rw [hx, round_zero, sub_zero, abs_zero]
    exact abs_nonneg _
  rcases le_or_gt |x| |y| with h | h
  · obtain ⟨m, hm⟩ := hy.multiple hx h
    exact abs_round_sub_le_of_multiple hm
  · rcases hy.smaller h with ⟨m, hm⟩ | ⟨hlast, hlow⟩
    · exact abs_round_sub_le_of_multiple hm
    · -- The power of the base below `x` is between `y` and `x`.
      obtain ⟨m, hm⟩ := f.zpow_log_multiple hlast
      have hpow := zpow_log_le_abs (f := f) hx
      have hpos : (0 : ℚ) < (f.base : ℚ) ^ Int.log f.base |x| := zpow_pos f.base_pos _
      have hyx := abs_sub_abs_le_abs_sub x y
      rw [abs_sub_comm x y] at hyx
      rcases lt_or_gt_of_ne hx with hneg | hpos'
      · have hmul : -(f.base : ℚ) ^ Int.log f.base |x| = (-m : ℤ) * f.unit x := by
          rw [hm]
          push_cast
          ring
        refine (abs_round_sub_le_of_multiple hmul).trans ?_
        rw [abs_of_neg hneg] at *
        rw [abs_of_nonneg (by linarith)]
        linarith
      · refine (abs_round_sub_le_of_multiple hm).trans ?_
        rw [abs_of_pos hpos'] at *
        rw [abs_of_nonpos (by linarith)]
        linarith

theorem InFormat.round_eq (h : f.InFormat x) : f.round x = x := by
  obtain ⟨m, hm⟩ := h
  have hdiv : x / f.unit x = m := by
    rw [div_eq_iff (f.unit_pos x).ne']
    exact hm
  rw [round, hdiv, roundEven_intCast]
  exact hm.symm

/-- A power of the base is of the format where its own digit is kept. -/
theorem inFormat_of_abs_eq_zpow {e : ℤ} (h : |x| = (f.base : ℚ) ^ e) (hlast : f.last e ≤ e) :
    f.InFormat x := by
  obtain ⟨m, hm⟩ := f.zpow_eq_mul hlast
  have hunit : f.unit x = (f.base : ℚ) ^ f.last e := by rw [unit, h, f.log_zpow]
  rcases abs_choice x with habs | habs
  · exact ⟨m, by rw [hunit, ← hm, ← h, habs]⟩
  · refine ⟨-m, ?_⟩
    push_cast
    rw [hunit, neg_mul, ← hm, ← h, habs, neg_neg]

/-- The rounded value is a number of the format. -/
theorem round_inFormat (f : Format) (x : ℚ) : f.InFormat (f.round x) := by
  by_cases hx : x = 0
  · rw [hx, round_zero]
    exact ⟨0, by rw [Int.cast_zero, zero_mul]⟩
  have hunit := f.unit_pos x
  have hlow := zpow_log_le_abs (f := f) hx
  have hhigh := f.abs_lt_zpow_log x
  have habs : |x / f.unit x| = |x| / f.unit x := by rw [abs_div, abs_of_pos hunit]
  have hr : |f.round x| = (|roundEven (x / f.unit x)| : ℤ) * f.unit x := by
    rw [round, abs_mul, abs_of_pos hunit, Int.cast_abs]
  rcases le_or_gt (f.last (Int.log f.base |x|)) (Int.log f.base |x|) with hlast | hlast
  · -- The first digit is kept, or it moves to the left of it.
    obtain ⟨n, hn⟩ := f.zpow_log_multiple hlast
    obtain ⟨n', hn'⟩ := f.zpow_eq_mul (hlast.trans (Int.le_add_one le_rfl))
    have hge : n ≤ |roundEven (x / f.unit x)| := by
      apply le_abs_roundEven
      rw [habs, le_div_iff₀ hunit, ← hn]
      exact hlow
    have hle : |roundEven (x / f.unit x)| ≤ n' := by
      apply abs_roundEven_le
      rw [habs, div_le_iff₀ hunit]
      exact hhigh.le.trans_eq hn'
    rcases hle.lt_or_eq with hlt | heq
    · have hlog : Int.log f.base |f.round x| = Int.log f.base |x| := by
        refine log_eq ?_ ?_
        · rw [hr, hn]
          exact mul_le_mul_of_nonneg_right (by exact_mod_cast hge) hunit.le
        · rw [hr, hn']
          exact mul_lt_mul_of_pos_right (by exact_mod_cast hlt) hunit
      have hsame : f.unit (f.round x) = f.unit x := by rw [unit, unit, hlog]
      refine ⟨roundEven (x / f.unit x), ?_⟩
      rw [hsame]
      rfl
    · refine inFormat_of_abs_eq_zpow ?_ (last_le_succ hlast)
      rw [hr, heq]
      exact hn'.symm
  · -- The number is below the last digit, and becomes zero or one unit.
    have hle : |roundEven (x / f.unit x)| ≤ 1 := by
      apply abs_roundEven_le
      rw [habs, div_le_iff₀ hunit, Int.cast_one, one_mul]
      exact hhigh.le.trans (zpow_le_zpow_right₀ f.one_lt_base.le (by omega))
    rcases (abs_nonneg (roundEven (x / f.unit x))).eq_or_lt with hzero | hpos
    · refine ⟨0, ?_⟩
      rw [round, abs_eq_zero.mp hzero.symm, Int.cast_zero, zero_mul, zero_mul]
    · have hone : |roundEven (x / f.unit x)| = 1 := by omega
      refine inFormat_of_abs_eq_zpow (e := f.last (Int.log f.base |x|)) ?_ ?_
      · rw [hr, hone, Int.cast_one, one_mul, unit]
      · rw [f.flat _ hlast _ le_rfl]

/-- Rounding keeps the order. -/
theorem round_mono (h : x ≤ y) : f.round x ≤ f.round y := by
  by_contra hlt
  rw [not_le] at hlt
  have hx := abs_round_sub_le_of_inFormat x (f.round_inFormat y)
  have hy := abs_round_sub_le_of_inFormat y (f.round_inFormat x)
  -- Each number is on its rounded value's side of the midpoint, so the two are the midpoint.
  have hxmid : (f.round x + f.round y) / 2 ≤ x := by
    by_contra hmid
    rw [abs_of_nonneg (by linarith)] at hx
    rcases abs_cases (f.round y - x) with ⟨h', -⟩ | ⟨h', -⟩ <;> linarith
  have hymid : y ≤ (f.round x + f.round y) / 2 := by
    by_contra hmid
    rw [abs_of_nonpos (by linarith)] at hy
    rcases abs_cases (f.round x - y) with ⟨h', -⟩ | ⟨h', -⟩ <;> linarith
  have hxy : x = y := by linarith
  rw [hxy] at hlt
  exact lt_irrefl _ hlt

end Format

end KernelGym.Library
