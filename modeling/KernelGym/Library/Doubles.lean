import KernelGym.Library.Rounding

/-! The double-precision numbers, and which of them survive that they are written with a few significant
decimal digits and read again. -/

namespace KernelGym.Library

open Format

def binary64 : Format := binary 53 (-1074)

def decimal (count : ℕ) : Format := digits 10 (by decide) count

/-- Finite doubles are below this bound. -/
def doubleBound : ℚ := 2 ^ 1024

/-- `x` is the value of a finite double. -/
def IsDouble (x : ℚ) : Prop := binary64.InFormat x ∧ |x| < doubleBound

variable {q w x : ℚ} {n : ℕ}

/-- Two decimals are at least as far apart as their digits reach. -/
theorem decimal_spacing {b : ℕ} {hb : 1 < b} (hn : 0 < n) (hw : (digits b hb n).InFormat w)
    (hx : (digits b hb n).InFormat x) (hle : |w| ≤ |x|) (hne : w ≠ x) :
    |w| / (b : ℚ) ^ n ≤ |w - x| := by
  by_cases hzero : w = 0
  · rw [hzero, abs_zero, zero_div]
    exact abs_nonneg _
  obtain ⟨k, hk⟩ := hx.multiple hzero hle
  obtain ⟨m, hm⟩ := hw
  have hunit := (digits b hb n).unit_pos w
  have hdist : (digits b hb n).unit w ≤ |w - x| := by
    have hmk : m ≠ k := by
      rintro rfl
      exact hne (hm.trans hk.symm)
    have hone : (1 : ℚ) ≤ |(m : ℚ) - k| := by
      have : (1 : ℤ) ≤ |m - k| := Int.one_le_abs (sub_ne_zero.mpr hmk)
      exact_mod_cast this
    have heq : w - x = ((m : ℚ) - k) * (digits b hb n).unit w := by
      rw [sub_mul, ← hm, ← hk]
    rw [heq, abs_mul, abs_of_pos hunit]
    nlinarith
  refine le_trans ?_ hdist
  have hpos : (0 : ℚ) < b := (digits b hb n).base_pos
  have hlog := (digits b hb n).abs_lt_zpow_log w
  rw [div_le_iff₀ (pow_pos hpos n)]
  refine hlog.le.trans ?_
  change (b : ℚ) ^ (Int.log b |w| + 1) ≤ (b : ℚ) ^ (Int.log b |w| - (n - 1 : ℕ)) * (b : ℚ) ^ n
  rw [← zpow_natCast, ← zpow_add₀ hpos.ne']
  refine zpow_le_zpow_right₀ (digits b hb n).one_lt_base.le ?_
  omega

/-! ### Doubles -/

theorem unit_binary64 (x : ℚ) : binary64.unit x = 2 ^ max (Int.log 2 |x| - 52) (-1074) := rfl

/-- In the normal range the unit of a double is small beside it. -/
theorem unit_le_of_normal (hx : x ≠ 0) (h : -1022 ≤ Int.log 2 |x|) :
    binary64.unit x ≤ |x| / 2 ^ 52 := by
  have hlow : (2 : ℚ) ^ Int.log 2 |x| ≤ |x| := zpow_log_le_abs (f := binary64) hx
  rw [unit_binary64, max_eq_left (by omega), zpow_sub₀ (by norm_num)]
  exact div_le_div_of_nonneg_right hlow (by norm_num)

/-- Below it all doubles share the least unit. -/
theorem unit_of_subnormal (h : Int.log 2 |x| ≤ -1022) : binary64.unit x = 2 ^ (-1074 : ℤ) := by
  rw [unit_binary64, max_eq_right (by omega)]

/-- **A decimal with few digits survives.** What reads a decimal with at most `n` digits as a double, writes
it with `n` digits and reads it again arrives at the same double. -/
theorem round_round_round (hn : 0 < n) (hfew : (10 : ℚ) ^ n < 2 ^ 51) (hq : (decimal n).InFormat q) :
    binary64.round ((decimal n).round (binary64.round q)) = binary64.round q := by
  set x := binary64.round q with hx
  set w := (decimal n).round x with hw
  by_cases hwq : w = q
  · rw [hwq]
  have hw' : (decimal n).InFormat w := round_inFormat _ x
  have hnear : |w - x| ≤ |q - x| := abs_round_sub_le_of_inFormat x hq
  have hqx : |q - x| ≤ binary64.unit q / 2 := by
    rw [abs_sub_comm]
    exact abs_round_sub_le q
  have hzero : q ≠ 0 := by
    intro hzero
    refine hwq ?_
    rw [hw, hx, hzero, Format.round_zero, Format.round_zero]
  rcases le_or_gt (-1022) (Int.log 2 |q|) with hnormal | hsubnormal
  · -- Two decimals with `n` digits are farther apart than the unit of a double.
    exfalso
    have hunit := unit_le_of_normal hzero hnormal
    have hqpos := abs_pos.mpr hzero
    have hdist : |w - q| ≤ |q| / 2 ^ 52 := by
      have := abs_sub_le w x q
      rw [abs_sub_comm x q] at this
      linarith
    have hhalf : |q| / 2 ≤ |w| := by
      have := abs_sub_abs_le_abs_sub q w
      rw [abs_sub_comm q w] at this
      linarith
    have hspacing : |q| / 2 / 10 ^ n ≤ |w - q| := by
      have hpow : (0 : ℚ) < 10 ^ n := by positivity
      rcases le_total |w| |q| with hle | hle
      · refine le_trans ?_ (decimal_spacing hn hw' hq hle hwq)
        exact div_le_div_of_nonneg_right hhalf hpow.le
      · rw [abs_sub_comm]
        refine le_trans ?_ (decimal_spacing hn hq hw' hle (Ne.symm hwq))
        exact div_le_div_of_nonneg_right (by linarith) hpow.le
    have hless : |q| / 2 ^ 52 < |q| / 2 / 10 ^ n := by
      rw [div_div]
      refine div_lt_div_of_pos_left hqpos (by positivity) ?_
      calc (2 : ℚ) * 10 ^ n < 2 * 2 ^ 51 := by linarith
        _ = 2 ^ 52 := by norm_num
    linarith
  · -- The doubles near `x` are all multiples of the least unit.
    have hu : binary64.unit q = 2 ^ (-1074 : ℤ) := unit_of_subnormal (by omega)
    set u : ℚ := 2 ^ (-1074 : ℤ) with hu'
    have hupos : 0 < u := zpow_pos (by norm_num) _
    have hxu : x = roundEven (q / u) * u := by rw [hx, Format.round, hu]
    by_cases hwzero : w = 0
    · rw [hwzero, Format.round_zero]
      have hsmall : |(roundEven (q / u) : ℚ)| * u ≤ u / 2 := by
        rw [hwzero, zero_sub, abs_neg] at hnear
        rw [hxu, abs_mul, abs_of_pos hupos] at hnear
        rw [hu, hxu] at hqx
        exact hnear.trans hqx
      have hint : |roundEven (q / u)| < 1 := by
        have : |(roundEven (q / u) : ℚ)| < 1 := by nlinarith
        exact_mod_cast this
      rw [hxu, Int.abs_lt_one_iff.mp hint, Int.cast_zero, zero_mul]
    · have hlog : Int.log 2 |w| ≤ -1022 := by
        have hwpos := abs_pos.mpr hwzero
        have hqlt : |q| < 2 ^ (-1022 : ℤ) := (Int.lt_zpow_iff_log_lt (by decide)
          (abs_pos.mpr hzero)).mpr hsubnormal
        have hwlt : |w| < 2 ^ (-1021 : ℤ) := by
          have h1 := abs_sub_abs_le_abs_sub w q
          have h2 := abs_sub_le w x q
          rw [abs_sub_comm x q] at h2
          rw [hu] at hqx
          have hpow : (2 : ℚ) ^ (-1021 : ℤ) = 2 ^ (-1022 : ℤ) * 2 :=
            zpow_add_one₀ two_ne_zero (-1022)
          have hle : u ≤ 2 ^ (-1022 : ℤ) := zpow_le_zpow_right₀ (by norm_num) (by norm_num)
          linarith
        have := (Int.lt_zpow_iff_log_lt (b := 2) (by decide) hwpos).mp hwlt
        omega
      have hwu : binary64.unit w = u := unit_of_subnormal hlog
      have hround : roundEven (w / u) = roundEven (q / u) := by
        apply roundEven_of_not_farther
        have hscale : ∀ y, |y / u - roundEven (q / u)| = |y - x| / u := by
          intro y
          rw [hxu, ← abs_of_pos hupos, ← abs_div, abs_of_pos hupos, sub_div, mul_div_cancel_right₀ _
            hupos.ne']
        rw [hscale, hscale]
        exact div_le_div_of_nonneg_right hnear hupos.le
      rw [Format.round, hwu, hround, ← hxu]

/-- Integers of moderate size are doubles. -/
theorem isDouble_intCast {m : ℤ} (h : |m| < 2 ^ 53) : IsDouble m := by
  have hcast : |(m : ℚ)| < 2 ^ 53 := by exact_mod_cast h
  refine ⟨?_, hcast.trans ?_⟩
  · by_cases hzero : m = 0
    · exact ⟨0, by rw [hzero, Int.cast_zero, zero_mul]⟩
    have hpos : (0 : ℚ) < |(m : ℚ)| := abs_pos.mpr (by exact_mod_cast hzero)
    have hlog : Int.log 2 |(m : ℚ)| < 53 := (Int.lt_zpow_iff_log_lt (by decide) hpos).mp hcast
    obtain ⟨k, hk⟩ := binary64.zpow_eq_mul (show max (Int.log 2 |(m : ℚ)| - 52) (-1074) ≤ 0 by omega)
    rw [zpow_zero] at hk
    refine ⟨m * k, ?_⟩
    rw [Int.cast_mul, mul_assoc]
    change (m : ℚ) = m * (k * 2 ^ max (Int.log 2 |(m : ℚ)| - 52) (-1074))
    have hk' : (k : ℚ) * 2 ^ max (Int.log 2 |(m : ℚ)| - 52) (-1074) = 1 := hk.symm
    rw [hk', mul_one]
  · exact pow_lt_pow_right₀ (by norm_num) (by norm_num)

/-! ### Sums -/

/-- A double that is neither negative nor NaN. -/
structure Duration where
  value : WithTop ℚ
  nonneg : 0 ≤ value
  isDouble : ∀ x : ℚ, value = x → IsDouble x

/-- The double nearest to a number that is not negative, or infinity. -/
def saturate (x : ℚ) : WithTop ℚ := if binary64.round x < doubleBound then (binary64.round x : ℚ) else ⊤

theorem saturate_mono (h : x ≤ q) : saturate x ≤ saturate q := by
  unfold saturate
  have hround := binary64.round_mono h
  split_ifs with hx hq
  · exact_mod_cast hround
  · exact le_top
  · exact absurd (hround.trans_lt ‹_›) hx
  · exact le_top

theorem saturate_of_isDouble (h : IsDouble x) : saturate x = x := by
  rw [saturate, h.1.round_eq, if_pos (abs_lt.mp h.2).2]

/-- `a + b` of doubles that are not negative. -/
def addDoubles : WithTop ℚ → WithTop ℚ → WithTop ℚ
  | some a, some b => saturate (a + b)
  | _, _ => ⊤

theorem saturate_nonneg (h : 0 ≤ x) : 0 ≤ saturate x := by
  have hzero : saturate 0 = 0 := saturate_of_isDouble (by exact_mod_cast isDouble_intCast (m := 0) (by norm_num))
  exact hzero ▸ saturate_mono h

theorem isDouble_of_saturate (h : 0 ≤ x) (hq : saturate x = q) : IsDouble q := by
  have hround : 0 ≤ binary64.round x := by
    have := binary64.round_mono h
    rwa [binary64.round_zero] at this
  unfold saturate at hq
  split_ifs at hq with hlt
  · have hq : binary64.round x = q := by exact_mod_cast hq
    rw [← hq]
    exact ⟨binary64.round_inFormat x, by rwa [abs_of_nonneg hround]⟩
  · exact absurd hq.symm (WithTop.coe_ne_top)

namespace Duration

variable {a b c : Duration}

def zero : Duration where
  value := 0
  nonneg := le_rfl
  isDouble x hx := by
    have hx : (0 : ℚ) = x := by exact_mod_cast hx
    rw [← hx]
    exact_mod_cast isDouble_intCast (m := 0) (by norm_num)

def add (a b : Duration) : Duration where
  value := addDoubles a.value b.value
  nonneg := by
    obtain ⟨_ | a, ha, _⟩ := a
    · exact le_top
    obtain ⟨_ | b, hb, _⟩ := b
    · exact le_top
    exact saturate_nonneg (add_nonneg (WithTop.coe_le_coe.mp ha) (WithTop.coe_le_coe.mp hb))
  isDouble q hq := by
    obtain ⟨_ | a, ha, _⟩ := a
    · exact absurd hq.symm WithTop.coe_ne_top
    obtain ⟨_ | b, hb, _⟩ := b
    · exact absurd hq.symm WithTop.coe_ne_top
    exact isDouble_of_saturate (add_nonneg (WithTop.coe_le_coe.mp ha) (WithTop.coe_le_coe.mp hb)) hq

theorem add_mono (h : a.value ≤ b.value) (c : Duration) : (a.add c).value ≤ (b.add c).value := by
  obtain ⟨_ | b, _, _⟩ := b
  · exact le_top
  obtain ⟨_ | a, _, _⟩ := a
  · exact absurd (WithTop.top_le_iff.mp h) WithTop.coe_ne_top
  obtain ⟨_ | c, _, _⟩ := c
  · exact le_top
  have hab : a ≤ b := WithTop.coe_le_coe.mp h
  exact saturate_mono (by linarith)

/-- A sum is not less than its first part. -/
theorem le_add (a c : Duration) : a.value ≤ (a.add c).value := by
  obtain ⟨_ | a, _, hdouble⟩ := a
  · exact le_rfl
  obtain ⟨_ | c, hc, _⟩ := c
  · exact le_top
  have hc' : 0 ≤ c := WithTop.coe_le_coe.mp hc
  have ha' : saturate a = a := saturate_of_isDouble (hdouble a rfl)
  change ((a : ℚ) : WithTop ℚ) ≤ saturate (a + c)
  rw [← ha']
  exact saturate_mono (by linarith)

end Duration

end KernelGym.Library
