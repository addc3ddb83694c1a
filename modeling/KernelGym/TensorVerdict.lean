import KernelGym.TensorCompare
import Mathlib.Data.NNRat.Defs
import Mathlib.Tactic.Linarith

/-! When the detailed comparison of two tensors is right: it accepts what is within the tolerance, apart from
infinite references and from signed integers whose difference or magnitude wraps. -/

namespace KernelGym.Correctness

open Library

/-! ### The specification -/

/-- The pair of elements is within the tolerance; NaN and infinite values never are. -/
def Within (hypot : ℚ → ℚ → ℚ) (atol rtol : ℚ) : (k : Kind) → k.Element × k.Element → Prop
  | .bool, e | .uint8, e => e.1 = e.2
  | .signed w, e =>
    let r : ℤ := (show BitVec (w + 1) from e.1).toInt
    let c : ℤ := (show BitVec (w + 1) from e.2).toInt
    |(r : ℚ) - c| ≤ atol + rtol * |(r : ℚ)|
  | .floating, e =>
    match (show Extended from e.1), (show Extended from e.2) with
    | .finite r, .finite c => |r - c| ≤ atol + rtol * |r|
    | _, _ => False
  | .complex, e =>
    match (show Complex from e.1), (show Complex from e.2) with
    | ⟨.finite r, .finite i⟩, ⟨.finite r', .finite i'⟩ => hypot (r - r') (i - i') ≤ atol + rtol * hypot r i
    | _, _ => False

/-- The magnitude of a reference as it is stored: that of the least integer is the least integer. -/
def storedMagnitude (w : ℕ) (r : ℤ) : ℤ := if r = -2 ^ w then -2 ^ w else |r|

/-- The distance of two integers as it is stored. -/
def storedDistance (w : ℕ) (d : ℤ) : ℤ :=
  if |d| < 2 ^ w then |d| else if |d| = 2 ^ w then -2 ^ w else 2 * 2 ^ w - |d|

/-- A pair beyond the tolerance that the comparison accepts: the reference and the difference are infinite, or
the difference of two integers wraps into the tolerance. -/
def WronglyAccepted (hypot : ℚ → ℚ → ℚ) (atol rtol : ℚ) : (k : Kind) → k.Element × k.Element → Prop
  | .bool, _ | .uint8, _ => False
  | .signed w, e =>
    let r : ℤ := (show BitVec (w + 1) from e.1).toInt
    let c : ℤ := (show BitVec (w + 1) from e.2).toInt
    ¬Within hypot atol rtol (.signed w) e ∧ 2 ^ w ≤ |r - c| ∧
      (storedDistance w (r - c) : ℚ) ≤ atol + rtol * storedMagnitude w r
  | .floating, e =>
    let r : Extended := e.1
    let c : Extended := e.2
    0 < rtol ∧ r.isInf = true ∧ c ≠ .nan ∧ c ≠ r
  | .complex, e =>
    let r : Complex := e.1
    let c : Complex := e.2
    0 < rtol ∧ r.isInf = true ∧ (r.sub c).isInf = true

/-- A pair within the tolerance that the comparison rejects: the tolerance of the least integer is too small. -/
def WronglyRejected (hypot : ℚ → ℚ → ℚ) (atol rtol : ℚ) : (k : Kind) → k.Element × k.Element → Prop
  | .signed w, e =>
    let r : ℤ := (show BitVec (w + 1) from e.1).toInt
    let c : ℤ := (show BitVec (w + 1) from e.2).toInt
    Within hypot atol rtol (.signed w) e ∧ r = -2 ^ w ∧ atol - rtol * 2 ^ w < storedDistance w (r - c)
  | _, _ => False

/-- No wrongly judged element decides the verdict: with a wrongly accepted one there is a rejected one, and with
a wrongly rejected one there is one beyond the tolerance. -/
def Decided (hypot : ℚ → ℚ → ℚ) (atol rtol : ℚ) {k : Kind} (elements : List (k.Element × k.Element)) : Prop :=
  ((∃ e ∈ elements, WronglyAccepted hypot atol rtol k e) →
      ∃ e ∈ elements, (¬Within hypot atol rtol k e ∧ ¬WronglyAccepted hypot atol rtol k e) ∨
        WronglyRejected hypot atol rtol k e) ∧
    ((∃ e ∈ elements, WronglyRejected hypot atol rtol k e) → ∃ e ∈ elements, ¬Within hypot atol rtol k e)

/-! ### Signed integers -/

variable {w : ℕ} {hypot : ℚ → ℚ → ℚ} {atol rtol : ℚ}

theorem toInt_bounds (x : BitVec (w + 1)) : -2 ^ w ≤ x.toInt ∧ x.toInt < 2 ^ w := by
  have hlow := x.le_toInt
  have hhigh := BitVec.toInt_lt (x := x)
  rw [Nat.add_sub_cancel] at hlow hhigh
  exact ⟨hlow, hhigh⟩

theorem abs_toInt (x : BitVec (w + 1)) : x.abs.toInt = storedMagnitude w x.toInt := by
  have hmin : (BitVec.intMin (w + 1)).toInt = -2 ^ w := BitVec.toInt_intMin_of_pos (Nat.succ_pos w)
  rw [BitVec.toInt_abs_eq_natAbs, storedMagnitude]
  by_cases hx : x = BitVec.intMin (w + 1)
  · rw [if_pos hx, hx, hmin, if_pos rfl]
  · have hne : x.toInt ≠ -2 ^ w := fun h => hx (BitVec.eq_of_toInt_eq (h.trans hmin.symm))
    rw [if_neg hx, if_neg hne, Int.natCast_natAbs]

/-- How a difference of two integers wraps. -/
theorem bmod_difference {d : ℤ} (hlow : -(2 * 2 ^ w) < d) (hhigh : d < 2 * 2 ^ w) :
    d.bmod (2 ^ (w + 1)) = if d < -2 ^ w then d + 2 * 2 ^ w else if d < 2 ^ w then d else d - 2 * 2 ^ w := by
  have hwidth : ((2 ^ (w + 1) : ℕ) : ℤ) = 2 * 2 ^ w := by
    push_cast
    rw [pow_succ, mul_comm]
  have hpos : (0 : ℤ) < 2 ^ w := by positivity
  generalize hM : (2 : ℤ) ^ w = M at *
  rw [Int.bmod_eq_iff (by positivity), hwidth]
  split_ifs
  · exact ⟨by omega, by omega, 1, by omega⟩
  · exact ⟨by omega, by omega, 0, by omega⟩
  · exact ⟨by omega, by omega, -1, by omega⟩

theorem sub_abs_toInt (x y : BitVec (w + 1)) : (x - y).abs.toInt = storedDistance w (x.toInt - y.toInt) := by
  obtain ⟨hx, hx'⟩ := toInt_bounds x
  obtain ⟨hy, hy'⟩ := toInt_bounds y
  rw [abs_toInt, BitVec.toInt_sub, bmod_difference (by omega) (by omega)]
  have hpos : (0 : ℤ) < 2 ^ w := by positivity
  unfold storedMagnitude storedDistance
  generalize (2 : ℤ) ^ w = M at *
  generalize x.toInt = r at *
  generalize y.toInt = c at *
  generalize hd : r - c = d
  have habs (e : ℤ) : |e| = if e < 0 then -e else e := by
    split_ifs with hneg
    · exact abs_of_neg hneg
    · exact abs_of_nonneg (by omega)
  simp only [habs]
  split_ifs <;> omega

theorem storedDistance_le (d : ℤ) : storedDistance w d ≤ |d| := by
  have hpos : (0 : ℤ) < 2 ^ w := by positivity
  unfold storedDistance
  split_ifs <;> omega

theorem storedMagnitude_le (r : ℤ) : storedMagnitude w r ≤ |r| := by
  have hpos : (0 : ℤ) < 2 ^ w := by positivity
  have hnonneg := abs_nonneg r
  unfold storedMagnitude
  split_ifs <;> omega

/-! ### One element -/

/-- What the branch of the kind computes for one pair. -/
def Accepts (hypot : ℚ → ℚ → ℚ) (atol rtol : ℚ) : (k : Kind) → k.Element × k.Element → Prop
  | .bool, e | .uint8, e => e.1 = e.2
  | .signed w, e =>
    let m := measureSigned (w := w) atol rtol e
    m.1.le m.2 = true
  | .floating, e =>
    let m := measureFloating atol rtol e
    m.1.le m.2 = true
  | .complex, e =>
    let m := measureComplex hypot atol rtol e
    m.1.le m.2 = true

theorem accepts_signed_iff {e : BitVec (w + 1) × BitVec (w + 1)} :
    Accepts hypot atol rtol (.signed w) e ↔
      (storedDistance w (e.1.toInt - e.2.toInt) : ℚ) ≤ storedMagnitude w e.1.toInt * rtol + atol := by
  have hmeasured : (measureSigned atol rtol e).1.le (measureSigned atol rtol e).2 = true ↔
      (storedDistance w (e.1.toInt - e.2.toInt) : ℚ) ≤ storedMagnitude w e.1.toInt * rtol + atol := by
    unfold measureSigned
    rw [Extended.le_finite, decide_eq_true_iff, sub_abs_toInt, abs_toInt]
  exact hmeasured

theorem within_signed_iff {e : BitVec (w + 1) × BitVec (w + 1)} :
    Within hypot atol rtol (.signed w) e ↔
      ((|e.1.toInt - e.2.toInt| : ℤ) : ℚ) ≤ atol + rtol * (|e.1.toInt| : ℤ) := by
  push_cast
  exact Iff.rfl

theorem wronglyAccepted_signed_iff {e : BitVec (w + 1) × BitVec (w + 1)} :
    WronglyAccepted hypot atol rtol (.signed w) e ↔
      ¬Within hypot atol rtol (.signed w) e ∧ 2 ^ w ≤ |e.1.toInt - e.2.toInt| ∧
        (storedDistance w (e.1.toInt - e.2.toInt) : ℚ) ≤ atol + rtol * storedMagnitude w e.1.toInt :=
  Iff.rfl

theorem wronglyRejected_signed_iff {e : BitVec (w + 1) × BitVec (w + 1)} :
    WronglyRejected hypot atol rtol (.signed w) e ↔
      Within hypot atol rtol (.signed w) e ∧ e.1.toInt = -2 ^ w ∧
        atol - rtol * 2 ^ w < storedDistance w (e.1.toInt - e.2.toInt) :=
  Iff.rfl

/-- A verdict on a signed pair is wrong only where the difference wraps or the reference is the least integer. -/
theorem judged_signed (hrtol : 0 ≤ rtol) (e : BitVec (w + 1) × BitVec (w + 1)) :
    Accepts hypot atol rtol (.signed w) e ↔
      (Within hypot atol rtol (.signed w) e ∧ ¬WronglyRejected hypot atol rtol (.signed w) e) ∨
        WronglyAccepted hypot atol rtol (.signed w) e := by
  rw [accepts_signed_iff, wronglyRejected_signed_iff, wronglyAccepted_signed_iff, within_signed_iff]
  generalize e.1.toInt = r
  generalize r - e.2.toInt = d
  have hmin : r = -2 ^ w → (storedMagnitude w r : ℚ) = -2 ^ w := fun h => by
    rw [storedMagnitude, if_pos h]
    push_cast
    rfl
  constructor
  · intro haccept
    by_cases hin : ((|d| : ℤ) : ℚ) ≤ atol + rtol * (|r| : ℤ)
    · refine Or.inl ⟨hin, fun hreject => ?_⟩
      obtain ⟨-, hr, hlt⟩ := hreject
      rw [hmin hr] at haccept
      linarith
    · refine Or.inr ⟨hin, ?_, by linarith⟩
      by_contra hsmall
      have hexact : storedDistance w d = |d| := if_pos (not_le.mp hsmall)
      have hscaled : (storedMagnitude w r : ℚ) * rtol ≤ (|r| : ℤ) * rtol :=
        mul_le_mul_of_nonneg_right (by exact_mod_cast storedMagnitude_le r) hrtol
      rw [hexact] at haccept
      exact hin (by linarith)
  · rintro (⟨hin, hnot⟩ | ⟨-, -, hle⟩)
    · by_cases hr : r = -2 ^ w
      · have hnlt : ¬atol - rtol * 2 ^ w < storedDistance w d := fun h => hnot ⟨hin, hr, h⟩
        rw [hmin hr]
        linarith
      · have hstored : storedMagnitude w r = |r| := if_neg hr
        have hdistance : (storedDistance w d : ℚ) ≤ (|d| : ℤ) := by exact_mod_cast storedDistance_le d
        rw [hstored]
        linarith
    · linarith

/-- A verdict on a pair of floats is wrong only where the reference is infinite. -/
theorem judged_floating (hrtol : 0 ≤ rtol) (r c : Extended) :
    (measureFloating atol rtol (r, c)).1.le (measureFloating atol rtol (r, c)).2 = true ↔
      Within hypot atol rtol .floating (r, c) ∨ WronglyAccepted hypot atol rtol .floating (r, c) := by
  unfold measureFloating Within WronglyAccepted
  cases r with
  | nan => simp [Extended.isInf]
  | finite r =>
      cases c with
      | finite c => simp [Extended.isInf, abs_sub_comm, add_comm, mul_comm]
      | infinite negative => simp [Extended.isInf]
      | nan => simp
  | infinite negative =>
      rcases hrtol.eq_or_lt with rfl | hpos
      · simp [Extended.infinite_mul_zero]
      · cases c with
        | finite c => simp [Extended.isInf, Extended.infinite_mul_of_pos hpos, hpos]
        | infinite negative' =>
            by_cases hsign : negative' = negative
            · simp [Extended.infinite_mul_of_pos hpos, Extended.infinite_sub_infinite, hsign]
            · simp [Extended.isInf, Extended.infinite_mul_of_pos hpos, Extended.infinite_sub_infinite, hpos, hsign]
        | nan => simp

theorem abs_of_isInf {z : Complex} (h : z.isInf = true) : z.abs hypot = .infinite false := if_pos h

theorem abs_finite (x y : ℚ) : (Complex.mk (.finite x) (.finite y)).abs hypot = .finite (hypot x y) := rfl

/-- A complex number is infinite, or both parts are finite, or its magnitude is NaN. -/
theorem complex_cases (z : Complex) :
    z.isInf = true ∨ (∃ x y, z = ⟨.finite x, .finite y⟩) ∨ (z.isNan = true ∧ z.isInf = false) := by
  obtain ⟨re, im⟩ := z
  cases re <;> cases im <;> simp [Complex.isInf, Complex.isNan, Extended.isInf, Extended.isNan]

theorem abs_of_isNan {z : Complex} (hnan : z.isNan = true) (hinf : z.isInf = false) : z.abs hypot = .nan := by
  obtain ⟨re, im⟩ := z
  cases re <;> cases im <;> simp_all [Complex.isInf, Complex.isNan, Complex.abs, Extended.isInf, Extended.isNan]

theorem isInf_iff {a : Extended} : a.isInf = true ↔ ∃ negative, a = .infinite negative := by
  cases a <;> simp [Extended.isInf]

/-- Subtracting from an infinite complex number leaves no finite one. -/
theorem sub_ne_finite {r : Complex} (hinf : r.isInf = true) (c : Complex) (x y : ℚ) :
    r.sub c ≠ ⟨.finite x, .finite y⟩ := by
  intro h
  injection h with hre him
  rcases (Bool.or_eq_true _ _).mp hinf with hpart | hpart
  · obtain ⟨negative, hpart⟩ := isInf_iff.mp hpart
    exact Extended.infinite_sub_ne_finite (hpart ▸ hre)
  · obtain ⟨negative, hpart⟩ := isInf_iff.mp hpart
    exact Extended.infinite_sub_ne_finite (hpart ▸ him)

theorem not_within_complex {r c : Complex} (h : ∀ x y, r ≠ ⟨.finite x, .finite y⟩) :
    ¬Within hypot atol rtol .complex (r, c) := by
  obtain ⟨re, im⟩ := r
  intro hwithin
  cases re <;> cases im <;> first | exact hwithin | exact h _ _ rfl

/-- A verdict on a pair of complex numbers is wrong only where the reference is infinite. -/
theorem judged_complex (hrtol : 0 ≤ rtol) (r c : Complex) :
    (measureComplex hypot atol rtol (r, c)).1.le (measureComplex hypot atol rtol (r, c)).2 = true ↔
      Within hypot atol rtol .complex (r, c) ∨ WronglyAccepted hypot atol rtol .complex (r, c) := by
  have haccepted : WronglyAccepted hypot atol rtol .complex (r, c) ↔
      0 < rtol ∧ r.isInf = true ∧ (r.sub c).isInf = true := Iff.rfl
  rw [haccepted]
  unfold measureComplex
  rcases complex_cases r with hinf | ⟨x, y, rfl⟩ | ⟨hnan, hinf⟩
  · have hnot : ¬Within hypot atol rtol .complex (r, c) := not_within_complex fun x y h => by
      rw [h] at hinf
      exact Bool.noConfusion hinf
    rw [abs_of_isInf hinf]
    rcases hrtol.eq_or_lt with rfl | hpos
    · simp [Extended.infinite_mul_zero, hnot]
    · rw [Extended.infinite_mul_of_pos hpos, Extended.infinite_add_finite]
      rcases complex_cases (r.sub c) with hdiff | ⟨x, y, hdiff⟩ | ⟨hdiff, hdiff'⟩
      · simp [abs_of_isInf hdiff, hdiff, hinf, hpos]
      · exact absurd hdiff (sub_ne_finite hinf c x y)
      · simp [abs_of_isNan hdiff hdiff', hdiff', hnot]
  · have hfinite : (Complex.mk (.finite x) (.finite y)).isInf = false := rfl
    rw [abs_finite, Extended.mul_finite, Extended.add_finite, hfinite]
    obtain ⟨re, im⟩ := c
    cases re <;> cases im <;>
      simp [Complex.sub, Complex.abs, Complex.isInf, Extended.isInf, Within, add_comm, mul_comm]
  · have hnot : ¬Within hypot atol rtol .complex (r, c) := not_within_complex fun x y h => by
      rw [h] at hnan
      exact Bool.noConfusion hnan
    simp [abs_of_isNan hnan hinf, hnot, hinf]

theorem judged (hrtol : 0 ≤ rtol) (k : Kind) (e : k.Element × k.Element) :
    Accepts hypot atol rtol k e ↔
      (Within hypot atol rtol k e ∧ ¬WronglyRejected hypot atol rtol k e) ∨ WronglyAccepted hypot atol rtol k e := by
  cases k with
  | bool => exact ⟨fun h => Or.inl ⟨h, id⟩, fun h => h.elim And.left False.elim⟩
  | uint8 => exact ⟨fun h => Or.inl ⟨h, id⟩, fun h => h.elim And.left False.elim⟩
  | signed w => exact judged_signed hrtol e
  | floating => exact (judged_floating hrtol e.1 e.2).trans (or_congr_left (and_iff_left id).symm)
  | complex => exact (judged_complex hrtol e.1 e.2).trans (or_congr_left (and_iff_left id).symm)

theorem not_within_of_wronglyAccepted (k : Kind) (e : k.Element × k.Element)
    (h : WronglyAccepted hypot atol rtol k e) : ¬Within hypot atol rtol k e := by
  cases k with
  | bool => exact h.elim
  | uint8 => exact h.elim
  | signed w => exact h.1
  | floating =>
      obtain ⟨negative, hinf⟩ := isInf_iff.mp h.2.1
      obtain ⟨r, c⟩ := e
      obtain rfl : r = .infinite negative := hinf
      exact id
  | complex =>
      refine not_within_complex fun x y hfinite => ?_
      have hinf : Complex.isInf e.1 = true := h.2.1
      rw [hfinite] at hinf
      exact Bool.noConfusion hinf

/-! ### The verdict -/

/-- A conjunction of verdicts is right exactly when no wrong one decides it. -/
theorem forall_iff_forall_iff_decided {E : Type} {accepts within accepted rejected : E → Prop}
    (hjudged : ∀ e, accepts e ↔ (within e ∧ ¬rejected e) ∨ accepted e) (haccepted : ∀ e, accepted e → ¬within e)
    (hrejected : ∀ e, rejected e → within e) (elements : List E) :
    ((∀ e ∈ elements, accepts e) ↔ ∀ e ∈ elements, within e) ↔
      ((∃ e ∈ elements, accepted e) → ∃ e ∈ elements, (¬within e ∧ ¬accepted e) ∨ rejected e) ∧
        ((∃ e ∈ elements, rejected e) → ∃ e ∈ elements, ¬within e) := by
  have hnot (e : E) : ¬accepts e ↔ (¬within e ∧ ¬accepted e) ∨ rejected e := by
    have := haccepted e
    have := hrejected e
    rw [hjudged]
    tauto
  constructor
  · intro hsame
    constructor
    · rintro ⟨e, he, hwrong⟩
      by_contra hnone
      refine haccepted e hwrong (hsame.mp (fun e' he' => ?_) e he)
      by_contra hno
      exact hnone ⟨e', he', (hnot e').mp hno⟩
    · rintro ⟨e, he, hwrong⟩
      by_contra hnone
      refine (hnot e).mpr (Or.inr hwrong) (hsame.mpr (fun e' he' => ?_) e he)
      by_contra hno
      exact hnone ⟨e', he', hno⟩
  · rintro ⟨hacc, hrej⟩
    constructor
    · intro hall e he
      by_contra hout
      have hwrong : accepted e := (((hjudged e).mp (hall e he)).resolve_left fun h => hout h.1)
      obtain ⟨e', he', hno⟩ := hacc ⟨e, he, hwrong⟩
      exact (hnot e').mpr hno (hall e' he')
    · intro hall e he
      by_contra hno
      have hwrong : rejected e := ((hnot e).mp hno).resolve_left fun h => h.1 (hall e he)
      obtain ⟨e', he', hout⟩ := hrej ⟨e, he, hwrong⟩
      exact hout (hall e' he')

theorem count_map_eq_zero {E : Type} {bad : E → Bool} {elements : List E} :
    (elements.map bad).count true = 0 ↔ ∀ e ∈ elements, bad e = false := by
  rw [List.count_eq_zero]
  simp

theorem close_measured (torch : Torch) (finiteMax : ℚ) (shape : List ℕ) {E : Type} {measure : E → Extended × Extended}
    {elements : List E} {nanCount infCount : ℕ} (outputPath : String) :
    (compareMeasured torch finiteMax atol shape (elements.map measure) nanCount infCount outputPath).close = true ↔
      ∀ e ∈ elements, (measure e).1.le (measure e).2 = true := by
  unfold compareMeasured
  rw [List.map_map, decide_eq_true_iff, count_map_eq_zero]
  simp

theorem close_equal (torch : Torch) (finiteMax : ℚ) (shape : List ℕ) {A : Type} [DecidableEq A]
    {elements : List (A × A)} (outputPath : String) :
    (compareEqual torch finiteMax shape (elements.map fun e => e.1 ≠ e.2) outputPath).close = true ↔
      ∀ e ∈ elements, e.1 = e.2 := by
  unfold compareEqual
  rw [decide_eq_true_iff, count_map_eq_zero]
  simp

/-- The comparison accepts two tensors when its branch accepts every pair of elements. -/
theorem close_iff (torch : Torch) (finiteMax : ℚ) (outputPath : String) (k : Kind) (p : Pair k) :
    (compareTensors torch finiteMax atol rtol outputPath k p).close = true ↔
      ∀ e ∈ p.elements, Accepts torch.hypot atol rtol k e := by
  unfold compareTensors
  split_ifs with hempty
  · rw [List.length_eq_zero_iff.mp hempty]
    simp
  · cases k with
    | bool => exact close_equal (A := Bool) torch finiteMax p.shape outputPath
    | uint8 => exact close_equal (A := BitVec 8) torch finiteMax p.shape outputPath
    | signed w => exact close_measured torch finiteMax p.shape outputPath
    | floating => exact close_measured torch finiteMax p.shape outputPath
    | complex => exact close_measured torch finiteMax p.shape outputPath

/-- **The detailed comparison accepts exactly the tensors within the tolerance if and only if no wrongly judged
element decides its verdict.** -/
theorem detailed_verdict_right (torch : Torch) (finiteMax : ℚ) (atol rtol : ℚ≥0) (outputPath : String) (k : Kind)
    (p : Pair k) :
    ((compareTensors torch finiteMax atol rtol outputPath k p).close = true ↔
        ∀ e ∈ p.elements, Within torch.hypot atol rtol k e) ↔
      Decided torch.hypot atol rtol p.elements := by
  rw [close_iff]
  refine forall_iff_forall_iff_decided (judged rtol.coe_nonneg k) (not_within_of_wronglyAccepted k)
    (fun e hwrong => ?_) p.elements
  cases k with
  | signed w => exact hwrong.1
  | _ => exact hwrong.elim

/-- A finite candidate for an infinite reference, and a difference of `int8` that wraps. -/
theorem detailed_verdict_wrong :
    (compareTensors .stable DType.float32.finfoMax (1 / 1000) (1 / 1000) "output" .floating
          ⟨[1], [(.infinite false, .finite 0)], rfl⟩).close = true ∧
      ¬Within Torch.stable.hypot (1 / 1000) (1 / 1000) .floating (.infinite false, .finite 0) ∧
      (compareTensors .stable DType.int8.finfoMax (1 / 10000) (1 / 10000) "output" (.signed 7)
          ⟨[1], [(0#8, 128#8)], rfl⟩).close = true ∧
      ¬Within Torch.stable.hypot (1 / 10000) (1 / 10000) (.signed 7) (0#8, 128#8) := by
  refine ⟨by decide +kernel, id, by decide +kernel, fun hwithin => ?_⟩
  exact absurd (within_signed_iff.mp hwithin) (by decide +kernel)

end KernelGym.Correctness
