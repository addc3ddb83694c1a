import KernelGym.Library.Doubles
import KernelGym.Library.Extended
import KernelGym.Library.Texts

/-! Python's reading of a floating-point number from a text, and the numerals that it reads: digits with a sign and a
fraction. -/

namespace KernelGym.Library

/-- The double nearest to a number, an infinity beyond the largest one. -/
def nearestDouble (q : ℚ) : Extended :=
  if |binary64.round q| < doubleBound then .finite (binary64.round q) else .infinite (decide (q < 0))

namespace Unicode

variable (u : Unicode)

/-- Digits that may be missing. -/
def optionalDigits (text : List Char) : Option ℕ := if text = [] then some 0 else u.digitsFrom 0 false text

/-- A sign and what follows it. -/
def splitSign : List Char → Bool × List Char
  | '-' :: rest => (true, rest)
  | '+' :: rest => (false, rest)
  | rest => (false, rest)

/-- The exponent behind the `e`. -/
def exponentOf : List Char → Option ℤ
  | [] => some 0
  | _ :: rest =>
    let (negative, digits) := splitSign rest
    (u.digitsFrom 0 false digits).map fun n => if negative then -(n : ℤ) else n

def isExponentMark (c : Char) : Bool := c = 'e' || c = 'E'

/-- A number of its whole part, fraction and exponent. -/
def numberOf (whole fraction : List Char) (exponent : Option ℤ) : Option ℚ :=
  if whole = [] ∧ fraction = [] then none
  else
    match u.optionalDigits whole, u.optionalDigits fraction, exponent with
    | some w, some f, some e => some ((w + f / 10 ^ (fraction.filter (· ≠ '_')).length) * (10 : ℚ) ^ e)
    | _, _, _ => none

/-- A number without its sign. -/
def unsignedNumber (text : List Char) : Option ℚ :=
  let mantissa := text.takeWhile fun c => !isExponentMark c
  u.numberOf (mantissa.takeWhile (· ≠ '.')) ((mantissa.dropWhile (· ≠ '.')).drop 1)
    (u.exponentOf (text.dropWhile fun c => !isExponentMark c))

/-- `float(text)`; a text that is no number has none. -/
def float (text : List Char) : Option Extended :=
  let (negative, body) := splitSign (u.strip text)
  let lowered := body.map Char.toLower
  if lowered = "inf".toList ∨ lowered = "infinity".toList then some (.infinite negative)
  else if lowered = "nan".toList then some .nan
  else (u.unsignedNumber body).map fun q => nearestDouble (if negative then -q else q)

end Unicode

/-! ### Numerals -/

def digitChar (d : Fin 10) : Char := Char.ofNat (48 + d)

def digitsValue (value : ℕ) (ds : List (Fin 10)) : ℕ := ds.foldl (fun value d => 10 * value + d) value

/-- A decimal numeral: a sign, the digits before the point, and the digits behind it if there is one. -/
structure Numeral where
  negative : Bool
  whole : List (Fin 10)
  fraction : Option (List (Fin 10))
  nonempty : whole ++ fraction.getD [] ≠ []

namespace Numeral

/-- The digits and the point. -/
def body (n : Numeral) : List Char := n.whole.map digitChar ++ n.fraction.elim [] fun f => '.' :: f.map digitChar

def text (n : Numeral) : List Char := (if n.negative then ['-'] else []) ++ n.body

/-- The value without the sign. -/
def magnitude (n : Numeral) : ℚ :=
  digitsValue 0 n.whole + n.fraction.elim 0 fun f => (digitsValue 0 f : ℚ) / 10 ^ f.length

def value (n : Numeral) : ℚ := if n.negative then -n.magnitude else n.magnitude

end Numeral

section

variable {u : Unicode}

theorem digitChar_spec (d : Fin 10) : (digitChar d).toNat = 48 + d ∧ (digitChar d).isDigit = true := by
  revert d
  decide

theorem digitValue_digitChar (d : Fin 10) : u.digitValue (digitChar d) = some d.val := by
  obtain ⟨hnat, hdigit⟩ := digitChar_spec d
  rw [u.digitValue_ascii _ (by omega), asciiDigit, if_pos hdigit, hnat]
  exact congrArg some (by omega)

theorem digitsFrom_digits (ds : List (Fin 10)) (value : ℕ) (afterDigit : Bool) (h : ds ≠ [] ∨ afterDigit = true) :
    u.digitsFrom value afterDigit (ds.map digitChar) = some (digitsValue value ds) := by
  induction ds generalizing value afterDigit with
  | nil =>
      rcases h with h | h
      · exact absurd rfl h
      · rw [List.map_nil, Unicode.digitsFrom, if_pos h]
        rfl
  | cons d rest ih =>
      rw [List.map_cons, Unicode.digitsFrom, digitValue_digitChar]
      exact ih _ true (Or.inr rfl)

theorem optionalDigits_digits (ds : List (Fin 10)) : u.optionalDigits (ds.map digitChar) = some (digitsValue 0 ds) := by
  unfold Unicode.optionalDigits
  cases ds with
  | nil => rfl
  | cons d rest =>
      rw [if_neg (by simp)]
      exact digitsFrom_digits (d :: rest) 0 false (Or.inl (List.cons_ne_nil _ _))

/-- The characters of a numeral without its sign. -/
theorem mem_body {n : Numeral} {c : Char} (hc : c ∈ n.body) : (∃ d, c = digitChar d) ∨ c = '.' := by
  unfold Numeral.body at hc
  rcases List.mem_append.mp hc with hc | hc
  · obtain ⟨d, -, rfl⟩ := List.mem_map.mp hc
    exact Or.inl ⟨d, rfl⟩
  · cases hf : n.fraction with
    | none => simp [hf] at hc
    | some f =>
        simp only [hf, Option.elim_some] at hc
        rcases List.mem_cons.mp hc with rfl | hc
        · exact Or.inr rfl
        · obtain ⟨d, -, rfl⟩ := List.mem_map.mp hc
          exact Or.inl ⟨d, rfl⟩

/-- What the reader tests of a character holds of digits and the point. -/
theorem digit_or_point {f : Char → Bool} (hdigit : ∀ d, f (digitChar d) = true) (hpoint : f '.' = true)
    {c : Char} (hc : (∃ d, c = digitChar d) ∨ c = '.') : f c = true := by
  rcases hc with ⟨d, rfl⟩ | rfl
  · exact hdigit d
  · exact hpoint

theorem body_ne_nil (n : Numeral) : n.body ≠ [] := by
  intro hnil
  obtain ⟨hwhole, hfraction⟩ := List.append_eq_nil_iff.mp hnil
  refine n.nonempty (List.append_eq_nil_iff.mpr ⟨List.map_eq_nil_iff.mp hwhole, ?_⟩)
  cases hf : n.fraction with
  | none => rfl
  | some f => simp [hf] at hfraction

theorem isSpace_text {n : Numeral} : ∀ c ∈ n.text, u.isSpace c = false := by
  intro c hc
  have hascii : (decide (c.toNat < 128) && !asciiSpace c) = true := by
    rcases List.mem_append.mp hc with hc | hc
    · split_ifs at hc
      · rw [List.mem_singleton.mp hc]
        decide
      · exact absurd hc List.not_mem_nil
    · exact digit_or_point (f := fun c => decide (c.toNat < 128) && !asciiSpace c) (by decide) (by decide) (mem_body hc)
  simp only [Bool.and_eq_true, decide_eq_true_eq, Bool.not_eq_true'] at hascii
  rw [u.isSpace_ascii c hascii.1, hascii.2]

theorem splitSign_text (n : Numeral) : Unicode.splitSign n.text = (n.negative, n.body) := by
  obtain ⟨c, rest, hbody⟩ := List.exists_cons_of_ne_nil (body_ne_nil n)
  have hc : c ∈ n.body := hbody ▸ List.mem_cons_self
  have hsign : (c ≠ '-' && c ≠ '+') = true :=
    digit_or_point (f := fun c => c ≠ '-' && c ≠ '+') (by decide) (by decide) (mem_body hc)
  simp only [Bool.and_eq_true, decide_eq_true_eq] at hsign
  unfold Numeral.text
  cases n.negative with
  | true => rfl
  | false =>
      rw [if_neg Bool.false_ne_true, List.nil_append, hbody]
      unfold Unicode.splitSign
      split <;> simp_all

theorem takeWhile_eq_self {f : Char → Bool} {l : List Char} (h : ∀ c ∈ l, f c = true) :
    l.takeWhile f = l ∧ l.dropWhile f = [] :=
  ⟨List.takeWhile_eq_self_iff.mpr h, List.dropWhile_eq_nil_iff.mpr h⟩

theorem numberOf_digits {whole fraction : List (Fin 10)} (h : whole ++ fraction ≠ []) :
    u.numberOf (whole.map digitChar) (fraction.map digitChar) (some 0) =
      some (digitsValue 0 whole + (digitsValue 0 fraction : ℚ) / 10 ^ fraction.length) := by
  have hne : ¬ (whole.map digitChar = [] ∧ fraction.map digitChar = []) := by
    rintro ⟨hw, hf⟩
    exact h (by rw [List.map_eq_nil_iff.mp hw, List.map_eq_nil_iff.mp hf, List.append_nil])
  have hplaces : (fraction.map digitChar).filter (· ≠ '_') = fraction.map digitChar := by
    refine List.filter_eq_self.mpr fun c hc => ?_
    obtain ⟨d, -, rfl⟩ := List.mem_map.mp hc
    exact (by decide : ∀ d, decide (digitChar d ≠ '_') = true) d
  simp only [Unicode.numberOf, if_neg hne, optionalDigits_digits, hplaces, List.length_map, zpow_zero, mul_one]

theorem unsignedNumber_body (n : Numeral) : u.unsignedNumber n.body = some n.magnitude := by
  obtain ⟨hmantissa, hexponent⟩ := takeWhile_eq_self (f := fun c => !Unicode.isExponentMark c) (l := n.body)
    fun c hc => digit_or_point (f := fun c => !Unicode.isExponentMark c) (by decide) (by decide) (mem_body hc)
  have hwhole : ∀ c ∈ n.whole.map digitChar, decide (c ≠ '.') = true := by
    intro c hc
    obtain ⟨d, -, rfl⟩ := List.mem_map.mp hc
    exact (by decide : ∀ d, decide (digitChar d ≠ '.') = true) d
  rw [Unicode.unsignedNumber, hmantissa, hexponent]
  unfold Numeral.body Numeral.magnitude
  rw [List.takeWhile_append_of_pos hwhole, List.dropWhile_append_of_pos hwhole]
  have hdigits := n.nonempty
  cases hf : n.fraction with
  | none =>
      rw [hf] at hdigits
      have hread := numberOf_digits (u := u) hdigits
      simpa [digitsValue, Unicode.exponentOf] using hread
  | some f =>
      rw [hf] at hdigits
      have hread := numberOf_digits (u := u) hdigits
      simpa [Unicode.exponentOf] using hread

/-- **A numeral is read as the double nearest to its value.** -/
theorem float_text (n : Numeral) : u.float n.text = some (nearestDouble n.value) := by
  obtain ⟨c, rest, hbody⟩ := List.exists_cons_of_ne_nil (body_ne_nil n)
  have hhead : (c.toLower ≠ 'i' && c.toLower ≠ 'n') = true :=
    digit_or_point (f := fun c => c.toLower ≠ 'i' && c.toLower ≠ 'n') (by decide) (by decide)
      (mem_body (hbody ▸ List.mem_cons_self))
  simp only [Bool.and_eq_true, decide_eq_true_eq] at hhead
  have hword (word : List Char) (hword : word.head? = some 'i' ∨ word.head? = some 'n') :
      n.body.map Char.toLower ≠ word := by
    rintro rfl
    rw [hbody] at hword
    exact hword.elim (fun h => hhead.1 (Option.some.inj h)) fun h => hhead.2 (Option.some.inj h)
  unfold Unicode.float
  rw [Unicode.strip_of_forall isSpace_text, splitSign_text]
  dsimp only
  rw [if_neg (not_or.mpr ⟨hword _ (Or.inl rfl), hword _ (Or.inl rfl)⟩), if_neg (hword _ (Or.inr rfl)),
    unsignedNumber_body]
  rfl

end

end KernelGym.Library
