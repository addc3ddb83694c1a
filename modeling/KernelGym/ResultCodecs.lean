import KernelGym.Library.Doubles
import KernelGym.Library.JsonTrees

/-! The four codecs that a workflow result passes on its way to a reader: `json.dumps`, `cjson.decode`,
`cjson.encode` and `json.loads`. Strings, booleans and nulls pass them unchanged; numbers become doubles that
are written with 14 digits, and Lua has one empty table for empty arrays and empty objects. -/

namespace KernelGym

open Library

/-- A finite `float`. -/
structure PyFloat where
  value : ℚ
  isDouble : IsDouble value

inductive PyNumber
  | int (n : ℤ)
  | float (x : PyFloat)
  | nan
  | infinity (negative : Bool)

/-- A number in a JSON text: an integer literal, another decimal, or a name that `json` accepts. -/
inductive Literal
  | int (n : ℤ)
  | real (q : ℚ)
  | nan
  | infinity (negative : Bool)

inductive LuaNumber
  | finite (x : ℚ)
  | nan
  | infinity (negative : Bool)

/-- What Python's `==` compares numbers by. -/
inductive NumericValue
  | finite (q : ℚ)
  | nan
  | infinity (negative : Bool)

def PyNumber.value : PyNumber → NumericValue
  | .int n => .finite n
  | .float x => .finite x.value
  | .nan => .nan
  | .infinity negative => .infinity negative

/-! ### Numbers -/

/-- `json.dumps`. The digits of a float are a decimal that is read as the same double; only that counts. -/
def PyNumber.literal : PyNumber → Literal
  | .int n => .int n
  | .float x => .real x.value
  | .nan => .nan
  | .infinity negative => .infinity negative

/-- `strtod`. -/
def strtod (q : ℚ) : LuaNumber :=
  if |binary64.round q| < doubleBound then .finite (binary64.round q)
  else .infinity (decide (q < 0))

/-- `cjson.decode`. -/
def Literal.lua : Literal → LuaNumber
  | .int n => strtod n
  | .real q => strtod q
  | .nan => .nan
  | .infinity negative => .infinity negative

def LuaNumber.Finite : LuaNumber → Prop
  | .finite _ => True
  | _ => False

instance : DecidablePred LuaNumber.Finite
  | .finite _ => isTrue trivial
  | .nan | .infinity _ => isFalse fun h => h

/-- `%.14g`, which `cjson.encode` writes finite numbers with: an integer below 10^14 has neither a point nor
an exponent. -/
def LuaNumber.literal : LuaNumber → Literal
  | .finite x =>
      let w := (decimal 14).round x
      if w.den = 1 ∧ |w| < 10 ^ 14 then .int w.num else .real w
  | .nan => .nan
  | .infinity negative => .infinity negative

/-- `json.loads`. -/
def Literal.python : Literal → PyNumber
  | .int n => .int n
  | .real q =>
      if h : |binary64.round q| < doubleBound then
        .float ⟨binary64.round q, Format.round_inFormat _ q, h⟩
      else .infinity (decide (q < 0))
  | .nan => .nan
  | .infinity negative => .infinity negative

/-! ### Results -/

def dumps (r : JsonObject PyNumber) : JsonObject Literal := r.map PyNumber.literal

def cjsonDecode (text : JsonObject Literal) : JsonObject LuaNumber := (text.map Literal.lua).collapse

/-- Raises for numbers that are not finite. -/
def cjsonEncode (table : JsonObject LuaNumber) : Option (JsonObject Literal) :=
  if table.toJson.AllNum LuaNumber.Finite then some (table.map LuaNumber.literal) else none

def loads (text : JsonObject Literal) : JsonObject PyNumber := text.map Literal.python

/-- Equality of dictionaries in Python, by the values of numbers. -/
def PyEqual (r r' : JsonObject PyNumber) : Prop := r.map PyNumber.value = r'.map PyNumber.value

/-! ### Numbers that survive -/

/-- The number is a finite double, the nearest one to a decimal with at most 14 digits. -/
def FewDigits (v : ℚ) : Prop :=
  |v| < doubleBound ∧ ∃ q, (decimal 14).InFormat q ∧ binary64.round q = v

def PyNumber.FewDigits : PyNumber → Prop
  | .int n => KernelGym.FewDigits n
  | .float x => KernelGym.FewDigits x.value
  | _ => False

/-- A value without empty lists whose numbers have few digits. -/
def Preserved (v : Json PyNumber) : Prop := v.NoEmptyArray ∧ v.AllNum PyNumber.FewDigits

theorem binary64_round_int {w : ℚ} (hden : w.den = 1) (hw : |w| < 10 ^ 14) :
    binary64.round w = w := by
  have hint : (w.num : ℚ) = w := Rat.coe_int_num_of_den_eq_one hden
  have hnum : |w.num| < 2 ^ 53 := by
    have : |(w.num : ℚ)| < 2 ^ 53 := by
      rw [hint]
      exact hw.trans (by norm_num)
    exact_mod_cast this
  have hdouble := (isDouble_intCast hnum).1.round_eq
  rwa [hint] at hdouble

/-- What a finite number is after it was written with 14 digits and read again. -/
theorem value_python_literal (x : ℚ) :
    (LuaNumber.literal (.finite x)).python.value =
      if |binary64.round ((decimal 14).round x)| < doubleBound then
        .finite (binary64.round ((decimal 14).round x))
      else .infinity (decide ((decimal 14).round x < 0)) := by
  rw [LuaNumber.literal]
  set w := (decimal 14).round x
  by_cases hint : w.den = 1 ∧ |w| < 10 ^ 14
  · obtain ⟨hden, hsmall⟩ := hint
    rw [if_pos ⟨hden, hsmall⟩, binary64_round_int hden hsmall, if_pos]
    · change NumericValue.finite w.num = .finite w
      rw [Rat.coe_int_num_of_den_eq_one hden]
    · calc |w| < 10 ^ 14 := hsmall
        _ < 2 ^ 53 := by norm_num
        _ ≤ doubleBound := pow_le_pow_right₀ (by norm_num) (by norm_num)
  · rw [if_neg hint, Literal.python]
    split_ifs <;> rfl

/-- **A number survives if and only if it has few digits.** -/
theorem strtod_survives_iff (v : ℚ) :
    ((strtod v).Finite ∧ (strtod v).literal.python.value = .finite v) ↔ FewDigits v := by
  constructor
  · rintro ⟨hfinite, hvalue⟩
    unfold strtod at hfinite hvalue
    split_ifs at hfinite hvalue with hbound
    · rw [value_python_literal] at hvalue
      split_ifs at hvalue with hlast
      · rw [NumericValue.finite.injEq] at hvalue
        rw [hvalue] at hlast
        exact ⟨hlast, _, Format.round_inFormat _ _, hvalue⟩
    · exact hfinite.elim
  · rintro ⟨hbound, q, hq, rfl⟩
    have hround : binary64.round (binary64.round q) = binary64.round q :=
      (Format.round_inFormat binary64 q).round_eq
    have hthrice := round_round_round (n := 14) (by norm_num) (by norm_num) hq
    rw [strtod, hround, if_pos hbound]
    refine ⟨trivial, ?_⟩
    rw [value_python_literal, hthrice, if_pos hbound]

/-- Integers below 10^14 survive. -/
theorem fewDigits_intCast {m : ℤ} (h : |m| < 10 ^ 14) : FewDigits m := by
  obtain ⟨hformat, hbound⟩ := isDouble_intCast (h.trans (by norm_num))
  refine ⟨hbound, m, ?_, hformat.round_eq⟩
  by_cases hzero : m = 0
  · exact ⟨0, by rw [hzero, Int.cast_zero, zero_mul]⟩
  have hlog : Int.log 10 |(m : ℚ)| < 14 := (Int.lt_zpow_iff_log_lt (by decide)
    (abs_pos.mpr (by exact_mod_cast hzero))).mp (by exact_mod_cast h)
  obtain ⟨k, hk⟩ := (decimal 14).zpow_eq_mul (show Int.log 10 |(m : ℚ)| - (14 - 1 : ℕ) ≤ 0 by omega)
  refine ⟨m * k, ?_⟩
  rw [Int.cast_mul, mul_assoc]
  change (m : ℚ) = m * (k * 10 ^ (Int.log 10 |(m : ℚ)| - (14 - 1 : ℕ)))
  have hone : (k : ℚ) * 10 ^ (Int.log 10 |(m : ℚ)| - (14 - 1 : ℕ)) = 1 := hk.symm
  rw [hone, mul_one]

/-- An integer of 15 digits survives only if it ends in a zero. -/
theorem dvd_of_fewDigits {m : ℤ} (hlow : 10 ^ 14 ≤ |m|) (hhigh : |m| < 10 ^ 15) (h : FewDigits m) :
    10 ∣ m := by
  have hpos : (0 : ℚ) < |(m : ℚ)| := by
    have : (0 : ℤ) < |m| := lt_of_lt_of_le (by norm_num) hlow
    exact_mod_cast this
  have hlog : Int.log 10 |(m : ℚ)| = 14 := by
    have h1 := (Int.zpow_le_iff_le_log (b := 10) (x := 14) (by decide) hpos).mp (by exact_mod_cast hlow)
    have h2 := (Int.lt_zpow_iff_log_lt (b := 10) (x := 15) (by decide) hpos).mp (by exact_mod_cast hhigh)
    omega
  have hunit : (decimal 14).unit m = 10 := by
    change (10 : ℚ) ^ (Int.log 10 |(m : ℚ)| - (14 - 1 : ℕ)) = 10
    rw [hlog]
    norm_num
  set w := (decimal 14).round m with hw
  have hdouble : binary64.round m = m := (isDouble_intCast (hhigh.trans (by norm_num))).1.round_eq
  have hint : w = ((roundEven ((m : ℚ) / 10) * 10 : ℤ) : ℚ) := by
    rw [hw, Format.round, hunit]
    push_cast
    rfl
  obtain ⟨hfinite, hvalue⟩ := (strtod_survives_iff m).mpr h
  have hbound : |(m : ℚ)| < doubleBound := (isDouble_intCast (hhigh.trans (by norm_num))).2
  rw [strtod, hdouble, if_pos hbound, value_python_literal] at hvalue
  have hsmall : |roundEven ((m : ℚ) / 10) * 10| < 2 ^ 53 := by
    have hle : |roundEven ((m : ℚ) / 10)| ≤ 10 ^ 14 := by
      apply abs_roundEven_le
      rw [abs_div, abs_of_pos (by norm_num : (0 : ℚ) < 10), div_le_iff₀ (by norm_num)]
      have : |(m : ℚ)| < 10 ^ 15 := by exact_mod_cast hhigh
      push_cast
      linarith
    rw [abs_mul]
    have : |(10 : ℤ)| = 10 := rfl
    rw [this]
    omega
  have hround : binary64.round w = w := by
    rw [hint]
    exact (isDouble_intCast hsmall).1.round_eq
  rw [← hw, hround] at hvalue
  split_ifs at hvalue
  · rw [NumericValue.finite.injEq, hint] at hvalue
    have hm : roundEven ((m : ℚ) / 10) * 10 = m := by exact_mod_cast hvalue
    exact ⟨_, by rw [← hm, mul_comm]⟩

/-- The four codecs on one number. -/
theorem number_survives_iff (n : PyNumber) :
    (n.literal.lua.Finite ∧ n.literal.lua.literal.python.value = n.value) ↔ n.FewDigits := by
  cases n with
  | int n => exact strtod_survives_iff n
  | float x => exact strtod_survives_iff x.value
  | nan => simp [PyNumber.literal, Literal.lua, LuaNumber.Finite, PyNumber.FewDigits]
  | infinity negative => simp [PyNumber.literal, Literal.lua, LuaNumber.Finite, PyNumber.FewDigits]

/-- **A result survives the four codecs if and only if it has no empty list and few digits.** -/
theorem codecs_survive_iff (r : JsonObject PyNumber) :
    (∃ text, cjsonEncode (cjsonDecode (dumps r)) = some text ∧ PyEqual (loads text) r) ↔
      Preserved r.toJson := by
  have hfinite : (cjsonDecode (dumps r)).toJson.AllNum LuaNumber.Finite ↔
      r.toJson.AllNum fun n => n.literal.lua.Finite := by
    rw [cjsonDecode, dumps, ← JsonObject.toJson_collapse, Json.allNum_collapse, ← JsonObject.toJson_map,
      ← JsonObject.toJson_map, Json.allNum_map, Json.allNum_map]
    exact Iff.rfl
  have hequal : PyEqual (loads ((cjsonDecode (dumps r)).map LuaNumber.literal)) r ↔
      r.toJson.NoEmptyArray ∧ r.toJson.AllNum fun n => n.literal.lua.literal.python.value = n.value := by
    rw [PyEqual, ← JsonObject.toJson_inj, ← JsonObject.toJson_map, loads, ← JsonObject.toJson_map,
      ← JsonObject.toJson_map, cjsonDecode, dumps, ← JsonObject.toJson_collapse, ← JsonObject.toJson_map,
      ← JsonObject.toJson_map, ← JsonObject.toJson_map, Json.map_map, Json.collapse_map, Json.map_map,
      Json.map_map, Json.collapse_map, Json.map_map]
    exact Json.collapse_map_eq_map_iff _ _ _
  have hnumbers : r.toJson.AllNum PyNumber.FewDigits ↔ (r.toJson.AllNum fun n => n.literal.lua.Finite) ∧
      r.toJson.AllNum fun n => n.literal.lua.literal.python.value = n.value := by
    rw [← Json.allNum_and]
    exact Json.allNum_congr fun n => (number_survives_iff n).symm
  rw [Preserved, hnumbers, cjsonEncode]
  constructor
  · rintro ⟨text, htext, hsame⟩
    obtain ⟨hall, htext⟩ := Option.ite_none_right_eq_some.mp htext
    rw [← Option.some.inj htext] at hsame
    obtain ⟨hfull, hvalues⟩ := hequal.mp hsame
    exact ⟨hfull, hfinite.mp hall, hvalues⟩
  · rintro ⟨hfull, hall, hvalues⟩
    exact ⟨_, if_pos (hfinite.mpr hall), hequal.mpr ⟨hfull, hvalues⟩⟩

end KernelGym
