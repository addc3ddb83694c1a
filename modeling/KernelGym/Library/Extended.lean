import Mathlib.Algebra.Order.Field.Rat
import Mathlib.Algebra.Order.Ring.Abs

/-! Rational numbers with the infinities and NaN: floating-point values without their rounding. -/

namespace KernelGym.Library

inductive Extended
  | finite (x : ℚ)
  | infinite (negative : Bool)
  | nan
  deriving DecidableEq, Repr

namespace Extended

def isNan : Extended → Bool
  | .nan => true
  | _ => false

def isInf : Extended → Bool
  | .infinite _ => true
  | _ => false

/-- `a <= b`; nothing compares with NaN. -/
def le : Extended → Extended → Bool
  | .finite x, .finite y => x ≤ y
  | .infinite true, .infinite _ | .infinite true, .finite _ => true
  | .finite _, .infinite negative | .infinite false, .infinite negative => !negative
  | _, _ => false

/-- `a < b` -/
def lt (a b : Extended) : Bool := le a b && !le b a

def positive (a : Extended) : Bool := lt (.finite 0) a

def neg : Extended → Extended
  | .finite x => .finite (-x)
  | .infinite negative => .infinite !negative
  | .nan => .nan

def abs : Extended → Extended
  | .finite x => .finite |x|
  | .infinite _ => .infinite false
  | .nan => .nan

def add : Extended → Extended → Extended
  | .finite x, .finite y => .finite (x + y)
  | .infinite negative, .finite _ | .finite _, .infinite negative => .infinite negative
  | .infinite negative, .infinite negative' => if negative = negative' then .infinite negative else .nan
  | _, _ => .nan

def sub (a b : Extended) : Extended := add a b.neg

def mul : Extended → Extended → Extended
  | .finite x, .finite y => .finite (x * y)
  | .infinite negative, .finite x | .finite x, .infinite negative =>
    if x = 0 then .nan else .infinite (negative ^^ decide (x < 0))
  | .infinite negative, .infinite negative' => .infinite (negative ^^ negative')
  | _, _ => .nan

/-- Division; a zero divisor counts as positive. -/
def div : Extended → Extended → Extended
  | .finite x, .finite y =>
    if y = 0 then if x = 0 then .nan else .infinite (decide (x < 0)) else .finite (x / y)
  | .finite _, .infinite _ => .finite 0
  | .infinite negative, .finite x => .infinite (negative ^^ decide (x < 0))
  | _, _ => .nan

/-- The maximum that passes NaN on. -/
def max (a b : Extended) : Extended :=
  if a.isNan || b.isNan then .nan else if le a b then b else a

variable {a b : Extended} {x y : ℚ} {negative negative' : Bool}

@[simp] theorem le_finite : le (.finite x) (.finite y) = decide (x ≤ y) := rfl

@[simp] theorem le_nan : le a .nan = false := by
  cases a with
  | infinite negative => cases negative <;> rfl
  | _ => rfl

@[simp] theorem nan_le : le .nan a = false := rfl

@[simp] theorem le_infinite (h : a ≠ .nan) : le a (.infinite false) = true := by
  cases a with
  | infinite negative => cases negative <;> rfl
  | nan => exact absurd rfl h
  | finite x => rfl

@[simp] theorem infinite_le_finite : le (.infinite false) (.finite x) = false := rfl

@[simp] theorem abs_finite : abs (.finite x) = .finite |x| := rfl

@[simp] theorem abs_infinite : abs (.infinite negative) = .infinite false := rfl

@[simp] theorem abs_nan : abs .nan = .nan := rfl

@[simp] theorem add_finite : add (.finite x) (.finite y) = .finite (x + y) := rfl

@[simp] theorem infinite_add_finite : add (.infinite negative) (.finite x) = .infinite negative := rfl

@[simp] theorem nan_add : add .nan a = .nan := rfl

@[simp] theorem add_nan : add a .nan = .nan := by
  cases a <;> rfl

@[simp] theorem sub_finite : sub (.finite x) (.finite y) = .finite (x - y) := by
  rw [sub_eq_add_neg]
  rfl

@[simp] theorem infinite_sub_finite : sub (.infinite negative) (.finite x) = .infinite negative := rfl

@[simp] theorem finite_sub_infinite : sub (.finite x) (.infinite negative) = .infinite !negative := rfl

theorem infinite_sub_infinite :
    sub (.infinite negative) (.infinite negative') = if negative = negative' then .nan else .infinite negative := by
  cases negative <;> cases negative' <;> rfl

theorem infinite_sub_ne_finite : sub (.infinite negative) a ≠ .finite x := by
  cases a with
  | finite y => exact Extended.noConfusion
  | infinite negative' =>
      rw [infinite_sub_infinite]
      split_ifs
      · exact Extended.noConfusion
      · exact Extended.noConfusion
  | nan => exact Extended.noConfusion

@[simp] theorem nan_sub : sub .nan a = .nan := rfl

@[simp] theorem sub_nan : sub a .nan = .nan := by
  cases a <;> rfl

@[simp] theorem mul_finite : mul (.finite x) (.finite y) = .finite (x * y) := rfl

@[simp] theorem nan_mul : mul .nan a = .nan := rfl

theorem infinite_mul_of_pos (h : 0 < x) : mul (.infinite negative) (.finite x) = .infinite negative := by
  have hlt : ¬x < 0 := not_lt.mpr h.le
  simp [mul, h.ne', hlt]

theorem infinite_mul_zero : mul (.infinite negative) (.finite 0) = .nan := rfl

end Extended

end KernelGym.Library
