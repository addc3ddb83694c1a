import KernelGym.Library.Extended
import Mathlib.Algebra.BigOperators.Group.List.Basic

/-! Sums and maxima of extended numbers do not depend on the order of their operands. -/

namespace KernelGym.Library.Extended

theorem add_comm' (a b : Extended) : add a b = add b a := by
  cases a <;> cases b <;> simp only [add, add_comm]
  rename_i p q
  cases p <;> cases q <;> rfl

theorem add_assoc' (a b c : Extended) : add (add a b) c = add a (add b c) := by
  cases a with
  | nan => rfl
  | finite x =>
      cases b with
      | nan => cases c <;> rfl
      | finite y => cases c <;> simp only [add, add_assoc]
      | infinite q =>
          cases c with
          | infinite r => cases q <;> cases r <;> rfl
          | _ => rfl
  | infinite p =>
      cases b with
      | nan => cases c <;> rfl
      | finite y => cases c <;> rfl
      | infinite q =>
          cases c with
          | infinite r => cases p <;> cases q <;> cases r <;> rfl
          | _ => cases p <;> cases q <;> rfl

instance : Zero Extended := ⟨.finite 0⟩

instance : Add Extended := ⟨add⟩

instance : AddCommMonoid Extended where
  add_assoc := add_assoc'
  add_comm := add_comm'
  zero_add a := by
    cases a <;> first | rfl | exact congrArg finite (zero_add _)
  add_zero a := by
    cases a <;> first | rfl | exact congrArg finite (add_zero _)
  nsmul := nsmulRec

theorem max_comm' (a b : Extended) : max a b = max b a := by
  cases a with
  | nan => cases b <;> rfl
  | infinite p =>
      cases b with
      | infinite q => cases p <;> cases q <;> rfl
      | _ => cases p <;> rfl
  | finite x =>
      cases b with
      | nan => rfl
      | infinite q => cases q <;> rfl
      | finite y =>
          simp only [max, isNan, Bool.or_self, Bool.false_eq_true, if_false, le_finite, decide_eq_true_eq]
          split_ifs with hxy hyx hyx
          · rw [le_antisymm hxy hyx]
          · rfl
          · rfl
          · exact absurd (le_total x y) (not_or.mpr ⟨hxy, hyx⟩)

theorem max_finite (x y : ℚ) : max (.finite x) (.finite y) = .finite (Max.max x y) := by
  simp only [max, isNan, Bool.or_self, Bool.false_eq_true, if_false, le_finite, decide_eq_true_eq, max_def]
  split_ifs <;> rfl

theorem max_nan (a : Extended) : max .nan a = .nan := rfl

theorem max_bottom {a : Extended} : max (.infinite true) a = a := by
  cases a with
  | infinite q => cases q <;> rfl
  | _ => rfl

theorem max_assoc' (a b c : Extended) : max (max a b) c = max a (max b c) := by
  cases a with
  | nan => rw [max_nan, max_nan, max_nan]
  | infinite p =>
      cases p with
      | true => rw [max_bottom, max_bottom]
      | false =>
          cases b with
          | nan => rfl
          | infinite q =>
              cases q with
              | true => rw [max_bottom]; rfl
              | false => cases c with
                | infinite r => cases r <;> rfl
                | _ => rfl
          | finite y => cases c with
            | infinite r => cases r <;> rfl
            | nan => rfl
            | finite z => rw [max_finite]; rfl
  | finite x =>
      cases b with
      | nan => rfl
      | infinite q =>
          cases q with
          | true => rw [max_bottom, max_comm' _ (.infinite true), max_bottom]
          | false => cases c with
            | infinite r => cases r <;> rfl
            | _ => rfl
      | finite y =>
          cases c with
          | nan => rw [max_finite]; rfl
          | infinite r =>
              rw [max_finite]
              cases r with
              | true => rw [max_comm' _ (.infinite true), max_bottom, max_comm' _ (.infinite true), max_bottom, max_finite]
              | false => rfl
          | finite z => rw [max_finite, max_finite, max_finite, max_finite, max_assoc]

end KernelGym.Library.Extended
