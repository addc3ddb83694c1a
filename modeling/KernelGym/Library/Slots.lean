import Mathlib

/-! Tables of slots that are overwritten one at a time, and quantities summed over them. A sum of
indicators counts the slots with a property, so that exclusive ownership becomes arithmetic. -/

namespace KernelGym.Library

variable {α β : Type*}

/-- The sum of `f` over all slots. -/
def tally (f : α → Nat) (slots : List α) : Nat := (slots.map f).sum

/-- One for the slots that answer `key` with `k`. -/
def marks [DecidableEq β] (key : α → Option β) (k : β) (a : α) : Nat :=
  if key a = some k then 1 else 0

section Tally

variable (f : α → Nat)

@[simp] theorem tally_nil : tally f [] = 0 := rfl

@[simp] theorem tally_cons (a : α) (slots : List α) :
    tally f (a :: slots) = f a + tally f slots := by
  simp [tally]

@[simp] theorem tally_append (slots others : List α) :
    tally f (slots ++ others) = tally f slots + tally f others := by
  simp [tally]

@[simp] theorem tally_replicate (n : Nat) (a : α) : tally f (List.replicate n a) = n * f a := by
  simp [tally]

variable {f}

theorem le_tally {a : α} {slots : List α} (h : a ∈ slots) : f a ≤ tally f slots := by
  induction slots with
  | nil => cases h
  | cons b slots ih =>
      rw [tally_cons]
      rcases List.mem_cons.mp h with rfl | hmem
      · exact Nat.le_add_right _ _
      · exact Nat.le_trans (ih hmem) (Nat.le_add_left _ _)

theorem tally_pos {slots : List α} : 0 < tally f slots ↔ ∃ a ∈ slots, 0 < f a := by
  induction slots with
  | nil => simp
  | cons b slots ih =>
      rw [tally_cons, Nat.add_pos_iff_pos_or_pos, ih]
      simp

theorem tally_eq_zero {slots : List α} (h : ∀ a ∈ slots, f a = 0) : tally f slots = 0 := by
  by_contra hne
  obtain ⟨a, ha, hpos⟩ := tally_pos.mp (Nat.pos_of_ne_zero hne)
  exact Nat.ne_of_gt hpos (h a ha)

/-- Overwriting a slot exchanges its share of the sum. -/
theorem tally_set {slots : List α} {i : Nat} {a : α} (h : slots[i]? = some a) (b : α) :
    tally f (slots.set i b) + f a = tally f slots + f b := by
  induction slots generalizing i with
  | nil => cases h
  | cons c slots ih =>
      cases i with
      | zero =>
          obtain rfl : c = a := by simpa using h
          rw [List.set_cons_zero, tally_cons, tally_cons]
          omega
      | succ i =>
          have hrest := ih (i := i) (by simpa using h)
          rw [List.set_cons_succ, tally_cons, tally_cons]
          omega

/-- Two slots share the sum. -/
theorem add_le_tally {slots : List α} {i j : Nat} {a b : α} (hij : i ≠ j)
    (ha : slots[i]? = some a) (hb : slots[j]? = some b) : f a + f b ≤ tally f slots := by
  induction slots generalizing i j with
  | nil => cases ha
  | cons c slots ih =>
      rw [tally_cons]
      cases i with
      | zero =>
          cases j with
          | zero => exact absurd rfl hij
          | succ j =>
              obtain rfl : c = a := by simpa using ha
              have hmem : b ∈ slots := List.mem_of_getElem? (by simpa using hb)
              exact Nat.add_le_add_left (le_tally hmem) _
      | succ i =>
          cases j with
          | zero =>
              obtain rfl : c = b := by simpa using hb
              have hmem : a ∈ slots := List.mem_of_getElem? (by simpa using ha)
              have hle : f a ≤ tally f slots := le_tally hmem
              omega
          | succ j =>
              have hrest := ih (i := i) (j := j) (fun h => hij (congrArg _ h))
                (by simpa using ha) (by simpa using hb)
              omega

end Tally

/-- A slot of an overwritten table is the new value or one of the others. -/
theorem mem_set_cases {slots : List α} {i : Nat} {a b : α} (h : a ∈ slots.set i b) :
    a = b ∨ ∃ j, j ≠ i ∧ slots[j]? = some a := by
  obtain ⟨j, hj⟩ := List.mem_iff_getElem?.mp h
  by_cases hij : i = j
  · subst hij
    have hlt : i < (slots.set i b).length := (List.getElem?_eq_some_iff.mp hj).1
    rw [List.getElem?_set_self (by simpa using hlt)] at hj
    exact .inl (Option.some.inj hj).symm
  · rw [List.getElem?_set_ne hij] at hj
    exact .inr ⟨j, fun h => hij h.symm, hj⟩

/-- What holds of every slot and of the new value holds of every slot afterwards. -/
theorem forall_mem_set {P : α → Prop} {slots : List α} {i : Nat} {b : α}
    (h : ∀ a ∈ slots, P a) (hb : P b) : ∀ a ∈ slots.set i b, P a := by
  intro a ha
  rcases List.mem_or_eq_of_mem_set ha with hmem | rfl
  · exact h a hmem
  · exact hb

/-- A slot other than the overwritten one is still there. -/
theorem mem_set_of_ne {slots : List α} {i : Nat} {a b c : α} (ha : slots[i]? = some a)
    (hc : c ∈ slots) (hne : c ≠ a) : c ∈ slots.set i b := by
  obtain ⟨j, hj⟩ := List.mem_iff_getElem?.mp hc
  refine List.mem_iff_getElem?.mpr ⟨j, ?_⟩
  have hij : i ≠ j := by
    rintro rfl
    exact hne (Option.some.inj (hj.symm.trans ha))
  rw [List.getElem?_set_ne hij]
  exact hj

theorem mem_set_self {slots : List α} {i : Nat} {a : α} (b : α) (ha : slots[i]? = some a) :
    b ∈ slots.set i b := by
  refine List.mem_iff_getElem?.mpr ⟨i, ?_⟩
  rw [List.getElem?_set_self (List.getElem?_eq_some_iff.mp ha).1]

end KernelGym.Library
