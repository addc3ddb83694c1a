import Mathlib.Algebra.BigOperators.Group.List.Basic
import Mathlib.Data.Nat.Basic
import Mathlib.Tactic.Ring

/-! Row-major order: the coordinates of a shape as a list, the last dimension running fastest, and the coordinate
of a flat index. -/

namespace KernelGym.Library.RowMajor

/-- The coordinate of a flat index. -/
def coordinate : List ℕ → ℕ → List ℕ
  | [], _ => []
  | dimension :: rest, n => n / rest.prod % dimension :: coordinate rest n

/-- Every coordinate of a shape, in row-major order. -/
def coordinates : List ℕ → List (List ℕ)
  | [] => [[]]
  | dimension :: rest => (List.range dimension).flatMap fun i => (coordinates rest).map (i :: ·)

/-- The coordinate lies inside the shape. -/
def Inside (c shape : List ℕ) : Prop := List.Forall₂ (· < ·) c shape

variable {s t c : List ℕ} {i j n : ℕ}

@[simp] theorem length_coordinate (shape : List ℕ) (n : ℕ) : (coordinate shape n).length = shape.length := by
  induction shape with
  | nil => rfl
  | cons dimension rest ih => rw [coordinate, List.length_cons, List.length_cons, ih]

/-- Whole turns of a shape do not change the coordinate. -/
theorem coordinate_mul_add (t : List ℕ) (i j : ℕ) : coordinate t (i * t.prod + j) = coordinate t j := by
  induction t generalizing i with
  | nil => rfl
  | cons dimension rest ih =>
      rw [coordinate, coordinate, List.prod_cons, ← mul_assoc, ih]
      congr 1
      rcases Nat.eq_zero_or_pos rest.prod with hzero | hpos
      · rw [hzero, Nat.div_zero, Nat.div_zero]
      · rw [mul_comm, Nat.mul_add_div hpos, mul_comm i, Nat.mul_add_mod]

/-- The coordinate in a product of shapes. -/
theorem coordinate_append (s : List ℕ) (hj : j < t.prod) :
    coordinate (s ++ t) (i * t.prod + j) = coordinate s i ++ coordinate t j := by
  induction s with
  | nil => exact coordinate_mul_add t i j
  | cons dimension rest ih =>
      have hquotient : (i * t.prod + j) / (rest ++ t).prod = i / rest.prod := by
        rw [List.prod_append, mul_comm rest.prod, ← Nat.div_div_eq_div_mul, mul_comm i,
          Nat.mul_add_div (Nat.zero_lt_of_lt hj), Nat.div_eq_of_lt hj, Nat.add_zero]
      rw [List.cons_append, coordinate, coordinate, ih, hquotient, List.cons_append]

theorem coordinate_singleton (h : n < i) : coordinate [i] n = [n] := by
  rw [coordinate, coordinate, List.prod_nil, Nat.div_one, Nat.mod_eq_of_lt h]

theorem coordinate_pair (hj : j < t.prod) (hi : i < n) : coordinate (n :: t) (i * t.prod + j) = i :: coordinate t j := by
  have happend := coordinate_append (i := i) [n] hj
  rw [coordinate_singleton hi] at happend
  exact happend

theorem range_mul (a b : ℕ) :
    List.range (a * b) = (List.range a).flatMap fun i => (List.range b).map fun j => i * b + j := by
  induction a with
  | zero => rw [Nat.zero_mul, List.range_zero, List.flatMap_nil]
  | succ a ih =>
      rw [Nat.succ_mul, List.range_add, ih, List.range_succ, List.flatMap_append, List.flatMap_singleton]

/-- The flat indices give the coordinates in row-major order. -/
theorem map_coordinate_range (shape : List ℕ) : (List.range shape.prod).map (coordinate shape) = coordinates shape := by
  induction shape with
  | nil => rfl
  | cons dimension rest ih =>
      rw [List.prod_cons, range_mul, List.map_flatMap, coordinates]
      refine List.flatMap_congr fun i hi => ?_
      rw [List.map_map, ← ih, List.map_map]
      refine List.map_congr_left fun j hj => ?_
      exact coordinate_pair (List.mem_range.mp hj) (List.mem_range.mp hi)

theorem length_coordinates (shape : List ℕ) : (coordinates shape).length = shape.prod := by
  rw [← map_coordinate_range, List.length_map, List.length_range]

theorem mem_coordinates {shape : List ℕ} : c ∈ coordinates shape ↔ Inside c shape := by
  induction shape generalizing c with
  | nil => rw [coordinates, List.mem_singleton, Inside, List.forall₂_nil_right_iff]
  | cons dimension rest ih =>
      rw [coordinates, List.mem_flatMap, Inside, List.forall₂_cons_right_iff]
      constructor
      · rintro ⟨i, hi, hc⟩
        obtain ⟨c', hc', rfl⟩ := List.mem_map.mp hc
        exact ⟨i, c', List.mem_range.mp hi, ih.mp hc', rfl⟩
      · rintro ⟨i, c', hi, hc', rfl⟩
        exact ⟨i, List.mem_range.mpr hi, List.mem_map.mpr ⟨c', ih.mpr hc', rfl⟩⟩

theorem coordinate_inside (h : n < t.prod) : Inside (coordinate t n) t := by
  rw [← mem_coordinates, ← map_coordinate_range]
  exact List.mem_map_of_mem (List.mem_range.mpr h)

theorem coordinate_injective {shape : List ℕ} (hi : i < shape.prod) (hj : j < shape.prod)
    (h : coordinate shape i = coordinate shape j) : i = j := by
  induction shape generalizing i j with
  | nil => exact (Nat.lt_one_iff.mp hi).trans (Nat.lt_one_iff.mp hj).symm
  | cons dimension rest ih =>
      rw [List.prod_cons, mul_comm] at hi hj
      have hpos : 0 < rest.prod := Nat.pos_of_mul_pos_right (Nat.zero_lt_of_lt hi)
      injection h with hhead htail
      rw [Nat.mod_eq_of_lt (Nat.div_lt_of_lt_mul hi), Nat.mod_eq_of_lt (Nat.div_lt_of_lt_mul hj)] at hhead
      have hrest (n : ℕ) : coordinate rest (n % rest.prod) = coordinate rest n := by
        conv_rhs => rw [← Nat.div_add_mod n rest.prod, mul_comm, coordinate_mul_add]
      have hmod := ih (Nat.mod_lt i hpos) (Nat.mod_lt j hpos) ((hrest i).trans (htail.trans (hrest j).symm))
      rw [← Nat.div_add_mod i rest.prod, ← Nat.div_add_mod j rest.prod, hhead, hmod]

/-- Every coordinate inside a shape has a flat index. -/
theorem exists_index (h : Inside c t) : ∃ n < t.prod, coordinate t n = c := by
  rw [← mem_coordinates, ← map_coordinate_range, List.mem_map] at h
  obtain ⟨n, hn, rfl⟩ := h
  exact ⟨n, List.mem_range.mp hn, rfl⟩

theorem inside_append_iff : Inside c (s ++ t) ↔ ∃ a b, c = a ++ b ∧ Inside a s ∧ Inside b t := by
  constructor
  · intro h
    exact ⟨_, _, (List.take_append_drop s.length c).symm, List.forall₂_take_append c s t h,
      List.forall₂_drop_append c s t h⟩
  · rintro ⟨a, b, rfl, ha, hb⟩
    exact List.rel_append ha hb

theorem inside_singleton_iff : Inside c [n] ↔ ∃ i < n, c = [i] := by
  rw [Inside, List.forall₂_cons_right_iff]
  constructor
  · rintro ⟨i, c', hi, hc', rfl⟩
    exact ⟨i, hi, by rw [List.forall₂_nil_right_iff.mp hc']⟩
  · rintro ⟨i, hi, rfl⟩
    exact ⟨i, [], hi, List.Forall₂.nil, rfl⟩

/-- A mask over the flat indices of a shape marks the coordinates with a property. -/
structure Marks (shape : List ℕ) (mask : ℕ → Bool) (P : List ℕ → Prop) : Prop where
  inside : ∀ c, P c → Inside c shape
  iff : ∀ n < shape.prod, mask n = true ↔ P (coordinate shape n)

variable {shape : List ℕ} {mask : ℕ → Bool} {P : List ℕ → Prop}

theorem index_lt_prod (hi : i < s.prod) (hj : j < t.prod) : i * t.prod + j < (s ++ t).prod := by
  rw [List.prod_append]
  calc i * t.prod + j < i * t.prod + t.prod := by omega
    _ = (i + 1) * t.prod := by rw [Nat.succ_mul]
    _ ≤ s.prod * t.prod := Nat.mul_le_mul_right _ hi

theorem inside_append {r : List ℕ} (hlength : r.length = t.length) : Inside (c ++ r) (s ++ t) ↔ Inside c s ∧ Inside r t := by
  rw [inside_append_iff]
  constructor
  · rintro ⟨a, b, heq, ha, hb⟩
    have hb' : b.length = t.length := hb.length_eq
    obtain ⟨rfl, rfl⟩ := List.append_inj' heq (hlength.trans hb'.symm)
    exact ⟨ha, hb⟩
  · rintro ⟨hc, hr⟩
    exact ⟨c, r, rfl, hc, hr⟩

/-- Whether a block of indices has a marked one, and the coordinates that extend to one with the property. -/
theorem Marks.block (h : Marks (s ++ t) mask P) :
    Marks s (fun i => (List.range t.prod).any fun j => mask (i * t.prod + j))
      fun c => ∃ r, r.length = t.length ∧ P (c ++ r) where
  inside c hc := by
    obtain ⟨r, hlength, hr⟩ := hc
    exact ((inside_append hlength).mp (h.inside _ hr)).1
  iff i hi := by
    rw [List.any_eq_true]
    constructor
    · rintro ⟨j, hj, hmask⟩
      rw [List.mem_range] at hj
      rw [h.iff _ (index_lt_prod hi hj), coordinate_append s hj] at hmask
      exact ⟨_, length_coordinate t j, hmask⟩
    · rintro ⟨r, hlength, hr⟩
      obtain ⟨j, hj, rfl⟩ := exists_index ((inside_append hlength).mp (h.inside _ hr)).2
      refine ⟨j, List.mem_range.mpr hj, ?_⟩
      rw [h.iff _ (index_lt_prod hi hj), coordinate_append s hj]
      exact hr

end KernelGym.Library.RowMajor
