import Mathlib.Data.List.Perm.Basic
import Mathlib.Data.List.Sort
import Mathlib.Order.Bounds.Basic
import Mathlib.Order.MinMax

/-! Reductions in parts. A result that depends on the elements alone, whatever their order, and that joins the results
of two parts, is what every tree of joins over the parts computes. One such result is that of the first elements of a
list in a total order, kept in an array of fixed length. -/

namespace KernelGym.Library

variable {α β : Type*}

/-! ### Trees of joins -/

/-- `b` is the join of the values of a list in some grouping. -/
inductive Reduces (join : β → β → β) : List β → β → Prop
  | single (b : β) : Reduces join [b] b
  | join {l l' : List β} {b b' : β} (h : Reduces join l b) (h' : Reduces join l' b') :
    Reduces join (l ++ l') (join b b')

theorem Reduces.eq_summary {join : β → β → β} {summary : List α → β}
    (hjoin : ∀ l l', join (summary l) (summary l') = summary (l ++ l')) {parts : List (List α)} {b : β}
    (h : Reduces join (parts.map summary) b) : b = summary parts.flatten := by
  generalize hbs : parts.map summary = bs at h
  induction h generalizing parts with
  | single b =>
      obtain ⟨part, rest, rfl, rfl, hrest⟩ := List.map_eq_cons_iff.mp hbs
      obtain rfl := List.map_eq_nil_iff.mp hrest
      rw [List.flatten_singleton]
  | join _ _ ih ih' =>
      obtain ⟨first, second, rfl, hfirst, hsecond⟩ := List.map_eq_append_iff.mp hbs
      rw [ih hfirst, ih' hsecond, hjoin, List.flatten_append]

/-- Joining from the left is one grouping. -/
theorem reduces_foldl {join : β → β → β} (b : β) (bs : List β) : Reduces join (b :: bs) (bs.foldl join b) := by
  suffices h : ∀ l c, Reduces join l c → Reduces join (l ++ bs) (bs.foldl join c) from h [b] b (.single b)
  induction bs with
  | nil =>
      intro l c h
      rwa [List.append_nil]
  | cons x bs ih =>
      intro l c h
      have hnext := ih (l ++ [x]) (join c x) (h.join (.single x))
      rwa [List.append_assoc] at hnext

/-! ### Joins of all elements -/

/-- The join of all elements, with `z` where there is none. -/
def joined (op : β → β → β) (z : β) (l : List β) : β := l.foldr op z

section Joined

variable {op : β → β → β} [Std.Commutative op] [Std.Associative op] {z : β}

omit [Std.Commutative op] [Std.Associative op] in
theorem joined_cons (b : β) (l : List β) : joined op z (b :: l) = op b (joined op z l) := rfl

theorem op_left_comm (a b c : β) : op a (op b c) = op b (op a c) :=
  calc op a (op b c)
      = op (op a b) c := (Std.Associative.assoc a b c).symm
    _ = op (op b a) c := congrArg (op · c) (Std.Commutative.comm a b)
    _ = op b (op a c) := Std.Associative.assoc b a c

theorem joined_append (hz : op z z = z) (l l' : List β) :
    joined op z (l ++ l') = op (joined op z l) (joined op z l') := by
  induction l with
  | nil =>
      show joined op z l' = op z (joined op z l')
      induction l' with
      | nil => exact hz.symm
      | cons b l' ih =>
          calc joined op z (b :: l')
              = op b (op z (joined op z l')) := by rw [joined_cons, ← ih]
            _ = op z (joined op z (b :: l')) := op_left_comm _ _ _
  | cons b l ih =>
      calc joined op z (b :: l ++ l')
          = op b (op (joined op z l) (joined op z l')) := by rw [List.cons_append, joined_cons, ih]
        _ = op (joined op z (b :: l)) (joined op z l') := (Std.Associative.assoc _ _ _).symm

theorem joined_perm {l l' : List β} (h : l.Perm l') : joined op z l = joined op z l' := by
  have hleft : LeftCommutative op := ⟨op_left_comm⟩
  exact h.foldr_eq z

/-- From the first element to the last it is the same. -/
theorem foldl_eq_joined (l : List β) : l.foldl op z = joined op z l := by
  have hreverse : l.foldl op z = joined op z l.reverse := by
    rw [joined, List.foldr_reverse]
    congr 1
    funext a b
    exact Std.Commutative.comm a b
  rw [hreverse, joined_perm l.reverse_perm]

end Joined

section LinearOrder

variable {γ : Type*} [LinearOrder γ] {l : List γ} {m z : γ}

theorem le_joined_min : m ≤ joined min z l ↔ m ≤ z ∧ ∀ b ∈ l, m ≤ b := by
  induction l with
  | nil => exact (and_iff_left fun b hb => absurd hb List.not_mem_nil).symm
  | cons b l ih => rw [joined_cons, le_min_iff, ih, List.forall_mem_cons, and_left_comm]

theorem joined_min_eq (hz : m ≤ z) (hm : IsLeast {b | b ∈ l} m) : joined min z l = m :=
  le_antisymm ((le_joined_min.mp le_rfl).2 m hm.1) (le_joined_min.mpr ⟨hz, fun _ hb => hm.2 hb⟩)

theorem joined_max_le : joined max z l ≤ m ↔ z ≤ m ∧ ∀ b ∈ l, b ≤ m := by
  induction l with
  | nil => exact (and_iff_left fun b hb => absurd hb List.not_mem_nil).symm
  | cons b l ih => rw [joined_cons, max_le_iff, ih, List.forall_mem_cons, and_left_comm]

theorem joined_max_eq (hz : z ≤ m) (hm : IsGreatest {b | b ∈ l} m) : joined max z l = m :=
  le_antisymm (joined_max_le.mpr ⟨hz, fun _ hb => hm.2 hb⟩) ((joined_max_le.mp le_rfl).2 m hm.1)

end LinearOrder

/-! ### Loops over a grid -/

theorem nodup_flatMap_of_key (g : β → α) {f : α → List β} {l : List α} (hl : l.Nodup)
    (hf : ∀ x ∈ l, (f x).Nodup) (hkey : ∀ x ∈ l, ∀ y ∈ f x, g y = x) : (l.flatMap f).Nodup := by
  refine List.nodup_flatMap.mpr ⟨hf, ?_⟩
  have hpairs := List.Pairwise.and_mem.mp hl
  exact hpairs.imp fun ⟨ha, hb, hne⟩ y hya hyb => hne ((hkey _ ha y hya).symm.trans (hkey _ hb y hyb))

/-- The loops of `a` threads, each with the stride `a`, visit every index once. -/
theorem strided_perm (a b : ℕ) :
    ((List.range a).flatMap fun i => (List.range b).map fun j => i + a * j).Perm (List.range (a * b)) := by
  refine (List.perm_ext_iff_of_nodup ?_ List.nodup_range).mpr fun n => ?_
  · have hmod : ∀ i ∈ List.range a, ∀ n ∈ (List.range b).map (fun j => i + a * j), n % a = i := by
      intro i hi n hn
      obtain ⟨j, -, rfl⟩ := List.mem_map.mp hn
      rw [Nat.add_mul_mod_self_left, Nat.mod_eq_of_lt (List.mem_range.mp hi)]
    refine nodup_flatMap_of_key (· % a) List.nodup_range (fun i hi => ?_) hmod
    have hpos : 0 < a := Nat.zero_lt_of_lt (List.mem_range.mp hi)
    exact List.nodup_range.map fun j j' h => Nat.eq_of_mul_eq_mul_left hpos (Nat.add_left_cancel h)
  · rw [List.mem_flatMap, List.mem_range]
    constructor
    · rintro ⟨i, hi, hn⟩
      obtain ⟨j, hj, rfl⟩ := List.mem_map.mp hn
      rw [List.mem_range] at hi hj
      calc i + a * j < a + a * j := Nat.add_lt_add_right hi _
        _ = a * (j + 1) := by rw [Nat.mul_succ, Nat.add_comm]
        _ ≤ a * b := Nat.mul_le_mul_left a hj
    · intro hn
      have hpos : 0 < a := Nat.pos_of_mul_pos_right (Nat.zero_lt_of_lt hn)
      refine ⟨n % a, List.mem_range.mpr (Nat.mod_lt n hpos), List.mem_map.mpr ⟨n / a, ?_, Nat.mod_add_div n a⟩⟩
      exact List.mem_range.mpr (Nat.div_lt_of_lt_mul hn)

section Positions

variable {a b c i j k n : ℕ}

theorem position_lt (hi : i < a) (hj : j < b) : i * b + j < a * b :=
  calc i * b + j < i * b + b := Nat.add_lt_add_left hj _
    _ = (i + 1) * b := (Nat.succ_mul i b).symm
    _ ≤ a * b := Nat.mul_le_mul_right b hi

/-- The parts of a position in a grid of matrices. -/
theorem position_parts (hj : j < b) (hk : k < c) :
    ((i * b + j) * c + k) / c / b = i ∧ ((i * b + j) * c + k) / c % b = j ∧ ((i * b + j) * c + k) % c = k := by
  have hquotient : ((i * b + j) * c + k) / c = i * b + j := by
    rw [Nat.mul_comm, Nat.mul_add_div (Nat.zero_lt_of_lt hk), Nat.div_eq_of_lt hk, Nat.add_zero]
  refine ⟨?_, ?_, ?_⟩
  · rw [hquotient, Nat.mul_comm, Nat.mul_add_div (Nat.zero_lt_of_lt hj), Nat.div_eq_of_lt hj, Nat.add_zero]
  · rw [hquotient, Nat.mul_comm, Nat.mul_add_mod, Nat.mod_eq_of_lt hj]
  · rw [Nat.mul_comm, Nat.mul_add_mod, Nat.mod_eq_of_lt hk]

/-- Every position is made of its parts. -/
theorem exists_position (h : n < a * b * c) : ∃ i < a, ∃ j < b, ∃ k < c, n = (i * b + j) * c + k := by
  have hc : 0 < c := Nat.pos_of_mul_pos_left (Nat.zero_lt_of_lt h)
  have hquotient : n / c < a * b := Nat.div_lt_of_lt_mul (by rwa [Nat.mul_comm] at h)
  have hb : 0 < b := Nat.pos_of_mul_pos_left (Nat.zero_lt_of_lt hquotient)
  refine ⟨n / c / b, Nat.div_lt_of_lt_mul (by rwa [Nat.mul_comm] at hquotient), n / c % b, Nat.mod_lt _ hb,
    n % c, Nat.mod_lt _ hc, ?_⟩
  rw [Nat.div_add_mod', Nat.div_add_mod']

end Positions

/-! ### The first elements in a total order -/

variable (r : α → α → Prop) [DecidableRel r]

/-- The first `k` elements. -/
def leading (k : ℕ) (l : List α) : List α := (l.insertionSort r).take k

/-- An element enters an ordered array before the first one that it precedes; the last one drops out. -/
def insertWithin (e : α) : List α → List α
  | [] => []
  | x :: rest => if ¬r x e then e :: (x :: rest).dropLast else x :: insertWithin e rest

variable {r} [Std.Total r] [IsTrans α r] [Std.Antisymm r] {k m : ℕ} {l l' : List α} {e s : α}

theorem insertionSort_congr (h : l.Perm l') : l.insertionSort r = l'.insertionSort r :=
  List.Perm.eq_of_pairwise (fun _ _ _ _ => Std.Antisymm.antisymm _ _) (List.pairwise_insertionSort r l)
    (List.pairwise_insertionSort r l')
    (((List.perm_insertionSort r l).trans h).trans (List.perm_insertionSort r l').symm)

omit [Std.Total r] [IsTrans α r] [Std.Antisymm r] in
theorem orderedInsert_congr {s : α → α → Prop} [DecidableRel s] {x : α} (h : ∀ y ∈ l, r x y ↔ s x y) :
    l.orderedInsert r x = l.orderedInsert s x := by
  induction l with
  | nil => rfl
  | cons y rest ih =>
      obtain ⟨hy, hrest⟩ := List.forall_mem_cons.mp h
      rw [List.orderedInsert_cons, List.orderedInsert_cons, ih hrest]
      exact if_congr hy rfl rfl

omit [Std.Total r] [IsTrans α r] [Std.Antisymm r] in
/-- A sort asks only for pairs in the order of the list. -/
theorem insertionSort_of_pairwise {s : α → α → Prop} [DecidableRel s] (h : l.Pairwise fun x y => r x y ↔ s x y) :
    l.insertionSort r = l.insertionSort s := by
  induction l with
  | nil => rfl
  | cons x rest ih =>
      obtain ⟨hx, hrest⟩ := List.pairwise_cons.mp h
      rw [List.insertionSort_cons, List.insertionSort_cons, ih hrest]
      exact orderedInsert_congr fun y hy => hx y ((List.mem_insertionSort s).mp hy)

theorem leading_perm (h : l.Perm l') : leading r k l = leading r k l' := congrArg (List.take k) (insertionSort_congr h)

omit [IsTrans α r] in
theorem insertWithin_eq (hl : l.Pairwise r) : insertWithin r e l = (l.orderedInsert r e).take l.length := by
  induction l with
  | nil => rfl
  | cons x rest ih =>
      obtain ⟨hx, hrest⟩ := List.pairwise_cons.mp hl
      rw [insertWithin, List.orderedInsert_cons]
      by_cases hxe : r x e
      · rw [if_neg (not_not.mpr hxe), ih hrest]
        by_cases hex : r e x
        · obtain rfl : x = e := Std.Antisymm.antisymm _ _ hxe hex
          rw [if_pos hex, List.length_cons, List.take_succ_cons]
          cases rest with
          | nil => rfl
          | cons y rest => rw [List.orderedInsert_cons, if_pos (hx y List.mem_cons_self)]
        · rw [if_neg hex, List.length_cons, List.take_succ_cons]
      · have hex : r e x := (Std.Total.total e x).resolve_right hxe
        rw [if_pos hxe, if_pos hex, List.length_cons, List.take_succ_cons, List.dropLast_eq_take, List.length_cons,
          Nat.add_sub_cancel]

omit [Std.Total r] [IsTrans α r] [Std.Antisymm r] in
theorem take_orderedInsert (k : ℕ) (e : α) (l : List α) :
    ((l.take k).orderedInsert r e).take k = (l.orderedInsert r e).take k := by
  induction l generalizing k with
  | nil => rw [List.take_nil]
  | cons x rest ih =>
      cases k with
      | zero => rfl
      | succ k =>
          rw [List.take_succ_cons, List.orderedInsert_cons, List.orderedInsert_cons]
          split_ifs
          · rw [List.take_succ_cons, List.take_succ_cons]
            cases k with
            | zero => rfl
            | succ k => rw [List.take_succ_cons, List.take_succ_cons, List.take_take, min_eq_left (Nat.le_succ k)]
          · rw [List.take_succ_cons, List.take_succ_cons, ih]

omit [Std.Antisymm r] in
theorem leading_sorted (k : ℕ) (l : List α) : (leading r k l).Pairwise r :=
  (List.pairwise_insertionSort r l).sublist (List.take_sublist k _)

omit [Std.Antisymm r] in
theorem leading_cons : leading r k (e :: leading r k l) = leading r k (e :: l) := by
  rw [leading, List.insertionSort_cons, (leading_sorted k l).insertionSort_eq]
  exact take_orderedInsert k e _

omit [Std.Total r] [IsTrans α r] [Std.Antisymm r] in
theorem length_leading (h : k ≤ l.length) : (leading r k l).length = k := by
  rw [leading, List.length_take, List.length_insertionSort, min_eq_left h]

theorem insertWithin_leading (h : k ≤ l.length) : insertWithin r e (leading r k l) = leading r k (e :: l) := by
  rw [insertWithin_eq (leading_sorted k l), length_leading h]
  exact take_orderedInsert k e _

omit [Std.Antisymm r] in
theorem leading_append_right (l' : List α) : leading r k (l' ++ leading r k l) = leading r k (l' ++ l) := by
  induction l' with
  | nil =>
      rw [List.nil_append, List.nil_append, leading, (leading_sorted k l).insertionSort_eq, leading, List.take_take,
        min_self]
  | cons x l' ih => rw [List.cons_append, List.cons_append, ← leading_cons, ih, leading_cons]

theorem leading_append_left (l' : List α) : leading r k (leading r k l ++ l') = leading r k (l ++ l') := by
  rw [leading_perm List.perm_append_comm, leading_append_right, leading_perm List.perm_append_comm]

omit [Std.Total r] [IsTrans α r] [Std.Antisymm r] in
theorem take_leading (h : m ≤ k) : (leading r k l).take m = leading r m l := by
  rw [leading, List.take_take, min_eq_left h, leading]

/-- The first elements of all parts are the first of the first elements of each. -/
theorem leading_flatMap {ι : Type*} (parts : List ι) (f : ι → List α) :
    leading r k (parts.flatMap fun i => leading r k (f i)) = leading r k (parts.flatMap f) := by
  induction parts with
  | nil => rfl
  | cons i parts ih =>
      rw [List.flatMap_cons, List.flatMap_cons, leading_append_left, ← leading_append_right (l := List.flatMap _ _), ih,
        leading_append_right]

theorem insertionSort_append_replicate (hs : ∀ x ∈ l, r x s) (j : ℕ) :
    (l ++ List.replicate j s).insertionSort r = l.insertionSort r ++ List.replicate j s := by
  refine List.Perm.eq_of_pairwise (fun _ _ _ _ => Std.Antisymm.antisymm _ _) (List.pairwise_insertionSort r _) ?_
    ((List.perm_insertionSort r _).trans ((List.perm_insertionSort r l).symm.append_right _))
  refine List.pairwise_append.mpr ⟨List.pairwise_insertionSort r l, ?_, fun x hx y hy => ?_⟩
  · refine List.pairwise_replicate.mpr (Or.inr ?_)
    exact (Std.Total.total s s).elim id id
  · rw [List.eq_of_mem_replicate hy]
    exact hs x ((List.mem_insertionSort r).mp hx)

/-- An element that comes last does not displace any other. -/
theorem leading_append_replicate (hs : ∀ x ∈ l, r x s) (j : ℕ) (h : k ≤ l.length) :
    leading r k (l ++ List.replicate j s) = leading r k l := by
  rw [leading, insertionSort_append_replicate hs, List.take_append_of_le_length (by rwa [List.length_insertionSort]),
    leading]

/-- How many of it fill up the array does not matter. -/
theorem leading_replicate (hs : ∀ x ∈ l, r x s) {i j : ℕ} (hi : k ≤ i) (hj : k ≤ j) :
    leading r k (l ++ List.replicate i s) = leading r k (l ++ List.replicate j s) := by
  rw [leading, leading, insertionSort_append_replicate hs, insertionSort_append_replicate hs, List.take_append,
    List.take_append, List.take_replicate, List.take_replicate, min_eq_left ((Nat.sub_le _ _).trans hi),
    min_eq_left ((Nat.sub_le _ _).trans hj)]

end KernelGym.Library
