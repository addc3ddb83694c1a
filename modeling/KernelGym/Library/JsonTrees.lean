import Mathlib.Data.Finset.Insert
import Mathlib.Data.Fintype.Defs
import Mathlib.Data.Fintype.Sets
import Mathlib.Data.Finset.Attach

/-! JSON trees over any kind of numbers. Objects are values over a finite set of keys: they have no duplicate
keys and no order, as the dictionaries of a program. -/

namespace KernelGym.Library

inductive Json (ν : Type)
  | null
  | bool (b : Bool)
  | num (n : ν)
  | str (s : String)
  | arr (length : ℕ) (items : Fin length → Json ν)
  | obj (keys : Finset String) (values : {k // k ∈ keys} → Json ν)

structure JsonObject (ν : Type) where
  keys : Finset String := ∅
  values : {k // k ∈ keys} → Json ν

variable {ν μ ρ : Type}

def JsonObject.toJson (o : JsonObject ν) : Json ν := .obj o.keys o.values

namespace Json

/-- The tree with every number replaced. -/
def map (f : ν → μ) : Json ν → Json μ
  | .null => .null
  | .bool b => .bool b
  | .num n => .num (f n)
  | .str s => .str s
  | .arr length items => .arr length fun i => (items i).map f
  | .obj keys values => .obj keys fun k => (values k).map f

/-- Every number meets `p`. -/
def AllNum (p : ν → Prop) : Json ν → Prop
  | .num n => p n
  | .arr _ items => ∀ i, (items i).AllNum p
  | .obj _ values => ∀ k, (values k).AllNum p
  | _ => True

instance AllNum.decidable (p : ν → Prop) [DecidablePred p] : DecidablePred (AllNum p)
  | .null | .bool _ | .str _ => isTrue trivial
  | .num n => inferInstanceAs (Decidable (p n))
  | .arr _ items =>
      have := fun i => AllNum.decidable p (items i)
      inferInstanceAs (Decidable (∀ i, (items i).AllNum p))
  | .obj _ values =>
      have := fun k => AllNum.decidable p (values k)
      inferInstanceAs (Decidable (∀ k, (values k).AllNum p))

/-- No array in the tree is empty. -/
def NoEmptyArray : Json ν → Prop
  | .arr length items => length ≠ 0 ∧ ∀ i, (items i).NoEmptyArray
  | .obj _ values => ∀ k, (values k).NoEmptyArray
  | _ => True

def empty : Json ν := .obj ∅ fun k => absurd k.2 (Finset.notMem_empty _)

/-- Every empty array becomes an empty object. -/
def collapse : Json ν → Json ν
  | .arr length items => if length = 0 then empty else .arr length fun i => (items i).collapse
  | .obj keys values => .obj keys fun k => (values k).collapse
  | .null => .null
  | .bool b => .bool b
  | .num n => .num n
  | .str s => .str s

theorem map_map (f : ν → μ) (g : μ → ρ) (t : Json ν) : (t.map f).map g = t.map (g ∘ f) := by
  induction t with
  | arr length items ih =>
      simp only [map, arr.injEq, heq_eq_eq, true_and]
      exact funext ih
  | obj keys values ih =>
      simp only [map, obj.injEq, heq_eq_eq, true_and]
      exact funext ih
  | _ => rfl

theorem map_empty (f : ν → μ) : (empty : Json ν).map f = empty := by
  simp only [empty, map, obj.injEq, heq_eq_eq, true_and]
  exact funext fun k => absurd k.2 (Finset.notMem_empty _)

theorem collapse_map (f : ν → μ) (t : Json ν) : (t.map f).collapse = t.collapse.map f := by
  induction t with
  | arr length items ih =>
      simp only [map, collapse]
      split_ifs with hlength
      · exact (map_empty f).symm
      · simp only [map, arr.injEq, heq_eq_eq, true_and]
        exact funext ih
  | obj keys values ih =>
      simp only [map, collapse, obj.injEq, heq_eq_eq, true_and]
      exact funext ih
  | _ => rfl

theorem allNum_collapse (p : ν → Prop) (t : Json ν) : t.collapse.AllNum p ↔ t.AllNum p := by
  induction t with
  | arr length items ih =>
      simp only [collapse, AllNum]
      split_ifs with hlength
      · subst hlength
        simp [empty, AllNum]
      · exact forall_congr' ih
  | obj keys values ih => exact forall_congr' ih
  | _ => exact Iff.rfl

theorem allNum_map (p : μ → Prop) (f : ν → μ) (t : Json ν) :
    (t.map f).AllNum p ↔ t.AllNum (p ∘ f) := by
  induction t with
  | arr length items ih => exact forall_congr' ih
  | obj keys values ih => exact forall_congr' ih
  | _ => exact Iff.rfl

theorem allNum_congr {p q : ν → Prop} (h : ∀ n, p n ↔ q n) {t : Json ν} : t.AllNum p ↔ t.AllNum q := by
  have hpq : p = q := funext fun n => propext (h n)
  rw [hpq]

theorem allNum_and (p q : ν → Prop) (t : Json ν) :
    (t.AllNum fun n => p n ∧ q n) ↔ t.AllNum p ∧ t.AllNum q := by
  induction t with
  | arr length items ih => simp only [AllNum, ih, forall_and]
  | obj keys values ih => simp only [AllNum, ih, forall_and]
  | num n => exact Iff.rfl
  | _ => simp [AllNum]

/-- A tree comes out of a collapse and a replacement of its numbers as it went in if and only if it has
no empty array and every number is kept. -/
theorem collapse_map_eq_map_iff (f g : ν → μ) (t : Json ν) :
    t.collapse.map f = t.map g ↔ t.NoEmptyArray ∧ t.AllNum fun n => f n = g n := by
  induction t with
  | num n => simp [collapse, map, NoEmptyArray, AllNum]
  | arr length items ih =>
      simp only [collapse, NoEmptyArray, AllNum]
      split_ifs with hlength
      · simp [empty, map, hlength]
      · simp only [map, arr.injEq, heq_eq_eq, true_and, ne_eq, hlength, not_false_eq_true,
          funext_iff, ih, forall_and]
  | obj keys values ih =>
      simp only [collapse, map, obj.injEq, heq_eq_eq, true_and, NoEmptyArray, AllNum, funext_iff, ih,
        forall_and]
  | _ => simp [collapse, map, NoEmptyArray, AllNum]

end Json

namespace JsonObject

variable (o o' : JsonObject ν) {k k' : String} {v : Json ν}

def empty : JsonObject ν where
  values k := absurd k.2 (Finset.notMem_empty _)

def get (k : String) : Option (Json ν) := if h : k ∈ o.keys then some (o.values ⟨k, h⟩) else none

def set (k : String) (v : Json ν) : JsonObject ν where
  keys := insert k o.keys
  values x := if h : x.1 = k then v else o.values ⟨x.1, Finset.mem_of_mem_insert_of_ne x.2 h⟩

def map (f : ν → μ) : JsonObject μ where
  keys := o.keys
  values x := (o.values x).map f

def collapse : JsonObject ν where
  keys := o.keys
  values x := (o.values x).collapse

variable {o o'}

/-- Objects with the same answer for every key are equal. -/
theorem ext_get (h : ∀ k, o.get k = o'.get k) : o = o' := by
  obtain ⟨keys, values⟩ := o
  obtain ⟨keys', values'⟩ := o'
  have hkeys : keys = keys' := by
    ext k
    have hk := congrArg Option.isSome (h k)
    simp only [get] at hk
    by_cases hmem : k ∈ keys <;> by_cases hmem' : k ∈ keys' <;> simp_all
  subst hkeys
  congr 1
  funext x
  have hx := h x.1
  simpa only [get, x.2, dif_pos, Option.some.injEq] using hx

theorem get_set : (o.set k v).get k' = if k' = k then some v else o.get k' := by
  unfold get set
  by_cases hk : k' = k
  · subst hk
    simp
  · by_cases hmem : k' ∈ o.keys <;> simp [hk, hmem]

theorem get_map (f : ν → μ) : (o.map f).get k = (o.get k).map (Json.map f) := by
  unfold get map
  by_cases hmem : k ∈ o.keys <;> simp [hmem]

theorem get_collapse : o.collapse.get k = (o.get k).map Json.collapse := by
  unfold get collapse
  by_cases hmem : k ∈ o.keys <;> simp [hmem]

theorem toJson_inj : o.toJson = o'.toJson ↔ o = o' := by
  obtain ⟨keys, values⟩ := o
  obtain ⟨keys', values'⟩ := o'
  rw [toJson, toJson, Json.obj.injEq, JsonObject.mk.injEq]

theorem toJson_map (f : ν → μ) : o.toJson.map f = (o.map f).toJson := rfl

theorem toJson_collapse : o.toJson.collapse = o.collapse.toJson := rfl

theorem map_set (f : ν → μ) : (o.set k v).map f = (o.map f).set k (v.map f) := by
  apply ext_get
  intro k'
  rw [get_map, get_set, get_set, get_map]
  split_ifs <;> rfl

theorem collapse_set : (o.set k v).collapse = o.collapse.set k v.collapse := by
  apply ext_get
  intro k'
  rw [get_collapse, get_set, get_set, get_collapse]
  split_ifs <;> rfl

theorem forall_values_iff {P : Json ν → Prop} :
    (∀ x, P (o.values x)) ↔ ∀ k v, o.get k = some v → P v := by
  constructor
  · intro h k v hv
    unfold get at hv
    split_ifs at hv with hmem
    exact Option.some.inj hv ▸ h _
  · intro h x
    exact h x.1 _ (by rw [get, dif_pos x.2])

end JsonObject

end KernelGym.Library
