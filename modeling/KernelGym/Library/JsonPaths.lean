import KernelGym.Library.JsonTrees

/-! Places in JSON trees: a tree is known by what stands at each of its places. -/

namespace KernelGym.Library

/-- One step down into a tree. -/
inductive JsonStep
  | key (k : String)
  | item (i : ℕ)
  deriving DecidableEq

/-- What stands at a place, without the values inside it. -/
inductive JsonHead (ν : Type)
  | null
  | bool (b : Bool)
  | num (n : ν)
  | str (s : String)
  | arr (length : ℕ)
  | obj

variable {ν : Type}

namespace Json

def head : Json ν → JsonHead ν
  | .null => .null
  | .bool b => .bool b
  | .num n => .num n
  | .str s => .str s
  | .arr length _ => .arr length
  | .obj _ _ => .obj

/-- What stands at the end of a path, where the tree has that path. -/
def read : Json ν → List JsonStep → Option (JsonHead ν)
  | t, [] => some t.head
  | .arr length items, .item i :: path => if h : i < length then (items ⟨i, h⟩).read path else none
  | .obj keys values, .key k :: path => if h : k ∈ keys then (values ⟨k, h⟩).read path else none
  | _, _ :: _ => none

variable {length i : ℕ} {items : Fin length → Json ν} {keys : Finset String} {values : {k // k ∈ keys} → Json ν}
  {k : String} {path : List JsonStep}

@[simp] theorem read_nil (t : Json ν) : t.read [] = some t.head := by
  cases t <;> rfl

@[simp] theorem read_item :
    (Json.arr length items).read (.item i :: path) = if h : i < length then (items ⟨i, h⟩).read path else none := rfl

@[simp] theorem read_key :
    (Json.obj keys values).read (.key k :: path) = if h : k ∈ keys then (values ⟨k, h⟩).read path else none := rfl

theorem read_key_isSome : ((Json.obj keys values).read [.key k]).isSome ↔ k ∈ keys := by
  rw [read_key]
  split_ifs with h <;> simp [h]

/-- Trees with the same reading at every path are equal. -/
theorem ext_read {a b : Json ν} (h : ∀ path, a.read path = b.read path) : a = b := by
  have hhead : a.head = b.head := by simpa using h []
  induction a generalizing b with
  | arr length items ih =>
      cases b <;> simp only [head, reduceCtorEq, JsonHead.arr.injEq] at hhead
      subst hhead
      congr
      funext i
      have hread : ∀ path, (items i).read path = _ := fun path => by simpa using h (.item i :: path)
      exact ih i hread (by simpa using hread [])
  | obj keys values ih =>
      cases b <;> simp only [head, reduceCtorEq] at hhead
      rename_i keys' values'
      obtain rfl : keys = keys' := by
        ext k
        have hread : k ∈ keys ↔ ((Json.obj keys values).read [.key k]).isSome := read_key_isSome.symm
        rw [hread, h, read_key_isSome]
      congr
      funext k
      have hread : ∀ path, (values k).read path = (values' k).read path := fun path => by
        simpa [k.2] using h (.key k.1 :: path)
      exact ih k hread (by simpa using hread [])
  | _ =>
      cases b <;> simp_all [head]

end Json

end KernelGym.Library
