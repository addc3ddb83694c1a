import Mathlib.Data.List.Basic

/-! Finite dictionaries with the operations of a Python `dict` or a Redis hash. Only what a lookup
answers counts: the order of the entries and entries that are shadowed by earlier ones do not. -/

namespace KernelGym.Library

structure Dict (κ ν : Type) where
  entries : List (κ × ν) := []
  deriving DecidableEq, Repr

namespace Dict

variable {κ ν : Type} [DecidableEq κ]

def get (d : Dict κ ν) (k : κ) : Option ν := d.entries.lookup k

def set (d : Dict κ ν) (k : κ) (v : ν) : Dict κ ν := ⟨(k, v) :: d.entries⟩

def setDefault (d : Dict κ ν) (k : κ) (v : ν) : Dict κ ν :=
  match d.get k with
  | some _ => d
  | none => d.set k v

/-- The entries whose key meets `p`. -/
def keep (d : Dict κ ν) (p : κ → Bool) : Dict κ ν := ⟨d.entries.filter fun e => p e.1⟩

def erase (d : Dict κ ν) (k : κ) : Dict κ ν := d.keep (· ≠ k)

/-- `d.update(e)`, also `HSET` with a mapping. -/
def update (d e : Dict κ ν) : Dict κ ν := ⟨e.entries ++ d.entries⟩

def isEmpty (d : Dict κ ν) : Bool := d.entries.isEmpty

/-- The keys whose value meets `p`. -/
def keysWhere (d : Dict κ ν) (p : κ → ν → Bool) : List κ :=
  (d.entries.map Prod.fst).filter fun k => (d.get k).any (p k)

def dropWhere (d : Dict κ ν) (p : κ → ν → Bool) : Dict κ ν := d.keep fun k => !(d.get k).any (p k)

/-- Every entry of `e` is one of `d`. -/
def contains [DecidableEq ν] (d e : Dict κ ν) : Bool :=
  e.entries.all fun entry => d.get entry.1 = e.get entry.1

/-- Equality of dictionaries. -/
def same [DecidableEq ν] (d e : Dict κ ν) : Bool := d.contains e && e.contains d

variable (d e : Dict κ ν) {k k' : κ} {v : ν} {p : κ → Bool} {q : κ → ν → Bool}

@[simp] theorem get_empty : ({} : Dict κ ν).get k = none := rfl

theorem get_set : (d.set k v).get k' = if k' = k then some v else d.get k' := by
  by_cases h : k' = k
  · rw [if_pos h, h]
    exact List.lookup_cons_self
  · rw [if_neg h]
    simp [get, set, List.lookup_cons, beq_eq_false_iff_ne.mpr h]

@[simp] theorem get_set_self : (d.set k v).get k = some v := by
  rw [get_set, if_pos rfl]

theorem get_set_of_ne (h : k' ≠ k) : (d.set k v).get k' = d.get k' := by
  rw [get_set, if_neg h]

theorem get_setDefault : (d.setDefault k v).get k' =
    if k' = k then some ((d.get k).getD v) else d.get k' := by
  unfold setDefault
  cases hk : d.get k with
  | none => exact d.get_set
  | some w =>
      by_cases h : k' = k
      · rw [if_pos h, h, hk]
        rfl
      · rw [if_neg h]

theorem get_keep : (d.keep p).get k = if p k then d.get k else none := by
  obtain ⟨entries⟩ := d
  simp only [get, keep]
  induction entries with
  | nil => simp
  | cons entry rest ih =>
      rw [List.filter_cons, List.lookup_cons]
      by_cases hk : k = entry.1
      · subst hk
        by_cases hp : p entry.1 = true
        · rw [if_pos hp, if_pos hp, List.lookup_cons, beq_self_eq_true]
        · simp only [hp, if_neg, Bool.false_eq_true, not_false_eq_true] at ih ⊢
          exact ih
      · rw [beq_eq_false_iff_ne.mpr hk]
        by_cases hp : p entry.1 = true
        · rw [if_pos hp, List.lookup_cons, beq_eq_false_iff_ne.mpr hk]
          exact ih
        · rw [if_neg hp]
          exact ih

theorem get_erase : (d.erase k).get k' = if k' = k then none else d.get k' := by
  rw [erase, get_keep]
  by_cases h : k' = k <;> simp [h]

theorem get_update : (d.update e).get k = (e.get k).or (d.get k) := by
  obtain ⟨entries⟩ := e
  simp only [get, update]
  induction entries with
  | nil => rfl
  | cons entry rest ih =>
      rw [List.cons_append, List.lookup_cons, List.lookup_cons]
      cases k == entry.1 with
      | true => rfl
      | false => exact ih

theorem get_dropWhere : (d.dropWhere q).get k = (d.get k).filter fun v => !q k v := by
  rw [dropWhere, get_keep]
  cases hk : d.get k with
  | none => simp
  | some v =>
      rw [Option.any_some, Option.filter_some]

theorem mem_entries (h : d.get k = some v) : (k, v) ∈ d.entries := by
  obtain ⟨entries⟩ := d
  simp only [get] at h ⊢
  induction entries with
  | nil => exact absurd h (by simp)
  | cons entry rest ih =>
      rw [List.lookup_cons] at h
      rw [List.mem_cons]
      cases hk : k == entry.1 with
      | true =>
          rw [hk] at h
          exact Or.inl (Prod.ext (beq_iff_eq.mp hk) (Option.some.inj h).symm)
      | false =>
          rw [hk] at h
          exact Or.inr (ih h)

theorem mem_keys (h : d.get k = some v) : k ∈ d.entries.map Prod.fst :=
  List.mem_map_of_mem (d.mem_entries h)

/-- What a test of the entries finds for every value that is stored. -/
theorem get_of_all (test : ν → Bool) (h : d.entries.all (fun entry => test entry.2) = true)
    (hk : d.get k = some v) : test v = true :=
  List.all_eq_true.mp h (k, v) (d.mem_entries hk)

theorem mem_keysWhere : k ∈ d.keysWhere q ↔ ∃ v, d.get k = some v ∧ q k v = true := by
  rw [keysWhere, List.mem_filter, Option.any_eq_true]
  exact ⟨fun h => h.2, fun h => ⟨d.mem_keys h.choose_spec.1, h⟩⟩

theorem isEmpty_iff : d.isEmpty = true ↔ ∀ k, d.get k = none := by
  obtain ⟨entries⟩ := d
  cases entries with
  | nil => simp [isEmpty, get]
  | cons entry rest =>
      simp only [isEmpty, List.isEmpty_cons, Bool.false_eq_true, false_iff, not_forall]
      exact ⟨entry.1, by simp [get]⟩

variable [DecidableEq ν]

theorem contains_iff : d.contains e = true ↔ ∀ k v, e.get k = some v → d.get k = some v := by
  rw [contains, List.all_eq_true]
  constructor
  · intro h k v hk
    obtain ⟨entry, hentry, rfl⟩ := List.mem_map.mp (e.mem_keys hk)
    exact (of_decide_eq_true (h entry hentry)).trans hk
  · intro h entry hentry
    have hsome : (e.get entry.1).isSome := by
      by_contra hnone
      have hkey := List.lookup_eq_none_iff.mp (Option.not_isSome_iff_eq_none.mp hnone) entry hentry
      simp at hkey
    obtain ⟨v, hv⟩ := Option.isSome_iff_exists.mp hsome
    exact decide_eq_true ((h _ v hv).trans hv.symm)

theorem same_iff : d.same e = true ↔ ∀ k, d.get k = e.get k := by
  rw [same, Bool.and_eq_true, contains_iff, contains_iff]
  refine ⟨fun h k => ?_, fun h => ⟨fun k v hv => (h k).trans hv, fun k v hv => (h k).symm.trans hv⟩⟩
  cases he : e.get k with
  | some v => exact h.1 k v he
  | none =>
      cases hd : d.get k with
      | none => rfl
      | some v => exact absurd ((h.2 k v hd).symm.trans he) (by simp)

end Dict

/-- A looked up text that Python takes for true: present and not empty. -/
def given (value : Option String) : Option String := value.filter (· ≠ "")

theorem given_eq_some {value : Option String} {v : String} : given value = some v ↔ value = some v ∧ v ≠ "" := by
  simp [given, Option.filter_eq_some_iff]

theorem given_eq_none {value : Option String} : given value = none ↔ ∀ v, value = some v → v = "" := by
  simp [given, Option.filter_eq_none_iff]

end KernelGym.Library
