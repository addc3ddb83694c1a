import Mathlib.Data.List.Sort
import Mathlib.Data.List.Dedup
import Mathlib.Data.List.Pairwise

/-! Items gathered in buckets by a key, in the order in which the keys come, as `setdefault(key, []).append(item)`
does in a dictionary; and the bounds of a list of numbers. -/

namespace KernelGym.Library

variable {α κ : Type} [DecidableEq κ]

/-- `buckets.setdefault(key, []).append(item)` -/
def addToBucket (key : κ) (item : α) : List (κ × List α) → List (κ × List α)
  | [] => [(key, [item])]
  | (k, items) :: rest =>
    if k = key then (k, items ++ [item]) :: rest else (k, items) :: addToBucket key item rest

/-- The buckets of a list. -/
def buckets (key : α → κ) (items : List α) : List (κ × List α) :=
  items.foldl (fun bs item => addToBucket (key item) item bs) []

/-- Each bucket has items, and all of them have its key. -/
def Sorted (key : α → κ) (bs : List (κ × List α)) : Prop := ∀ b ∈ bs, b.2 ≠ [] ∧ ∀ x ∈ b.2, key x = b.1

section

variable {key : α → κ} {bs : List (κ × List α)} {item : α} {items : List α}

theorem addToBucket_perm (k : κ) (item : α) (bs : List (κ × List α)) :
    ((addToBucket k item bs).flatMap Prod.snd).Perm (item :: bs.flatMap Prod.snd) := by
  induction bs with
  | nil => exact List.Perm.refl _
  | cons b rest ih =>
      rw [addToBucket]
      split_ifs
      · simp only [List.flatMap_cons, List.append_assoc]
        exact List.perm_middle
      · simp only [List.flatMap_cons]
        exact (ih.append_left b.2).trans List.perm_middle

theorem Sorted.add (h : Sorted key bs) (item : α) : Sorted key (addToBucket (key item) item bs) := by
  induction bs with
  | nil =>
      intro b hb
      rw [List.mem_singleton.mp hb]
      exact ⟨List.cons_ne_nil _ _, fun x hx => by rw [List.mem_singleton.mp hx]⟩
  | cons b rest ih =>
      have hhead := h b List.mem_cons_self
      have hrest : Sorted key rest := fun b' hb' => h b' (List.mem_cons_of_mem b hb')
      rw [addToBucket]
      split_ifs with hkey
      · intro b' hb'
        rcases List.mem_cons.mp hb' with rfl | hb'
        · refine ⟨List.append_ne_nil_of_right_ne_nil _ (List.cons_ne_nil _ _), fun x hx => ?_⟩
          rcases List.mem_append.mp hx with hx | hx
          · exact hhead.2 x hx
          · rw [List.mem_singleton.mp hx]
            exact hkey.symm
        · exact hrest b' hb'
      · intro b' hb'
        rcases List.mem_cons.mp hb' with rfl | hb'
        · exact hhead
        · exact ih hrest b' hb'

theorem foldl_perm (bs : List (κ × List α)) :
    ((items.foldl (fun bs item => addToBucket (key item) item bs) bs).flatMap Prod.snd).Perm
      (bs.flatMap Prod.snd ++ items) := by
  induction items generalizing bs with
  | nil => rw [List.foldl_nil, List.append_nil]
  | cons item rest ih =>
      rw [List.foldl_cons]
      exact (ih _).trans (((addToBucket_perm (key item) item bs).append_right rest).trans List.perm_middle.symm)

/-- **The buckets hold every item once.** -/
theorem buckets_perm (key : α → κ) (items : List α) : ((buckets key items).flatMap Prod.snd).Perm items :=
  foldl_perm []

theorem buckets_sorted (key : α → κ) (items : List α) : Sorted key (buckets key items) := by
  have hfold (bs : List (κ × List α)) (h : Sorted key bs) :
      Sorted key (items.foldl (fun bs item => addToBucket (key item) item bs) bs) := by
    induction items generalizing bs with
    | nil => exact h
    | cons item rest ih => exact ih _ (h.add item)
  exact hfold [] fun b hb => absurd hb List.not_mem_nil

end

section

variable {β : Type}

theorem addToBucket_map (f : β → α) (k : κ) (item : β) (bs : List (κ × List β)) :
    addToBucket k (f item) (bs.map fun b => (b.1, b.2.map f)) =
      (addToBucket k item bs).map fun b => (b.1, b.2.map f) := by
  induction bs with
  | nil => rfl
  | cons b rest ih =>
      rw [List.map_cons, addToBucket, addToBucket]
      split_ifs
      · rw [List.map_cons, List.map_append]
        rfl
      · rw [List.map_cons, ih]

/-- The buckets of what a function makes of the items. -/
theorem buckets_map (f : β → α) (key : α → κ) (items : List β) :
    buckets key (items.map f) = (buckets (key ∘ f) items).map fun b => (b.1, b.2.map f) := by
  have hfold (bs : List (κ × List β)) :
      (items.map f).foldl (fun bs item => addToBucket (key item) item bs) (bs.map fun b => (b.1, b.2.map f)) =
        (items.foldl (fun bs item => addToBucket ((key ∘ f) item) item bs) bs).map fun b => (b.1, b.2.map f) := by
    induction items generalizing bs with
    | nil => rfl
    | cons item rest ih =>
        rw [List.map_cons, List.foldl_cons, List.foldl_cons, addToBucket_map]
        exact ih _
  exact hfold []

end

/-! ### Bounds -/

/-- The first and the last of the values in their order. -/
def rangeBounds (values : List ℤ) : Option (ℤ × ℤ) :=
  let sorted := values.dedup.insertionSort (· ≤ ·)
  match sorted.head?, sorted.getLast? with
  | some low, some high => some (low, high)
  | _, _ => none

/-- A range is the least and the greatest of some values; without values there is none. -/
def IsRange (range : Option (ℤ × ℤ)) (values : List ℤ) : Prop :=
  match range with
  | none => values = []
  | some (low, high) => low ∈ values ∧ high ∈ values ∧ ∀ v ∈ values, low ≤ v ∧ v ≤ high

theorem isRange_rangeBounds (values : List ℤ) : IsRange (rangeBounds values) values := by
  have hmem {v : ℤ} : v ∈ values.dedup.insertionSort (· ≤ ·) ↔ v ∈ values := by
    rw [List.mem_insertionSort, List.mem_dedup]
  have hsorted := List.pairwise_insertionSort (· ≤ ·) values.dedup
  unfold rangeBounds IsRange
  cases hs : values.dedup.insertionSort (· ≤ ·) with
  | nil =>
      rw [hs] at hmem
      exact List.eq_nil_iff_forall_not_mem.mpr fun v hv => absurd (hmem.mpr hv) List.not_mem_nil
  | cons low rest =>
      rw [hs] at hmem hsorted
      have hlast := List.getLast?_eq_getLast_of_ne_nil (List.cons_ne_nil low rest)
      simp only [List.head?_cons, hlast]
      refine ⟨hmem.mp List.mem_cons_self, hmem.mp (List.getLast_mem _), fun v hv => ⟨?_, ?_⟩⟩
      · rcases List.mem_cons.mp (hmem.mpr hv) with rfl | hv
        · exact le_rfl
        · exact (List.pairwise_cons.mp hsorted).1 v hv
      · exact hsorted.rel_getLast (hmem.mpr hv)

/-- Ranges that agree are the range of all the values together. -/
theorem IsRange.flatMap {β : Type} {range : Option (ℤ × ℤ)} {groups : List β} {values : β → List ℤ}
    (hne : groups ≠ []) (h : ∀ g ∈ groups, IsRange range (values g)) : IsRange range (groups.flatMap values) := by
  obtain ⟨g, hg⟩ := List.exists_mem_of_ne_nil groups hne
  cases range with
  | none => exact List.flatMap_eq_nil_iff.mpr h
  | some r =>
      obtain ⟨hlow, hhigh, -⟩ := h g hg
      refine ⟨List.mem_flatMap.mpr ⟨g, hg, hlow⟩, List.mem_flatMap.mpr ⟨g, hg, hhigh⟩, fun v hv => ?_⟩
      obtain ⟨g', hg', hv⟩ := List.mem_flatMap.mp hv
      exact (h g' hg').2.2 v hv

end KernelGym.Library
