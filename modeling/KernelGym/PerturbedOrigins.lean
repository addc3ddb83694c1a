import KernelGym.InputPerturbation
import Mathlib.Data.List.Nodup

/-! When the recorded origins are those of the tensors that are perturbed. -/

namespace KernelGym.InputPerturbation

open Library

variable {α : Type}

namespace Memory

/-- The factory from which a tensor comes: the one that returned it, or else the one whose tensor its storage held. -/
def originOf (m : Memory α) (t : Tensor) : Option Kind := t.returned.or (m.marks t.storage)

/-- The factory from which a live floating-point tensor comes. -/
def provenance (m : Memory α) (id : ℕ) : Option Kind :=
  (m.find id).bind fun found => if found.1.dtype.isFloatingPoint then m.originOf found.1 else none

/-- What the elements of a tensor are to be after the perturbation. -/
def expectedElements (a : Arithmetic α) (m : Memory α) (perturbation : Perturbation) (id : ℕ) : Option (List (List α)) :=
  (m.find id).map fun found =>
    match (m.provenance id).bind fun kind => transformOf kind perturbation with
    | some transform => (elements found.1 found.2).map (a.apply transform found.1.dtype)
    | none => elements found.1 found.2

end Memory

/-- The elements of a tensor of the result. -/
def Leaf.elements (m : Memory α) : Leaf α → Option (List (List α))
  | .same id => (m.find id).map fun found => Memory.elements found.1 found.2
  | .clone elements => some elements

/-- Every perturbation of nested inputs changes the random tensors, as their distribution asks, and nothing else. -/
def PerturbsRandomOnly {β : Type} (a : Arithmetic α) (m : Memory α) (inputs : Inputs β ℕ) : Prop :=
  ∀ perturbation : Perturbation,
    (applyInputPerturbation a m perturbation inputs).1.map (Leaf.elements m) =
      inputs.map (m.expectedElements a perturbation)

/-- Memory whose live tensors have ids and storages of their own. -/
structure Sound (m : Memory α) : Prop where
  ids : (m.objects.map Prod.fst).Nodup
  inRange : ∀ e ∈ m.objects, e.2.storage < m.storages.length
  apart : ∀ e ∈ m.objects, ∀ e' ∈ m.objects, e.2.storage ≠ e'.2.storage →
    ∀ s ∈ m.storageOf e.2, ∀ s' ∈ m.storageOf e'.2, s.apart s' = true

/-- The memory when the capture starts: nothing is recorded. -/
structure Start (m : Memory α) : Prop extends Sound m where
  origins : m.origins = {}
  returned : ∀ e ∈ m.objects, e.2.returned = none
  marks : ∀ storage, m.marks storage = none

/-- What stands in the records under a new object or a new storage, left from a tensor that is gone, is not another
origin than that of the tensors that get it; and no random tensor is put on a storage that is not recorded. -/
def NoStaleOrigin (m : Memory α) : Operation α → Prop
  | .allocate id storage dtype _ none =>
    dtype.isFloatingPoint = true → storage.cells ≠ [] → m.origins.kindFor id storage.key = none
  | .view id source dtype _ =>
    ∀ found ∈ m.find source, dtype.isFloatingPoint = true → found.2.cells ≠ [] →
      m.origins.kindFor id found.2.key = m.marks found.1.storage
  | .resize id storage _ =>
    ∀ found ∈ m.find id, storage.cells ≠ [] → ∀ e ∈ m.objects, e.2.storage = found.1.storage →
      e.2.dtype.isFloatingPoint = true → m.origins.kindFor e.1 storage.key = m.originOf e.2
  | .assign id source dtype _ =>
    ∀ found ∈ m.find id, ∀ other ∈ m.find source, other.2.cells ≠ [] →
      (found.1.returned = none ∨ m.marks other.1.storage ≠ none) ∧
        (dtype.isFloatingPoint = true →
          m.origins.kindFor id other.2.key = found.1.returned.or (m.marks other.1.storage))
  | .refill id _ _ =>
    ∀ found ∈ m.find id, found.2.cells ≠ [] → ∀ e ∈ m.objects, e.1 ≠ id → e.2.storage = found.1.storage →
      e.2.dtype.isFloatingPoint = true → m.origins.byObjectId.get e.1 = e.2.returned
  | _ => True

/-- What the records say of every tensor with elements is the factory that it comes from. -/
structure Known (m : Memory α) : Prop extends Sound m where
  recorded : ∀ e ∈ m.objects, ∀ s ∈ m.storageOf e.2, e.2.dtype.isFloatingPoint = true → s.cells ≠ [] →
    m.origins.kindFor e.1 s.key = m.originOf e.2

/-! ### Lookups -/

theorem mem_of_find {m : Memory α} {id : ℕ} {t : Tensor} {s : Storage α} (h : m.find id = some (t, s)) :
    (id, t) ∈ m.objects ∧ m.storageOf t = some s := by
  obtain ⟨t', hlookup, hfound⟩ := Option.bind_eq_some_iff.mp h
  obtain ⟨s', hs, heq⟩ := Option.map_eq_some_iff.mp hfound
  obtain ⟨rfl, rfl⟩ := Prod.mk.inj heq
  obtain ⟨before, after, hobjects, -⟩ := List.lookup_eq_some_iff.mp hlookup
  exact ⟨hobjects ▸ List.mem_append_right _ List.mem_cons_self, hs⟩

theorem Start.known {m : Memory α} (h : Start m) : Known m where
  toSound := h.toSound
  recorded e he s hs hfloat hcells := by
    rw [Memory.originOf, h.origins, h.returned e he, h.marks]
    rfl

theorem key_ne_of_apart {s s' : Storage α} (h : s.apart s' = true) (hcells : s.cells ≠ []) : s.key ≠ s'.key := by
  intro hkey
  simp only [Storage.key, Prod.mk.injEq] at hkey
  have hcells' : s'.cells ≠ [] := by
    rw [← List.length_pos_iff, ← hkey.2.2]
    exact List.length_pos_iff.mpr hcells
  simp [Storage.apart, hkey.1, hkey.2.1, hcells, hcells'] at h

theorem apart_comm {s s' : Storage α} (h : s.apart s' = true) : s'.apart s = true := by
  simp only [Storage.apart, Bool.or_eq_true, decide_eq_true_eq] at h ⊢
  rcases h with (h | h) | h
  · exact .inl (.inr h)
  · exact .inl (.inl h)
  · exact .inr (Ne.symm h)

theorem apart_of_key {s s' r r' : Storage α} (hs : s.key = r.key) (hs' : s'.key = r'.key) (h : r.apart r' = true) :
    s.apart s' = true := by
  have hempty {x y : Storage α} (hkey : x.key = y.key) : x.cells.isEmpty = y.cells.isEmpty := by
    have hlength : x.cells.length = y.cells.length := congrArg (fun key => key.2.2) hkey
    cases hx : x.cells <;> cases hy : y.cells <;> simp_all
  have hplace : (s.device, s.address) = (r.device, r.address) := by
    simp only [Storage.key, Prod.mk.injEq] at hs
    rw [hs.1, hs.2.1]
  have hplace' : (s'.device, s'.address) = (r'.device, r'.address) := by
    simp only [Storage.key, Prod.mk.injEq] at hs'
    rw [hs'.1, hs'.2.1]
  rwa [Storage.apart, hempty hs, hempty hs', hplace, hplace']

/-! ### Records -/

section

variable {origins : RandomInputOrigins} {id id' : ℕ} {key key' : StorageKey} {kind : Kind}

theorem kindFor_record_self : (origins.record id key kind).kindFor id key' = some kind := by
  rw [RandomInputOrigins.kindFor, RandomInputOrigins.record, Dict.get_set_self]

/-- A record of another tensor on another storage changes nothing. -/
theorem kindFor_record_of_ne (hid : id' ≠ id) (hkey : key' ≠ key) :
    (origins.record id key kind).kindFor id' key' = origins.kindFor id' key' := by
  rw [RandomInputOrigins.kindFor, RandomInputOrigins.record, Dict.get_set_of_ne _ hid, Dict.get_set_of_ne _ hkey]
  rfl

/-- A record of another tensor on the same storage counts where the id has none. -/
theorem kindFor_record_storage (hid : id' ≠ id) :
    (origins.record id key kind).kindFor id' key = (origins.byObjectId.get id').or (some kind) := by
  rw [RandomInputOrigins.kindFor, RandomInputOrigins.record, Dict.get_set_of_ne _ hid, Dict.get_set_self]
  cases origins.byObjectId.get id' <;> rfl

end

/-! ### Memory after a step -/

section

variable {m m' : Memory α} {id : ℕ}

theorem fst_modify (change : Tensor → Tensor) : (m.modify id change).map Prod.fst = m.objects.map Prod.fst := by
  rw [Memory.modify, List.map_map]
  refine List.map_congr_left fun e _ => ?_
  by_cases he : e.1 = id <;> simp [he]

/-- An object after a change: the changed one, or one that was there. -/
theorem mem_modify {change : Tensor → Tensor} {e : ℕ × Tensor} (he : e ∈ m.modify id change) :
    (∃ t, (id, t) ∈ m.objects ∧ e = (id, change t)) ∨ e ∈ m.objects ∧ e.1 ≠ id := by
  obtain ⟨old, hold, rfl⟩ := List.mem_map.mp he
  by_cases hid : old.1 = id
  · exact .inl ⟨old.2, hid ▸ hold, by rw [if_pos hid, hid]⟩
  · exact .inr (by rw [if_neg hid]; exact ⟨hold, hid⟩)

theorem Sound.unique (hm : Sound m) {t t' : Tensor} (h : (id, t) ∈ m.objects) (h' : (id, t') ∈ m.objects) : t = t' :=
  (Prod.mk.inj (List.inj_on_of_nodup_map hm.ids h h' rfl)).2

/-- What is written to a storage leaves it where it is and as large as it is. -/
theorem key_set {n : ℕ} {s written : Storage α} (hs : m.storages[n]? = some s) (hkey : written.key = s.key) {k : ℕ}
    {s' : Storage α} (hs' : (m.storages.set n written)[k]? = some s') :
    ∃ old, m.storages[k]? = some old ∧ s'.key = old.key := by
  by_cases hn : n = k
  · subst hn
    rw [List.getElem?_set_self (List.getElem?_eq_some_iff.mp hs).1, Option.some.injEq] at hs'
    exact ⟨s, hs, hs' ▸ hkey⟩
  · rw [List.getElem?_set_ne hn] at hs'
    exact ⟨s', hs', rfl⟩

theorem cells_of_key {s s' : Storage α} (h : s.key = s'.key) (hcells : s.cells ≠ []) : s'.cells ≠ [] := by
  have hlength : s.cells.length = s'.cells.length := congrArg (fun key => key.2.2) h
  rw [← List.length_pos_iff, ← hlength]
  exact List.length_pos_iff.mpr hcells

/-- Objects that stand on storages of live objects, which stay where they are, are sound. -/
theorem Sound.of_keys (hm : Sound m) (hids : (m'.objects.map Prod.fst).Nodup)
    (hlength : m'.storages.length = m.storages.length)
    (hobjects : ∀ e ∈ m'.objects, ∃ old ∈ m.objects, old.2.storage = e.2.storage)
    (hkeys : ∀ (n : ℕ) (s' : Storage α), m'.storages[n]? = some s' →
      ∃ s, m.storages[n]? = some s ∧ s'.key = s.key) : Sound m' where
  ids := hids
  inRange e he := by
    obtain ⟨old, hold, hstorage⟩ := hobjects e he
    rw [hlength, ← hstorage]
    exact hm.inRange old hold
  apart e he e' he' hne s hs s' hs' := by
    obtain ⟨old, hold, hstorage⟩ := hobjects e he
    obtain ⟨old', hold', hstorage'⟩ := hobjects e' he'
    obtain ⟨r, hr, hkey⟩ := hkeys _ s hs
    obtain ⟨r', hr', hkey'⟩ := hkeys _ s' hs'
    rw [← hstorage] at hr
    rw [← hstorage'] at hr'
    exact apart_of_key hkey hkey' (hm.apart old hold old' hold' (by rwa [hstorage, hstorage']) r hr r' hr')

end

/-! ### Steps -/

section

variable {m : Memory α} {id : ℕ} {storage : Storage α} {dtype : DType} {offsets : List ℕ} {factory : Option Kind}

theorem storageOf_allocate (hm : Sound m) {e : ℕ × Tensor} (he : e ∈ m.objects) :
    (m.allocate id storage dtype offsets factory).storageOf e.2 = m.storageOf e.2 :=
  List.getElem?_append_left (hm.inRange e he)

theorem storageOf_new :
    (m.allocate id storage dtype offsets factory).storageOf ⟨m.storages.length, dtype, offsets, factory⟩ =
      some storage := by
  simp [Memory.storageOf, Memory.allocate]

theorem originOf_allocate (hm : Sound m) {e : ℕ × Tensor} (he : e ∈ m.objects) :
    (m.allocate id storage dtype offsets factory).originOf e.2 = m.originOf e.2 :=
  congrArg e.2.returned.or (if_neg (Nat.ne_of_lt (hm.inRange e he)))

theorem sound_allocate (hm : Sound m)
    (hfree : ∀ e ∈ m.objects, e.1 ≠ id ∧ ∀ s ∈ m.storageOf e.2, s.apart storage = true) :
    Sound (m.allocate id storage dtype offsets factory) where
  ids := List.nodup_cons.mpr ⟨fun hid => by
    obtain ⟨e, he, heq⟩ := List.mem_map.mp hid
    exact (hfree e he).1 heq, hm.ids⟩
  inRange e he := by
    have hlength : (m.allocate id storage dtype offsets factory).storages.length = m.storages.length + 1 :=
      List.length_append
    rw [hlength]
    rcases List.mem_cons.mp he with rfl | he
    · exact Nat.lt_succ_self _
    · exact Nat.lt_succ_of_lt (hm.inRange e he)
  apart e he e' he' hne s hs s' hs' := by
    rcases List.mem_cons.mp he with rfl | he <;> rcases List.mem_cons.mp he' with rfl | he'
    · exact absurd rfl hne
    · rw [storageOf_new, Option.mem_some_iff] at hs
      rw [storageOf_allocate hm he'] at hs'
      subst s
      exact apart_comm ((hfree e' he').2 s' hs')
    · rw [storageOf_new, Option.mem_some_iff] at hs'
      rw [storageOf_allocate hm he] at hs
      subst s'
      exact (hfree e he).2 s hs
    · rw [storageOf_allocate hm he] at hs
      rw [storageOf_allocate hm he'] at hs'
      exact hm.apart e he e' he' hne s hs s' hs'

theorem known_allocate (hm : Known m)
    (hfree : ∀ e ∈ m.objects, e.1 ≠ id ∧ ∀ s ∈ m.storageOf e.2, s.apart storage = true)
    (hclean : NoStaleOrigin m (.allocate id storage dtype offsets factory)) :
    Known (m.allocate id storage dtype offsets factory) where
  toSound := sound_allocate hm.toSound hfree
  recorded e he s hs hfloat hcells := by
    rcases List.mem_cons.mp he with rfl | he
    · -- the new tensor has the record of its factory, or none
      rw [storageOf_new, Option.mem_some_iff] at hs
      subst s
      have hmark : (m.allocate id storage dtype offsets factory).marks m.storages.length = factory := if_pos rfl
      rw [Memory.originOf, hmark]
      cases factory with
      | none => exact hclean hfloat hcells
      | some kind => exact kindFor_record_self
    · rw [storageOf_allocate hm.toSound he] at hs
      rw [originOf_allocate hm.toSound he, ← hm.recorded e he s hs hfloat hcells]
      have hne := hfree e he
      cases factory with
      | none => rfl
      | some kind => exact kindFor_record_of_ne hne.1 (key_ne_of_apart (hne.2 s hs) hcells)

theorem known_view (hm : Known m) {source : ℕ} (hid : ∀ e ∈ m.objects, e.1 ≠ id) {t : Tensor} {s : Storage α}
    (hsource : m.find source = some (t, s)) (hclean : NoStaleOrigin m (.view id source dtype offsets)) :
    Known { m with objects := (id, ⟨t.storage, dtype, offsets, none⟩) :: m.objects } := by
  obtain ⟨hmem, hstorage⟩ := mem_of_find hsource
  refine ⟨hm.toSound.of_keys ?_ rfl ?_ fun n s' hs' => ⟨s', hs', rfl⟩, ?_⟩
  · refine List.nodup_cons.mpr ⟨fun h => ?_, hm.ids⟩
    obtain ⟨e, he, heq⟩ := List.mem_map.mp h
    exact hid e he heq
  · -- the new tensor is on the storage of a live one
    intro e he
    rcases List.mem_cons.mp he with rfl | he
    · exact ⟨_, hmem, rfl⟩
    · exact ⟨e, he, rfl⟩
  · intro e he s' hs' hfloat hcells
    rcases List.mem_cons.mp he with rfl | he
    · obtain rfl : s' = s := Option.some.inj (hs'.symm.trans hstorage)
      exact hclean (t, s') hsource hfloat hcells
    · exact hm.recorded e he s' hs' hfloat hcells

theorem known_free (hm : Known m) : Known { m with objects := m.objects.filter fun e => e.1 ≠ id } := by
  have hmem {e : ℕ × Tensor} (he : e ∈ m.objects.filter fun e => e.1 ≠ id) : e ∈ m.objects := (List.mem_filter.mp he).1
  refine ⟨hm.toSound.of_keys (hm.ids.sublist (List.filter_sublist.map Prod.fst)) rfl (fun e he => ⟨e, hmem he, rfl⟩)
    fun n s' hs' => ⟨s', hs', rfl⟩, ?_⟩
  exact fun e he => hm.recorded e (hmem he)

theorem known_write (hm : Known m) {t : Tensor} {s written : Storage α} (hs : m.storageOf t = some s)
    (hkey : written.key = s.key) : Known { m with storages := m.storages.set t.storage written } := by
  refine ⟨hm.toSound.of_keys hm.ids List.length_set (fun e he => ⟨e, he, rfl⟩) fun _ _ => key_set hs hkey, ?_⟩
  intro e he s' hs' hfloat hcells
  obtain ⟨old, hold, hsame⟩ := key_set hs hkey hs'
  rw [hsame]
  exact hm.recorded e he old hold hfloat (cells_of_key hsame hcells)

theorem known_resize (hm : Known m) {t : Tensor} {s : Storage α} (hfind : m.find id = some (t, s))
    (hfree : ∀ e ∈ m.objects, e.2.storage ≠ t.storage → ∀ s ∈ m.storageOf e.2, s.apart storage = true)
    (hclean : NoStaleOrigin m (.resize id storage offsets)) : Known (m.resize id t storage offsets) := by
  obtain ⟨hmem, hs⟩ := mem_of_find hfind
  -- the same objects on the same storages, of which one has moved
  have hobjects : ∀ e ∈ (m.resize id t storage offsets).objects, ∃ old ∈ m.objects,
      old.1 = e.1 ∧ old.2.storage = e.2.storage ∧ old.2.dtype = e.2.dtype ∧ old.2.returned = e.2.returned := by
    intro e he
    rw [Memory.objects_resize] at he
    rcases mem_modify he with ⟨t', ht', rfl⟩ | ⟨hold, -⟩
    · exact ⟨_, ht', rfl, rfl, rfl, rfl⟩
    · exact ⟨e, hold, rfl, rfl, rfl, rfl⟩
  have hmoved {n : ℕ} {s' : Storage α} (hs' : (m.storages.set t.storage storage)[n]? = some s') :
      n = t.storage ∧ s' = storage ∨ n ≠ t.storage ∧ m.storages[n]? = some s' := by
    by_cases hn : n = t.storage
    · rw [hn, List.getElem?_set_self (List.getElem?_eq_some_iff.mp hs).1, Option.some.injEq] at hs'
      exact .inl ⟨hn, hs'.symm⟩
    · rw [List.getElem?_set_ne (Ne.symm hn)] at hs'
      exact .inr ⟨hn, hs'⟩
  refine ⟨⟨?_, fun e he => ?_, fun e he e' he' hne s₁ hs₁ s₂ hs₂ => ?_⟩, fun e he s' hs' hfloat hcells => ?_⟩
  · rw [Memory.objects_resize, fst_modify]
    exact hm.ids
  · obtain ⟨old, hold, -, hstorage, -⟩ := hobjects e he
    have hlength : (m.resize id t storage offsets).storages.length = m.storages.length := List.length_set
    rw [hlength, ← hstorage]
    exact hm.inRange old hold
  · obtain ⟨old, hold, -, hstorage, -⟩ := hobjects e he
    obtain ⟨old', hold', -, hstorage', -⟩ := hobjects e' he'
    rcases hmoved hs₁ with ⟨hn, rfl⟩ | ⟨hn, hr₁⟩ <;> rcases hmoved hs₂ with ⟨hn', rfl⟩ | ⟨hn', hr₂⟩
    · exact absurd (hn.trans hn'.symm) hne
    · rw [← hstorage'] at hr₂ hn'
      exact apart_comm (hfree old' hold' hn' s₂ hr₂)
    · rw [← hstorage] at hr₁ hn
      exact hfree old hold hn s₁ hr₁
    · rw [← hstorage] at hr₁
      rw [← hstorage'] at hr₂
      exact hm.apart old hold old' hold' (by rwa [hstorage, hstorage']) s₁ hr₁ s₂ hr₂
  · obtain ⟨old, hold, hid, hstorage, hdtype, hreturned⟩ := hobjects e he
    have horigin : (m.resize id t storage offsets).originOf e.2 = m.originOf old.2 := by
      rw [Memory.originOf, Memory.originOf, hstorage, hreturned]
      rfl
    rw [horigin, ← hid]
    rw [← hdtype] at hfloat
    rcases hmoved hs' with ⟨hn, rfl⟩ | ⟨-, hr⟩
    · exact hclean (t, s) hfind hcells old hold (hstorage.trans hn) hfloat
    · rw [← hstorage] at hr
      exact hm.recorded old hold s' hr hfloat hcells

theorem known_assign (hm : Known m) {source : ℕ} {t t' : Tensor} {s s' : Storage α} (hfind : m.find id = some (t, s))
    (hsource : m.find source = some (t', s')) (hclean : NoStaleOrigin m (.assign id source dtype offsets)) :
    Known (m.assign id t t' dtype offsets) := by
  obtain ⟨hmem, -⟩ := mem_of_find hfind
  obtain ⟨hmem', hs'⟩ := mem_of_find hsource
  have hobjects {e : ℕ × Tensor} (he : e ∈ (m.assign id t t' dtype offsets).objects) :
      e ∈ m.modify id fun t => { t with storage := t'.storage, dtype, offsets } := he
  refine ⟨hm.toSound.of_keys ?_ rfl ?_ fun n r hr => ⟨r, hr, rfl⟩, fun e he r hr hfloat hcells => ?_⟩
  · rw [Memory.objects_assign, fst_modify]
    exact hm.ids
  · intro e he
    rcases mem_modify (hobjects he) with ⟨t₁, ht₁, rfl⟩ | ⟨hold, -⟩
    · exact ⟨_, hmem', rfl⟩
    · exact ⟨e, hold, rfl⟩
  · have hmark (n : ℕ) : (m.assign id t t' dtype offsets).marks n =
        if n = t'.storage then (m.marks n).or t.returned else m.marks n := rfl
    rcases mem_modify (hobjects he) with ⟨t₁, ht₁, rfl⟩ | ⟨hold, hne⟩
    · -- the tensor itself
      obtain rfl := hm.unique ht₁ hmem
      obtain rfl : r = s' := Option.some.inj (hr.symm.trans hs')
      rw [Memory.originOf, hmark, if_pos rfl]
      refine ((hclean (t₁, s) hfind (t', r) hsource hcells).2 hfloat).trans ?_
      cases t₁.returned <;> cases m.marks t'.storage <;> rfl
    · have hsame : (m.assign id t t' dtype offsets).originOf e.2 = m.originOf e.2 := by
        rw [Memory.originOf, Memory.originOf, hmark]
        split_ifs with hn
        · have hr' : m.storages[t'.storage]? = some r := hn ▸ hr
          obtain rfl : r = s' := Option.some.inj (hr'.symm.trans hs')
          rcases (hclean (t, s) hfind (t', r) hsource hcells).1 with hnone | hmarked
          · rw [show t.returned = none from hnone, Option.or_none]
          · obtain ⟨kind, hkind⟩ := Option.ne_none_iff_exists'.mp hmarked
            rw [hn, show m.marks t'.storage = some kind from hkind]
            rfl
        · rfl
      rw [hsame]
      exact hm.recorded e hold r hr hfloat hcells

theorem known_refill (hm : Known m) {t : Tensor} {s : Storage α} {cells : List α} {kind : Kind}
    (hfind : m.find id = some (t, s)) (hlength : cells.length = s.cells.length)
    (hclean : NoStaleOrigin m (.refill id cells kind)) : Known (m.refill id t s cells kind) := by
  obtain ⟨hmem, hs⟩ := mem_of_find hfind
  have hobjects {e : ℕ × Tensor} (he : e ∈ (m.refill id t s cells kind).objects) :
      e ∈ m.modify id fun t => { t with returned := some kind } := he
  have hkey : ({ s with cells } : Storage α).key = s.key := by rw [Storage.key, hlength, Storage.key]
  refine ⟨hm.toSound.of_keys ?_ List.length_set ?_ fun _ _ => key_set hs hkey, fun e he r hr hfloat hcells => ?_⟩
  · rw [Memory.objects_refill, fst_modify]
    exact hm.ids
  · intro e he
    rcases mem_modify (hobjects he) with ⟨t₁, ht₁, rfl⟩ | ⟨hold, -⟩
    · exact ⟨_, ht₁, rfl⟩
    · exact ⟨e, hold, rfl⟩
  · obtain ⟨old, hold, hsame⟩ := key_set hs hkey hr
    have hcells := cells_of_key hsame hcells
    rw [hsame]
    rcases mem_modify (hobjects he) with ⟨t₁, ht₁, rfl⟩ | ⟨hbefore, hne⟩
    · exact kindFor_record_self
    · by_cases hn : e.2.storage = t.storage
      · -- another tensor on the same storage
        have hold' : m.storages[t.storage]? = some old := hn ▸ hold
        obtain rfl : old = s := Option.some.inj (hold'.symm.trans hs)
        have hmark : (m.refill id t old cells kind).marks e.2.storage = some kind := if_pos hn
        rw [Memory.originOf, hmark, ← hclean (t, old) hfind hcells e hbefore hne hn hfloat]
        exact kindFor_record_storage hne
      · have horigin : (m.refill id t s cells kind).originOf e.2 = m.originOf e.2 :=
          congrArg e.2.returned.or (if_neg hn)
        rw [horigin, ← hm.recorded e hbefore old hold hfloat hcells]
        exact kindFor_record_of_ne hne (key_ne_of_apart (hm.apart e hbefore _ hmem hn old hold s hs) hcells)

/-- Every operation that meets no stale record keeps the records right. -/
theorem known_step {m' : Memory α} {op : Operation α} (hm : Known m) (hclean : NoStaleOrigin m op)
    (h : m.step op = some m') : Known m' := by
  cases op with
  | allocate id storage dtype offsets factory =>
      simp only [Memory.step, Option.ite_none_right_eq_some, Option.some.injEq] at h
      obtain ⟨hfree, rfl⟩ := h
      exact known_allocate hm hfree hclean
  | view id source dtype offsets =>
      simp only [Memory.step, Option.ite_none_right_eq_some, Option.map_eq_some_iff] at h
      obtain ⟨hid, ⟨t, s⟩, hsource, rfl⟩ := h
      exact known_view hm hid hsource hclean
  | write id cells =>
      obtain ⟨⟨t, s⟩, hfind, hset⟩ := Option.bind_eq_some_iff.mp h
      obtain ⟨hlength, hset⟩ := Option.ite_none_right_eq_some.mp hset
      obtain rfl := Option.some.inj hset
      exact known_write hm (mem_of_find hfind).2 (by rw [Storage.key, Storage.key, hlength])
  | resize id storage offsets =>
      obtain ⟨⟨t, s⟩, hfind, hset⟩ := Option.bind_eq_some_iff.mp h
      obtain ⟨hfree, hset⟩ := Option.ite_none_right_eq_some.mp hset
      obtain rfl := Option.some.inj hset
      exact known_resize hm hfind hfree hclean
  | assign id source dtype offsets =>
      obtain ⟨⟨t, s⟩, hfind, hset⟩ := Option.bind_eq_some_iff.mp h
      obtain ⟨⟨t', s'⟩, hsource, rfl⟩ := Option.map_eq_some_iff.mp hset
      exact known_assign hm hfind hsource hclean
  | refill id cells kind =>
      obtain ⟨⟨t, s⟩, hfind, hset⟩ := Option.bind_eq_some_iff.mp h
      obtain ⟨hlength, hset⟩ := Option.ite_none_right_eq_some.mp hset
      obtain rfl := Option.some.inj hset
      exact known_refill hm hfind hlength hclean
  | free id =>
      obtain rfl := Option.some.inj h
      exact known_free hm

end

/-! ### The perturbation -/

theorem elements_empty {t : Tensor} {s : Storage α} (h : s.cells = []) : Memory.elements t s = [] := by
  refine List.filterMap_eq_nil_iff.mpr fun offset _ => if_neg ?_
  have hpositive := t.dtype.positive
  rw [h, List.length_nil]
  omega

/-- A tensor is changed as its origin asks. -/
theorem transformLeaf_elements {m : Memory α} (hm : Known m) (a : Arithmetic α) (perturbation : Perturbation) (id : ℕ) :
    (m.transformLeaf a perturbation id).elements m = m.expectedElements a perturbation id := by
  unfold Memory.transformLeaf Memory.expectedElements
  cases hfind : m.find id with
  | none => exact congrArg (Option.map _) hfind
  | some found =>
      obtain ⟨t, s⟩ := found
      obtain ⟨hmem, hs⟩ := mem_of_find hfind
      by_cases hcells : s.cells = []
      · -- without elements nothing shows
        have hnone (f : List α → List α) : (Memory.elements t s).map f = Memory.elements t s := by
          rw [elements_empty hcells, List.map_nil]
        cases (m.detectedKind id).bind fun kind => transformOf kind perturbation <;>
          cases (m.provenance id).bind fun kind => transformOf kind perturbation <;>
          simp [Leaf.elements, hfind, hnone]
      · have hkind : m.detectedKind id = m.provenance id := by
          unfold Memory.detectedKind Memory.provenance
          rw [hfind, Option.bind_some, Option.bind_some]
          split_ifs with hfloat
          · exact hm.recorded _ hmem s hs hfloat hcells
          · rfl
        rw [hkind]
        cases (m.provenance id).bind fun kind => transformOf kind perturbation with
        | none => exact congrArg (Option.map _) hfind
        | some transform => rfl

section

variable {β τ σ ρ : Type} (f : τ → σ) (g : σ → ρ)

mutual

theorem map_transform : ∀ inputs : Inputs β τ, (inputs.transform f).map g = inputs.transform (g ∘ f)
  | .tensor _ => rfl
  | .node container items => congrArg (Inputs.node container.rebuilt) (mapItems_transformItems items)
  | .other _ => rfl

theorem mapItems_transformItems : ∀ items : List (Inputs β τ),
    Inputs.mapItems g (Inputs.transformItems f items) = Inputs.transformItems (g ∘ f) items
  | [] => rfl
  | item :: rest => congrArg₂ List.cons (map_transform item) (mapItems_transformItems rest)

end

mutual

/-- The structure is kept exactly if no container is of a subclass. -/
theorem transform_eq_map : ∀ inputs : Inputs β τ, inputs.transform f = inputs.map f ↔ inputs.Plain
  | .tensor _ => iff_of_true rfl trivial
  | .node container items => by
      rw [Inputs.transform, Inputs.map, Inputs.node.injEq, Inputs.Plain, transformItems_eq_mapItems items]
  | .other _ => iff_of_true rfl trivial

theorem transformItems_eq_mapItems : ∀ items : List (Inputs β τ),
    Inputs.transformItems f items = Inputs.mapItems f items ↔ Inputs.PlainItems items
  | [] => iff_of_true rfl trivial
  | item :: rest => by
      rw [Inputs.transformItems, Inputs.mapItems, List.cons.injEq, Inputs.PlainItems, transform_eq_map item,
        transformItems_eq_mapItems rest]

end

end

theorem Known.perturbs {β : Type} {m : Memory α} (hm : Known m) (a : Arithmetic α) (inputs : Inputs β ℕ) :
    PerturbsRandomOnly a m inputs ↔ inputs.Plain := by
  have hleaf (perturbation : Perturbation) :
      (applyInputPerturbation a m perturbation inputs).1.map (Leaf.elements m) =
        inputs.transform (m.expectedElements a perturbation) := by
    have hsame : Leaf.elements m ∘ m.transformLeaf a perturbation = m.expectedElements a perturbation :=
      funext fun id => transformLeaf_elements hm a perturbation id
    exact (map_transform _ _ inputs).trans (by rw [hsame])
  constructor
  · intro h
    exact (transform_eq_map _ inputs).mp ((hleaf .original).symm.trans (h .original))
  · intro hplain perturbation
    exact (hleaf perturbation).trans ((transform_eq_map _ inputs).mpr hplain)

/-- **Along every run without a stale record, exactly the tensors of the random factories are perturbed, in the same
structure exactly if no container of the inputs is of a subclass.** -/
theorem perturbs_random_only {β : Type} (a : Arithmetic α) {m₀ m : Memory α} (hstart : Start m₀)
    (hrun : RunWhen Memory.step NoStaleOrigin m₀ m) (inputs : Inputs β ℕ) :
    PerturbsRandomOnly a m inputs ↔ inputs.Plain :=
  (hrun.invariant (fun _ _ _ hm hclean hstep => known_step hm hclean hstep) hstart.known).perturbs a inputs

/-! ### Runs -/

instance (m : Memory UInt8) : (op : Operation UInt8) → Decidable (NoStaleOrigin m op)
  | .allocate _ _ _ _ none => inferInstanceAs (Decidable (_ → _ → _))
  | .allocate _ _ _ _ (some _) => .isTrue trivial
  | .view _ source _ _ => inferInstanceAs (Decidable (∀ found ∈ m.find source, _))
  | .write _ _ => .isTrue trivial
  | .resize id _ _ => inferInstanceAs (Decidable (∀ found ∈ m.find id, _))
  | .assign id source _ _ => inferInstanceAs (Decidable (∀ found ∈ m.find id, ∀ other ∈ m.find source, _))
  | .refill id _ _ => inferInstanceAs (Decidable (∀ found ∈ m.find id, _))
  | .free _ => .isTrue trivial

/-- Memory without tensors. -/
def noTensors : Memory UInt8 where
  storages := []
  objects := []

theorem start_noTensors : Start noTensors where
  ids := List.nodup_nil
  inRange _ he := absurd he List.not_mem_nil
  apart _ he := absurd he List.not_mem_nil
  origins := rfl
  returned _ he := absurd he List.not_mem_nil
  marks _ := rfl

def bfloat16 : DType := ⟨"torch.bfloat16", 2, true, by decide⟩

def int16 : DType := ⟨"torch.int16", 2, false, by decide⟩

/-- 0.5 and 0.25, their triples and their hundredths, low byte first. -/
def multiples : List (List UInt8 × List UInt8 × List UInt8) :=
  [([0x00, 0x3f], [0xc0, 0x3f], [0xa4, 0x3b]), ([0x80, 0x3e], [0x40, 0x3f], [0x24, 0x3b])]

/-- The arithmetic of `torch.bfloat16` on 0.5 and 0.25; the sign is the highest bit. -/
def bfloat16Arithmetic : Arithmetic UInt8 where
  multiply3 _ x := (multiples.lookup x).elim x Prod.fst
  multiply001 _ x := (multiples.lookup x).elim x Prod.snd
  negate _ x := x.take 1 ++ (x.drop 1).map (· ^^^ 0x80)
  absolute _ x := x.take 1 ++ (x.drop 1).map (· &&& 0x7f)

def block (address : ℕ) (cells : List UInt8) : Storage UInt8 := ⟨"cpu", address, cells⟩

/-- Two random numbers of which a slice and an integer view remain, constants that are written and grow, and normal
numbers that get the id of the tensor that is gone. -/
def mixedInputs : List (Operation UInt8) :=
  [.allocate 1 (block 4096 [0x00, 0x3f, 0x80, 0x3e]) bfloat16 [0, 2] (some .rand),
    .allocate 2 (block 8192 [0x00, 0x3f]) bfloat16 [0] none, .view 3 1 bfloat16 [2], .view 4 1 int16 [0, 2], .free 1,
    .write 2 [0x80, 0x3e], .resize 2 (block 12288 [0x80, 0x3e, 0x00, 0x3f]) [0, 2],
    .allocate 1 (block 8192 [0x00, 0x3f]) bfloat16 [0] (some .randn)]

theorem perturbs_random_mixed :
    PerturbsRandomOnly bfloat16Arithmetic ((execute Memory.step mixedInputs noTensors).getD noTensors)
      (.node (.tuple none) [.node (.list none) [.tensor 3, .tensor 2], .node (.dict none ["mask", "n"])
        [.tensor 4, .other "2"], .tensor 1]) := by
  have hrun : RunWhen Memory.step NoStaleOrigin noTensors ((execute Memory.step mixedInputs noTensors).getD noTensors) :=
    execute_run_of_test (fun _ _ => of_decide_eq_true) (rfl : execute (fun m op =>
      if decide (NoStaleOrigin m op) then Memory.step m op else none) mixedInputs noTensors = some _)
  refine (perturbs_random_only bfloat16Arithmetic start_noTensors hrun _).mpr ?_
  exact ⟨rfl, ⟨rfl, trivial, trivial, trivial⟩, ⟨rfl, trivial, trivial, trivial⟩, trivial, trivial⟩

/-- A random tensor is freed, and a tensor of constants is put in its place. -/
def randomReplaced : List (Operation UInt8) :=
  [.allocate 1 (block 4096 [0x80, 0x3e]) bfloat16 [0] (some .rand), .free 1,
    .allocate 2 (block 4096 [0x00, 0x3f]) bfloat16 [0] none]

/-- The tensor of constants is perturbed. -/
theorem constant_tensor_perturbed : ¬ ∀ (m : Memory UInt8) (inputs : Inputs String ℕ), Run Memory.step noTensors m →
    PerturbsRandomOnly bfloat16Arithmetic m inputs := by
  intro h
  have hrun : Run Memory.step noTensors ((execute Memory.step randomReplaced noTensors).getD noTensors) :=
    execute_run_getD (fun _ _ => trivial) (by decide)
  have hperturbed := Inputs.tensor.inj (h _ (.tensor 2) hrun .scaleUp)
  revert hperturbed
  decide

end KernelGym.InputPerturbation
