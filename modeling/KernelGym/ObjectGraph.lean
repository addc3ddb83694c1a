import KernelGym.ResultChannel

/-! `_validate_exact_json_primitives` on a graph of Python objects, which may share and contain each other: it
accepts exactly the graphs that unfold into a finite tree of exact primitives within both budgets. -/

namespace KernelGym.Dispatch

/-- The address of an object. -/
abbrev Id := ℕ

/-- An object by its exact type; subclasses and all other types are `other`. A dict's key is kept if it is an
exact `str`. -/
inductive Object
  | none
  | bool (b : Bool)
  | int (n : ℤ)
  | float (x : Option ℚ)
  | str (s : String)
  | list (items : List Id)
  | dict (items : List (Option String × Id))
  | other

abbrev Heap := Id → Object

section

variable (heap : Heap)

/-- `_visit`: how many nodes remain after the object. `levels` is what is left of the depth budget, `active` are
the containers on the way down. -/
def visitObject : (levels : ℕ) → (active : List Id) → Id → (remaining : ℕ) → Except Raised ℕ
  | _, _, _, 0 => throw (ipcProtocolError "result payload exceeds JSON node limit")
  | 0, _, _, _ + 1 => throw (ipcProtocolError "result payload exceeds JSON nesting limit")
  | levels + 1, active, id, remaining + 1 =>
    match heap id with
    | .none | .bool _ | .int _ | .str _ | .float (some _) => pure remaining
    | .float none => throw (ipcProtocolError "result payload contains a non-finite float")
    | .list items =>
      if id ∈ active then throw (ipcProtocolError "result payload contains a container cycle")
      else items.foldlM (fun remaining child => visitObject levels (id :: active) child remaining) remaining
    | .dict items =>
      if id ∈ active then throw (ipcProtocolError "result payload contains a container cycle")
      else items.foldlM (fun remaining (key, child) =>
        if key = none then throw (ipcProtocolError "result payload contains a non-string mapping key")
        else visitObject levels (id :: active) child remaining) remaining
    | .other => throw (ipcProtocolError "result payload contains a non-primitive value")

/-- `_validate_exact_json_primitives`, with its two budgets; the root has depth 0. -/
def validateObject (maxDepth maxNodes : ℕ) (id : Id) : Except Raised Unit := do
  let _ ← visitObject heap (maxDepth + 1) [] id maxNodes
  pure ()

mutual
/-- The object unfolds into the tree. -/
def Represents : Value → Id → Prop
  | .null, id => heap id = .none
  | .bool b, id => heap id = .bool b
  | .int n, id => heap id = .int n
  | .float x, id => heap id = .float x
  | .str s, id => heap id = .str s
  | .list ts, id => ∃ items, heap id = .list items ∧ RepresentsAll ts items
  | .dict ts, id => ∃ items, heap id = .dict items ∧ RepresentsItems ts items

def RepresentsAll : List Value → List Id → Prop
  | [], items => items = []
  | t :: ts, items => ∃ child rest, items = child :: rest ∧ Represents t child ∧ RepresentsAll ts rest

def RepresentsItems : List (String × Value) → List (Option String × Id) → Prop
  | [], items => items = []
  | (key, t) :: ts, items =>
    ∃ child rest, items = (some key, child) :: rest ∧ Represents t child ∧ RepresentsItems ts rest
end

end

mutual
/-- Every float of the tree is finite. -/
def Value.Finite : Value → Prop
  | .float x => x.isSome
  | .list ts => FiniteAll ts
  | .dict ts => FiniteItems ts
  | _ => True

def FiniteAll : List Value → Prop
  | [] => True
  | t :: ts => t.Finite ∧ FiniteAll ts

def FiniteItems : List (String × Value) → Prop
  | [] => True
  | (_, t) :: ts => t.Finite ∧ FiniteItems ts
end

mutual
def Value.nodes : Value → ℕ
  | .list ts => nodesAll ts + 1
  | .dict ts => nodesItems ts + 1
  | _ => 1

def nodesAll : List Value → ℕ
  | [] => 0
  | t :: ts => t.nodes + nodesAll ts

def nodesItems : List (String × Value) → ℕ
  | [] => 0
  | (_, t) :: ts => t.nodes + nodesItems ts
end

mutual
/-- How far below the root the deepest value lies. -/
def Value.depth : Value → ℕ
  | .list ts => levelsAll ts
  | .dict ts => levelsItems ts
  | _ => 0

/-- The levels of the values under a container. -/
def levelsAll : List Value → ℕ
  | [] => 0
  | t :: ts => max (t.depth + 1) (levelsAll ts)

def levelsItems : List (String × Value) → ℕ
  | [] => 0
  | (_, t) :: ts => max (t.depth + 1) (levelsItems ts)
end

variable {heap : Heap}

mutual
theorem Represents.unique {t t' : Value} {id : Id} (h : Represents heap t id) (h' : Represents heap t' id) :
    t = t' := by
  cases t with
  | list ts =>
      obtain ⟨items, hid, hts⟩ := h
      cases t' <;> simp only [Represents, hid, reduceCtorEq, false_and, exists_false, Object.list.injEq,
        exists_eq_left'] at h'
      rw [RepresentsAll.unique hts h']
  | dict ts =>
      obtain ⟨items, hid, hts⟩ := h
      cases t' <;> simp only [Represents, hid, reduceCtorEq, false_and, exists_false, Object.dict.injEq,
        exists_eq_left'] at h'
      rw [RepresentsItems.unique hts h']
  | null | bool | int | float | str =>
      simp only [Represents] at h
      cases t' <;> simp only [Represents, h, reduceCtorEq, false_and, exists_false, Object.bool.injEq,
        Object.int.injEq, Object.float.injEq, Object.str.injEq] at h'
      all_goals simp only [h']

theorem RepresentsAll.unique {ts ts' : List Value} {items : List Id} (h : RepresentsAll heap ts items)
    (h' : RepresentsAll heap ts' items) : ts = ts' := by
  cases ts with
  | nil =>
      obtain rfl := h
      cases ts' with
      | nil => rfl
      | cons t' ts' =>
          obtain ⟨_, _, h', -⟩ := h'
          cases h'
  | cons t ts =>
      obtain ⟨child, rest, rfl, ht, hts⟩ := h
      cases ts' with
      | nil => cases h'
      | cons t' ts' =>
          obtain ⟨_, _, heq, ht', hts'⟩ := h'
          cases heq
          rw [Represents.unique ht ht', RepresentsAll.unique hts hts']

theorem RepresentsItems.unique {ts ts' : List (String × Value)} {items : List (Option String × Id)}
    (h : RepresentsItems heap ts items) (h' : RepresentsItems heap ts' items) : ts = ts' := by
  cases ts with
  | nil =>
      obtain rfl := h
      cases ts' with
      | nil => rfl
      | cons t' ts' =>
          obtain ⟨key', t'⟩ := t'
          obtain ⟨_, _, h', -⟩ := h'
          cases h'
  | cons t ts =>
      obtain ⟨key, t⟩ := t
      obtain ⟨child, rest, rfl, ht, hts⟩ := h
      cases ts' with
      | nil => cases h'
      | cons t' ts' =>
          obtain ⟨key', t'⟩ := t'
          obtain ⟨_, _, heq, ht', hts'⟩ := h'
          cases heq
          rw [Represents.unique ht ht', RepresentsItems.unique hts hts']
end

/-! ### What is accepted unfolds into a tree -/

/-- What a visit that is accepted has seen: a tree within the levels that are left, whose nodes it has counted. -/
def Seen (heap : Heap) (levels : ℕ) (id : Id) (remaining r : ℕ) : Prop :=
  ∃ t, Represents heap t id ∧ t.Finite ∧ t.depth < levels ∧ t.nodes + r = remaining

theorem seen_all {levels : ℕ} {active : List Id} {items : List Id} {remaining r : ℕ}
    (ih : ∀ child n m, visitObject heap levels active child n = .ok m → Seen heap levels child n m)
    (h : items.foldlM (fun n child => visitObject heap levels active child n) remaining = .ok r) :
    ∃ ts, RepresentsAll heap ts items ∧ FiniteAll ts ∧ levelsAll ts ≤ levels ∧
      nodesAll ts + r = remaining := by
  induction items generalizing remaining with
  | nil =>
      cases h
      exact ⟨[], rfl, trivial, Nat.zero_le _, Nat.zero_add _⟩
  | cons child rest ihitems =>
      rw [List.foldlM_cons] at h
      cases hchild : visitObject heap levels active child remaining with
      | error e =>
          rw [hchild] at h
          cases h
      | ok n =>
          rw [hchild] at h
          obtain ⟨t, hrep, hfinite, hdepth, hnodes⟩ := ih child remaining n hchild
          obtain ⟨ts, hreps, hfinites, hlevels, hnodes'⟩ := ihitems h
          refine ⟨t :: ts, ⟨child, rest, rfl, hrep, hreps⟩, ⟨hfinite, hfinites⟩, ?_, ?_⟩
          · simp only [levelsAll]
            omega
          · simp only [nodesAll]
            omega

theorem seen_items {levels : ℕ} {active : List Id} {items : List (Option String × Id)} {remaining r : ℕ}
    (ih : ∀ child n m, visitObject heap levels active child n = .ok m → Seen heap levels child n m)
    (h : items.foldlM (fun n (key, child) =>
      if key = none then throw (ipcProtocolError "result payload contains a non-string mapping key")
      else visitObject heap levels active child n) remaining = .ok r) :
    ∃ ts, RepresentsItems heap ts items ∧ FiniteItems ts ∧ levelsItems ts ≤ levels ∧
      nodesItems ts + r = remaining := by
  induction items generalizing remaining with
  | nil =>
      cases h
      exact ⟨[], rfl, trivial, Nat.zero_le _, Nat.zero_add _⟩
  | cons entry rest ihitems =>
      obtain ⟨key, child⟩ := entry
      rw [List.foldlM_cons] at h
      cases key with
      | none => cases h
      | some key =>
          cases hchild : visitObject heap levels active child remaining with
          | error e =>
              simp only [reduceCtorEq, if_false, hchild] at h
              cases h
          | ok n =>
              simp only [reduceCtorEq, if_false, hchild] at h
              obtain ⟨t, hrep, hfinite, hdepth, hnodes⟩ := ih child remaining n hchild
              obtain ⟨ts, hreps, hfinites, hlevels, hnodes'⟩ := ihitems h
              refine ⟨(key, t) :: ts, ⟨child, rest, rfl, hrep, hreps⟩, ⟨hfinite, hfinites⟩, ?_, ?_⟩
              · simp only [levelsItems]
                omega
              · simp only [nodesItems]
                omega

theorem visitObject_seen {levels : ℕ} {active : List Id} {id : Id} {remaining r : ℕ}
    (h : visitObject heap levels active id remaining = .ok r) : Seen heap levels id remaining r := by
  induction levels generalizing active id remaining r with
  | zero => cases remaining <;> cases h
  | succ levels ih =>
      cases remaining with
      | zero => cases h
      | succ remaining =>
          have ih' : ∀ child n m, visitObject heap levels (id :: active) child n = .ok m →
              Seen heap levels child n m := fun child n m hchild => ih hchild
          rw [visitObject] at h
          cases hid : heap id with
          | none =>
              rw [hid] at h
              cases h
              exact ⟨.null, hid, trivial, Nat.succ_pos _, Nat.add_comm _ _⟩
          | bool b =>
              rw [hid] at h
              cases h
              exact ⟨.bool b, hid, trivial, Nat.succ_pos _, Nat.add_comm _ _⟩
          | int n =>
              rw [hid] at h
              cases h
              exact ⟨.int n, hid, trivial, Nat.succ_pos _, Nat.add_comm _ _⟩
          | str s =>
              rw [hid] at h
              cases h
              exact ⟨.str s, hid, trivial, Nat.succ_pos _, Nat.add_comm _ _⟩
          | float x =>
              rw [hid] at h
              cases x with
              | none => cases h
              | some x =>
                  cases h
                  exact ⟨.float (some x), hid, rfl, Nat.succ_pos _, Nat.add_comm _ _⟩
          | other =>
              rw [hid] at h
              cases h
          | list items =>
              rw [hid] at h
              dsimp only at h
              split at h
              · cases h
              · obtain ⟨ts, hreps, hfinites, hlevels, hnodes⟩ := seen_all ih' h
                refine ⟨.list ts, ⟨items, hid, hreps⟩, hfinites, ?_, ?_⟩
                · simp only [Value.depth]
                  omega
                · simp only [Value.nodes]
                  omega
          | dict items =>
              rw [hid] at h
              dsimp only at h
              split at h
              · cases h
              · obtain ⟨ts, hreps, hfinites, hlevels, hnodes⟩ := seen_items ih' h
                refine ⟨.dict ts, ⟨items, hid, hreps⟩, hfinites, ?_, ?_⟩
                · simp only [Value.depth]
                  omega
                · simp only [Value.nodes]
                  omega

/-! ### What unfolds into a tree within the budgets is accepted -/

/-- The containers on the way down unfold into trees with more nodes than the tree. -/
def Above (heap : Heap) (active : List Id) (n : ℕ) : Prop :=
  ∀ id ∈ active, ∀ t, Represents heap t id → n < t.nodes

theorem Above.mono {active : List Id} {n m : ℕ} (h : Above heap active n) (hm : m ≤ n) :
    Above heap active m :=
  fun id hid t ht => Nat.lt_of_le_of_lt hm (h id hid t ht)

theorem Above.cons {active : List Id} {n m : ℕ} {id : Id} {t : Value} (h : Above heap active n)
    (ht : Represents heap t id) (htn : t.nodes = n) (hm : m < n) : Above heap (id :: active) m := by
  intro id' hid' t' ht'
  obtain rfl | hid' := List.mem_cons.1 hid'
  · rw [ht'.unique ht, htn]
    exact hm
  · exact Nat.lt_trans hm (h id' hid' t' ht')

theorem Above.notMem {active : List Id} {t : Value} {id : Id} (h : Above heap active t.nodes)
    (ht : Represents heap t id) : id ∉ active :=
  fun hid => Nat.lt_irrefl _ (h id hid t ht)

mutual
theorem Represents.accepted {t : Value} {id : Id} (h : Represents heap t id) (hfinite : t.Finite) {levels : ℕ}
    {active : List Id} (habove : Above heap active t.nodes) (hdepth : t.depth < levels) (r : ℕ) :
    visitObject heap levels active id (t.nodes + r) = .ok r := by
  obtain ⟨levels, rfl⟩ := Nat.exists_eq_add_of_lt hdepth
  cases t with
  | list ts =>
      have hnot := habove.notMem h
      have hrep := h
      obtain ⟨items, hid, hts⟩ := h
      simp only [Value.nodes, Nat.add_right_comm _ 1 r, visitObject, hid, if_neg hnot]
      refine hts.accepted hfinite (habove.cons hrep rfl (by simp only [Value.nodes]; omega)) ?_ r
      simp only [Value.depth]
      omega
  | dict ts =>
      have hnot := habove.notMem h
      have hrep := h
      obtain ⟨items, hid, hts⟩ := h
      simp only [Value.nodes, Nat.add_right_comm _ 1 r, visitObject, hid, if_neg hnot]
      refine hts.accepted hfinite (habove.cons hrep rfl (by simp only [Value.nodes]; omega)) ?_ r
      simp only [Value.depth]
      omega
  | float x =>
      obtain ⟨x, rfl⟩ := Option.isSome_iff_exists.1 hfinite
      simp only [Represents] at h
      simp only [Value.nodes, Nat.add_comm 1 r, visitObject, h]
      rfl
  | null | bool | int | str =>
      simp only [Represents] at h
      simp only [Value.nodes, Nat.add_comm 1 r, visitObject, h]
      rfl

theorem RepresentsAll.accepted {ts : List Value} {items : List Id} (h : RepresentsAll heap ts items)
    (hfinite : FiniteAll ts) {levels : ℕ} {active : List Id} (habove : Above heap active (nodesAll ts))
    (hlevels : levelsAll ts ≤ levels) (r : ℕ) :
    items.foldlM (fun n child => visitObject heap levels active child n) (nodesAll ts + r) = .ok r := by
  cases ts with
  | nil =>
      obtain rfl := h
      simp [nodesAll]
      rfl
  | cons t ts =>
      obtain ⟨child, rest, rfl, ht, hts⟩ := h
      simp only [nodesAll] at habove ⊢
      simp only [levelsAll] at hlevels
      have hchild := ht.accepted hfinite.1 (habove.mono (Nat.le_add_right _ _))
        (by omega : t.depth < levels) (nodesAll ts + r)
      rw [List.foldlM_cons, Nat.add_assoc, hchild]
      exact hts.accepted hfinite.2 (habove.mono (Nat.le_add_left _ _)) (by omega) r

theorem RepresentsItems.accepted {ts : List (String × Value)} {items : List (Option String × Id)}
    (h : RepresentsItems heap ts items) (hfinite : FiniteItems ts) {levels : ℕ} {active : List Id}
    (habove : Above heap active (nodesItems ts)) (hlevels : levelsItems ts ≤ levels) (r : ℕ) :
    items.foldlM (fun n (key, child) =>
      if key = none then throw (ipcProtocolError "result payload contains a non-string mapping key")
      else visitObject heap levels active child n) (nodesItems ts + r) = .ok r := by
  cases ts with
  | nil =>
      obtain rfl := h
      simp [nodesItems]
      rfl
  | cons entry ts =>
      obtain ⟨key, t⟩ := entry
      obtain ⟨child, rest, rfl, ht, hts⟩ := h
      simp only [nodesItems] at habove ⊢
      simp only [levelsItems] at hlevels
      have hchild := ht.accepted hfinite.1 (habove.mono (Nat.le_add_right _ _))
        (by omega : t.depth < levels) (nodesItems ts + r)
      rw [List.foldlM_cons, Nat.add_assoc]
      simp only [reduceCtorEq, if_false, hchild]
      exact hts.accepted hfinite.2 (habove.mono (Nat.le_add_left _ _)) (by omega) r
end

/-- The validator accepts an object exactly when it unfolds into a finite tree of exact primitives within the
budgets of depth and nodes. -/
theorem validateObject_iff {maxDepth maxNodes : ℕ} {id : Id} :
    validateObject heap maxDepth maxNodes id = .ok () ↔
      ∃ t, Represents heap t id ∧ t.Finite ∧ t.depth ≤ maxDepth ∧ t.nodes ≤ maxNodes := by
  unfold validateObject
  constructor
  · intro h
    cases hvisit : visitObject heap (maxDepth + 1) [] id maxNodes with
    | error e =>
        rw [hvisit] at h
        cases h
    | ok r =>
        obtain ⟨t, hrep, hfinite, hdepth, hnodes⟩ := visitObject_seen hvisit
        exact ⟨t, hrep, hfinite, by omega, by omega⟩
  · rintro ⟨t, hrep, hfinite, hdepth, hnodes⟩
    obtain ⟨r, rfl⟩ := Nat.exists_eq_add_of_le hnodes
    rw [hrep.accepted hfinite (by simp [Above]) (by omega) r]
    rfl

end KernelGym.Dispatch
