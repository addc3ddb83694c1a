import KernelGym.Library.JsonTrees
import Mathlib.Data.Finset.Sort
import Mathlib.Data.List.OfFn
import Mathlib.Data.String.Basic

/-! JSON trees as texts: no blanks, keys in order, strings with the short escapes and every other character as
it is. A tree can be read back from its text, whatever follows it. -/

namespace KernelGym.Library

/-- How numbers are written: different numbers differ, no number contains a character that may follow a value,
and none begins like another kind of value. -/
structure NumberFormat (ν : Type) where
  text : ν → List Char
  injective : Function.Injective text
  plain : ∀ n, ∀ c ∈ text n, c ∉ [',', ']', '}']
  opens : ∀ n, ∃ c rest, text n = c :: rest ∧ c ∉ ['n', 't', 'f', '"', '[', '{']

/-! ### Strings -/

def hexDigit (n : ℕ) : Char := if n < 10 then Char.ofNat (48 + n) else Char.ofNat (87 + n)

def hexValue (c : Char) : ℕ := if c.toNat < 58 then c.toNat - 48 else c.toNat - 87

def escape (c : Char) : List Char :=
  if c = '"' then ['\\', '"']
  else if c = '\\' then ['\\', '\\']
  else if c = '\n' then ['\\', 'n']
  else if c = '\r' then ['\\', 'r']
  else if c = '\t' then ['\\', 't']
  else if c = Char.ofNat 8 then ['\\', 'b']
  else if c = Char.ofNat 12 then ['\\', 'f']
  else if c.toNat < 32 then ['\\', 'u', '0', '0', hexDigit (c.toNat / 16), hexDigit (c.toNat % 16)]
  else [c]

def quote (s : String) : List Char := '"' :: (s.toList.flatMap escape ++ ['"'])

/-- The character that a short escape stands for. -/
def unescape (c : Char) : Char :=
  if c = 'n' then '\n' else if c = 'r' then '\r' else if c = 't' then '\t'
  else if c = 'b' then Char.ofNat 8 else if c = 'f' then Char.ofNat 12 else c

/-- Reads back one character of a quoted string. -/
def readChar : List Char → Option (Char × List Char)
  | '\\' :: 'u' :: _ :: _ :: a :: b :: rest => some (Char.ofNat (16 * hexValue a + hexValue b), rest)
  | '\\' :: c :: rest => some (unescape c, rest)
  | c :: rest => some (c, rest)
  | [] => none

theorem hexValue_hexDigit : ∀ n < 16, hexValue (hexDigit n) = n := by decide

theorem readChar_plain {c : Char} (hc : c ≠ '\\') (rest : List Char) :
    readChar (c :: rest) = some (c, rest) := by
  rw [readChar.eq_def]
  split
  · rename_i h
    exact absurd (List.cons.inj h).1 hc
  · rename_i h
    exact absurd (List.cons.inj h).1 hc
  · rename_i h
    rw [(List.cons.inj h).1, (List.cons.inj h).2]
  · rename_i h
    cases h

theorem readChar_escape (c : Char) (rest : List Char) : readChar (escape c ++ rest) = some (c, rest) := by
  unfold escape
  split_ifs with h₁ h₂ h₃ h₄ h₅ h₆ h₇ h₈
  · rw [h₁]; rfl
  · rw [h₂]; rfl
  · rw [h₃]; rfl
  · rw [h₄]; rfl
  · rw [h₅]; rfl
  · rw [h₆]; rfl
  · rw [h₇]; rfl
  · have hvalue : 16 * (c.toNat / 16) + c.toNat % 16 = c.toNat := Nat.div_add_mod _ _
    simp only [List.cons_append, List.nil_append, readChar, hexValue_hexDigit _ (by omega : c.toNat / 16 < 16),
      hexValue_hexDigit _ (by omega : c.toNat % 16 < 16), hvalue, Char.ofNat_toNat]
  · exact readChar_plain h₂ rest

theorem escape_append_inj {c d : Char} {u v : List Char} (h : escape c ++ u = escape d ++ v) :
    c = d ∧ u = v := by
  have hread := readChar_escape c u
  rw [h, readChar_escape] at hread
  simpa [eq_comm] using hread

theorem escape_opens (c : Char) : ∃ d rest, escape c = d :: rest ∧ d ≠ '"' := by
  unfold escape
  split_ifs with h₁ h₂ h₃ h₄ h₅ h₆ h₇ h₈
  iterate 8 exact ⟨_, _, rfl, by decide⟩
  exact ⟨c, [], rfl, h₁⟩

theorem quoted_append_inj {s t x y : List Char}
    (h : s.flatMap escape ++ '"' :: x = t.flatMap escape ++ '"' :: y) : s = t ∧ x = y := by
  induction s generalizing t with
  | nil =>
      cases t with
      | nil => simpa using h
      | cons d t =>
          obtain ⟨e, rest, he, hne⟩ := escape_opens d
          simp only [List.flatMap_nil, List.nil_append, List.flatMap_cons, he, List.cons_append,
            List.cons.injEq] at h
          exact absurd h.1.symm hne
  | cons c s ih =>
      cases t with
      | nil =>
          obtain ⟨e, rest, he, hne⟩ := escape_opens c
          simp only [List.flatMap_nil, List.nil_append, List.flatMap_cons, he, List.cons_append,
            List.cons.injEq] at h
          exact absurd h.1 hne
      | cons d t =>
          simp only [List.flatMap_cons, List.append_assoc] at h
          obtain ⟨hcd, htail⟩ := escape_append_inj h
          obtain ⟨hst, hxy⟩ := ih htail
          exact ⟨by rw [hcd, hst], hxy⟩

theorem quote_append_inj {s t : String} {x y : List Char} (h : quote s ++ x = quote t ++ y) :
    s = t ∧ x = y := by
  simp only [quote, List.cons_append, List.append_assoc, List.nil_append, List.cons.injEq, true_and] at h
  obtain ⟨hst, hxy⟩ := quoted_append_inj h
  exact ⟨String.toList_inj.1 hst, hxy⟩

/-! ### Values -/

/-- What may follow a value: nothing, or one of three characters. -/
def Follows (x : List Char) : Prop := ∀ c rest, x = c :: rest → c ∈ [',', ']', '}']

/-- Texts joined by commas. -/
def commaList : List (List Char) → List Char
  | [] => []
  | [t] => t
  | t :: rest => t ++ ',' :: commaList rest

variable {ν : Type}

def dumps (f : NumberFormat ν) : Json ν → List Char
  | .null => ['n', 'u', 'l', 'l']
  | .bool true => ['t', 'r', 'u', 'e']
  | .bool false => ['f', 'a', 'l', 's', 'e']
  | .num n => f.text n
  | .str s => quote s
  | .arr _ items => '[' :: (commaList (List.ofFn fun i => dumps f (items i)) ++ [']'])
  | .obj keys values =>
    '{' :: (commaList (keys.sort.attach.map fun k =>
      quote k.1 ++ ':' :: dumps f (values ⟨k.1, (Finset.mem_sort _).1 k.2⟩)) ++ ['}'])

theorem follows_nil : Follows [] := by
  intro c rest h
  cases h

theorem follows_cons {c : Char} {x : List Char} (hc : c ∈ [',', ']', '}']) : Follows (c :: x) := by
  rintro d rest ⟨⟩
  exact hc

theorem append_inj_of_plain {p q x y : List Char} (hp : ∀ c ∈ p, c ∉ [',', ']', '}'])
    (hq : ∀ c ∈ q, c ∉ [',', ']', '}']) (hx : Follows x) (hy : Follows y) (h : p ++ x = q ++ y) :
    p = q ∧ x = y := by
  induction p generalizing q with
  | nil =>
      cases q with
      | nil => exact ⟨rfl, h⟩
      | cons d q => exact absurd (hx d (q ++ y) h) (hq d List.mem_cons_self)
  | cons c p ih =>
      cases q with
      | nil => exact absurd (hy c (p ++ x) h.symm) (hp c List.mem_cons_self)
      | cons d q =>
          rw [List.cons_append, List.cons_append, List.cons.injEq] at h
          obtain ⟨rfl, h⟩ := h
          obtain ⟨rfl, hxy⟩ := ih (fun b hb => hp b (List.mem_cons_of_mem c hb))
            (fun b hb => hq b (List.mem_cons_of_mem c hb)) h
          exact ⟨rfl, hxy⟩

section Lists

variable {α : Type} {enc : α → List Char}

/-- The value can be told apart from every other value, whatever follows. -/
def Readable (enc : α → List Char) (a : α) : Prop :=
  ∀ b u v, Follows u → Follows v → enc a ++ u = enc b ++ v → a = b ∧ u = v

theorem commaList_cons_cons (t t' : List Char) (rest : List (List Char)) :
    commaList (t :: t' :: rest) = t ++ ',' :: commaList (t' :: rest) := rfl

/-- What stands behind the first value: the end, or a comma and the other values. -/
theorem commaList_map_cons (enc : α → List Char) (a : α) (l : List α) (close : Char) (x : List Char) :
    ∃ tail, commaList ((a :: l).map enc) ++ close :: x = enc a ++ tail ∧
      (l = [] ∧ tail = close :: x ∨
        l ≠ [] ∧ tail = ',' :: (commaList (l.map enc) ++ close :: x)) := by
  cases l with
  | nil => exact ⟨_, rfl, .inl ⟨rfl, rfl⟩⟩
  | cons b l =>
      refine ⟨_, ?_, .inr ⟨List.cons_ne_nil b l, rfl⟩⟩
      simp [commaList_cons_cons]

theorem commaList_append_inj {close : Char} (hclose : close ∈ [']', '}'])
    (hopens : ∀ a : α, ∃ c rest, enc a = c :: rest ∧ c ∉ [']', '}']) {l l' : List α} {x y : List Char}
    (hread : ∀ a ∈ l, Readable enc a)
    (h : commaList (l.map enc) ++ close :: x = commaList (l'.map enc) ++ close :: y) : l = l' ∧ x = y := by
  have hcomma : close ≠ ',' := by rintro rfl; simp at hclose
  have hfollows : ∀ z, Follows (close :: z) := fun z =>
    follows_cons (List.mem_cons_of_mem _ hclose)
  have hfollows' : ∀ z, Follows (',' :: z) := fun z => follows_cons (by simp)
  have hnot : ∀ (a : α) (tail z : List Char), enc a ++ tail ≠ close :: z := by
    intro a tail z heq
    obtain ⟨c, rest, henc, hc⟩ := hopens a
    rw [henc, List.cons_append, List.cons.injEq] at heq
    exact hc (heq.1 ▸ hclose)
  induction l generalizing l' with
  | nil =>
      cases l' with
      | nil => simpa [commaList] using h
      | cons b l' =>
          obtain ⟨tail, heq, -⟩ := commaList_map_cons enc b l' close y
          rw [heq] at h
          exact absurd h.symm (hnot b tail x)
  | cons a l ih =>
      obtain ⟨tail, heq, htail⟩ := commaList_map_cons enc a l close x
      cases l' with
      | nil =>
          rw [heq] at h
          exact absurd h (hnot a tail y)
      | cons b l' =>
          obtain ⟨tail', heq', htail'⟩ := commaList_map_cons enc b l' close y
          rw [heq, heq'] at h
          have hf : Follows tail := by obtain ⟨-, rfl⟩ | ⟨-, rfl⟩ := htail <;> simp only [hfollows, hfollows']
          have hf' : Follows tail' := by obtain ⟨-, rfl⟩ | ⟨-, rfl⟩ := htail' <;> simp only [hfollows, hfollows']
          obtain ⟨rfl, rfl⟩ := hread a List.mem_cons_self b tail tail' hf hf' h
          obtain ⟨rfl, rfl⟩ | ⟨hl, rfl⟩ := htail
          · obtain ⟨rfl, h'⟩ | ⟨-, h'⟩ := htail'
            · exact ⟨rfl, by simpa using h'⟩
            · exact absurd (List.cons.inj h').1 hcomma
          · obtain ⟨rfl, h'⟩ | ⟨-, h'⟩ := htail'
            · exact absurd (List.cons.inj h').1.symm hcomma
            · obtain ⟨rfl, rfl⟩ := ih (fun b hb => hread b (List.mem_cons_of_mem a hb)) (List.cons.inj h').2
              exact ⟨rfl, rfl⟩

end Lists

/-- The entries of an object in the order in which they are written. -/
def entries (keys : Finset String) (values : {k // k ∈ keys} → Json ν) : List (String × Json ν) :=
  keys.sort.attach.map fun k => (k.1, values ⟨k.1, (Finset.mem_sort _).1 k.2⟩)

def dumpEntry (f : NumberFormat ν) (entry : String × Json ν) : List Char :=
  quote entry.1 ++ ':' :: dumps f entry.2

theorem dumps_obj (f : NumberFormat ν) (keys : Finset String) (values : {k // k ∈ keys} → Json ν) :
    dumps f (.obj keys values) = '{' :: (commaList ((entries keys values).map (dumpEntry f)) ++ ['}']) := by
  simp only [dumps, entries, List.map_map, Function.comp_def, dumpEntry]

theorem dumps_arr (f : NumberFormat ν) (length : ℕ) (items : Fin length → Json ν) :
    dumps f (.arr length items) = '[' :: (commaList ((List.ofFn items).map (dumps f)) ++ [']']) := by
  simp [dumps, List.map_ofFn, Function.comp_def]

theorem entries_inj {keys keys' : Finset String} {values : {k // k ∈ keys} → Json ν}
    {values' : {k // k ∈ keys'} → Json ν} (h : entries keys values = entries keys' values') :
    Json.obj keys values = .obj keys' values' := by
  have hkeys : ∀ (keys : Finset String) (values : {k // k ∈ keys} → Json ν),
      (entries keys values).map Prod.fst = keys.sort := by
    intro keys values
    simp [entries, Function.comp_def]
  obtain rfl : keys = keys' := by
    have := congrArg (fun l => (l.map Prod.fst).toFinset) h
    simpa only [hkeys, Finset.sort_toFinset] using this
  congr
  funext k
  have hmem : k.1 ∈ keys.sort := (Finset.mem_sort _).2 k.2
  have hvalue := (List.map_inj_left.1 h) ⟨k.1, hmem⟩ (List.mem_attach _ _)
  exact (Prod.mk.inj hvalue).2

theorem dumps_opens (f : NumberFormat ν) (t : Json ν) : ∃ c rest, dumps f t = c :: rest ∧ c ∉ [']', '}'] := by
  cases t with
  | num n =>
      obtain ⟨c, rest, htext, -⟩ := f.opens n
      refine ⟨c, rest, htext, fun hc => f.plain n c ?_ (List.mem_cons_of_mem _ hc)⟩
      rw [htext]
      exact List.mem_cons_self
  | bool b => cases b <;> exact ⟨_, _, rfl, by decide⟩
  | null | str | arr | obj => exact ⟨_, _, rfl, by decide⟩

theorem dumpEntry_opens (f : NumberFormat ν) (entry : String × Json ν) :
    ∃ c rest, dumpEntry f entry = c :: rest ∧ c ∉ [']', '}'] := ⟨_, _, rfl, by decide⟩

/-- The first character of a text that is no number. -/
inductive Kind
  | null | bool (b : Bool) | num | str | arr | obj
  deriving DecidableEq

def Json.kind : Json ν → Kind
  | .null => .null
  | .bool b => .bool b
  | .num _ => .num
  | .str _ => .str
  | .arr _ _ => .arr
  | .obj _ _ => .obj

def kindOf (c : Char) : Kind :=
  if c = 'n' then .null else if c = 't' then .bool true else if c = 'f' then .bool false
  else if c = '"' then .str else if c = '[' then .arr else if c = '{' then .obj else .num

theorem kindOf_head (f : NumberFormat ν) (t : Json ν) (x : List Char) :
    ∃ c rest, dumps f t ++ x = c :: rest ∧ kindOf c = t.kind := by
  cases t with
  | num n =>
      obtain ⟨c, rest, htext, hc⟩ := f.opens n
      refine ⟨c, rest ++ x, by rw [dumps, htext, List.cons_append], ?_⟩
      simp only [List.mem_cons, List.not_mem_nil, or_false, not_or] at hc
      simp [kindOf, Json.kind, hc]
  | bool b => cases b <;> exact ⟨_, _, rfl, rfl⟩
  | null | str | arr | obj => exact ⟨_, _, rfl, rfl⟩

theorem kind_eq {f : NumberFormat ν} {a b : Json ν} {x y : List Char} (h : dumps f a ++ x = dumps f b ++ y) :
    a.kind = b.kind := by
  obtain ⟨c, rest, hc, hca⟩ := kindOf_head f a x
  obtain ⟨d, rest', hd, hdb⟩ := kindOf_head f b y
  rw [hc, hd, List.cons.injEq] at h
  rw [← hca, ← hdb, h.1]

theorem dumpEntry_readable {f : NumberFormat ν} {entry : String × Json ν}
    (h : Readable (dumps f) entry.2) : Readable (dumpEntry f) entry := by
  intro other u v hu hv heq
  simp only [dumpEntry, List.append_assoc, List.cons_append] at heq
  obtain ⟨hkey, htail⟩ := quote_append_inj heq
  obtain ⟨hvalue, hrest⟩ := h _ u v hu hv (List.cons.inj htail).2
  exact ⟨Prod.ext hkey hvalue, hrest⟩

theorem mem_entries {keys : Finset String} {values : {k // k ∈ keys} → Json ν} {entry : String × Json ν}
    (h : entry ∈ entries keys values) : ∃ k, entry.2 = values k := by
  obtain ⟨k, -, rfl⟩ := List.mem_map.1 h
  exact ⟨_, rfl⟩

/-- **A tree can be read back from its text, whatever follows it.** -/
theorem dumps_readable (f : NumberFormat ν) (a : Json ν) : Readable (dumps f) a := by
  induction a with
  | null =>
      intro b u v hu hv h
      have hkind := kind_eq h
      cases b <;> cases hkind
      exact ⟨rfl, by simpa using h⟩
  | bool value =>
      intro b u v hu hv h
      have hkind := kind_eq h
      cases b <;> cases hkind
      exact ⟨rfl, List.append_cancel_left h⟩
  | num n =>
      intro b u v hu hv h
      have hkind := kind_eq h
      cases b <;> cases hkind
      obtain ⟨htext, huv⟩ := append_inj_of_plain (f.plain _) (f.plain _) hu hv h
      exact ⟨congrArg Json.num (f.injective htext), huv⟩
  | str s =>
      intro b u v hu hv h
      have hkind := kind_eq h
      cases b <;> cases hkind
      obtain ⟨htext, huv⟩ := quote_append_inj h
      exact ⟨congrArg Json.str htext, huv⟩
  | arr length items ih =>
      intro b u v hu hv h
      have hkind := kind_eq h
      cases b <;> cases hkind
      rename_i length' items'
      simp only [dumps_arr, List.cons_append, List.append_assoc, List.nil_append, List.cons.injEq,
        true_and] at h
      have hread : ∀ t ∈ List.ofFn items, Readable (dumps f) t := by
        intro t ht
        obtain ⟨i, rfl⟩ := (List.mem_ofFn' _ _).1 ht
        exact ih i
      obtain ⟨hitems, huv⟩ := commaList_append_inj (by simp) (dumps_opens f) hread h
      rw [List.ofFn_inj'] at hitems
      cases hitems
      exact ⟨rfl, huv⟩
  | obj keys values ih =>
      intro b u v hu hv h
      have hkind := kind_eq h
      cases b <;> cases hkind
      rename_i keys' values'
      simp only [dumps_obj, List.cons_append, List.append_assoc, List.nil_append, List.cons.injEq,
        true_and] at h
      have hread : ∀ entry ∈ entries keys values, Readable (dumpEntry f) entry := by
        intro entry he
        obtain ⟨k, hk⟩ := mem_entries he
        exact dumpEntry_readable (hk ▸ ih k)
      obtain ⟨hentries, huv⟩ := commaList_append_inj (by simp) (dumpEntry_opens f) hread h
      exact ⟨entries_inj hentries, huv⟩

theorem dumps_injective (f : NumberFormat ν) : Function.Injective (dumps f) := by
  intro a b h
  refine (dumps_readable f a b [] [] follows_nil follows_nil ?_).1
  rw [h]

end KernelGym.Library
