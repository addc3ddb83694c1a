import KernelGym.DirectAllocations
import Mathlib.Data.List.Nodup

/-! The calls that the detection reports: those of the source without its comments, where the comments are those that
the detection takes out. -/

namespace KernelGym.DirectAllocations

open Library

variable {u : Unicode}

/-! ### Names -/

def names : List Text := directCudaAllocationApis.map String.toList

theorem mem_alternatives {api : Text} : api ∈ alternatives ↔ api ∈ names := List.mem_insertionSort _

theorem names_nodup : names.Nodup := by decide +kernel

theorem name_ne_nil {api : Text} (h : api ∈ names) : api ≠ [] := by
  have hall : names.all (fun api => decide (api ≠ [])) = true := by decide +kernel
  exact of_decide_eq_true (List.all_eq_true.mp hall api h)

theorem isWord_of_mem {api : Text} (h : api ∈ names) {c : Char} (hc : c ∈ api) : u.isWord c = true := by
  have hall : names.all (fun api => api.all fun c => decide (c.toNat < 128) && asciiWord c) = true := by decide +kernel
  have hchar := List.all_eq_true.mp (List.all_eq_true.mp hall api h) c hc
  obtain ⟨hascii, hword⟩ := Bool.and_eq_true_iff.mp hchar
  rw [u.isWord_ascii c (of_decide_eq_true hascii), hword]

/-! ### One place -/

/-- What follows a name: white space and a parenthesis. -/
theorem opened_iff {text after : Text} : opened u text = some after ↔ text.dropWhile u.isSpace = '(' :: after := by
  unfold opened
  cases htext : text.dropWhile u.isSpace with
  | nil => simp
  | cons c rest =>
      by_cases hc : c = '('
      · simp [hc]
      · simp [hc]

theorem isWord_parenthesis : u.isWord '(' = false := (u.isWord_ascii '(' (by decide)).trans rfl

/-- What follows a name starts with no character of a name. -/
theorem head_of_opened {text after : Text} (h : opened u text = some after) {c : Char} (hc : text.head? = some c) :
    u.isWord c = false := by
  rw [opened_iff] at h
  cases text with
  | nil => exact nomatch hc
  | cons x rest =>
      obtain rfl : x = c := Option.some.inj hc
      by_cases hspace : u.isSpace x = true
      · exact u.isWord_of_isSpace x hspace
      · rw [List.dropWhile_cons_of_neg hspace] at h
        rw [(List.cons.inj h).1]
        exact isWord_parenthesis

/-- Only one name fits at a place. -/
theorem name_unique {text after after' api api' : Text} (hapi : api ∈ names) (hapi' : api' ∈ names) (h : api <+: text)
    (h' : api' <+: text) (hopen : opened u (text.drop api.length) = some after)
    (hopen' : opened u (text.drop api'.length) = some after') : api = api' := by
  wlog hle : api.length ≤ api'.length generalizing api api' after after'
  · exact (this hapi' hapi h' h hopen' hopen (Nat.le_of_not_le hle)).symm
  · obtain ⟨tail, rfl⟩ := List.prefix_of_prefix_length_le h h' hle
    cases tail with
    | nil => rw [List.append_nil]
    | cons c tail =>
        obtain ⟨rest, rfl⟩ := h'
        have hhead := head_of_opened hopen (c := c) (by simp)
        have hword := isWord_of_mem (u := u) hapi' (c := c) (by simp)
        exact absurd hword (by simp [hhead])

/-- A name that fits at a text, with what follows the parenthesis. -/
def Fits (u : Unicode) (text api after : Text) : Prop :=
  api ∈ names ∧ api <+: text ∧ opened u (text.drop api.length) = some after

theorem head_of_fits {text api after : Text} (h : Fits u text api after) : text.head?.any u.isWord = true := by
  obtain ⟨hmem, ⟨rest, rfl⟩, -⟩ := h
  obtain ⟨c, tail, hname⟩ := List.exists_cons_of_ne_nil (name_ne_nil hmem)
  rw [hname]
  exact isWord_of_mem hmem (hname ▸ List.mem_cons_self)

/-- The alternatives are tried in order; only one can fit. -/
theorem findSome?_iff {text api after : Text} : (alternatives.findSome? fun api =>
      if api.isPrefixOf text then (opened u (text.drop api.length)).map fun rest => (api, rest) else none) =
        some (api, after) ↔ Fits u text api after := by
  have hone {api' : Text} {found : Text × Text} (hmem : api' ∈ alternatives) (h : (if api'.isPrefixOf text then
      (opened u (text.drop api'.length)).map fun rest => (api', rest) else none) = some found) :
      found.1 = api' ∧ Fits u text api' found.2 := by
    split_ifs at h with hprefix
    obtain ⟨rest, hopen, rfl⟩ := Option.map_eq_some_iff.mp h
    exact ⟨rfl, mem_alternatives.mp hmem, List.isPrefixOf_iff_prefix.mp hprefix, hopen⟩
  constructor
  · intro h
    obtain ⟨api', hmem, hfit⟩ := List.exists_of_findSome?_eq_some h
    obtain ⟨rfl, hfits⟩ := hone hmem hfit
    exact hfits
  · intro h
    have hsome : (alternatives.findSome? fun api =>
        if api.isPrefixOf text then (opened u (text.drop api.length)).map fun rest => (api, rest) else none).isSome := by
      refine List.findSome?_isSome_iff.mpr ⟨api, mem_alternatives.mpr h.1, ?_⟩
      rw [if_pos (List.isPrefixOf_iff_prefix.mpr h.2.1), h.2.2]
      rfl
    obtain ⟨found, hfound⟩ := Option.isSome_iff_exists.mp hsome
    obtain ⟨api', hmem, hfit⟩ := List.exists_of_findSome?_eq_some hfound
    obtain ⟨hname, hfits⟩ := hone hmem hfit
    obtain rfl := name_unique hfits.1 h.1 hfits.2.1 h.2.1 hfits.2.2 h.2.2
    rw [hfound, ← Option.some.inj (hfits.2.2.symm.trans h.2.2), ← hname]

/-- **What a match at a place is.** -/
theorem matchAt_iff {before : Option Char} {text api after : Text} : matchAt u before text = some (api, after) ↔
    before.any u.isWord = false ∧ Fits u text api after := by
  rw [matchAt]
  constructor
  · intro h
    split_ifs at h with hboundary
    have hfits := findSome?_iff.mp h
    rw [head_of_fits hfits, Bool.not_eq_true] at hboundary
    exact ⟨hboundary, hfits⟩
  · rintro ⟨hbefore, hfits⟩
    rw [if_neg (by rw [hbefore, head_of_fits hfits]; exact Bool.false_ne_true)]
    exact findSome?_iff.mpr hfits

theorem matchAt_eq_none {before : Option Char} {text : Text}
    (h : before.any u.isWord = true ∨ text.head?.any u.isWord = false) : matchAt u before text = none := by
  cases hmatch : matchAt u before text with
  | none => rfl
  | some found =>
      obtain ⟨hbefore, hfits⟩ := matchAt_iff.mp hmatch
      rw [hbefore, head_of_fits hfits] at h
      exact absurd h (by decide)

/-! ### All places -/

/-- The character in front of a place. -/
def charBefore (before : Option Char) (text : Text) (start : ℕ) : Option Char := ((text.take start).getLast?).or before

theorem charBefore_succ {before : Option Char} {c : Char} {rest : Text} {start : ℕ} :
    charBefore before (c :: rest) (start + 1) = charBefore (some c) rest start := by
  rw [charBefore, charBefore, List.take_succ_cons, List.getLast?_cons]
  cases (rest.take start).getLast? <;> rfl

theorem charBefore_some {c : Char} {rest : Text} {k : ℕ} (hk : k ≤ rest.length) :
    charBefore (some c) rest k = (c :: rest)[k]? := by
  cases k with
  | zero => rfl
  | succ k =>
      have hget : rest[k]? = some rest[k] := List.getElem?_eq_getElem hk
      rw [charBefore, List.take_add_one, hget, List.getElem?_cons_succ, hget, Option.toList_some, List.getLast?_concat]
      rfl

/-- Inside a match there is no other. -/
theorem matchAt_inside {before : Option Char} {c : Char} {rest api after : Text}
    (h : matchAt u before (c :: rest) = some (api, after)) {k : ℕ} (hk : k < rest.length - after.length) :
    matchAt u (charBefore (some c) rest k) (rest.drop k) = none := by
  obtain ⟨-, hmem, ⟨tail, htail⟩, hopen⟩ := matchAt_iff.mp h
  obtain ⟨blanks, hblanks, hall⟩ : ∃ blanks, tail = blanks ++ '(' :: after ∧ ∀ x ∈ blanks, u.isWord x = false := by
    rw [← htail, List.drop_left, opened_iff] at hopen
    refine ⟨tail.takeWhile u.isSpace, ?_, fun x hx => u.isWord_of_isSpace x (List.mem_takeWhile_imp hx)⟩
    rw [← hopen, List.takeWhile_append_dropWhile]
  have hlength := congrArg List.length htail
  rw [hblanks] at hlength
  simp only [List.length_append, List.length_cons] at hlength
  refine matchAt_eq_none ?_
  by_cases hname : k < api.length
  · left
    rw [charBefore_some (by omega), ← htail, List.getElem?_append_left hname, List.getElem?_eq_getElem hname]
    exact isWord_of_mem hmem (List.getElem_mem hname)
  · right
    have hget : rest[k]? = (blanks ++ ['('])[k + 1 - api.length]? := by
      rw [← List.getElem?_cons_succ (a := c), ← htail, List.getElem?_append_right (by omega), hblanks,
        ← List.singleton_append, ← List.append_assoc, List.getElem?_append_left (by simp; omega)]
    rw [List.head?_drop, hget, Option.any_eq_false]
    intro x hx
    rcases List.mem_append.mp (List.mem_of_getElem? hx) with hx | hx
    · exact hall x hx
    · rw [List.mem_singleton.mp hx]
      exact isWord_parenthesis

/-- The names of a text with their places, without regard to those that a match takes up. -/
def allMatches (u : Unicode) (start : ℕ) (before : Option Char) (text : Text) : List (Text × ℕ) :=
  (List.range text.length).flatMap fun k =>
    ((matchAt u (charBefore before text k) (text.drop k)).map fun found => (found.1, start + k)).toList

theorem allMatches_cons (start : ℕ) (before : Option Char) (c : Char) (rest : Text) :
    allMatches u start before (c :: rest) =
      ((matchAt u before (c :: rest)).map fun found => (found.1, start)).toList ++ allMatches u (start + 1) (some c) rest := by
  rw [allMatches, List.length_cons, List.range_succ_eq_map, List.flatMap_cons, List.flatMap_map, allMatches]
  refine congrArg _ (List.flatMap_congr fun k _ => ?_)
  rw [charBefore_succ, List.drop_succ_cons, Nat.succ_eq_add_one, Nat.add_right_comm, Nat.add_assoc]

/-- `finditer` passes over no match. -/
theorem finditerFrom_eq (skip start : ℕ) (before : Option Char) (text : Text)
    (hskip : ∀ k < skip, matchAt u (charBefore before text k) (text.drop k) = none) :
    finditerFrom u skip start before text = allMatches u start before text := by
  induction text generalizing skip start before with
  | nil => cases skip <;> rfl
  | cons c rest ih =>
      rw [allMatches_cons]
      cases skip with
      | succ skip =>
          have hnone : matchAt u before (c :: rest) = none := hskip 0 (Nat.succ_pos skip)
          rw [finditerFrom, hnone, ih skip (start + 1) (some c) fun k hk => ?_]
          · rfl
          · have hlater := hskip (k + 1) (Nat.succ_lt_succ hk)
            rwa [charBefore_succ, List.drop_succ_cons] at hlater
      | zero =>
          rw [finditerFrom]
          cases hmatch : matchAt u before (c :: rest) with
          | none =>
              rw [ih 0 (start + 1) (some c) fun k hk => absurd hk (Nat.not_lt_zero k)]
              rfl
          | some found =>
              obtain ⟨api, after⟩ := found
              exact congrArg ((api, start) :: ·) (ih _ (start + 1) (some c) fun k hk => matchAt_inside hmatch hk)

/-- A match at a place is a call. -/
theorem matchAt_calls (text : Text) (start : ℕ) :
    ((matchAt u (charBefore none text start) (text.drop start)).map Prod.fst).toList =
      names.filter fun api => IsCall u text api start := by
  have hcall {api : Text} (hmem : api ∈ names) : IsCall u text api start ↔
      ∃ after, matchAt u (charBefore none text start) (text.drop start) = some (api, after) := by
    simp only [matchAt_iff, Fits, IsCall, charBefore, Option.or_none, List.drop_drop, opened_iff]
    constructor
    · rintro ⟨hbefore, hprefix, hopen⟩
      obtain ⟨after, hafter⟩ := List.head?_eq_some_iff.mp hopen
      exact ⟨after, hbefore, hmem, hprefix, hafter⟩
    · rintro ⟨after, hbefore, -, hprefix, hafter⟩
      exact ⟨hbefore, hprefix, by rw [hafter]; rfl⟩
  cases hmatch : matchAt u (charBefore none text start) (text.drop start) with
  | none =>
      refine (List.filter_eq_nil_iff.mpr fun api hmem h => ?_).symm
      obtain ⟨after, hafter⟩ := (hcall hmem).mp (of_decide_eq_true h)
      exact nomatch hmatch.symm.trans hafter
  | some found =>
      obtain ⟨api, after⟩ := found
      have hmem : api ∈ names := (matchAt_iff.mp hmatch).2.1
      have honly : ∀ api' ∈ names, decide (IsCall u text api' start) = (api' == api) := by
        intro api' hmem'
        rw [Bool.eq_iff_iff, decide_eq_true_eq, beq_iff_eq, hcall hmem', hmatch]
        constructor
        · rintro ⟨after', h⟩
          exact (Prod.ext_iff.mp (Option.some.inj h)).1.symm
        · rintro rfl
          exact ⟨after, rfl⟩
      rw [List.filter_congr honly, List.filter_beq, List.count_eq_one_of_mem names_nodup hmem]
      rfl

/-! ### Comments -/

/-- A block comment starts with this character, and it ends somewhere. -/
def startsBlock (c : Char) (rest : Text) : Bool :=
  c = '/' && rest.head? = some '*' && decide (['*', '/'] <:+: rest.drop 1)

def startsLine (c : Char) (rest : Text) : Bool := c = '/' && rest.head? = some '/'

/-- A block comment is opened inside a text. -/
def opensBlock : Text → Text → Bool
  | [], _ => false
  | c :: text, rest => startsBlock c (text ++ rest) || opensBlock text rest

/-- A line comment is opened inside a text. -/
def opensLine : Text → Text → Bool
  | [], _ => false
  | c :: text, rest => startsLine c (text ++ rest) || opensLine text rest

/-- A block comment that is open at the beginning of a text, or opened inside it, goes on behind it. -/
def leavesBlock : Bool → Text → Text → Bool
  | inside, [], _ => inside
  | true, '*' :: '/' :: text, rest => leavesBlock false text rest
  | true, _ :: text, rest => leavesBlock true text rest
  | false, '/' :: '*' :: text, rest =>
    if ['*', '/'] <:+: text ++ rest then leavesBlock true text rest else leavesBlock false ('*' :: text) rest
  | false, c :: text, rest => startsBlock c (text ++ rest) || leavesBlock false text rest

/-- The slashes of a line comment may open a block comment too, as in `//*`. -/
def Piece.Clean (rest : Text) : Piece → Prop
  | .code _ => True
  | .literal text => opensBlock text rest = false ∧ opensLine text rest = false
  | .lineComment text =>
    '\n' ∉ text ∧ opensBlock (text.take 2) (text.drop 2 ++ rest) = false ∧ leavesBlock false (text.drop 2) rest = false
  | .blockComment _ => True
  | .unclosed _ => False

/-- Every comment ends where the detection ends it, and no literal opens one. -/
def Clean : List Piece → Prop
  | [] => True
  | piece :: rest => piece.Clean (rest.flatMap Piece.text) ∧ Clean rest

instance (rest : Text) (piece : Piece) : Decidable (piece.Clean rest) := by
  cases piece <;> unfold Piece.Clean <;> infer_instance

def decideClean : (ps : List Piece) → Decidable (Clean ps)
  | [] => .isTrue trivial
  | _ :: rest => @instDecidableAnd _ _ inferInstance (decideClean rest)

instance (ps : List Piece) : Decidable (Clean ps) := decideClean ps

theorem blankBlocks_cons {c : Char} {rest : Text} (h : startsBlock c rest = false) :
    blankBlocks false (c :: rest) = c :: blankBlocks false rest := by
  by_cases hc : c = '/'
  · subst hc
    cases rest with
    | nil => rfl
    | cons d tail =>
        by_cases hd : d = '*'
        · subst hd
          have hnot : ¬ ['*', '/'] <:+: tail := by simpa [startsBlock] using h
          rw [blankBlocks, if_neg hnot]
        · simp [blankBlocks, hd]
  · simp [blankBlocks, hc]

theorem blankBlocks_append {text rest : Text} (h : opensBlock text rest = false) :
    blankBlocks false (text ++ rest) = text ++ blankBlocks false rest := by
  induction text with
  | nil => rfl
  | cons c text ih =>
      obtain ⟨hfirst, hlater⟩ := Bool.or_eq_false_iff.mp h
      rw [List.cons_append, blankBlocks_cons hfirst, ih hlater]
      rfl

theorem blankBlocks_inside {c : Char} {rest : Text} (h : c = '*' → rest.head? ≠ some '/') :
    blankBlocks true (c :: rest) = blank c :: blankBlocks true rest := by
  by_cases hc : c = '*'
  · subst hc
    cases rest with
    | nil => rfl
    | cons d tail =>
        have hd : d ≠ '/' := fun heq => h rfl (congrArg some heq)
        simp [blankBlocks, hd]
  · simp [blankBlocks, hc]

theorem blank_blank (c : Char) : blank (blank c) = blank c := by
  by_cases hc : c = '\n'
  · rw [hc]
    rfl
  · rw [blank, blank, if_neg hc]
    rfl

theorem newline_mem_blank {text : Text} : '\n' ∈ text.map blank ↔ '\n' ∈ text := by
  rw [List.mem_map]
  constructor
  · rintro ⟨c, hc, hblank⟩
    unfold blank at hblank
    split_ifs at hblank with hnewline
    · exact hnewline ▸ hc
    · exact absurd hblank (by decide)
  · exact fun h => ⟨'\n', h, rfl⟩

/-- The block comments that begin and end inside a text leave blanks. -/
theorem blankBlocks_leaves {inside : Bool} {text rest : Text} (h : leavesBlock inside text rest = false) :
    ∃ blanked, blankBlocks inside (text ++ rest) = blanked ++ blankBlocks false rest ∧
      blanked.map blank = text.map blank := by
  induction inside, text, rest using leavesBlock.induct with
  | case1 inside rest =>
      obtain rfl : inside = false := h
      exact ⟨[], rfl, rfl⟩
  | case2 rest text ih =>
      obtain ⟨blanked, hblanked, hsame⟩ := ih h
      exact ⟨' ' :: ' ' :: blanked, congrArg (' ' :: ' ' :: ·) hblanked, congrArg (' ' :: ' ' :: ·) hsame⟩
  | case3 c text rest hnot ih =>
      rw [leavesBlock] at h
      · obtain ⟨blanked, hblanked, hsame⟩ := ih h
        -- the comment goes on, so that the text does too
        have hhead : c = '*' → (text ++ rest).head? ≠ some '/' := by
          intro hc hslash
          cases text with
          | nil => exact Bool.noConfusion (show true = false from h)
          | cons d tail => exact hnot tail hc (congrArg (· :: tail) (Option.some.inj hslash))
        refine ⟨blank c :: blanked, ?_, ?_⟩
        · rw [List.cons_append, blankBlocks_inside hhead, hblanked]
          rfl
        · rw [List.map_cons, List.map_cons, blank_blank, hsame]
      · exact hnot
  | case4 rest text hclosed ih =>
      rw [leavesBlock, if_pos hclosed] at h
      obtain ⟨blanked, hblanked, hsame⟩ := ih h
      refine ⟨' ' :: ' ' :: blanked, ?_, congrArg (' ' :: ' ' :: ·) hsame⟩
      rw [List.cons_append, List.cons_append, blankBlocks, if_pos hclosed, hblanked]
      rfl
  | case5 rest text hopen ih =>
      rw [leavesBlock, if_neg hopen] at h
      obtain ⟨blanked, hblanked, hsame⟩ := ih h
      refine ⟨'/' :: blanked, ?_, congrArg (' ' :: ·) hsame⟩
      rw [List.cons_append, List.cons_append, blankBlocks, if_neg hopen, ← List.cons_append, hblanked]
      rfl
  | case6 c text rest hnot ih =>
      rw [leavesBlock] at h
      · obtain ⟨hstarts, hlater⟩ := Bool.or_eq_false_iff.mp h
        obtain ⟨blanked, hblanked, hsame⟩ := ih hlater
        refine ⟨c :: blanked, ?_, congrArg (blank c :: ·) hsame⟩
        rw [List.cons_append, blankBlocks_cons hstarts, hblanked]
        rfl
      · exact hnot

theorem blankLines_cons {c : Char} {rest : Text} (h : startsLine c rest = false) :
    blankLines false (c :: rest) = c :: blankLines false rest := by
  by_cases hc : c = '/'
  · subst hc
    cases rest with
    | nil => rfl
    | cons d tail =>
        have hd : d ≠ '/' := by simpa [startsLine] using h
        simp [blankLines, hd]
  · simp [blankLines, hc]

theorem blankLines_append {text rest : Text} (h : opensLine text rest = false) :
    blankLines false (text ++ rest) = text ++ blankLines false rest := by
  induction text with
  | nil => rfl
  | cons c text ih =>
      obtain ⟨hfirst, hlater⟩ := Bool.or_eq_false_iff.mp h
      rw [List.cons_append, blankLines_cons hfirst, ih hlater]
      rfl

/-- A slash that is left was one before. -/
theorem head_blankBlocks {rest : Text} (h : (blankBlocks false rest).head? = some '/') : rest.head? = some '/' := by
  cases rest with
  | nil => exact h
  | cons c tail =>
      cases hstarts : startsBlock c tail with
      | false =>
          rw [blankBlocks_cons hstarts] at h
          exact h
      | true =>
          simp only [startsBlock, Bool.and_eq_true, decide_eq_true_eq] at hstarts
          exact congrArg some hstarts.1.1

/-- Text that opens no line comment opens none when the block comments behind it are blank. -/
theorem opensLine_blankBlocks {text rest : Text} (h : opensLine text rest = false) :
    opensLine text (blankBlocks false rest) = false := by
  induction text with
  | nil => rfl
  | cons c text ih =>
      obtain ⟨hfirst, hlater⟩ := Bool.or_eq_false_iff.mp h
      refine Bool.or_eq_false_iff.mpr ⟨?_, ih hlater⟩
      cases text with
      | cons d text => exact hfirst
      | nil =>
          rw [startsLine, Bool.and_eq_false_iff] at hfirst ⊢
          refine hfirst.imp id fun hne => decide_eq_false fun hhead => ?_
          exact of_decide_eq_false hne (head_blankBlocks hhead)

theorem blankLines_blank (text rest : Text) :
    blankLines false (text.map blank ++ rest) = text.map blank ++ blankLines false rest := by
  induction text with
  | nil => rfl
  | cons c text ih =>
      have hc : blank c ≠ '/' := by
        unfold blank
        split <;> decide
      rw [List.map_cons, List.cons_append, blankLines_cons (by simp [startsLine, hc]), ih]
      rfl

/-- A line comment is blanked up to the end of its line. -/
theorem blankLines_comment {body rest : Text} (hbody : '\n' ∉ body) (hrest : ∀ c ∈ rest.head?, c = '\n') :
    blankLines true (body ++ rest) = body.map blank ++ blankLines false rest := by
  induction body with
  | nil =>
      cases rest with
      | nil => rfl
      | cons c rest =>
          obtain rfl := hrest c rfl
          rfl
  | cons c body ih =>
      have hc : c ≠ '\n' := fun h => hbody (h ▸ List.mem_cons_self)
      rw [List.cons_append, blankLines, if_neg hc, ih fun h => hbody (List.mem_cons_of_mem c h), List.map_cons, blank,
        if_neg hc]
      rfl

/-- A block comment is blanked up to its end. -/
theorem blankBlocks_comment {text body after : Text} (h : blockBody text = some (body, after)) :
    text = body ++ after ∧ ['*', '/'] <:+: text ∧ blankBlocks true text = body.map blank ++ blankBlocks false after := by
  induction text using blockBody.induct generalizing body after with
  | case1 => exact nomatch h
  | case2 rest =>
      obtain ⟨rfl, rfl⟩ := Prod.ext_iff.mp (Option.some.inj h)
      exact ⟨rfl, ⟨[], _, rfl⟩, rfl⟩
  | case3 c rest hnot ih =>
      rw [blockBody] at h
      · obtain ⟨⟨body', after'⟩, hbody, heq⟩ := Option.map_eq_some_iff.mp h
        obtain ⟨rfl, rfl⟩ := Prod.ext_iff.mp heq
        obtain ⟨htext, hclosed, hblank⟩ := ih hbody
        refine ⟨by rw [htext]; rfl, hclosed.trans (List.suffix_cons c rest).isInfix, ?_⟩
        rw [blankBlocks, hblank]
        · rfl
        · exact hnot
      · exact hnot

/-! ### Pieces -/

theorem lineBody_text (text : Text) :
    (lineBody text).1 ++ (lineBody text).2 = text ∧ ∀ c ∈ (lineBody text).2.head?, c = '\n' := by
  induction text using lineBody.induct with
  | case1 => exact ⟨rfl, fun c hc => absurd hc (by simp [lineBody])⟩
  | case2 rest _ _ _ ih => exact ⟨congrArg ('\\' :: '\n' :: ·) ih.1, ih.2⟩
  | case3 rest _ _ _ ih => exact ⟨congrArg ('\\' :: '\r' :: '\n' :: ·) ih.1, ih.2⟩
  | case4 rest hfirst hsecond =>
      have hbody : lineBody ('\n' :: rest) = ([], '\n' :: rest) := by simp [lineBody]
      rw [hbody]
      exact ⟨rfl, fun c hc => (Option.some.inj hc).symm⟩
  | case5 c rest hfirst hsecond hc _ _ _ ih =>
      have hbody : lineBody (c :: rest) = (c :: (lineBody rest).1, (lineBody rest).2) := by
        rw [lineBody, if_neg hc]
        · exact hfirst
        · exact hsecond
      rw [hbody]
      exact ⟨congrArg (c :: ·) ih.1, ih.2⟩

theorem quotedBody_text (quote : Char) (text : Text) : (quotedBody quote text).1 ++ (quotedBody quote text).2 = text := by
  induction text using quotedBody.induct quote with
  | case1 => rfl
  | case2 c rest _ _ _ ih => exact congrArg ('\\' :: c :: ·) ih
  | case3 rest hescape => simp [quotedBody]
  | case4 rest hescape hquote => simp [quotedBody, hquote]
  | case5 c rest hescape hquote hc _ _ _ ih =>
      have hbody : quotedBody quote (c :: rest) = (c :: (quotedBody quote rest).1, (quotedBody quote rest).2) := by
        rw [quotedBody, if_neg hquote, if_neg hc]
        exact hescape
      rw [hbody]
      exact congrArg (c :: ·) ih

theorem upTo_text (close text : Text) : (upTo close text).1 ++ (upTo close text).2 = text := by
  induction text with
  | nil => rfl
  | cons c rest ih =>
      rw [upTo]
      split_ifs with hclose
      · obtain ⟨tail, htail⟩ := List.isPrefixOf_iff_prefix.mp hclose
        rw [← htail, List.drop_left]
      · exact congrArg (c :: ·) ih

theorem numberBody_text (text : Text) : (numberBody u text).1 ++ (numberBody u text).2 = text ∧
    '/' ∉ (numberBody u text).1 := by
  have hslash : u.isWord '/' = false := (u.isWord_ascii '/' (by decide)).trans rfl
  induction text using numberBody.induct (u := u) with
  | case1 => exact ⟨rfl, List.not_mem_nil⟩
  | case2 c rest hc _ _ _ ih =>
      have hbody : numberBody u ('\'' :: c :: rest) = ('\'' :: (numberBody u (c :: rest)).1, (numberBody u (c :: rest)).2) := by
        rw [numberBody, if_pos hc]
      rw [hbody]
      exact ⟨congrArg ('\'' :: ·) ih.1, fun h => (List.mem_cons.mp h).elim (by decide) ih.2⟩
  | case3 c rest hc =>
      rw [numberBody, if_neg hc]
      exact ⟨rfl, List.not_mem_nil⟩
  | case4 c rest hseparator hc _ _ _ ih =>
      have hbody : numberBody u (c :: rest) = (c :: (numberBody u rest).1, (numberBody u rest).2) := by
        rw [numberBody, if_pos hc]
        exact hseparator
      rw [hbody]
      refine ⟨congrArg (c :: ·) ih.1, fun h => (List.mem_cons.mp h).elim (fun heq => ?_) ih.2⟩
      rw [heq, hc] at hslash
      exact Bool.false_ne_true hslash.symm
  | case5 c rest hseparator hc =>
      rw [numberBody, if_neg hc]
      · exact ⟨rfl, List.not_mem_nil⟩
      · exact hseparator

theorem opens_of_notMem {text : Text} (h : '/' ∉ text) (rest : Text) :
    opensBlock text rest = false ∧ opensLine text rest = false := by
  induction text with
  | nil => exact ⟨rfl, rfl⟩
  | cons c text ih =>
      have hc : c ≠ '/' := fun heq => h (heq ▸ List.mem_cons_self)
      obtain ⟨hblock, hline⟩ := ih fun hmem => h (List.mem_cons_of_mem c hmem)
      refine ⟨Bool.or_eq_false_iff.mpr ⟨?_, hblock⟩, Bool.or_eq_false_iff.mpr ⟨?_, hline⟩⟩
      · simp [startsBlock, hc]
      · simp [startsLine, hc]

/-- The text of a piece and what follows it. -/
structure Cut (text : Text) (piece : Piece) (after : Text) : Prop where
  whole : piece.text ++ after = text
  shorter : after.length < text.length
  /-- A clean piece is left as it is, or blanked as a whole. -/
  stripped : piece.Clean after → blankLines false (blankBlocks false text) =
    piece.visible ++ blankLines false (blankBlocks false after)

/-- Text that opens nothing is left as it is. -/
theorem stripped_of_opens {text rest : Text} (hblock : opensBlock text rest = false) (hline : opensLine text rest = false) :
    blankLines false (blankBlocks false (text ++ rest)) = text ++ blankLines false (blankBlocks false rest) := by
  rw [blankBlocks_append hblock, blankLines_append (opensLine_blankBlocks hline)]

theorem cut_code (text after : Text) (hne : text ≠ []) (hslash : '/' ∉ text) : Cut (text ++ after) (.code text) after where
  whole := rfl
  shorter := by
    have hpos := List.length_pos_of_ne_nil hne
    rw [List.length_append]
    omega
  stripped _ := stripped_of_opens (opens_of_notMem hslash after).1 (opens_of_notMem hslash after).2

theorem cut_literal (text after : Text) (hne : text ≠ []) : Cut (text ++ after) (.literal text) after where
  whole := rfl
  shorter := by
    have hpos := List.length_pos_of_ne_nil hne
    rw [List.length_append]
    omega
  stripped h := stripped_of_opens h.1 h.2

theorem cut_lineComment (rest : Text) :
    Cut ('/' :: '/' :: rest) (.lineComment ('/' :: '/' :: (lineBody rest).1)) (lineBody rest).2 where
  whole := congrArg ('/' :: '/' :: ·) (lineBody_text rest).1
  shorter := by
    have hlength := congrArg List.length (lineBody_text rest).1
    rw [List.length_append] at hlength
    simp only [List.length_cons]
    omega
  stripped h := by
    obtain ⟨hnewline, hslashes, hleaves⟩ := h
    change opensBlock ['/', '/'] ((lineBody rest).1 ++ (lineBody rest).2) = false at hslashes
    change leavesBlock false (lineBody rest).1 (lineBody rest).2 = false at hleaves
    obtain ⟨htext, hend⟩ := lineBody_text rest
    obtain ⟨blanked, hblanked, hsame⟩ := blankBlocks_leaves hleaves
    have hbody : '\n' ∉ blanked := by
      rw [← newline_mem_blank, hsame, newline_mem_blank]
      exact fun hmem => hnewline (List.mem_cons_of_mem _ (List.mem_cons_of_mem _ hmem))
    have hwhole : '/' :: '/' :: rest = ['/', '/'] ++ ((lineBody rest).1 ++ (lineBody rest).2) := by rw [htext]; rfl
    rw [hwhole, blankBlocks_append hslashes]
    rw [hblanked, List.cons_append, List.cons_append, List.nil_append, blankLines, blankLines_comment hbody ?_, hsame]
    · rfl
    · intro c hc
      cases hafter : (lineBody rest).2 with
      | nil =>
          rw [hafter] at hc
          exact nomatch hc
      | cons x after =>
          rw [hafter] at hc hend
          obtain rfl := hend x rfl
          exact (Option.some.inj hc).symm

theorem cut_blockComment {rest body after : Text} (h : blockBody rest = some (body, after)) :
    Cut ('/' :: '*' :: rest) (.blockComment ('/' :: '*' :: body)) after := by
  obtain ⟨htext, hclosed, hblank⟩ := blankBlocks_comment h
  refine ⟨by rw [htext]; rfl, by rw [htext]; simp; omega, fun _ => ?_⟩
  rw [blankBlocks, if_pos hclosed, hblank]
  exact blankLines_blank ('/' :: '*' :: body) _

/-- A character of code is left: a slash that begins no comment, or no slash. -/
theorem cut_character {c : Char} {rest : Text} (h : c = '/' → rest.head? ≠ some '/' ∧ rest.head? ≠ some '*') :
    Cut (c :: rest) (.code [c]) rest where
  whole := rfl
  shorter := Nat.lt_succ_self _
  stripped _ := by
    have hblock : opensBlock [c] rest = false := by
      by_cases hc : c = '/'
      · simp [opensBlock, startsBlock, (h hc).2]
      · simp [opensBlock, startsBlock, hc]
    have hline : opensLine [c] rest = false := by
      by_cases hc : c = '/'
      · simp [opensLine, startsLine, (h hc).1]
      · simp [opensLine, startsLine, hc]
    exact stripped_of_opens hblock hline

theorem cut_quoted (c quote : Char) (rest : Text) :
    Cut (c :: rest) (.literal (c :: (quotedBody quote rest).1)) (quotedBody quote rest).2 := by
  have hcut := cut_literal (c :: (quotedBody quote rest).1) (quotedBody quote rest).2 (List.cons_ne_nil _ _)
  rwa [List.cons_append, quotedBody_text] at hcut

theorem cut_number {c : Char} (hc : c ≠ '/') (rest : Text) :
    Cut (c :: rest) (.code (c :: (numberBody u rest).1)) (numberBody u rest).2 := by
  obtain ⟨htext, hslash⟩ := numberBody_text (u := u) rest
  have hcut := cut_code (c :: (numberBody u rest).1) (numberBody u rest).2 (List.cons_ne_nil _ _)
    fun hmem => (List.mem_cons.mp hmem).elim (fun h => hc h.symm) hslash
  rwa [List.cons_append, htext] at hcut

/-- A word is code, or the prefix of a raw literal. -/
theorem cut_word {c : Char} (hc : c ≠ '/') (rest : Text) :
    Cut (c :: rest) (.code (c :: rest.takeWhile u.isWord)) (rest.dropWhile u.isWord) := by
  have hslash : '/' ∉ c :: rest.takeWhile u.isWord := by
    intro hmem
    rcases List.mem_cons.mp hmem with h | h
    · exact hc h.symm
    · have hword := List.mem_takeWhile_imp h
      rw [u.isWord_ascii '/' (by decide)] at hword
      exact absurd hword (by decide)
  have hcut := cut_code _ (rest.dropWhile u.isWord) (List.cons_ne_nil _ _) hslash
  rwa [List.cons_append, List.takeWhile_append_dropWhile] at hcut

theorem cut_raw {word quoted text : Text} (h : text = word ++ '\"' :: quoted) :
    Cut text (.literal (word ++ '\"' :: (rawBody quoted).1)) (rawBody quoted).2 := by
  have hcut := cut_literal (word ++ '\"' :: (rawBody quoted).1) (rawBody quoted).2 (by simp)
  rw [List.append_assoc, List.cons_append, rawBody, upTo_text] at hcut
  rw [h]
  exact hcut

/-- **A piece is cut from a text that is not empty.** -/
theorem nextPiece_cut (c : Char) (rest : Text) :
    Cut (c :: rest) (nextPiece u (c :: rest)).1 (nextPiece u (c :: rest)).2 := by
  rw [nextPiece.eq_def]
  split
  · rename_i heq
    exact absurd heq (List.cons_ne_nil _ _)
  · rename_i tail heq
    obtain ⟨rfl, rfl⟩ := List.cons.inj heq
    exact cut_lineComment tail
  · rename_i tail heq
    obtain ⟨rfl, rfl⟩ := List.cons.inj heq
    split
    · rename_i body after hbody
      exact cut_blockComment hbody
    · exact ⟨List.append_nil _, Nat.succ_pos _, fun h => h.elim⟩
  · rename_i c' rest' hline hblock heq
    obtain ⟨rfl, rfl⟩ := List.cons.inj heq
    split_ifs with hquote hdigit hword
    · exact cut_quoted c c rest
    · have hc : c ≠ '/' := by
        rintro rfl
        exact absurd hdigit (by decide)
      exact cut_number hc rest
    · have hc : c ≠ '/' := by
        rintro rfl
        rw [u.isWord_ascii '/' (by decide)] at hword
        exact absurd hword (by decide)
      split
      · rename_i quoted hafter
        dsimp only
        split_ifs with hraw
        · refine cut_raw ?_
          rw [← hafter, List.cons_append, List.takeWhile_append_dropWhile]
        · rw [← hafter]
          exact cut_word hc rest
      · exact cut_word hc rest
    · refine cut_character fun hc => ⟨fun hhead => ?_, fun hhead => ?_⟩
      · obtain ⟨tail, rfl⟩ := List.head?_eq_some_iff.mp hhead
        exact hline tail hc rfl
      · obtain ⟨tail, rfl⟩ := List.head?_eq_some_iff.mp hhead
        exact hblock tail hc rfl

theorem piecesFrom_succ (n : ℕ) (c : Char) (rest : Text) : piecesFrom u (n + 1) (c :: rest) =
    (nextPiece u (c :: rest)).1 :: piecesFrom u n (nextPiece u (c :: rest)).2 := rfl

theorem piecesFrom_text (n : ℕ) {text : Text} (h : text.length ≤ n) : (piecesFrom u n text).flatMap Piece.text = text := by
  induction n generalizing text with
  | zero => rw [List.length_eq_zero_iff.mp (Nat.le_zero.mp h)]; rfl
  | succ n ih =>
      cases text with
      | nil => rfl
      | cons c rest =>
          have hcut := nextPiece_cut (u := u) c rest
          have hshorter := hcut.shorter
          rw [List.length_cons] at h hshorter
          rw [piecesFrom_succ, List.flatMap_cons, ih (by omega), hcut.whole]

/-- **The detection takes out the comments of a clean source.** -/
theorem stripped_of_clean (n : ℕ) {text : Text} (h : text.length ≤ n) (hclean : Clean (piecesFrom u n text)) :
    stripCppComments text = (piecesFrom u n text).flatMap Piece.visible := by
  induction n generalizing text with
  | zero => rw [List.length_eq_zero_iff.mp (Nat.le_zero.mp h)]; rfl
  | succ n ih =>
      cases text with
      | nil => rfl
      | cons c rest =>
          have hcut := nextPiece_cut (u := u) c rest
          have hshorter := hcut.shorter
          rw [List.length_cons] at h hshorter
          rw [piecesFrom_succ] at hclean ⊢
          obtain ⟨hpiece, hrest⟩ := hclean
          rw [piecesFrom_text n (by omega)] at hpiece
          rw [stripCppComments, hcut.stripped hpiece, List.flatMap_cons, ← ih (by omega) hrest]
          rfl

end KernelGym.DirectAllocations
