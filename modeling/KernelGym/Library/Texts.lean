import Mathlib

/-! Python's operations on texts whose answer depends on the character database: case folding with its final sigma,
white space, lines. The database is a table whose part for ASCII is fixed. -/

namespace KernelGym.Library

/-- Texts are compared character by character, and equal ones are the same text. -/
instance lawfulTexts : LawfulBEq (List Char) := inferInstance

def isAscii (text : List Char) : Bool := text.all fun c => c.toNat < 128

def asciiSpace (c : Char) : Bool := c = ' ' || (9 ≤ c.toNat && c.toNat ≤ 13) || (28 ≤ c.toNat && c.toNat ≤ 31)

/-- Letters, digits and the underscore. -/
def asciiWord (c : Char) : Bool := c.isAlphanum || c = '_'

def asciiIgnorable (c : Char) : Bool := c ∈ ['\'', '.', ':', '^', Char.ofNat 96]

def asciiDigit (c : Char) : Option ℕ := if c.isDigit then some (c.toNat - 48) else none

/-- What the character database says of each character. -/
structure Unicode where
  isSpace : Char → Bool
  /-- The value of a decimal digit. -/
  digitValue : Char → Option ℕ
  /-- Letters, numbers and the underscore. -/
  isWord : Char → Bool
  /-- The other cases of a letter. -/
  variants : Char → List Char
  /-- The full lower-case mapping, without its context. -/
  lowerFull : Char → List Char
  isCased : Char → Bool
  isCaseIgnorable : Char → Bool
  isWord_of_variants : ∀ c, ∀ c' ∈ variants c, isWord c = true ∧ isWord c' = true
  isWord_of_isSpace : ∀ c, isSpace c = true → isWord c = false
  isSpace_of_digitValue : ∀ c, (digitValue c).isSome = true → isSpace c = false
  isSpace_ascii : ∀ c : Char, c.toNat < 128 → isSpace c = asciiSpace c
  digitValue_ascii : ∀ c : Char, c.toNat < 128 → digitValue c = asciiDigit c
  isWord_ascii : ∀ c : Char, c.toNat < 128 → isWord c = asciiWord c
  lowerFull_ascii : ∀ c : Char, c.toNat < 128 → lowerFull c = [c.toLower]
  isCased_ascii : ∀ c : Char, c.toNat < 128 → isCased c = c.isAlpha
  isCaseIgnorable_ascii : ∀ c : Char, c.toNat < 128 → isCaseIgnorable c = asciiIgnorable c

theorem isUpper_toUpper {c : Char} (h : c.isLower = true) : c.toUpper.isUpper = true := by
  simp only [Char.isLower, Char.toUpper, Char.isUpper, ge_iff_le, decide_eq_true_eq, Bool.and_eq_true] at *
  grind

theorem isLower_toLower {c : Char} (h : c.isUpper = true) : c.toLower.isLower = true := by
  simp only [Char.isLower, Char.toLower, Char.isUpper, ge_iff_le, decide_eq_true_eq, Bool.and_eq_true] at *
  grind [UInt32.toNat_add]

theorem asciiWord_of_asciiSpace {c : Char} (hc : asciiSpace c = true) : asciiWord c = false := by
  have hle : c.toNat ≤ 32 := by
    simp only [asciiSpace, Bool.or_eq_true, Bool.and_eq_true, decide_eq_true_eq] at hc
    rcases hc with (rfl | ⟨-, h⟩) | ⟨-, h⟩
    · decide
    · omega
    · omega
  have hval : c.val.toNat ≤ 32 := hle
  have hne : c ≠ '_' := by
    rintro rfl
    exact absurd hle (by decide)
  simp only [asciiWord, Char.isAlphanum, Char.isAlpha, Char.isUpper, Char.isLower, Char.isDigit]
  simp [UInt32.le_iff_toNat_le, hne]
  omega

theorem asciiSpace_of_asciiDigit {c : Char} (h : (asciiDigit c).isSome = true) : asciiSpace c = false := by
  rw [Bool.eq_false_iff]
  intro hspace
  have hword := asciiWord_of_asciiSpace hspace
  have hdigit : c.isDigit = true := by
    unfold asciiDigit at h
    split_ifs at h with hdigit
    · exact hdigit
    · exact absurd h Bool.false_ne_true
  simp [asciiWord, Char.isAlphanum, hdigit] at hword

namespace Unicode

/-- The tables of a text without other letters than those of ASCII. -/
def ascii : Unicode where
  isSpace := asciiSpace
  digitValue := asciiDigit
  isWord := asciiWord
  variants c := if c.isLower then [c.toUpper] else if c.isUpper then [c.toLower] else []
  lowerFull c := [c.toLower]
  isCased := Char.isAlpha
  isCaseIgnorable := asciiIgnorable
  isWord_of_variants := by
    intro c c' hc
    split_ifs at hc with hl hu
    · rw [List.mem_singleton.mp hc]
      simp [asciiWord, Char.isAlphanum, Char.isAlpha, hl, isUpper_toUpper hl]
    · rw [List.mem_singleton.mp hc]
      simp [asciiWord, Char.isAlphanum, Char.isAlpha, hu, isLower_toLower hu]
    · exact absurd hc List.not_mem_nil
  isWord_of_isSpace _ := asciiWord_of_asciiSpace
  isSpace_of_digitValue _ := asciiSpace_of_asciiDigit
  isSpace_ascii _ _ := rfl
  digitValue_ascii _ _ := rfl
  isWord_ascii _ _ := rfl
  lowerFull_ascii _ _ := rfl
  isCased_ascii _ _ := rfl
  isCaseIgnorable_ascii _ _ := rfl

variable (u : Unicode)

def isDigit (c : Char) : Bool := (u.digitValue c).isSome

/-! ### Lower case -/

def capitalSigma : Char := Char.ofNat 0x3a3

/-- Whether a cased letter comes first when case-ignorable characters are skipped. -/
def meetsCased (text : List Char) : Bool := (text.dropWhile u.isCaseIgnorable).head?.any u.isCased

/-- The lower case of one character between what comes before it, the nearest first, and what follows. -/
def lowerAt (before : List Char) (c : Char) (rest : List Char) : List Char :=
  if c = capitalSigma then [Char.ofNat (if u.meetsCased before && !u.meetsCased rest then 0x3c2 else 0x3c3)]
  else u.lowerFull c

/-- The lower case of a text between what comes before it, the nearest first, and what follows. -/
def lowerIn (before after : List Char) : List Char → List Char
  | [] => []
  | c :: rest => u.lowerAt before c (rest ++ after) ++ lowerIn (c :: before) after rest

/-- `str.lower` -/
def lower (text : List Char) : List Char := u.lowerIn [] [] text

/-! ### White space and lines -/

/-- `str.rstrip` -/
def rstrip (text : List Char) : List Char := text.rdropWhile u.isSpace

/-- `str.lstrip` -/
def lstrip (text : List Char) : List Char := text.dropWhile u.isSpace

/-- `str.strip` -/
def strip (text : List Char) : List Char := u.rstrip (u.lstrip text)

/-- The value of digits, with underscores between them. -/
def digitsFrom (value : ℕ) (afterDigit : Bool) : List Char → Option ℕ
  | [] => if afterDigit then some value else none
  | c :: rest =>
    match u.digitValue c with
    | some d => digitsFrom (10 * value + d) true rest
    | none => if c = '_' && afterDigit then digitsFrom value false rest else none

/-- `sys.int_info.default_max_str_digits` -/
def maxStrDigits : ℕ := 4300

/-- The value of at most `maxStrDigits` digits, with underscores between them. -/
def limitedDigits (text : List Char) : Option ℕ :=
  if maxStrDigits < (text.filter (· ≠ '_')).length then none else u.digitsFrom 0 false text

/-- `int(text)`, without a value where it raises `ValueError`. -/
def int (text : List Char) : Option ℤ :=
  match u.strip text with
  | '+' :: rest => (u.limitedDigits rest).map Int.ofNat
  | '-' :: rest => (u.limitedDigits rest).map fun n => -Int.ofNat n
  | rest => (u.limitedDigits rest).map Int.ofNat

section

variable {u} {text : List Char}

theorem digitsFrom_isSome (h : ∀ c ∈ text, u.isDigit c = true) (value : ℕ) {afterDigit : Bool}
    (hsome : text ≠ [] ∨ afterDigit = true) : (u.digitsFrom value afterDigit text).isSome = true := by
  induction text generalizing value afterDigit with
  | nil =>
      rw [hsome.resolve_left (not_not.mpr rfl)]
      rfl
  | cons c rest ih =>
      obtain ⟨d, hd⟩ := Option.isSome_iff_exists.mp (h c List.mem_cons_self)
      rw [digitsFrom, hd]
      exact ih (fun c' hc' => h c' (List.mem_cons_of_mem c hc')) _ (.inr rfl)

theorem ne_of_isDigit {c d : Char} (h : u.isDigit c = true) (hascii : d.toNat < 128) (hd : asciiDigit d = none) :
    c ≠ d := by
  rintro rfl
  rw [isDigit, u.digitValue_ascii c hascii, hd] at h
  exact absurd h Bool.false_ne_true

theorem strip_digits (h : ∀ c ∈ text, u.isDigit c = true) : u.strip text = text := by
  have hspace {c : Char} (hc : c ∈ text) : u.isSpace c = false := u.isSpace_of_digitValue c (h c hc)
  have hleft : u.lstrip text = text := by
    cases text with
    | nil => rfl
    | cons c rest => exact List.dropWhile_cons_of_neg (by simp [hspace List.mem_cons_self])
  rw [strip, hleft, rstrip, List.rdropWhile_eq_self_iff]
  exact fun hne => by simp [hspace (List.getLast_mem hne)]

/-- A number is read if it has no more digits than the limit. -/
theorem int_digits (hne : text ≠ []) (h : ∀ c ∈ text, u.isDigit c = true) :
    (u.int text).isSome = true ↔ text.length ≤ maxStrDigits := by
  have hfilter : text.filter (· ≠ '_') = text :=
    List.filter_eq_self.mpr fun c hc => decide_eq_true (ne_of_isDigit (h c hc) (by decide) (by decide))
  have hint : u.int text = (u.limitedDigits text).map Int.ofNat := by
    rw [int, strip_digits h]
    split
    · exact absurd rfl (ne_of_isDigit (h '+' List.mem_cons_self) (by decide) (by decide))
    · exact absurd rfl (ne_of_isDigit (h '-' List.mem_cons_self) (by decide) (by decide))
    · rfl
  rw [hint, Option.isSome_map, limitedDigits, hfilter]
  split_ifs with hlong
  · simpa using hlong
  · simpa [digitsFrom_isSome h 0 (.inl hne)] using hlong

end

end Unicode

/-- The characters at which `str.splitlines` breaks a line. -/
def lineBreaks : List Char :=
  ['\n', '\r', Char.ofNat 0x0b, Char.ofNat 0x0c, Char.ofNat 0x1c, Char.ofNat 0x1d, Char.ofNat 0x1e, Char.ofNat 0x85,
    Char.ofNat 0x2028, Char.ofNat 0x2029]

/-- The lines of a text, with the characters of the current one in reverse. -/
def splitLinesFrom (current : List Char) : List Char → List (List Char)
  | [] => if current = [] then [] else [current.reverse]
  | '\r' :: '\n' :: rest => current.reverse :: splitLinesFrom [] rest
  | c :: rest => if c ∈ lineBreaks then current.reverse :: splitLinesFrom [] rest else splitLinesFrom (c :: current) rest

section

variable {rest current : List Char} {c : Char}

theorem splitLinesFrom_plain (h : c ∉ lineBreaks) :
    splitLinesFrom current (c :: rest) = splitLinesFrom (c :: current) rest := by
  have hreturn : c ≠ '\r' := fun hc => h (hc ▸ by decide)
  rw [splitLinesFrom.eq_def]
  split
  · rename_i heq
    exact absurd heq (List.cons_ne_nil _ _)
  · rename_i heq
    exact absurd (List.cons.inj heq).1 hreturn
  · rename_i heq
    obtain ⟨rfl, rfl⟩ := List.cons.inj heq
    rw [if_neg h]

theorem splitLinesFrom_crlf :
    splitLinesFrom current ('\r' :: '\n' :: rest) = current.reverse :: splitLinesFrom [] rest := by
  rw [splitLinesFrom]

end

/-- `str.splitlines` -/
def splitLines (text : List Char) : List (List Char) := splitLinesFrom [] text

namespace Unicode

variable {u : Unicode} {before after text rest : List Char} {c : Char}

theorem ne_capitalSigma (h : c.toNat < 128) : c ≠ capitalSigma := by
  rintro rfl
  exact absurd h (by decide +kernel)

theorem lowerAt_ascii (h : c.toNat < 128) : u.lowerAt before c rest = [c.toLower] := by
  rw [lowerAt, if_neg (ne_capitalSigma h), u.lowerFull_ascii c h]

theorem lowerIn_append : u.lowerIn before after (text ++ rest) =
    u.lowerIn before (rest ++ after) text ++ u.lowerIn (text.reverse ++ before) after rest := by
  induction text generalizing before with
  | nil => rfl
  | cons c text ih =>
      rw [List.cons_append, lowerIn, lowerIn, ih, List.append_assoc, List.append_assoc, List.reverse_cons,
        List.append_assoc, List.singleton_append]

theorem lowerIn_ascii (h : ∀ c ∈ text, c.toNat < 128) : u.lowerIn before after text = text.map Char.toLower := by
  induction text generalizing before with
  | nil => rfl
  | cons c rest ih =>
      rw [lowerIn, lowerAt_ascii (h c List.mem_cons_self), ih fun c' hc' => h c' (List.mem_cons_of_mem c hc')]
      rfl

/-- ASCII is lowered character by character. -/
theorem lower_ascii (h : isAscii text = true) : u.lower text = text.map Char.toLower :=
  lowerIn_ascii fun c hc => of_decide_eq_true (List.all_eq_true.mp h c hc)

/-- A text without white space is not stripped. -/
theorem strip_of_forall (h : ∀ c ∈ text, u.isSpace c = false) : u.strip text = text := by
  have hl : u.lstrip text = text := by
    cases text with
    | nil => rfl
    | cons c rest => exact List.dropWhile_cons_of_neg (by simp [h c List.mem_cons_self])
  rw [strip, hl, rstrip, List.rdropWhile_eq_self_iff]
  exact fun hne => by simp [h _ (List.getLast_mem hne)]

theorem strip_within : u.strip text <:+: text :=
  (List.rdropWhile_prefix _ _).isInfix.trans (List.dropWhile_suffix _).isInfix

theorem strip_ne_nil (h : ∃ c ∈ text, u.isSpace c = false) : u.strip text ≠ [] := by
  obtain ⟨c, hc, hspace⟩ := h
  intro hnil
  have hmem : c ∈ u.lstrip text := by
    rw [← List.takeWhile_append_dropWhile (p := u.isSpace) (l := text)] at hc
    rcases List.mem_append.mp hc with htaken | hdropped
    · have htrue := List.mem_takeWhile_imp htaken
      rw [hspace] at htrue
      exact absurd htrue Bool.false_ne_true
    · exact hdropped
  have hall := List.rdropWhile_eq_nil_iff.mp hnil c hmem
  rw [hspace] at hall
  exact Bool.false_ne_true hall

/-! ### Identifiers -/

/-- A character that is not skipped hides what lies behind it. -/
theorem meetsCased_append_cons (hc : u.isCaseIgnorable c = false) (text rest : List Char) :
    u.meetsCased (text ++ c :: rest) = u.meetsCased (text ++ [c]) := by
  unfold meetsCased
  induction text with
  | nil => simp [hc]
  | cons x text ih =>
      rw [List.cons_append, List.cons_append, List.dropWhile_cons, List.dropWhile_cons]
      split_ifs
      · exact ih
      · rfl

/-- What ends an identifier: nothing, or a character that is neither skipped nor cased. -/
def Ends (u : Unicode) (after : List Char) : Prop :=
  ∀ c ∈ after.head?, u.isCaseIgnorable c = false ∧ u.isCased c = false

theorem meetsCased_append_ends (h : u.Ends after) (text : List Char) :
    u.meetsCased (text ++ after) = u.meetsCased text := by
  unfold meetsCased
  induction text with
  | nil =>
      cases after with
      | nil => rfl
      | cons c after =>
          obtain ⟨hc, hcased⟩ := h c rfl
          simp [hc, hcased]
  | cons x text ih =>
      rw [List.cons_append, List.dropWhile_cons, List.dropWhile_cons]
      split_ifs
      · exact ih
      · rfl

/-- Behind a character that is not skipped, the context outside of a text does not count. -/
theorem lowerIn_of_ends (hc : u.isCaseIgnorable c = false) (h : u.Ends after) (text inner outer : List Char) :
    u.lowerIn (inner ++ c :: outer) after text = u.lowerIn (inner ++ [c]) [] text := by
  induction text generalizing inner with
  | nil => rfl
  | cons x text ih =>
      have hx : u.lowerAt (inner ++ c :: outer) x (text ++ after) = u.lowerAt (inner ++ [c]) x (text ++ []) := by
        rw [lowerAt, lowerAt, meetsCased_append_cons hc, meetsCased_append_ends h, List.append_nil]
      rw [lowerIn, lowerIn, hx]
      exact congrArg _ (ih (x :: inner))

/-- **An identifier keeps its lower case inside a text.** -/
theorem lower_infix (hc : c.toNat < 128) (hword : asciiWord c = true) (h : u.Ends after) (text : List Char) :
    u.lower (c :: text) <:+: u.lower (before ++ c :: text ++ after) := by
  have hskip : u.isCaseIgnorable c = false := by
    rw [u.isCaseIgnorable_ascii c hc]
    refine decide_eq_false fun hmem => ?_
    have hnone : ['\'', '.', ':', '^', Char.ofNat 96].all (fun x => !asciiWord x) = true := by decide +kernel
    have hc := List.all_eq_true.mp hnone c hmem
    rw [hword] at hc
    exact Bool.false_ne_true hc
  have hsame : u.lowerIn before.reverse after (c :: text) = u.lower (c :: text) := by
    rw [lower, lowerIn, lowerIn, lowerAt_ascii hc, lowerAt_ascii hc]
    exact congrArg _ (lowerIn_of_ends hskip h text [] before.reverse)
  refine ⟨u.lowerIn [] (c :: text ++ after) before, u.lowerIn ((before ++ c :: text).reverse) [] after, ?_⟩
  rw [← hsame, lower, lowerIn_append, lowerIn_append]
  simp

end Unicode

/-! ### Lines -/

section

variable {line rest current text blanks : List Char} {c : Char}

theorem splitLinesFrom_line (h : ∀ c ∈ line, c ∉ lineBreaks) :
    splitLinesFrom current (line ++ rest) = splitLinesFrom (line.reverse ++ current) rest := by
  induction line generalizing current with
  | nil => rfl
  | cons c line ih =>
      rw [List.cons_append, splitLinesFrom_plain (h c List.mem_cons_self),
        ih fun c' hc' => h c' (List.mem_cons_of_mem c hc')]
      simp

theorem splitLinesFrom_break (hbreak : c ∈ lineBreaks) (hnext : c = '\r' → rest.head? ≠ some '\n') :
    splitLinesFrom current (c :: rest) = current.reverse :: splitLinesFrom [] rest := by
  rw [splitLinesFrom.eq_def]
  split
  · rename_i heq
    exact absurd heq (List.cons_ne_nil _ _)
  · rename_i heq
    obtain ⟨hc, hrest⟩ := List.cons.inj heq
    exact absurd (by rw [hrest]; rfl) (hnext hc)
  · rename_i heq
    obtain ⟨rfl, rfl⟩ := List.cons.inj heq
    rw [if_pos hbreak]

theorem splitLinesFrom_newline : splitLinesFrom current ('\n' :: rest) = current.reverse :: splitLinesFrom [] rest :=
  splitLinesFrom_break (by decide) fun h => absurd h (by decide)

theorem splitLines_line_newline (h : ∀ c ∈ line, c ∉ lineBreaks) :
    splitLines (line ++ '\n' :: rest) = line :: splitLines rest := by
  rw [splitLines, splitLinesFrom_line h, splitLinesFrom_newline]
  simp [splitLines]

theorem splitLines_line_crlf (h : ∀ c ∈ line, c ∉ lineBreaks) :
    splitLines (line ++ '\r' :: '\n' :: rest) = line :: splitLines rest := by
  rw [splitLines, splitLinesFrom_line h, splitLinesFrom_crlf]
  simp [splitLines]

theorem splitLines_line (h : ∀ c ∈ line, c ∉ lineBreaks) (hne : line ≠ []) : splitLines line = [line] := by
  have hline : splitLinesFrom [] (line ++ []) = splitLinesFrom (line.reverse ++ []) [] := splitLinesFrom_line h
  rw [List.append_nil, List.append_nil] at hline
  rw [splitLines, hline, splitLinesFrom, if_neg (by simpa using hne)]
  simp

/-- No line holds the end of a line. -/
theorem notMem_lineBreaks_of_mem (hline : line ∈ splitLinesFrom current text) (hcurrent : ∀ c ∈ current, c ∉ lineBreaks) :
    ∀ c ∈ line, c ∉ lineBreaks := by
  fun_induction splitLinesFrom current text with
  | case1 => exact absurd hline List.not_mem_nil
  | case2 current hne =>
      rw [List.mem_singleton.mp hline]
      exact fun c hc => hcurrent c (List.mem_reverse.mp hc)
  | case3 current rest ih =>
      rcases List.mem_cons.mp hline with rfl | hlater
      · exact fun c hc => hcurrent c (List.mem_reverse.mp hc)
      · exact ih hlater (by simp)
  | case4 current c rest hne hbreak ih =>
      rcases List.mem_cons.mp hline with rfl | hlater
      · exact fun c hc => hcurrent c (List.mem_reverse.mp hc)
      · exact ih hlater (by simp)
  | case5 current c rest hne hplain ih =>
      exact ih hline (List.forall_mem_cons.mpr ⟨hplain, hcurrent⟩)

theorem head_ne_newline (h : ∀ rest', c = '\r' → rest = '\n' :: rest' → False) : c = '\r' → rest.head? ≠ some '\n' := by
  intro hreturn hhead
  obtain ⟨rest', hrest'⟩ := List.head?_eq_some_iff.mp hhead
  exact h rest' hreturn hrest'

/-- A line end behind a text ends its last line, or it adds an empty one. -/
theorem splitLinesFrom_concat_break (current text : List Char) (h : c = '\n' ∨ c = '\r') :
    ∃ empty, splitLinesFrom current (text ++ [c]) = splitLinesFrom current text ++ empty ∧ ∀ line ∈ empty, line = [] := by
  have hbreak : c ∈ lineBreaks := by rcases h with rfl | rfl <;> decide
  have hempty : ∀ line ∈ [([] : List Char)], line = [] := fun line hline => List.mem_singleton.mp hline
  induction current, text using splitLinesFrom.induct with
  | case1 => exact ⟨[[]], splitLinesFrom_break hbreak (by simp), hempty⟩
  | case2 current hcurrent =>
      refine ⟨[], ?_, fun _ h => absurd h List.not_mem_nil⟩
      rw [List.nil_append, splitLinesFrom_break hbreak (by simp), splitLinesFrom.eq_1 current, if_neg hcurrent]
      rfl
  | case3 current rest ih =>
      obtain ⟨empty, hsplit, hall⟩ := ih
      refine ⟨empty, ?_, hall⟩
      rw [List.cons_append, List.cons_append, splitLinesFrom_crlf, splitLinesFrom_crlf, hsplit]
      rfl
  | case4 current d rest hcrlf hd ih =>
      have hnext := head_ne_newline hcrlf
      rw [splitLinesFrom_break hd hnext]
      by_cases hlast : d = '\r' ∧ (rest ++ [c]).head? = some '\n'
      · obtain ⟨rfl, hhead⟩ := hlast
        cases rest with
        | nil =>
            obtain rfl : c = '\n' := Option.some.inj hhead
            refine ⟨[], ?_, fun _ h => absurd h List.not_mem_nil⟩
            rw [List.cons_append, List.nil_append, splitLinesFrom_crlf]
            rfl
        | cons x rest => exact absurd hhead (hnext rfl)
      · obtain ⟨empty, hsplit, hall⟩ := ih
        refine ⟨empty, ?_, hall⟩
        rw [List.cons_append, splitLinesFrom_break hd fun hd hhead => hlast ⟨hd, hhead⟩, hsplit]
        rfl
  | case5 current d rest hcrlf hd ih =>
      obtain ⟨empty, hsplit, hall⟩ := ih
      refine ⟨empty, ?_, hall⟩
      rw [List.cons_append, splitLinesFrom_plain hd, splitLinesFrom_plain hd, hsplit]

/-- What stands behind the last line break. -/
def lastLine (text : List Char) : List Char := text.rtakeWhile (· ∉ lineBreaks)

theorem lastLine_append_break (h : c ∈ lineBreaks) (front : List Char) : lastLine (front ++ c :: text) = lastLine text := by
  induction text using List.reverseRecOn with
  | nil =>
      rw [lastLine, List.rtakeWhile_concat_neg _ _ _ (by simpa using h)]
      rfl
  | append_singleton text x ih =>
      rw [← List.cons_append, ← List.append_assoc, lastLine, List.rtakeWhile_concat, lastLine, List.rtakeWhile_concat]
      split_ifs
      · exact congrArg (· ++ [x]) ih
      · rfl

theorem lastLine_plain (h : ∀ c ∈ text, c ∉ lineBreaks) : lastLine text = text :=
  List.rtakeWhile_eq_self_iff.mpr fun c hc => decide_eq_true (h c hc)

theorem lastLine_append_plain (h : ∀ c ∈ rest, c ∉ lineBreaks) : lastLine (text ++ rest) = lastLine text ++ rest := by
  induction rest using List.reverseRecOn with
  | nil => rw [List.append_nil, List.append_nil]
  | append_singleton rest x ih =>
      have hx : x ∉ lineBreaks := h x (List.mem_append_right _ (List.mem_singleton.mpr rfl))
      rw [← List.append_assoc, lastLine, List.rtakeWhile_concat, if_pos (decide_eq_true hx), ← List.append_assoc]
      exact congrArg (· ++ [x]) (ih fun c hc => h c (List.mem_append_left _ hc))

/-- A character behind a text stands in its last line. -/
theorem splitLinesFrom_concat_plain (current text : List Char) (h : c ∉ lineBreaks)
    (hcurrent : ∀ x ∈ current, x ∉ lineBreaks) :
    ∃ front, splitLinesFrom current (text ++ [c]) = front ++ [lastLine (current.reverse ++ text) ++ [c]] ∧
      splitLinesFrom current text =
        front ++ if lastLine (current.reverse ++ text) = [] then [] else [lastLine (current.reverse ++ text)] := by
  induction current, text using splitLinesFrom.induct with
  | case1 =>
      refine ⟨[], ?_, rfl⟩
      rw [List.nil_append, splitLinesFrom_plain h]
      rfl
  | case2 current hne =>
      rw [List.append_nil, lastLine_plain fun x hx => hcurrent x (List.mem_reverse.mp hx)]
      refine ⟨[], ?_, ?_⟩
      · rw [List.nil_append, splitLinesFrom_plain h, splitLinesFrom, if_neg (List.cons_ne_nil _ _), List.reverse_cons]
        rfl
      · rw [splitLinesFrom, if_neg hne, if_neg (by simpa using hne)]
        rfl
  | case3 current rest ih =>
      obtain ⟨front, hlonger, hsplit⟩ := ih (by simp)
      have hlast : lastLine (current.reverse ++ '\r' :: '\n' :: rest) = lastLine rest := by
        rw [lastLine_append_break (by decide)]
        exact lastLine_append_break (by decide) []
      rw [hlast]
      refine ⟨current.reverse :: front, ?_, ?_⟩
      · rw [List.cons_append, List.cons_append, splitLinesFrom_crlf, hlonger]
        rfl
      · rw [splitLinesFrom_crlf, hsplit]
        rfl
  | case4 current d rest hcrlf hd ih =>
      have hnext := head_ne_newline hcrlf
      obtain ⟨front, hlonger, hsplit⟩ := ih (by simp)
      have hc : c ≠ '\n' := fun hc => h (hc ▸ by decide)
      rw [lastLine_append_break hd]
      refine ⟨current.reverse :: front, ?_, ?_⟩
      · rw [List.cons_append, splitLinesFrom_break hd, hlonger]
        · rfl
        · intro hreturn hhead
          cases rest with
          | nil => exact hc (Option.some.inj hhead)
          | cons x rest => exact hnext hreturn hhead
      · rw [splitLinesFrom_break hd hnext, hsplit]
        rfl
  | case5 current d rest hcrlf hd ih =>
      obtain ⟨front, hlonger, hsplit⟩ := ih (List.forall_mem_cons.mpr ⟨hd, hcurrent⟩)
      have hsame : (d :: current).reverse ++ rest = current.reverse ++ d :: rest := by simp
      rw [hsame] at hlonger hsplit
      refine ⟨front, ?_, ?_⟩
      · rw [List.cons_append, splitLinesFrom_plain hd, hlonger]
      · rw [splitLinesFrom_plain hd, hsplit]

/-- A character in front of a text stands in its first line. -/
theorem splitLinesFrom_concat_current (current : List Char) (c : Char) (text : List Char) :
    ∃ line tail, splitLinesFrom (current ++ [c]) text = (c :: line) :: tail ∧ line <+: current.reverse ++ text ∧
      (splitLinesFrom current text = line :: tail ∨ line = [] ∧ tail = [] ∧ splitLinesFrom current text = []) := by
  induction current, text using splitLinesFrom.induct with
  | case1 => exact ⟨[], [], rfl, List.nil_prefix, .inr ⟨rfl, rfl, rfl⟩⟩
  | case2 current hcurrent =>
      refine ⟨current.reverse, [], ?_, List.prefix_append _ _, .inl ?_⟩
      · simp [splitLinesFrom]
      · rw [splitLinesFrom, if_neg hcurrent]
  | case3 current rest ih =>
      refine ⟨current.reverse, splitLinesFrom [] rest, ?_, List.prefix_append _ _, .inl splitLinesFrom_crlf⟩
      rw [splitLinesFrom_crlf, List.reverse_append]
      rfl
  | case4 current d rest hcrlf hd ih =>
      have hnext := head_ne_newline hcrlf
      refine ⟨current.reverse, splitLinesFrom [] rest, ?_, List.prefix_append _ _, .inl (splitLinesFrom_break hd hnext)⟩
      rw [splitLinesFrom_break hd hnext, List.reverse_append]
      rfl
  | case5 current d rest hcrlf hd ih =>
      obtain ⟨line, tail, hfirst, hprefix, hsplit⟩ := ih
      rw [splitLinesFrom_plain hd, splitLinesFrom_plain hd]
      exact ⟨line, tail, hfirst, by simpa using hprefix, hsplit⟩

end

end KernelGym.Library
