import KernelGym.Library.Numerals

/-! JSON texts as Python's `json.loads` reads them: the tokens of a text, and the value that they make. An integer with
too many digits and a nesting that is too deep are refused with exceptions of their own, in the order in which the text
is read. White space between tokens does not count, and a line never ends inside a token. -/

namespace KernelGym.Library

/-- A decoded value; of equal keys of an object the first entry counts. -/
inductive JsonValue
  | null
  | bool (b : Bool)
  | integer (n : ℤ)
  | number (x : Extended)
  | text (s : List Char)
  | array (items : List JsonValue)
  | object (fields : List (List Char × JsonValue))

namespace JsonReader

/-- Why a text is not read: it is no JSON text, an integer has too many digits, or an array or an object is nested too
deeply. -/
inductive LoadsError
  | decode
  | digits (n : ℕ)
  | nesting (object : Bool)

/-- How many digits an integer may have, and how deep values may be nested, where these are limited. -/
structure Limits where
  digits : Option ℕ := none
  nesting : Option ℕ := none

/-- A token; behind an integer with too many digits no other token is read. -/
inductive Token
  | mark (c : Char)
  | text (s : List Char)
  | literal (v : JsonValue)
  | long (digits : ℕ)

def isBlank (c : Char) : Bool := c ∈ [' ', '\t', '\n', '\r']

def isMark (c : Char) : Bool := c ∈ ['{', '}', '[', ']', ',', ':']

/-! ### Literals -/

/-- What may stand in a number or in one of the words. -/
def literalChars : List Char := "0123456789+-.eEINafilnrstuy".toList

def digitsOf (cs : List Char) : List Char × List Char := cs.span Char.isDigit

def digitsToNat (cs : List Char) : ℕ := cs.foldl (fun n c => 10 * n + (c.toNat - 48)) 0

/-- What stands behind the whole part of a number: the fraction and the exponent. -/
def readFraction : List Char → Option (List Char × List Char)
  | '.' :: rest => if (digitsOf rest).1 = [] then none else some (digitsOf rest)
  | rest => some ([], rest)

def readExponent : List Char → Option ℤ
  | [] => some 0
  | c :: rest =>
    if c = 'e' ∨ c = 'E' then
      let (negative, digits) := Unicode.splitSign rest
      if digits ≠ [] ∧ digits.all Char.isDigit then
        some (if negative then -(digitsToNat digits : ℤ) else digitsToNat digits)
      else none
    else none

/-- A number without its sign. -/
def readUnsigned (negative : Bool) (cs : List Char) : Option JsonValue :=
  let (whole, rest) := digitsOf cs
  if whole = [] ∨ (whole.head? = some '0' ∧ whole ≠ ['0']) then none
  else if rest = [] then some (.integer (if negative then -(digitsToNat whole : ℤ) else digitsToNat whole))
  else
    match readFraction rest with
    | none => none
    | some (fraction, rest) =>
      (readExponent rest).map fun exponent =>
        let value : ℚ := (digitsToNat whole + digitsToNat fraction / 10 ^ fraction.length) * (10 : ℚ) ^ exponent
        .number (nearestDouble (if negative then -value else value))

/-- A word or a number. -/
def readLiteral (cs : List Char) : Option JsonValue :=
  if cs.all (· ∈ literalChars) then
    if cs = "null".toList then some .null
    else if cs = "true".toList then some (.bool true)
    else if cs = "false".toList then some (.bool false)
    else if cs = "NaN".toList then some (.number .nan)
    else if cs = "Infinity".toList then some (.number (.infinite false))
    else if cs = "-Infinity".toList then some (.number (.infinite true))
    else
      match cs with
      | '-' :: rest => readUnsigned true rest
      | rest => readUnsigned false rest
  else none

/-- Whether a number goes on behind its whole part. -/
def goesOn : List Char → Bool
  | [] => false
  | '.' :: rest => (digitsOf rest).1 ≠ []
  | c :: rest => (c = 'e' || c = 'E') && (digitsOf (Unicode.splitSign rest).2).1 ≠ []

/-- The number of digits of an integer at the start of a text that has too many. -/
def longInteger (limit : Option ℕ) (cs : List Char) : Option ℕ :=
  let (whole, rest) :=
    match cs with
    | '-' :: rest => digitsOf rest
    | rest => digitsOf rest
  if limit.any (· < whole.length) && whole.head? ≠ some '0' && !goesOn rest then some whole.length else none

theorem longInteger_none (cs : List Char) : longInteger none cs = none := rfl

/-! ### Tokens -/

inductive Mode
  | between
  | atom (cs : List Char)
  | string (units : List ℕ)
  | escape (units : List ℕ)
  | hex (units : List ℕ) (digits : List Char)

structure Lexer where
  mode : Mode := .between
  tokens : List Token := []

def hexDigitValue (c : Char) : Option ℕ :=
  if c.isDigit then some (c.toNat - 48)
  else if 'a' ≤ c ∧ c ≤ 'f' then some (c.toNat - 87)
  else if 'A' ≤ c ∧ c ≤ 'F' then some (c.toNat - 55)
  else none

def escapes : List (Char × ℕ) :=
  [('"', 34), ('\\', 92), ('/', 47), ('b', 8), ('f', 12), ('n', 10), ('r', 13), ('t', 9)]

/-- The characters of a string; two escaped surrogates make one. -/
def combine : List ℕ → List Char
  | [] => []
  | [n] => [Char.ofNat n]
  | high :: low :: rest =>
    if 0xd800 ≤ high ∧ high < 0xdc00 ∧ 0xdc00 ≤ low ∧ low < 0xe000 then
      Char.ofNat (0x10000 + (high - 0xd800) * 0x400 + (low - 0xdc00)) :: combine rest
    else Char.ofNat high :: combine (low :: rest)

namespace Lexer

def push (s : Lexer) (token : Token) : Lexer := { mode := .between, tokens := s.tokens ++ [token] }

/-- The end of a word or a number; where reading stops, what was read before it remains. -/
def flush (limit : Option ℕ) (s : Lexer) (cs : List Char) : Except (List Token) Lexer :=
  match longInteger limit cs with
  | some n => .error (s.tokens ++ [.long n])
  | none =>
    match readLiteral cs with
    | some v => .ok (s.push (.literal v))
    | none => .error s.tokens

/-- A character that starts a token or stands for one. -/
def stepBetween (s : Lexer) (c : Char) : Lexer :=
  if isBlank c then { s with mode := .between }
  else if c = '"' then { s with mode := .string [] }
  else if isMark c then s.push (.mark c)
  else { s with mode := .atom [c] }

def step (limit : Option ℕ) (s : Lexer) (c : Char) : Except (List Token) Lexer :=
  match s.mode with
  | .between => .ok (s.stepBetween c)
  | .atom cs =>
    if isBlank c || c = '"' || isMark c then (s.flush limit cs).map fun s => s.stepBetween c
    else .ok { s with mode := .atom (cs ++ [c]) }
  | .string units =>
    if c = '"' then .ok (s.push (.text (combine units)))
    else if c = '\\' then .ok { s with mode := .escape units }
    else if c.toNat < 32 then .error s.tokens
    else .ok { s with mode := .string (units ++ [c.toNat]) }
  | .escape units =>
    if c = 'u' then .ok { s with mode := .hex units [] }
    else
      match escapes.lookup c with
      | some n => .ok { s with mode := .string (units ++ [n]) }
      | none => .error s.tokens
  | .hex units digits =>
    match hexDigitValue c with
    | none => .error s.tokens
    | some _ =>
      if digits.length = 3 then
        .ok { s with
          mode := .string (units ++ [(digits ++ [c]).foldl (fun n d => 16 * n + (hexDigitValue d).getD 0) 0]) }
      else .ok { s with mode := .hex units (digits ++ [c]) }

def finish (limit : Option ℕ) (s : Lexer) : Except (List Token) (List Token) :=
  match s.mode with
  | .between => .ok s.tokens
  | .atom cs => (s.flush limit cs).map Lexer.tokens
  | _ => .error s.tokens

/-- The tokens when a text follows. -/
def accepts (limit : Option ℕ) (s : Lexer) (text : List Char) : Except (List Token) (List Token) :=
  (text.foldlM (step limit) s).bind (finish limit)

end Lexer

/-! ### Values -/

mutual

/-- The value at the start of tokens, which may be nested as deep as `depth` says. -/
def parseValue : ℕ → Option ℕ → List Token → Except LoadsError (JsonValue × List Token)
  | 0, _, _ => .error .decode
  | _ + 1, _, .literal v :: rest => .ok (v, rest)
  | _ + 1, _, .text s :: rest => .ok (.text s, rest)
  | _ + 1, _, .long n :: _ => .error (.digits n)
  | n + 1, depth, .mark c :: rest =>
    if c = '[' then
      if depth = some 0 then .error (.nesting false)
      else
        match rest with
        | .mark ']' :: rest => .ok (.array [], rest)
        | rest => (parseItems n (depth.map Nat.pred) rest).map fun parsed => (.array parsed.1, parsed.2)
    else if c = '{' then
      if depth = some 0 then .error (.nesting true)
      else
        match rest with
        | .mark '}' :: rest => .ok (.object [], rest)
        | rest => (parseFields n (depth.map Nat.pred) rest).map fun parsed => (.object parsed.1.reverse, parsed.2)
    else .error .decode
  | _ + 1, _, [] => .error .decode

def parseItems : ℕ → Option ℕ → List Token → Except LoadsError (List JsonValue × List Token)
  | 0, _, _ => .error .decode
  | n + 1, depth, tokens =>
    match parseValue n depth tokens with
    | .ok (v, .mark ',' :: rest) => (parseItems n depth rest).map fun parsed => (v :: parsed.1, parsed.2)
    | .ok (v, .mark ']' :: rest) => .ok ([v], rest)
    | .ok _ => .error .decode
    | .error error => .error error

def parseFields : ℕ → Option ℕ → List Token → Except LoadsError (List (List Char × JsonValue) × List Token)
  | 0, _, _ => .error .decode
  | n + 1, depth, .text key :: .mark ':' :: tokens =>
    match parseValue n depth tokens with
    | .ok (v, .mark ',' :: rest) => (parseFields n depth rest).map fun parsed => ((key, v) :: parsed.1, parsed.2)
    | .ok (v, .mark '}' :: rest) => .ok ([(key, v)], rest)
    | .ok _ => .error .decode
    | .error error => .error error
  | _ + 1, _, _ => .error .decode

end

/-- The value of tokens; if the text went on to something that is no token, it is not read in any case. -/
def parse (nesting : Option ℕ) : Except (List Token) (List Token) → Except LoadsError JsonValue
  | .ok tokens =>
    match parseValue (2 * tokens.length + 2) nesting tokens with
    | .ok (v, []) => .ok v
    | .ok _ => .error .decode
    | .error error => .error error
  | .error tokens =>
    match parseValue (2 * tokens.length + 2) nesting tokens with
    | .ok _ => .error .decode
    | .error error => .error error

/-- `json.loads(text)` -/
def loads (limits : Limits) (text : List Char) : Except LoadsError JsonValue :=
  parse limits.nesting (({} : Lexer).accepts limits.digits text)

/-- What a text stands for, whatever the limits. -/
def value (text : List Char) : Option JsonValue := (loads {} text).toOption

theorem ok_of_bind {α β ε : Type} {x : Except ε α} {f : α → Except ε β} {b : β} (h : x.bind f = .ok b) :
    ∃ a, x = .ok a ∧ f a = .ok b := by
  cases x with
  | error e => exact nomatch h
  | ok a => exact ⟨a, rfl, h⟩

theorem ok_of_map {α β ε : Type} {x : Except ε α} {f : α → β} {b : β} (h : x.map f = .ok b) :
    ∃ a, x = .ok a ∧ f a = b := by
  cases x with
  | error e => exact nomatch h
  | ok a => exact ⟨a, rfl, Except.ok.inj h⟩

/-! ### White space -/

namespace Lexer

variable {limit : Option ℕ} {s s' : Lexer} {c : Char} {text rest : List Char}

theorem accepts_append :
    s.accepts limit (text ++ rest) = (text.foldlM (step limit) s).bind fun s => s.accepts limit rest := by
  rw [accepts, List.foldlM_append]
  cases text.foldlM (step limit) s <;> rfl

theorem accepts_cons : s.accepts limit (c :: rest) = (s.step limit c).bind fun s => s.accepts limit rest := by
  rw [accepts, List.foldlM_cons]
  cases s.step limit c <;> rfl

theorem accepts_concat :
    s.accepts limit (text ++ [c]) = (text.foldlM (step limit) s).bind fun s => (s.step limit c).bind (finish limit) := by
  rw [accepts_append]
  congr 1
  funext s
  rw [accepts_cons]
  rfl

theorem step_blank (hmode : s.mode = .between) (hc : isBlank c = true) : s.step limit c = .ok s := by
  rw [step, hmode]
  simp only [stepBetween, if_pos hc]
  rw [← hmode]

/-- A line break ends what token there is. -/
theorem mode_of_newline (h : s.step limit '\n' = .ok s') : s'.mode = .between := by
  unfold step at h
  cases hmode : s.mode with
  | between =>
      simp only [hmode, Except.ok.injEq] at h
      rw [← h]
      rfl
  | atom cs =>
      simp only [hmode] at h
      rw [if_pos (by decide)] at h
      obtain ⟨s₁, -, rfl⟩ := ok_of_map h
      rfl
  | string units =>
      simp only [hmode] at h
      rw [if_neg (by decide), if_neg (by decide), if_pos (by decide)] at h
      exact nomatch h
  | escape units =>
      simp only [hmode] at h
      rw [if_neg (by decide)] at h
      exact nomatch h
  | hex units digits =>
      simp only [hmode] at h
      exact nomatch h

/-- White space at the end does not count. -/
theorem finish_blank (hc : isBlank c = true) : (s.step limit c).bind (finish limit) = s.finish limit := by
  have hne : c ≠ '"' ∧ c ≠ '\\' ∧ c ≠ 'u' ∧ escapes.lookup c = none ∧ hexDigitValue c = none := by
    simp only [isBlank, decide_eq_true_eq, List.mem_cons, List.not_mem_nil, or_false] at hc
    rcases hc with rfl | rfl | rfl | rfl <;> decide
  unfold step finish
  cases hmode : s.mode with
  | between => simp [stepBetween, hc, Except.bind]
  | atom cs =>
      simp only [hc, Bool.true_or, if_true]
      cases hflush : s.flush limit cs with
      | error tokens => rfl
      | ok s₁ => simp [stepBetween, hc, Except.map, Except.bind]
  | string units =>
      simp only [if_neg hne.1, if_neg hne.2.1]
      split_ifs <;> rfl
  | escape units =>
      simp only [if_neg hne.2.2.1, hne.2.2.2.1]
      rfl
  | hex units digits =>
      simp only [hne.2.2.2.2]
      rfl

theorem accepts_concat_blank (limit : Option ℕ) (s : Lexer) (text : List Char) (hc : isBlank c = true) :
    s.accepts limit (text ++ [c]) = s.accepts limit text := by
  rw [accepts_concat]
  simp only [finish_blank hc]
  rfl

/-! ### Lines -/

/-- One line with its break. -/
def lineStep (limit : Option ℕ) (s : Lexer) (line : List Char) : Except (List Token) Lexer :=
  (line.foldlM (step limit) s).bind fun s => s.step limit '\n'

theorem lineStep_mode {line : List Char} (h : s.lineStep limit line = .ok s') : s'.mode = .between := by
  obtain ⟨s₁, -, hbreak⟩ := ok_of_bind h
  exact mode_of_newline hbreak

theorem accepts_lines (lines : List (List Char)) :
    s.accepts limit (List.intercalate ['\n'] lines) = (lines.foldlM (lineStep limit) s).bind (finish limit) := by
  induction lines generalizing s with
  | nil => rfl
  | cons line rest ih =>
      cases rest with
      | nil =>
          have hlast : List.intercalate ['\n'] [line] = line := by simp
          have hblank := accepts_concat_blank limit s line (by decide : isBlank '\n' = true)
          rw [hlast, ← hblank, accepts_concat, List.foldlM_cons, lineStep]
          cases line.foldlM (step limit) s with
          | error tokens => rfl
          | ok s₁ =>
              change (s₁.step limit '\n').bind (finish limit) =
                ((s₁.step limit '\n').bind fun s₂ => [].foldlM (lineStep limit) s₂).bind (finish limit)
              cases s₁.step limit '\n' <;> rfl
      | cons next rest =>
          have hsplit : List.intercalate ['\n'] (line :: next :: rest) =
              line ++ '\n' :: List.intercalate ['\n'] (next :: rest) := by
            simp [List.intercalate]
          rw [hsplit, accepts_append, List.foldlM_cons, lineStep]
          cases line.foldlM (step limit) s with
          | error tokens => rfl
          | ok s₁ =>
              change s₁.accepts limit ('\n' :: _) =
                ((s₁.step limit '\n').bind fun s₂ => (next :: rest).foldlM (lineStep limit) s₂).bind (finish limit)
              rw [accepts_cons]
              cases s₁.step limit '\n' with
              | error tokens => rfl
              | ok s₂ => exact ih

/-- Between tokens, white space at the start of a line does not count. -/
theorem lineStep_blanks (hmode : s.mode = .between) {blanks line : List Char} (h : ∀ c ∈ blanks, isBlank c = true) :
    s.lineStep limit (blanks ++ line) = s.lineStep limit line := by
  induction blanks with
  | nil => rfl
  | cons c rest ih =>
      have hrest := ih fun c' hc' => h c' (List.mem_cons_of_mem _ hc')
      rw [lineStep, List.cons_append, List.foldlM_cons, step_blank hmode (h c List.mem_cons_self)]
      exact hrest

theorem lineStep_nil (hmode : s.mode = .between) : s.lineStep limit [] = .ok s := step_blank hmode (by decide)

/-- Lines that differ in the white space before them, or in empty lines, are read alike. -/
theorem foldlM_lines {α : Type} {f g : α → Option (List Char)} (items : List α)
    (hfg : ∀ a ∈ items, ∀ {s : Lexer}, s.mode = .between →
      (f a).elim (.ok s) (s.lineStep limit) = (g a).elim (.ok s) (s.lineStep limit))
    (hmode : s.mode = .between) :
    (items.filterMap f).foldlM (lineStep limit) s = (items.filterMap g).foldlM (lineStep limit) s := by
  have hcons (h : α → Option (List Char)) (a : α) (rest : List α) (s : Lexer) :
      ((a :: rest).filterMap h).foldlM (lineStep limit) s =
        ((h a).elim (.ok s) (s.lineStep limit)).bind fun s => (rest.filterMap h).foldlM (lineStep limit) s := by
    cases ha : h a with
    | none =>
        rw [List.filterMap_cons_none ha]
        rfl
    | some line =>
        rw [List.filterMap_cons_some ha, List.foldlM_cons]
        rfl
  induction items generalizing s with
  | nil => rfl
  | cons a rest ih =>
      rw [hcons f, hcons g, hfg a List.mem_cons_self hmode]
      cases hstep : (g a).elim (.ok s) (s.lineStep limit) with
      | error tokens => rfl
      | ok s₁ =>
          refine ih (fun a' ha' => hfg a' (List.mem_cons_of_mem a ha')) ?_
          cases hg : g a with
          | none =>
              rw [hg, Option.elim_none, Except.ok.injEq] at hstep
              exact hstep ▸ hmode
          | some line =>
              rw [hg] at hstep
              exact lineStep_mode hstep

/-! ### Characters that are in no token -/

/-- A character that may stand in strings only. -/
def Foreign (c : Char) : Prop := isBlank c = false ∧ isMark c = false ∧ c ≠ '"' ∧ c ∉ literalChars

theorem flush_foreign (limit : Option ℕ) (s : Lexer) {cs : List Char} (hc : Foreign c) (h : c ∈ cs) :
    ∃ tokens, s.flush limit cs = .error tokens := by
  have hnone : readLiteral cs = none := if_neg fun hall => hc.2.2.2 (of_decide_eq_true (List.all_eq_true.mp hall c h))
  rw [flush, hnone]
  split <;> exact ⟨_, rfl⟩

/-- A literal with a foreign character never ends well. -/
theorem accepts_foreign {cs : List Char} (hc : Foreign c) (h : c ∈ cs) (hmode : s.mode = .atom cs) :
    ∃ tokens, s.accepts limit text = .error tokens := by
  induction text generalizing s cs with
  | nil =>
      obtain ⟨tokens, hflush⟩ := flush_foreign limit s hc h
      refine ⟨tokens, ?_⟩
      change s.finish limit = .error tokens
      simp only [finish, hmode, hflush]
      rfl
  | cons x rest ih =>
      obtain ⟨tokens, hflush⟩ := flush_foreign limit s hc h
      rw [accepts_cons, step, hmode]
      simp only [hflush]
      split_ifs with hend
      · exact ⟨tokens, rfl⟩
      · exact ih (s := { s with mode := .atom (cs ++ [x]) }) (List.mem_append_left _ h) rfl

theorem accepts_cons_foreign (limit : Option ℕ) (rest : List Char) (hc : Foreign c) (hmode : s.mode = .between) :
    ∃ tokens, s.accepts limit (c :: rest) = .error tokens := by
  rw [accepts_cons, step, hmode]
  simp only [stepBetween, hc.1, hc.2.1, if_neg hc.2.2.1, Bool.false_eq_true, if_false]
  exact accepts_foreign hc (List.mem_singleton.mpr rfl) rfl

theorem finish_foreign (limit : Option ℕ) (s : Lexer) (hc : Foreign c) :
    ∃ tokens, (s.step limit c).bind (finish limit) = .error tokens := by
  have hatom (cs : List Char) : ∃ tokens, ({ s with mode := .atom (cs ++ [c]) } : Lexer).finish limit = .error tokens := by
    obtain ⟨tokens, hflush⟩ := flush_foreign limit { s with mode := .atom (cs ++ [c]) } hc
      (List.mem_append_right cs (List.mem_singleton.mpr rfl))
    refine ⟨tokens, ?_⟩
    simp only [finish, hflush]
    rfl
  unfold step
  cases hmode : s.mode with
  | between =>
      simp only [stepBetween, hc.1, hc.2.1, if_neg hc.2.2.1, Bool.false_eq_true, if_false]
      exact hatom []
  | atom cs =>
      simp only [hc.1, hc.2.1, decide_eq_false hc.2.2.1, Bool.or_self, Bool.false_eq_true, if_false]
      exact hatom cs
  | string units =>
      simp only [if_neg hc.2.2.1]
      split_ifs <;> exact ⟨_, rfl⟩
  | escape units =>
      dsimp only
      split_ifs with hu
      · exact ⟨_, rfl⟩
      · cases escapes.lookup c <;> exact ⟨_, rfl⟩
  | hex units digits =>
      dsimp only
      cases hexDigitValue c with
      | none => exact ⟨_, rfl⟩
      | some n => split_ifs <;> exact ⟨_, rfl⟩

end Lexer

/-! ### White space around a text -/

section

variable {u : Unicode} {limits : Limits} {c : Char} {text : List Char} {v : JsonValue}

/-- White space that is not that of JSON is foreign. -/
theorem foreign_of_isSpace (hspace : u.isSpace c = true) (hblank : isBlank c = false) : Lexer.Foreign c := by
  have htokens : (literalChars ++ ['{', '}', '[', ']', ',', ':', '"']).all
      (fun c => decide (c.toNat < 128) && !asciiSpace c) = true := by decide +kernel
  have hnot : c ∉ literalChars ++ ['{', '}', '[', ']', ',', ':', '"'] := by
    intro hc
    have htoken := List.all_eq_true.mp htokens c hc
    simp only [Bool.and_eq_true, decide_eq_true_eq, Bool.not_eq_true'] at htoken
    rw [u.isSpace_ascii c htoken.1, htoken.2] at hspace
    exact Bool.false_ne_true hspace
  obtain ⟨hliteral, hmark⟩ := not_or.mp (fun h => hnot (List.mem_append.mpr h))
  have hquote : c ≠ '"' := by
    rintro rfl
    exact hmark (by decide)
  refine ⟨hblank, ?_, hquote, hliteral⟩
  simp only [isMark, decide_eq_false_iff_not]
  exact fun h => hmark (List.mem_append_left ['"'] h)

theorem accepts_of_loads (h : loads limits text = .ok v) :
    ∃ tokens, ({} : Lexer).accepts limits.digits text = .ok tokens := by
  rw [loads] at h
  cases haccepts : ({} : Lexer).accepts limits.digits text with
  | ok tokens => exact ⟨tokens, rfl⟩
  | error tokens =>
      rw [haccepts, parse] at h
      split at h <;> exact nomatch h

theorem accepts_lstrip {limit : Option ℕ} {tokens : List Token} (h : ({} : Lexer).accepts limit text = .ok tokens) :
    ({} : Lexer).accepts limit (u.lstrip text) = .ok tokens := by
  induction text with
  | nil => exact h
  | cons c rest ih =>
      rw [Unicode.lstrip, List.dropWhile_cons]
      split_ifs with hspace
      · cases hblank : isBlank c with
        | true =>
            rw [Lexer.accepts_cons, Lexer.step_blank rfl hblank] at h
            exact ih h
        | false =>
            obtain ⟨read, hread⟩ := Lexer.accepts_cons_foreign limit rest (foreign_of_isSpace hspace hblank)
              (rfl : ({} : Lexer).mode = .between)
            exact nomatch hread.symm.trans h
      · exact h

theorem accepts_rstrip {limit : Option ℕ} {tokens : List Token} (h : ({} : Lexer).accepts limit text = .ok tokens) :
    ({} : Lexer).accepts limit (u.rstrip text) = .ok tokens := by
  induction text using List.reverseRecOn with
  | nil => exact h
  | append_singleton text c ih =>
      rw [Unicode.rstrip, List.rdropWhile_concat]
      split_ifs with hspace
      · cases hblank : isBlank c with
        | true => exact ih (Lexer.accepts_concat_blank _ _ _ hblank ▸ h)
        | false =>
            rw [Lexer.accepts_concat] at h
            obtain ⟨s, -, hend⟩ := ok_of_bind h
            obtain ⟨read, hread⟩ := Lexer.finish_foreign limit s (foreign_of_isSpace hspace hblank)
            cases hread.symm.trans hend
      · exact h

/-- **The white space around a text does not count.** -/
theorem loads_strip (h : loads limits text = .ok v) : loads limits (u.strip text) = .ok v := by
  obtain ⟨tokens, htokens⟩ := accepts_of_loads h
  rw [loads, htokens] at h
  rw [loads, Unicode.strip, accepts_rstrip (accepts_lstrip htokens)]
  exact h

theorem loads_concat_blank (hc : isBlank c = true) : loads limits (text ++ [c]) = loads limits text := by
  rw [loads, loads, Lexer.accepts_concat_blank _ _ _ hc]

end

/-- **Lines that differ in the white space before them, or in empty lines, are read alike.** -/
theorem loads_lines {α : Type} {f g : α → Option (List Char)} (limits : Limits) (items : List α)
    (hfg : ∀ a ∈ items, ∀ {s : Lexer}, s.mode = .between →
      (f a).elim (.ok s) (s.lineStep limits.digits) = (g a).elim (.ok s) (s.lineStep limits.digits)) :
    loads limits (List.intercalate ['\n'] (items.filterMap f)) =
      loads limits (List.intercalate ['\n'] (items.filterMap g)) := by
  rw [loads, loads, Lexer.accepts_lines, Lexer.accepts_lines, Lexer.foldlM_lines items hfg rfl]

/-! ### Limits -/

/-- Two steps that agree where the first succeeds. -/
theorem foldlM_mono {α β ε : Type} {f g : β → α → Except ε β} (h : ∀ b a b', f b a = .ok b' → g b a = .ok b') {b b' : β}
    {items : List α} (hf : items.foldlM f b = .ok b') : items.foldlM g b = .ok b' := by
  induction items generalizing b with
  | nil => exact hf
  | cons a rest ih =>
      rw [List.foldlM_cons] at hf ⊢
      obtain ⟨b₁, hstep, hrest⟩ := ok_of_bind hf
      rw [h b a b₁ hstep]
      exact ih hrest

namespace Lexer

variable {limit : Option ℕ} {s s' : Lexer} {c : Char}

theorem flush_unlimited {cs : List Char} (h : s.flush limit cs = .ok s') : s.flush none cs = .ok s' := by
  rw [flush] at h ⊢
  rw [longInteger_none]
  cases hlong : longInteger limit cs with
  | some n =>
      rw [hlong] at h
      exact nomatch h
  | none =>
      rw [hlong] at h
      exact h

theorem step_unlimited (h : s.step limit c = .ok s') : s.step none c = .ok s' := by
  unfold step at h ⊢
  cases hmode : s.mode with
  | atom cs =>
      simp only [hmode] at h ⊢
      split_ifs at h ⊢ with hend
      · obtain ⟨s₁, hflush, rfl⟩ := ok_of_map h
        rw [flush_unlimited hflush]
        rfl
      · exact h
  | _ =>
      simp only [hmode] at h ⊢
      exact h

theorem accepts_unlimited {text : List Char} {tokens : List Token} (h : s.accepts limit text = .ok tokens) :
    s.accepts none text = .ok tokens := by
  obtain ⟨s₁, hrun, hfinish⟩ := ok_of_bind h
  rw [accepts, foldlM_mono (fun _ _ _ => step_unlimited) hrun]
  change s₁.finish none = .ok tokens
  unfold finish at hfinish ⊢
  cases hmode : s₁.mode with
  | atom cs =>
      simp only [hmode] at hfinish ⊢
      obtain ⟨s₂, hflush, rfl⟩ := ok_of_map hfinish
      rw [flush_unlimited hflush]
      rfl
  | _ =>
      simp only [hmode] at hfinish ⊢
      exact hfinish

end Lexer

theorem parse_unlimited (n : ℕ) :
    (∀ depth tokens parsed, parseValue n depth tokens = .ok parsed → parseValue n none tokens = .ok parsed) ∧
      (∀ depth tokens parsed, parseItems n depth tokens = .ok parsed → parseItems n none tokens = .ok parsed) ∧
      ∀ depth tokens parsed, parseFields n depth tokens = .ok parsed → parseFields n none tokens = .ok parsed := by
  induction n with
  | zero => exact ⟨fun _ _ _ h => (nomatch h), fun _ _ _ h => (nomatch h), fun _ _ _ h => (nomatch h)⟩
  | succ n ih =>
      obtain ⟨ihValue, ihItems, ihFields⟩ := ih
      refine ⟨fun depth tokens parsed h => ?_, fun depth tokens parsed h => ?_, fun depth tokens parsed h => ?_⟩
      · match tokens with
        | [] => exact nomatch h
        | .literal v :: rest => exact h
        | .text s :: rest => exact h
        | .long digits :: rest => exact nomatch h
        | .mark c :: rest =>
            unfold parseValue at h ⊢
            split_ifs at h with harray hdeep hobject hdeep
            · rw [if_pos harray, if_neg (Option.some_ne_none 0).symm]
              split at h
              · exact h
              · obtain ⟨items, hitems, rfl⟩ := ok_of_map h
                change (parseItems n none _).map _ = _
                rw [ihItems _ _ _ hitems]
                rfl
            · rw [if_neg harray, if_pos hobject, if_neg (Option.some_ne_none 0).symm]
              split at h
              · exact h
              · obtain ⟨fields, hfields, rfl⟩ := ok_of_map h
                change (parseFields n none _).map _ = _
                rw [ihFields _ _ _ hfields]
                rfl
      · rw [parseItems] at h ⊢
        cases hvalue : parseValue n depth tokens with
        | error e =>
            rw [hvalue] at h
            exact nomatch h
        | ok parsed =>
            rw [hvalue] at h
            rw [ihValue _ _ _ hvalue]
            split at h
            · obtain ⟨items, hitems, rfl⟩ := ok_of_map h
              rw [ihItems _ _ _ hitems]
              rfl
            · exact h
            · exact nomatch h
            · exact nomatch h
      · unfold parseFields at h ⊢
        split at h
        · exact nomatch ‹n + 1 = 0›
        · rename_i depth _ _ _ m key tokens hm
          obtain rfl := Nat.succ.inj hm
          cases hvalue : parseValue n depth tokens with
          | error e =>
              rw [hvalue] at h
              exact nomatch h
          | ok parsed =>
              rw [hvalue] at h
              rw [ihValue _ _ _ hvalue]
              split at h
              · obtain ⟨fields, hfields, rfl⟩ := ok_of_map h
                rw [ihFields _ _ _ hfields]
                rfl
              · exact h
              · exact nomatch h
              · exact nomatch h
        · exact nomatch h

/-- **What is read under limits is what the text stands for.** -/
theorem value_of_loads {limits : Limits} {text : List Char} {v : JsonValue} (h : loads limits text = .ok v) :
    value text = some v := by
  obtain ⟨tokens, htokens⟩ := accepts_of_loads h
  rw [loads, htokens] at h
  rw [value, loads, Lexer.accepts_unlimited htokens]
  unfold parse at h ⊢
  dsimp only at h ⊢
  split at h
  · rename_i hparse
    obtain rfl := Except.ok.inj h
    rw [(parse_unlimited _).1 _ _ _ hparse]
    rfl
  · exact nomatch h
  · exact nomatch h

theorem loads_of_value {text : List Char} {v : JsonValue} (h : value text = some v) : loads {} text = .ok v := by
  rw [value] at h
  cases hloads : loads {} text with
  | error e =>
      rw [hloads] at h
      exact nomatch h
  | ok v' =>
      rw [hloads] at h
      rw [Option.some.inj h]

/-! ### Fields of events -/

/-- A word that is no literal does not stand before a mark. -/
theorem accepts_word (limit : Option ℕ) {s : Lexer} (hmode : s.mode = .between) (rest : List Char) :
    ∃ tokens, s.accepts limit ("data:".toList ++ rest) = .error tokens := by
  have hsteps : "data".toList.foldlM (Lexer.step limit) s = .ok { s with mode := .atom "data".toList } := by
    have hfirst : s.step limit 'd' = .ok { s with mode := .atom ['d'] } := by
      rw [Lexer.step, hmode]
      rfl
    change (s.step limit 'd').bind _ = _
    rw [hfirst]
    rfl
  have hflush (s : Lexer) : s.flush limit "data".toList = .error s.tokens := by
    have hlong : longInteger limit "data".toList = none := by
      cases limit with
      | none => rfl
      | some n => simp [longInteger, digitsOf, List.span, List.span.loop, Char.isDigit]
    have hword : readLiteral "data".toList = none := by decide +kernel
    rw [Lexer.flush, hlong, hword]
  have hsplit : "data:".toList ++ rest = "data".toList ++ ':' :: rest := rfl
  rw [hsplit, Lexer.accepts_append, hsteps]
  change ∃ tokens, Lexer.accepts limit _ (':' :: rest) = .error tokens
  rw [Lexer.accepts_cons]
  simp only [Lexer.step, hflush]
  exact ⟨_, rfl⟩

/-- A text with a value has no line that starts with a field of an event. -/
theorem no_field_of_loads {limits : Limits} {text : List Char} {v : JsonValue} (h : loads limits text = .ok v) :
    ¬ "data:".toList <+: text ∧ ¬ '\n' :: "data:".toList <:+: text := by
  obtain ⟨tokens, htokens⟩ := accepts_of_loads h
  refine ⟨?_, ?_⟩
  · rintro ⟨rest, rfl⟩
    obtain ⟨read, hread⟩ := accepts_word limits.digits (rfl : ({} : Lexer).mode = .between) rest
    exact nomatch hread.symm.trans htokens
  · rintro ⟨before, rest, rfl⟩
    rw [List.append_assoc, Lexer.accepts_append, List.cons_append] at htokens
    obtain ⟨s₁, -, htokens⟩ := ok_of_bind htokens
    rw [Lexer.accepts_cons] at htokens
    obtain ⟨s₂, hbreak, htokens⟩ := ok_of_bind htokens
    obtain ⟨read, hread⟩ := accepts_word limits.digits (Lexer.mode_of_newline hbreak) rest
    exact nomatch hread.symm.trans htokens

end JsonReader

end KernelGym.Library
