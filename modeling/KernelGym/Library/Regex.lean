import KernelGym.Library.Texts

/-! Regular expressions as Python writes them, without look-around and lazy repetition: where a match can end and
what its groups hold, `search`, `match`, `finditer` and `sub`, and the reading of a pattern. -/

namespace KernelGym.Library

/-- What one character has to be. -/
inductive CharTest
  | any
  | every
  | exact (c : Char)
  | space
  | digit
  | word
  | range (low high : Char)
  deriving DecidableEq, Repr

inductive Regex
  | empty
  | test (t : CharTest)
  | oneOf (negated : Bool) (ts : List CharTest)
  | boundary
  | start
  | finish
  | seq (r s : Regex)
  | alt (r s : Regex)
  | star (r : Regex)
  | group (name : String) (r : Regex)
  deriving DecidableEq, Repr

/-- A position in a text: the character before it, what follows, and the groups of the match so far, the last one
first. -/
structure Position where
  before : Option Char
  rest : List Char
  groups : List (String × List Char) := []
  deriving DecidableEq, Repr

/-- The text between two positions. -/
def Position.until (p q : Position) : List Char := p.rest.take (p.rest.length - q.rest.length)

def Position.group (p : Position) (name : String) : Option (List Char) := p.groups.lookup name

/-- The position behind some characters. -/
def Position.after (p : Position) (taken rest : List Char) : Position := ⟨taken.getLast?.or p.before, rest, p.groups⟩

theorem Position.after_cons (p : Position) (c : Char) (taken rest : List Char) :
    Position.after { p with before := some c, rest := taken ++ rest } taken rest = p.after (c :: taken) rest := by
  cases taken <;> simp [Position.after, List.getLast?_cons]

/-- Whether the character passes, with `IGNORECASE` or without. -/
def CharTest.accepts (u : Unicode) (ignoreCase : Bool) : CharTest → Char → Bool
  | .any, x => x ≠ '\n'
  | .every, _ => true
  | .exact c, x => x = c || (ignoreCase && c ∈ u.variants x)
  | .space, x => u.isSpace x
  | .digit, x => u.isDigit x
  | .word, x => u.isWord x
  | .range low high, x => (low ≤ x && x ≤ high) || (ignoreCase && (u.variants x).any fun c => low ≤ c && c ≤ high)

/-- The positions after at most `n` rounds, the longest first. -/
def rounds (step : Position → List Position) : ℕ → Position → List Position
  | 0, p => [p]
  | n + 1, p => (step p).flatMap (rounds step n) ++ [p]

namespace Regex

/-- The position after one character that passes. -/
def advance (accepts : Char → Bool) (p : Position) : List Position :=
  match p.rest with
  | [] => []
  | c :: rest => if accepts c then [{ p with before := some c, rest }] else []

/-- The pattern with `DOTALL`: a dot is any character. -/
def dotAll : Regex → Regex
  | .test .any => .test .every
  | .seq r s => .seq r.dotAll s.dotAll
  | .alt r s => .alt r.dotAll s.dotAll
  | .star r => .star r.dotAll
  | .group name r => .group name r.dotAll
  | r => r

/-- The positions at which a match from `p` can end, in the order in which they are tried. A repetition takes a
character in each round. -/
def ends (u : Unicode) (ignoreCase : Bool) : Regex → Position → List Position
  | .empty, p => [p]
  | .test t, p => advance (t.accepts u ignoreCase) p
  | .oneOf negated ts, p => advance (fun c => negated ^^ ts.any fun t => t.accepts u ignoreCase c) p
  | .boundary, p => if p.before.any u.isWord ≠ p.rest.head?.any u.isWord then [p] else []
  | .start, p => if p.before = none then [p] else []
  | .finish, p => if p.rest = [] ∨ p.rest = ['\n'] then [p] else []
  | .seq r s, p => (r.ends u ignoreCase p).flatMap (s.ends u ignoreCase)
  | .alt r s, p => r.ends u ignoreCase p ++ s.ends u ignoreCase p
  | .star r, p => rounds (r.ends u ignoreCase) p.rest.length p
  | .group name r, p => (r.ends u ignoreCase p).map fun q => { q with groups := (name, p.until q) :: q.groups }

/-- `re.match`: the end of the match. -/
def matchAt (u : Unicode) (ignoreCase : Bool) (r : Regex) (p : Position) : Option Position :=
  (r.ends u ignoreCase p).head?

def matchesAt (u : Unicode) (ignoreCase : Bool) (r : Regex) (p : Position) : Bool :=
  (r.matchAt u ignoreCase p).isSome

/-- The end of the first match. -/
def findFrom (u : Unicode) (ignoreCase : Bool) (r : Regex) (before : Option Char) : List Char → Option Position
  | [] => r.matchAt u ignoreCase ⟨before, [], []⟩
  | c :: rest => (r.matchAt u ignoreCase ⟨before, c :: rest, []⟩).or (r.findFrom u ignoreCase (some c) rest)

/-- `re.search`: the end of the match. -/
def find (u : Unicode) (ignoreCase : Bool) (r : Regex) (text : List Char) : Option Position :=
  r.findFrom u ignoreCase none text

def search (u : Unicode) (ignoreCase : Bool) (r : Regex) (text : List Char) : Bool :=
  (r.find u ignoreCase text).isSome

def matchesFrom (u : Unicode) (ignoreCase : Bool) (r : Regex) : ℕ → Option Char → List Char → List Position
  | 0, _, _ => []
  | n + 1, before, text =>
    match r.findFrom u ignoreCase before text with
    | none => []
    | some q => q :: r.matchesFrom u ignoreCase n q.before q.rest

/-- `re.finditer` of a pattern that takes characters: the ends of its matches. -/
def finditer (u : Unicode) (ignoreCase : Bool) (r : Regex) (text : List Char) : List Position :=
  r.matchesFrom u ignoreCase text.length none text

def subFrom (u : Unicode) (ignoreCase : Bool) (r : Regex) (replacement : List Char) :
    ℕ → Option Char → List Char → List Char
  | 0, _, text => text
  | _ + 1, _, [] => []
  | n + 1, before, c :: rest =>
    match r.matchAt u ignoreCase ⟨before, c :: rest, []⟩ with
    | none => c :: r.subFrom u ignoreCase replacement n (some c) rest
    | some q => replacement ++ r.subFrom u ignoreCase replacement n q.before q.rest

/-- `re.sub` of a pattern that takes characters. -/
def sub (u : Unicode) (ignoreCase : Bool) (r : Regex) (replacement text : List Char) : List Char :=
  r.subFrom u ignoreCase replacement text.length none text

/-! ### What a match takes -/

/-- Whether every match takes a character that passes `f`. -/
def needs (f : Char → Bool) : Regex → Bool
  | .test (.exact c) => f c
  | .seq r s => r.needs f || s.needs f
  | .alt r s => r.needs f && s.needs f
  | .group _ r => r.needs f
  | _ => false

section Taken

variable {u : Unicode} {ignoreCase : Bool}

theorem rounds_suffix {step : Position → List Position}
    (hstep : ∀ p, ∀ q ∈ step p, q.rest <:+ p.rest) (n : ℕ) (p : Position) :
    ∀ q ∈ rounds step n p, q.rest <:+ p.rest := by
  induction n generalizing p with
  | zero =>
      intro q hq
      rw [List.mem_singleton.mp hq]
  | succ n ih =>
      intro q hq
      rcases List.mem_append.mp hq with hq | hq
      · obtain ⟨p', hp', hq⟩ := List.mem_flatMap.mp hq
        exact (ih p' q hq).trans (hstep p p' hp')
      · rw [List.mem_singleton.mp hq]

theorem mem_advance {accepts : Char → Bool} {p q : Position} (hq : q ∈ advance accepts p) :
    ∃ c, accepts c = true ∧ p.rest = c :: q.rest := by
  unfold advance at hq
  cases hrest : p.rest with
  | nil => simp [hrest] at hq
  | cons c rest =>
      simp only [hrest] at hq
      split_ifs at hq with h
      · rw [List.mem_singleton.mp hq]
        exact ⟨c, h, rfl⟩
      · exact absurd hq List.not_mem_nil

theorem advance_suffix {accepts : Char → Bool} {p q : Position} (hq : q ∈ advance accepts p) : q.rest <:+ p.rest := by
  obtain ⟨c, -, hrest⟩ := mem_advance hq
  rw [hrest]
  exact List.suffix_cons c q.rest

/-- A match ends in what follows its start. -/
theorem ends_suffix (r : Regex) (p : Position) : ∀ q ∈ r.ends u ignoreCase p, q.rest <:+ p.rest := by
  induction r generalizing p with
  | empty =>
      intro q hq
      rw [List.mem_singleton.mp hq]
  | boundary | start | finish =>
      intro q hq
      simp only [ends] at hq
      split_ifs at hq with h
      · rw [List.mem_singleton.mp hq]
      · exact absurd hq List.not_mem_nil
  | test t | oneOf negated ts => exact fun q hq => advance_suffix hq
  | seq r s ihr ihs =>
      intro q hq
      obtain ⟨p', hp', hq⟩ := List.mem_flatMap.mp hq
      exact (ihs p' q hq).trans (ihr p p' hp')
  | alt r s ihr ihs =>
      intro q hq
      exact (List.mem_append.mp hq).elim (ihr p q) (ihs p q)
  | star r ih => exact rounds_suffix ih p.rest.length p
  | group name r ih =>
      intro q hq
      obtain ⟨q', hq', rfl⟩ := List.mem_map.mp hq
      exact ih p q' hq'

/-- A match takes a character of the kind that a needed one accepts. -/
theorem mem_of_needs {f : Char → Bool} {P : Char → Prop}
    (hP : ∀ c x, (CharTest.exact c).accepts u ignoreCase x = true → f c = true → P x) (r : Regex) (p : Position)
    (hr : r.needs f = true) : ∀ q ∈ r.ends u ignoreCase p, ∃ c ∈ p.rest, P c := by
  induction r generalizing p with
  | empty | boundary | start | finish | star | oneOf => exact absurd hr Bool.false_ne_true
  | test t =>
      intro q hq
      cases t with
      | any | every | space | digit | word | range => exact absurd hr Bool.false_ne_true
      | exact c =>
          obtain ⟨x, hx, hrest⟩ := mem_advance hq
          exact ⟨x, hrest ▸ List.mem_cons_self, hP c x hx hr⟩
  | seq r s ihr ihs =>
      intro q hq
      obtain ⟨p', hp', hq⟩ := List.mem_flatMap.mp hq
      rcases Bool.or_eq_true _ _ ▸ hr with hr | hs
      · exact ihr p hr p' hp'
      · obtain ⟨c, hc, hf⟩ := ihs p' hs q hq
        exact ⟨c, (ends_suffix r p p' hp').subset hc, hf⟩
  | alt r s ihr ihs =>
      intro q hq
      have hrs : r.needs f = true ∧ s.needs f = true := Bool.and_eq_true_iff.mp hr
      exact (List.mem_append.mp hq).elim (ihr p hrs.1 q) (ihs p hrs.2 q)
  | group name r ih =>
      intro q hq
      obtain ⟨q', hq', -⟩ := List.mem_map.mp hq
      exact ih p hr q' hq'

theorem findFrom_needs {f : Char → Bool} {P : Char → Prop}
    (hP : ∀ c x, (CharTest.exact c).accepts u ignoreCase x = true → f c = true → P x) {r : Regex}
    (hr : r.needs f = true) (text : List Char) (before : Option Char) {q : Position}
    (h : r.findFrom u ignoreCase before text = some q) : ∃ c ∈ text, P c := by
  induction text generalizing before with
  | nil => exact mem_of_needs hP r ⟨before, [], []⟩ hr q (List.mem_of_mem_head? h)
  | cons x rest ih =>
      rcases Option.or_eq_some_iff.mp h with h | ⟨-, h⟩
      · exact mem_of_needs hP r ⟨before, x :: rest, []⟩ hr q (List.mem_of_mem_head? h)
      · obtain ⟨c, hc, hf⟩ := ih (some x) h
        exact ⟨c, List.mem_cons_of_mem x hc, hf⟩

theorem search_mem {f : Char → Bool} {P : Char → Prop}
    (hP : ∀ c x, (CharTest.exact c).accepts u ignoreCase x = true → f c = true → P x) {r : Regex}
    (hr : r.needs f = true) {text : List Char} (h : r.search u ignoreCase text = true) : ∃ c ∈ text, P c := by
  obtain ⟨q, hq⟩ := Option.isSome_iff_exists.mp h
  exact findFrom_needs hP hr text none hq

/-- A search that heeds the case and succeeds has met a character that the pattern needs. -/
theorem search_needs {f : Char → Bool} {r : Regex} (hr : r.needs f = true) {text : List Char}
    (h : r.search u false text = true) : ∃ c ∈ text, f c = true := by
  refine search_mem (fun c x hx hf => ?_) hr h
  have hxc : x = c := by simpa [CharTest.accepts] using hx
  rw [hxc]
  exact hf

/-- A search that succeeds, in any case, has met a character other than white space if the pattern needs one. -/
theorem search_needs_ink {r : Regex} (hr : r.needs (fun c => decide (c.toNat < 128) && !asciiSpace c) = true)
    {text : List Char} (h : r.search u ignoreCase text = true) : ∃ c ∈ text, u.isSpace c = false := by
  refine search_mem (fun c x hx hf => ?_) hr h
  rw [Bool.and_eq_true, decide_eq_true_eq, Bool.not_eq_true'] at hf
  simp only [CharTest.accepts, Bool.or_eq_true, Bool.and_eq_true, decide_eq_true_eq] at hx
  rcases hx with rfl | ⟨-, hvariant⟩
  · rw [u.isSpace_ascii x hf.1]
    exact hf.2
  · rw [Bool.eq_false_iff]
    intro hspace
    have hword := (u.isWord_of_variants x c hvariant).1
    rw [u.isWord_of_isSpace x hspace] at hword
    exact Bool.false_ne_true hword

/-- A repetition of a test takes characters that pass. -/
theorem rounds_taken {accepts : Char → Bool} (n : ℕ) (p : Position) :
    ∀ q ∈ rounds (advance accepts) n p, ∃ taken, p.rest = taken ++ q.rest ∧ ∀ c ∈ taken, accepts c = true := by
  induction n generalizing p with
  | zero =>
      intro q hq
      exact ⟨[], by rw [List.mem_singleton.mp hq]; rfl, by simp⟩
  | succ n ih =>
      intro q hq
      rcases List.mem_append.mp hq with hq | hq
      · obtain ⟨p', hp', hq⟩ := List.mem_flatMap.mp hq
        obtain ⟨c, hc, hrest⟩ := mem_advance hp'
        obtain ⟨taken, htaken, hall⟩ := ih p' q hq
        refine ⟨c :: taken, by rw [hrest, htaken]; rfl, fun c' hc' => ?_⟩
        exact (List.mem_cons.mp hc').elim (fun heq => heq ▸ hc) (hall c')
      · exact ⟨[], by rw [List.mem_singleton.mp hq]; rfl, by simp⟩

/-- `t+` -/
def plus (t : CharTest) : Regex := .seq (.test t) (.star (.test t))

/-- One or more characters that pass lie between the start and the end of a match of `t+`. -/
theorem until_plus {t : CharTest} {p q : Position} (hq : q ∈ (plus t).ends u ignoreCase p) :
    p.until q ≠ [] ∧ ∀ c ∈ p.until q, t.accepts u ignoreCase c = true := by
  obtain ⟨p', hp', hq⟩ := List.mem_flatMap.mp hq
  obtain ⟨c, hc, hrest⟩ := mem_advance hp'
  obtain ⟨taken, htaken, hall⟩ := rounds_taken _ p' q hq
  have huntil : p.until q = c :: taken := by
    have hsplit : p.rest = (c :: taken) ++ q.rest := by rw [hrest, htaken]; rfl
    rw [Position.until, hsplit, List.length_append, Nat.add_sub_cancel, List.take_left]
  rw [huntil]
  refine ⟨List.cons_ne_nil c taken, fun c' hc' => ?_⟩
  exact (List.mem_cons.mp hc').elim (fun heq => heq ▸ hc) (hall c')

/-- Whether every group of that name is one of that pattern. -/
def groupsAre (name : String) (body : Regex) : Regex → Bool
  | .seq r s => groupsAre name body r && groupsAre name body s
  | .alt r s => groupsAre name body r && groupsAre name body s
  | .star r => groupsAre name body r
  | .group n r => (n ≠ name || r = body) && groupsAre name body r
  | _ => true

/-- The text is what a match of the pattern has taken. -/
def Takes (u : Unicode) (ignoreCase : Bool) (body : Regex) (text : List Char) : Prop :=
  ∃ p, ∃ q ∈ body.ends u ignoreCase p, text = p.until q

/-- The groups of that name hold what the pattern takes. -/
def GroupsTake (u : Unicode) (ignoreCase : Bool) (name : String) (body : Regex) (p : Position) : Prop :=
  ∀ text, (name, text) ∈ p.groups → Takes u ignoreCase body text

section Groups

variable {name : String} {body : Regex}

theorem groups_advance {accepts : Char → Bool} {p q : Position} (hq : q ∈ advance accepts p) : q.groups = p.groups := by
  unfold advance at hq
  cases hrest : p.rest with
  | nil => simp [hrest] at hq
  | cons c rest =>
      simp only [hrest] at hq
      split_ifs at hq
      · rw [List.mem_singleton.mp hq]
      · exact absurd hq List.not_mem_nil

theorem rounds_groupsTake {step : Position → List Position} (hstep : ∀ p, GroupsTake u ignoreCase name body p →
    ∀ q ∈ step p, GroupsTake u ignoreCase name body q) (n : ℕ) (p : Position)
    (hp : GroupsTake u ignoreCase name body p) : ∀ q ∈ rounds step n p, GroupsTake u ignoreCase name body q := by
  induction n generalizing p with
  | zero =>
      intro q hq
      rw [List.mem_singleton.mp hq]
      exact hp
  | succ n ih =>
      intro q hq
      rcases List.mem_append.mp hq with hq | hq
      · obtain ⟨p', hp', hq⟩ := List.mem_flatMap.mp hq
        exact ih p' (hstep p hp p' hp') q hq
      · rw [List.mem_singleton.mp hq]
        exact hp

theorem ends_groupsTake (r : Regex) (hr : groupsAre name body r = true) (p : Position)
    (hp : GroupsTake u ignoreCase name body p) :
    ∀ q ∈ r.ends u ignoreCase p, GroupsTake u ignoreCase name body q := by
  induction r generalizing p with
  | empty =>
      intro q hq
      rw [List.mem_singleton.mp hq]
      exact hp
  | boundary | start | finish =>
      intro q hq
      simp only [ends] at hq
      split_ifs at hq with h
      · rw [List.mem_singleton.mp hq]
        exact hp
      · exact absurd hq List.not_mem_nil
  | test t | oneOf negated ts =>
      intro q hq text htext
      exact hp text (groups_advance hq ▸ htext)
  | seq r s ihr ihs =>
      intro q hq
      obtain ⟨hrs, hss⟩ := Bool.and_eq_true_iff.mp hr
      obtain ⟨p', hp', hq⟩ := List.mem_flatMap.mp hq
      exact ihs hss p' (ihr hrs p hp p' hp') q hq
  | alt r s ihr ihs =>
      intro q hq
      obtain ⟨hrs, hss⟩ := Bool.and_eq_true_iff.mp hr
      exact (List.mem_append.mp hq).elim (ihr hrs p hp q) (ihs hss p hp q)
  | star r ih => exact rounds_groupsTake (ih hr) p.rest.length p hp
  | group n r ih =>
      intro q hq text htext
      obtain ⟨hbody, hrs⟩ := Bool.and_eq_true_iff.mp hr
      obtain ⟨q', hq', rfl⟩ := List.mem_map.mp hq
      rcases List.mem_cons.mp htext with heq | htext
      · obtain ⟨rfl, rfl⟩ := Prod.mk.inj heq
        obtain rfl : r = body := by simpa using hbody
        exact ⟨p, q', hq', rfl⟩
      · exact ih hrs p hp q' hq' text htext

theorem findFrom_groupsTake {r : Regex} (hr : groupsAre name body r = true) (text : List Char) (before : Option Char)
    {q : Position} (h : r.findFrom u ignoreCase before text = some q) : GroupsTake u ignoreCase name body q := by
  have hstart (before : Option Char) (rest : List Char) : GroupsTake u ignoreCase name body ⟨before, rest, []⟩ :=
    fun _ htext => absurd htext List.not_mem_nil
  induction text generalizing before with
  | nil => exact ends_groupsTake r hr _ (hstart before []) q (List.mem_of_mem_head? h)
  | cons c rest ih =>
      rcases Option.or_eq_some_iff.mp h with h | ⟨-, h⟩
      · exact ends_groupsTake r hr _ (hstart before (c :: rest)) q (List.mem_of_mem_head? h)
      · exact ih (some c) h

/-- A group of a match holds what the pattern of the group takes. -/
theorem group_takes {q : Position} {text : List Char} (h : GroupsTake u ignoreCase name body q)
    (hgroup : q.group name = some text) : Takes u ignoreCase body text := by
  obtain ⟨before, after, hgroups, -⟩ := List.lookup_eq_some_iff.mp hgroup
  exact h text (hgroups ▸ List.mem_append_right before List.mem_cons_self)

theorem finditer_groupsTake {r : Regex} (hr : groupsAre name body r = true) (text : List Char) :
    ∀ q ∈ r.finditer u ignoreCase text, GroupsTake u ignoreCase name body q := by
  have hfrom (n : ℕ) (before : Option Char) (text : List Char) :
      ∀ q ∈ r.matchesFrom u ignoreCase n before text, GroupsTake u ignoreCase name body q := by
    induction n generalizing before text with
    | zero => exact fun q hq => absurd hq List.not_mem_nil
    | succ n ih =>
        intro q hq
        rw [matchesFrom] at hq
        cases hfind : r.findFrom u ignoreCase before text with
        | none => simp [hfind] at hq
        | some q' =>
            simp only [hfind] at hq
            rcases List.mem_cons.mp hq with rfl | hq
            · exact findFrom_groupsTake hr text before hfind
            · exact ih _ _ q hq
  exact hfrom _ _ _

end Groups

/-- What a match of `\d+` has taken are digits. -/
theorem Takes.digits {text : List Char} (h : Takes u ignoreCase (plus .digit) text) :
    text ≠ [] ∧ ∀ c ∈ text, u.isDigit c = true := by
  obtain ⟨p, q, hq, rfl⟩ := h
  exact until_plus hq

/-! ### Greedy matches -/

theorem head?_flatMap {α β : Type} {f : α → List β} {l : List α} {a : α} {b : β} (ha : l.head? = some a)
    (hb : (f a).head? = some b) : (l.flatMap f).head? = some b := by
  obtain ⟨rest, rfl⟩ := List.head?_eq_some_iff.mp ha
  rw [List.flatMap_cons, List.head?_append_of_ne_nil _ (List.ne_nil_of_mem (List.mem_of_mem_head? hb))]
  exact hb

/-- A repetition of a test takes all that passes first. -/
theorem rounds_head? {accepts : Char → Bool} {taken rest : List Char} (htaken : ∀ c ∈ taken, accepts c = true)
    (hrest : ∀ c ∈ rest.head?, accepts c = false) {n : ℕ} (hn : taken.length ≤ n) {p : Position}
    (hp : p.rest = taken ++ rest) : (rounds (advance accepts) n p).head? = some (p.after taken rest) := by
  induction taken generalizing n p with
  | nil =>
      have hstop : advance accepts p = [] := by
        unfold advance
        rw [hp]
        cases rest with
        | nil => rfl
        | cons c rest => exact if_neg (by simp [hrest c (by simp)])
      have hafter : p.after [] rest = p := by
        obtain ⟨before, prest, groups⟩ := p
        simp only [Position.after, List.getLast?_nil, Option.none_or, Position.mk.injEq, true_and, and_true]
        exact hp.symm
      cases n with
      | zero => rw [rounds, hafter]; rfl
      | succ n => rw [rounds, hstop, hafter]; rfl
  | cons c taken ih =>
      obtain ⟨n, rfl⟩ := Nat.exists_eq_add_of_lt (Nat.lt_of_lt_of_le (Nat.zero_lt_succ taken.length) hn)
      have hstep : advance accepts p = [{ p with before := some c, rest := taken ++ rest }] := by
        unfold advance
        rw [hp]
        exact if_pos (htaken c List.mem_cons_self)
      rw [Nat.zero_add, rounds, hstep]
      have hhead := ih (fun c' hc' => htaken c' (List.mem_cons_of_mem c hc')) (n := n) (by simpa using hn)
        (p := { p with before := some c, rest := taken ++ rest }) rfl
      rw [List.flatMap_singleton, List.head?_append_of_ne_nil _ (List.ne_nil_of_mem (List.mem_of_mem_head? hhead)),
        hhead, Position.after_cons]

/-- Some characters and then a pattern. -/
def literal (cs : List Char) (r : Regex) : Regex := cs.foldr (fun c r => .seq (.test (.exact c)) r) r

section

variable {p q : Position} {taken rest : List Char} {r s : Regex}

theorem ends_literal (rest : List Char) (hp : p.rest = taken ++ rest) (h : (r.ends u ignoreCase (p.after taken rest)).head? = some q) :
    ((literal taken r).ends u ignoreCase p).head? = some q := by
  induction taken generalizing p with
  | nil =>
      obtain ⟨before, prest, groups⟩ := p
      obtain rfl : prest = rest := hp
      exact h
  | cons c taken ih =>
      have hstep : (Regex.test (.exact c)).ends u ignoreCase p = [{ p with before := some c, rest := taken ++ rest }] := by
        rw [ends, advance, hp]
        exact if_pos (by simp [CharTest.accepts])
      change (((Regex.test (.exact c)).ends u ignoreCase p).flatMap _).head? = _
      rw [hstep, List.flatMap_singleton]
      refine ih rfl ?_
      rw [Position.after_cons]
      exact h

theorem ends_group {name : String} (hr : (r.ends u ignoreCase p).head? = some (p.after taken rest))
    (hp : p.rest = taken ++ rest) : ((Regex.group name r).ends u ignoreCase p).head? =
      some { p.after taken rest with groups := (name, taken) :: p.groups } := by
  have huntil : p.until (p.after taken rest) = taken := by
    rw [Position.until, hp, Position.after, List.length_append, Nat.add_sub_cancel, List.take_left]
  rw [ends, List.head?_map, hr, Option.map_some, huntil]
  rfl

theorem ends_seq (q' : Position) (hr : (r.ends u ignoreCase p).head? = some q')
    (hs : (s.ends u ignoreCase q').head? = some q) : ((Regex.seq r s).ends u ignoreCase p).head? = some q :=
  head?_flatMap hr hs

theorem ends_star {t : CharTest} (htaken : ∀ c ∈ taken, t.accepts u ignoreCase c = true)
    (hrest : ∀ c ∈ rest.head?, t.accepts u ignoreCase c = false) (hp : p.rest = taken ++ rest) :
    ((Regex.star (.test t)).ends u ignoreCase p).head? = some (p.after taken rest) :=
  rounds_head? htaken hrest (by rw [hp, List.length_append]; exact Nat.le_add_right _ _) hp

theorem ends_plus {t : CharTest} (hne : taken ≠ []) (htaken : ∀ c ∈ taken, t.accepts u ignoreCase c = true)
    (hrest : ∀ c ∈ rest.head?, t.accepts u ignoreCase c = false) (hp : p.rest = taken ++ rest) :
    ((plus t).ends u ignoreCase p).head? = some (p.after taken rest) := by
  obtain ⟨c, taken, rfl⟩ := List.exists_cons_of_ne_nil hne
  have hstep : (Regex.test t).ends u ignoreCase p = [{ p with before := some c, rest := taken ++ rest }] := by
    rw [ends, advance, hp]
    exact if_pos (htaken c List.mem_cons_self)
  have hothers : ∀ c' ∈ taken, t.accepts u ignoreCase c' = true := fun c' hc' =>
    htaken c' (List.mem_cons_of_mem c hc')
  have hstar := ends_star (p := { p with before := some c, rest := taken ++ rest }) hothers hrest rfl
  rw [Position.after_cons] at hstar
  exact ends_seq _ (by rw [hstep]; rfl) hstar

/-- A match at the start of a text is the first one that is found. -/
theorem mem_finditer {text : List Char} (hne : text ≠ [])
    (h : (r.ends u ignoreCase ⟨none, text, []⟩).head? = some q) : q ∈ r.finditer u ignoreCase text := by
  obtain ⟨c, rest, rfl⟩ := List.exists_cons_of_ne_nil hne
  have hfind : r.findFrom u ignoreCase none (c :: rest) = some q := by
    rw [findFrom, matchAt, h]
    rfl
  rw [finditer, List.length_cons, matchesFrom, hfind]
  exact List.mem_cons_self

end

end Taken

/-! ### Reading a pattern -/

/-- What stands for a character, alone or in a class. -/
def escapedTest : Char → CharTest
  | 's' => .space
  | 'd' => .digit
  | 'w' => .word
  | 'n' => .exact '\n'
  | 'r' => .exact '\r'
  | 't' => .exact '\t'
  | c => .exact c

def escape : Char → Regex
  | 'b' => .boundary
  | c => .test (escapedTest c)

/-- The members of a class up to its bracket. -/
def readClass : List Char → List CharTest × List Char
  | [] => ([], [])
  | ']' :: rest => ([], rest)
  | '\\' :: c :: rest => let (ts, rest) := readClass rest; (escapedTest c :: ts, rest)
  | low :: '-' :: high :: rest =>
    if high = ']' then ([.exact low, .exact '-'], rest)
    else let (ts, rest) := readClass rest; (.range low high :: ts, rest)
  | c :: rest => let (ts, rest) := readClass rest; (.exact c :: ts, rest)

/-- The quantifier after an item. -/
def quantified (r : Regex) : List Char → Regex × List Char
  | '?' :: rest => (.alt r .empty, rest)
  | '+' :: rest => (.seq r (.star r), rest)
  | '*' :: rest => (.star r, rest)
  | rest => (r, rest)

mutual

def readAlternatives : ℕ → List Char → Regex × List Char
  | 0, cs => (.empty, cs)
  | n + 1, cs =>
    match readSequence n cs with
    | (r, '|' :: rest) => let (s, rest) := readAlternatives n rest; (.alt r s, rest)
    | (r, rest) => (r, rest)

def readSequence : ℕ → List Char → Regex × List Char
  | 0, cs => (.empty, cs)
  | _ + 1, [] => (.empty, [])
  | n + 1, c :: cs =>
    if c = '|' || c = ')' then (.empty, c :: cs)
    else
      let (r, rest) := readItem n (c :: cs)
      match readSequence n rest with
      | (.empty, rest) => (r, rest)
      | (s, rest) => (.seq r s, rest)

def readItem : ℕ → List Char → Regex × List Char
  | 0, cs => (.empty, cs)
  | n + 1, '(' :: '?' :: ':' :: rest => let (r, rest) := readAlternatives n rest; quantified r (rest.drop 1)
  | n + 1, '(' :: '?' :: 'P' :: '<' :: rest =>
    let name := String.ofList (rest.takeWhile (· ≠ '>'))
    let (r, rest) := readAlternatives n ((rest.dropWhile (· ≠ '>')).drop 1)
    quantified (.group name r) (rest.drop 1)
  | n + 1, '(' :: rest => let (r, rest) := readAlternatives n rest; quantified (.group "" r) (rest.drop 1)
  | _ + 1, '[' :: '^' :: rest => let (ts, rest) := readClass rest; quantified (.oneOf true ts) rest
  | _ + 1, '[' :: rest => let (ts, rest) := readClass rest; quantified (.oneOf false ts) rest
  | _ + 1, '\\' :: c :: rest => quantified (escape c) rest
  | _ + 1, '.' :: rest => quantified (.test .any) rest
  | _ + 1, '^' :: rest => (.start, rest)
  | _ + 1, '$' :: rest => (.finish, rest)
  | _ + 1, c :: rest => quantified (.test (.exact c)) rest
  | _ + 1, [] => (.empty, [])

end

/-- `re.compile`, for patterns of literals, classes, groups, alternatives, quantifiers and anchors. A group without
a name has the empty one. -/
def compile (pattern : String) : Regex :=
  let cs := pattern.toList
  (readAlternatives (4 * cs.length + 4) cs).1

end Regex

end KernelGym.Library
