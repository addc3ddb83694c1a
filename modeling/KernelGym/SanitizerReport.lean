import KernelGym.ComputeSanitizer

/-! The conservation of a sanitizer report: every diagnostic of the output is one occurrence up to the limit, every
occurrence is counted in one aggregated issue, and the ranges of an issue are those of its occurrences. -/

namespace KernelGym.Sanitizer

open Library

variable {u : Unicode}

/-! ### Occurrences -/

def RaceReported (line : Text) : Bool := startsWith line "Race reported"

/-- The lines that open an occurrence: the diagnostic starts but for a `Hazard at` line while a `Race reported` group is
open (`race`); a summary line closes a group. -/
def openings (u : Unicode) (race : Bool) : List Text → List Text
  | [] => []
  | line :: rest =>
    if startsWith line "Hazard at" && race then openings u race rest
    else if isStart line then line :: openings u (RaceReported line) rest
    else if isSummary u line then openings u false rest
    else openings u race rest

/-- The messages of the groups so far, as far as they are kept, and of the current one. -/
def Grouping.messages (s : Grouping) : List Text :=
  ((s.groups.map fun group => group.headD []) ++ s.current.head?.toList).take maxParsedIssueOccurrences

/-- The groups so far and the current one. -/
def Grouping.seen (s : Grouping) : ℕ := s.observedIssueCount + s.current.head?.toList.length

def Grouping.race (s : Grouping) : Bool := s.current.head?.any RaceReported

theorem take_take_append {α : Type} (n : ℕ) (l r : List α) : (l.take n ++ r).take n = (l ++ r).take n := by
  rw [List.take_append, List.take_append, List.take_take, min_self, List.length_take]
  congr 2
  omega

/-- What closing the current group leaves as it is. -/
theorem Grouping.close_messages {s : Grouping} (hroom : s.groups.length ≤ maxParsedIssueOccurrences)
    (hcurrent : s.current ≠ []) : (s.close.groups.map fun group => group.headD []) = s.messages ∧
      s.close.groups.length ≤ maxParsedIssueOccurrences ∧ s.close.observedIssueCount = s.seen := by
  obtain ⟨message, rest, hcons⟩ := List.exists_cons_of_ne_nil hcurrent
  refine ⟨?_, ?_, ?_⟩
  · unfold Grouping.messages Grouping.close
    rw [hcons]
    dsimp only
    split_ifs with hfull
    · rw [List.take_of_length_le (by simpa [Nat.succ_le_iff] using hfull)]
      simp
    · have hlength : (s.groups.map fun group => group.headD []).length = maxParsedIssueOccurrences := by
        rw [List.length_map]
        omega
      rw [← hlength, List.take_left]
  · unfold Grouping.close
    dsimp only
    split_ifs with hfull
    · rw [List.length_append, List.length_singleton]
      omega
    · exact hroom
  · simp [Grouping.close, Grouping.seen, hcons]

theorem Grouping.messages_take (s : Grouping) : s.messages.take maxParsedIssueOccurrences = s.messages := by
  rw [messages, List.take_take, min_self]

theorem messages_of_current_nil {s : Grouping} (hroom : s.groups.length ≤ maxParsedIssueOccurrences)
    (hcurrent : s.current = []) : s.messages = s.groups.map fun group => group.headD [] := by
  rw [Grouping.messages, hcurrent, List.head?_nil, Option.toList_none, List.append_nil,
    List.take_of_length_le (by rw [List.length_map]; exact hroom)]

/-- A line that opens no occurrence and leaves the head of the current group. -/
theorem head?_append_line {current : List Text} (hcurrent : current ≠ []) (line : Text) :
    (current ++ [line]).head? = current.head? := List.head?_append_of_ne_nil current hcurrent

/-- **One line**: what it opens, and the rest of the lines from there. -/
theorem step_openings {s : Grouping} (hroom : s.groups.length ≤ maxParsedIssueOccurrences) (line : Text) :
    ∃ opened : List Text, (s.step u line).messages = (s.messages ++ opened).take maxParsedIssueOccurrences ∧
      (s.step u line).seen = s.seen + opened.length ∧ (s.step u line).groups.length ≤ maxParsedIssueOccurrences ∧
      ∀ rest, openings u s.race (line :: rest) = opened ++ openings u (s.step u line).race rest := by
  have hkept {t : Grouping} (hgroups : t.groups = s.groups) (hcount : t.observedIssueCount = s.observedIssueCount)
      (hhead : t.current.head? = s.current.head?) :
      t.messages = (s.messages ++ []).take maxParsedIssueOccurrences ∧ t.seen = s.seen ∧ t.race = s.race := by
    rw [List.append_nil, s.messages_take]
    simp only [Grouping.messages, Grouping.seen, Grouping.race, hgroups, hcount, hhead, and_self]
  by_cases hhazard : startsWith line "Hazard at" && s.race
  · have hcurrent : s.current ≠ [] := by
      intro hnil
      simp [Grouping.race, hnil] at hhazard
    have hstep : s.step u line = { s with current := s.current ++ [line] } := if_pos hhazard
    obtain ⟨hm, hseen, hrace⟩ := hkept (t := s.step u line) (by rw [hstep]) (by rw [hstep])
      (by rw [hstep]; exact head?_append_line hcurrent line)
    refine ⟨[], hm, hseen, by rw [hstep]; exact hroom, fun rest => ?_⟩
    rw [openings, if_pos hhazard, hrace, List.nil_append]
  · by_cases hstart : isStart line = true
    · have hstep : s.step u line = { (if s.current = [] then s else s.close) with current := [line] } :=
        (if_neg hhazard).trans (if_pos hstart)
      have hopen (rest : List Text) : openings u s.race (line :: rest) =
          [line] ++ openings u (s.step u line).race rest := by
        rw [openings, if_neg hhazard, if_pos hstart, hstep]
        rfl
      by_cases hcurrent : s.current = []
      · rw [if_pos hcurrent] at hstep
        refine ⟨[line], ?_, ?_, by rw [hstep]; exact hroom, hopen⟩
        · rw [hstep]
          simp [Grouping.messages, hcurrent, take_take_append]
        · rw [hstep]
          simp [Grouping.seen, hcurrent]
      · rw [if_neg hcurrent] at hstep
        obtain ⟨hmessages, hlength, hcount⟩ := Grouping.close_messages hroom hcurrent
        refine ⟨[line], ?_, ?_, by rw [hstep]; exact hlength, hopen⟩
        · rw [hstep, ← hmessages]
          rfl
        · rw [hstep, ← hcount]
          rfl
    · by_cases hcurrent : s.current = []
      · have hstep : s.step u line = s :=
          (if_neg hhazard).trans ((if_neg hstart).trans (if_neg (not_not.mpr hcurrent)))
        have hrace : s.race = false := by simp [Grouping.race, hcurrent]
        obtain ⟨hm, hseen, -⟩ := hkept (t := s.step u line) (by rw [hstep]) (by rw [hstep]) (by rw [hstep])
        refine ⟨[], hm, hseen, by rw [hstep]; exact hroom, fun rest => ?_⟩
        rw [openings, if_neg hhazard, if_neg hstart, hstep, hrace, ite_self, List.nil_append]
      · by_cases hsummary : isSummary u line = true
        · have hstep : s.step u line = { s.close with current := [] } :=
            (if_neg hhazard).trans ((if_neg hstart).trans ((if_pos hcurrent).trans (if_pos hsummary)))
          obtain ⟨hmessages, hlength, hcount⟩ := Grouping.close_messages hroom hcurrent
          refine ⟨[], ?_, ?_, by rw [hstep]; exact hlength, fun rest => ?_⟩
          · rw [hstep, List.append_nil, s.messages_take, ← hmessages]
            exact messages_of_current_nil hlength rfl
          · rw [hstep, ← hcount]
            rfl
          · rw [openings, if_neg hhazard, if_neg hstart, if_pos hsummary, hstep]
            rfl
        · have hstep : s.step u line = { s with current := s.current ++ [line] } :=
            (if_neg hhazard).trans ((if_neg hstart).trans ((if_pos hcurrent).trans (if_neg hsummary)))
          obtain ⟨hm, hseen, hrace⟩ := hkept (t := s.step u line) (by rw [hstep]) (by rw [hstep])
            (by rw [hstep]; exact head?_append_line hcurrent line)
          refine ⟨[], hm, hseen, by rw [hstep]; exact hroom, fun rest => ?_⟩
          rw [openings, if_neg hhazard, if_neg hstart, if_neg hsummary, hrace, List.nil_append]

/-- The lines of a report from some state on. -/
theorem foldl_openings {s : Grouping} (hroom : s.groups.length ≤ maxParsedIssueOccurrences) (lines : List Text) :
    (lines.foldl (Grouping.step u) s).messages =
        (s.messages ++ openings u s.race lines).take maxParsedIssueOccurrences ∧
      (lines.foldl (Grouping.step u) s).seen = s.seen + (openings u s.race lines).length ∧
      (lines.foldl (Grouping.step u) s).groups.length ≤ maxParsedIssueOccurrences := by
  induction lines generalizing s with
  | nil =>
      refine ⟨?_, rfl, hroom⟩
      rw [List.foldl_nil, openings, List.append_nil, s.messages_take]
  | cons line rest ih =>
      obtain ⟨opened, hmessages, hseen, hlength, hopen⟩ := step_openings (u := u) hroom line
      obtain ⟨ihm, ihs, ihl⟩ := ih hlength
      refine ⟨?_, ?_, ihl⟩
      · rw [List.foldl_cons, ihm, hmessages, take_take_append, hopen rest, List.append_assoc]
      · rw [List.foldl_cons, ihs, hseen, hopen rest, List.length_append]
        omega

/-- **The groups of a report are opened by its openings**, as far as there is room. -/
theorem groupLines_openings (lines : List Text) :
    ((groupLines u lines).groups.map fun group => group.headD []) =
        (openings u false lines).take maxParsedIssueOccurrences ∧
      (groupLines u lines).observedIssueCount = (openings u false lines).length := by
  obtain ⟨hmessages, hseen, hlength⟩ := foldl_openings (u := u) (s := {}) (Nat.zero_le _) lines
  have hempty : ({} : Grouping).messages = [] := rfl
  have hrace : ({} : Grouping).race = false := rfl
  have hnone : ({} : Grouping).seen = 0 := rfl
  rw [hempty, hrace, List.nil_append] at hmessages
  rw [hnone, hrace, Nat.zero_add] at hseen
  unfold groupLines
  dsimp only
  split_ifs with hcurrent
  · refine ⟨(messages_of_current_nil hlength hcurrent).symm.trans hmessages, Eq.trans ?_ hseen⟩
    rw [Grouping.seen, hcurrent]
    rfl
  · obtain ⟨hclose, -, hcount⟩ := Grouping.close_messages hlength hcurrent
    exact ⟨hclose.trans hmessages, hcount.trans hseen⟩

section

variable {output tool : Text} {maxIssues : ℤ}

theorem parseIssue_eq_some {group : List Text} {occurrence : Occurrence} (h : parseIssue u tool group = some occurrence) :
    occurrence.message = group.headD [] := by
  simp only [parseIssue, Option.bind_eq_bind, Option.bind_eq_some_iff] at h
  obtain ⟨line, -, size, -, h⟩ := h
  rw [← Option.some.inj h]

/-- A group is parsed if its two numbers are read. -/
theorem parseIssue_isSome {group : List Text} : (parseIssue u tool group).isSome = true ↔
    (readNumber u (lineNumber u group)).isSome = true ∧ (readNumber u (accessSize u group)).isSome = true := by
  cases hline : readNumber u (lineNumber u group) <;> cases hsize : readNumber u (accessSize u group) <;>
    simp [parseIssue, hline, hsize]

theorem step_eq_some {limit : ℕ} {s s' : Excerpts} {group : List Text} (h : s.step u tool limit group = some s') :
    s'.occurrences.map Occurrence.message = s.occurrences.map Occurrence.message ++ [group.headD []] := by
  simp only [Excerpts.step, Option.bind_eq_bind, Option.bind_eq_some_iff] at h
  obtain ⟨occurrence, hparse, h⟩ := h
  split_ifs at h <;> rw [← Option.some.inj h] <;> simp [parseIssue_eq_some hparse]

theorem step_isSome (limit : ℕ) (s : Excerpts) {group : List Text} :
    (s.step u tool limit group).isSome = (parseIssue u tool group).isSome := by
  unfold Excerpts.step
  cases parseIssue u tool group with
  | none => rfl
  | some occurrence =>
      simp only [Option.bind_eq_bind, Option.bind_some]
      split_ifs <;> rfl

theorem foldlM_messages {limit : ℕ} {groups : List (List Text)} {s s' : Excerpts}
    (h : groups.foldlM (Excerpts.step u tool limit) s = some s') :
    s'.occurrences.map Occurrence.message =
      s.occurrences.map Occurrence.message ++ groups.map fun group => group.headD [] := by
  induction groups generalizing s with
  | nil =>
      rw [← Option.some.inj h]
      simp
  | cons group rest ih =>
      rw [List.foldlM_cons, Option.bind_eq_bind, Option.bind_eq_some_iff] at h
      obtain ⟨s₁, hstep, h⟩ := h
      rw [ih h, step_eq_some hstep, List.map_cons, List.append_assoc]
      rfl

theorem foldlM_isSome {limit : ℕ} {groups : List (List Text)} {s : Excerpts} :
    (groups.foldlM (Excerpts.step u tool limit) s).isSome = true ↔
      ∀ group ∈ groups, (parseIssue u tool group).isSome = true := by
  induction groups generalizing s with
  | nil => simp
  | cons group rest ih =>
      rw [List.foldlM_cons, Option.bind_eq_bind, List.forall_mem_cons, ← step_isSome limit s]
      cases s.step u tool limit group with
      | none => simp
      | some s₁ => simpa using ih

variable {occurrences : List Occurrence}

/-- **Each opening line is the message of one occurrence**, up to the limit. -/
theorem occurrencesOf_messages (h : occurrencesOf u output tool maxIssues = some occurrences) :
    occurrences.map Occurrence.message =
      (openings u false (cleanOutputLines u output)).take maxParsedIssueOccurrences := by
  obtain ⟨s, hfold, rfl⟩ := Option.map_eq_some_iff.mp h
  rw [foldlM_messages hfold, (groupLines_openings _).1]
  rfl

theorem occurrencesOf_length (h : occurrencesOf u output tool maxIssues = some occurrences) : occurrences.length =
    min (openings u false (cleanOutputLines u output)).length maxParsedIssueOccurrences := by
  rw [← List.length_map Occurrence.message, occurrencesOf_messages h, List.length_take, min_comm]

end

/-! ### Numbers -/

/-- Every number that is read without a guard has at most `maxStrDigits` digits: the line and the access size of the
groups, and the counts of the summaries. -/
structure Readable (u : Unicode) (output : Text) : Prop where
  lines : ∀ group ∈ (groupLines u (cleanOutputLines u output)).groups, ∀ digits ∈ lineNumber u group,
    digits.length ≤ Unicode.maxStrDigits
  sizes : ∀ group ∈ (groupLines u (cleanOutputLines u output)).groups, ∀ digits ∈ accessSize u group,
    digits.length ≤ Unicode.maxStrDigits
  summaries : ∀ digits ∈ summaryNumbers u output, digits.length ≤ Unicode.maxStrDigits

/-- A text that `int` reads if it is short. -/
def Digits (u : Unicode) (text : Text) : Prop := text ≠ [] ∧ ∀ c ∈ text, u.isDigit c = true

theorem find_digits {re name : String} {ignoreCase : Bool} {text digits : Text}
    (hre : Regex.groupsAre name (.plus .digit) (Regex.compile re) = true)
    (h : digits ∈ ((Regex.compile re).find u ignoreCase text).bind fun q => q.group name) : Digits u digits := by
  obtain ⟨q, hfind, hgroup⟩ := Option.bind_eq_some_iff.mp h
  exact (Regex.group_takes (Regex.findFrom_groupsTake hre text none hfind) hgroup).digits

theorem lineNumber_digits {group : List Text} : ∀ digits ∈ lineNumber u group, Digits u digits :=
  fun _ h => find_digits (by decide +kernel) h

theorem accessSize_digits {group : List Text} : ∀ digits ∈ accessSize u group, Digits u digits :=
  fun _ h => find_digits (by decide +kernel) h

theorem summaryNumbers_digits {output : Text} : ∀ digits ∈ summaryNumbers u output, Digits u digits := by
  intro digits h
  obtain ⟨q, hq, hgroup⟩ := List.mem_filterMap.mp h
  rcases List.mem_append.mp hq with hq | hq
  · exact (Regex.group_takes (Regex.finditer_groupsTake (by decide +kernel) output q hq) hgroup).digits
  · exact (Regex.group_takes (Regex.finditer_groupsTake (by decide +kernel) output q hq) hgroup).digits

theorem readNumber_isSome {number : Option Text} (h : ∀ digits ∈ number, Digits u digits) :
    (readNumber u number).isSome = true ↔ ∀ digits ∈ number, digits.length ≤ Unicode.maxStrDigits := by
  cases number with
  | none => simp [readNumber]
  | some digits =>
      obtain ⟨hne, hall⟩ := h digits rfl
      rw [readNumber, Option.isSome_map, Unicode.int_digits hne hall]
      simp

theorem mapM_isSome {α β : Type} {f : α → Option β} {l : List α} :
    (l.mapM f).isSome = true ↔ ∀ x ∈ l, (f x).isSome = true := by
  induction l with
  | nil => simp
  | cons x rest ih =>
      rw [List.mapM_cons, List.forall_mem_cons, ← ih]
      cases f x <;> cases rest.mapM f <;> simp

theorem mem_of_mapM {α β : Type} {f : α → Option β} {l : List α} {r : List β} (h : l.mapM f = some r) (y : β) :
    y ∈ r ↔ ∃ x ∈ l, f x = some y := by
  induction l generalizing r with
  | nil =>
      rw [← Option.some.inj h]
      simp
  | cons x rest ih =>
      simp only [List.mapM_cons, Option.bind_eq_bind, Option.bind_eq_some_iff] at h
      obtain ⟨y', hy', r', hr', h⟩ := h
      rw [← Option.some.inj h, List.mem_cons, ih hr', List.exists_mem_cons_iff, hy', Option.some.injEq, eq_comm]

theorem occurrencesOf_isSome {output tool : Text} {maxIssues : ℤ} :
    (occurrencesOf u output tool maxIssues).isSome = true ↔
      ∀ group ∈ (groupLines u (cleanOutputLines u output)).groups,
        (∀ digits ∈ lineNumber u group, digits.length ≤ Unicode.maxStrDigits) ∧
          ∀ digits ∈ accessSize u group, digits.length ≤ Unicode.maxStrDigits := by
  rw [occurrencesOf, Option.isSome_map, foldlM_isSome]
  refine forall₂_congr fun group _ => ?_
  rw [parseIssue_isSome, readNumber_isSome lineNumber_digits, readNumber_isSome accessSize_digits]

theorem summaries_isSome {output : Text} : ((summaryNumbers u output).mapM u.int).isSome = true ↔
    ∀ digits ∈ summaryNumbers u output, digits.length ≤ Unicode.maxStrDigits := by
  rw [mapM_isSome]
  refine forall₂_congr fun digits h => ?_
  exact Unicode.int_digits (summaryNumbers_digits digits h).1 (summaryNumbers_digits digits h).2

/-! ### Aggregated issues -/

/-- The ranges of one field are those of the values that some occurrences carry. -/
def Ranges.Describe (r : Ranges) (field : Occurrence → Option Coordinates) (group : List Occurrence) : Prop :=
  IsRange r.x (axisValues field Coordinates.x group) ∧ IsRange r.y (axisValues field Coordinates.y group) ∧
    IsRange r.z (axisValues field Coordinates.z group)

/-- What an aggregated issue says of its occurrences. -/
structure Issue.Describes (issue : Issue) (group : List Occurrence) : Prop where
  count : issue.occurrenceCount = group.length
  nonempty : group ≠ []
  threads : issue.threads.Describe Occurrence.thread group
  blocks : issue.blocks.Describe Occurrence.block group
  addresses : IsRange issue.addresses (addressValues group)

theorem aggregate_describes {group : List Occurrence} (hne : group ≠ []) (first : Occurrence) :
    (aggregate group first).Describes group where
  count := rfl
  nonempty := hne
  threads := ⟨isRange_rangeBounds _, isRange_rangeBounds _, isRange_rangeBounds _⟩
  blocks := ⟨isRange_rangeBounds _, isRange_rangeBounds _, isRange_rangeBounds _⟩
  addresses := isRange_rangeBounds _

theorem axisValues_flatten (field : Occurrence → Option Coordinates) (axis : Coordinates → Option ℤ)
    (groups : List (List Occurrence)) :
    axisValues field axis groups.flatten = groups.flatMap (axisValues field axis) := by
  simp only [axisValues, List.filterMap_flatten, List.map_map, List.flatMap]
  rfl

theorem addressValues_flatten (groups : List (List Occurrence)) :
    addressValues groups.flatten = groups.flatMap addressValues := by
  simp only [addressValues, List.filterMap_flatten, List.map_flatten, List.map_map, List.flatMap]
  rfl

theorem Ranges.describe_flatten {r : Ranges} {field : Occurrence → Option Coordinates}
    {groups : List (List Occurrence)} (hne : groups ≠ []) (h : ∀ g ∈ groups, r.Describe field g) :
    r.Describe field groups.flatten := by
  simp only [Ranges.Describe, axisValues_flatten]
  exact ⟨IsRange.flatMap hne fun g hg => (h g hg).1, IsRange.flatMap hne fun g hg => (h g hg).2.1,
    IsRange.flatMap hne fun g hg => (h g hg).2.2⟩

/-- The issue of a group of occurrences. -/
def issueOf (group : List Occurrence) : Issue := ((group.head?).map (aggregate group)).getD default

theorem issueOf_describes {group : List Occurrence} (hne : group ≠ []) : (issueOf group).Describes group := by
  obtain ⟨first, rest, rfl⟩ := List.exists_cons_of_ne_nil hne
  exact aggregate_describes hne first

/-- Issues that differ in their place only are one issue of all their occurrences. -/
theorem merge_describes {groups : List (List Occurrence)} {first : List Occurrence} (hfirst : first ∈ groups)
    (hne : ∀ g ∈ groups, g ≠ [])
    (hsame : ∀ g ∈ groups, crossKernelIssueSignature (issueOf g) = crossKernelIssueSignature (issueOf first)) :
    (merge (groups.map issueOf) (issueOf first)).issue.Describes groups.flatten := by
  have hgroups : groups ≠ [] := List.ne_nil_of_mem hfirst
  have heach {g : List Occurrence} (hg : g ∈ groups) : (issueOf first).threads = (issueOf g).threads ∧
      (issueOf first).blocks = (issueOf g).blocks ∧ (issueOf first).addresses = (issueOf g).addresses := by
    have h := hsame g hg
    simp only [crossKernelIssueSignature, Issue.mk.injEq] at h
    exact ⟨h.2.2.2.2.2.2.2.2.2.1.symm, h.2.2.2.2.2.2.2.2.2.2.1.symm, h.2.2.2.2.2.2.2.2.2.2.2.1.symm⟩
  refine ⟨?_, ?_, ?_, ?_, ?_⟩
  · change ((groups.map issueOf).map Issue.occurrenceCount).sum = groups.flatten.length
    rw [List.length_flatten, List.map_map]
    exact congrArg List.sum (List.map_congr_left fun g hg => (issueOf_describes (hne g hg)).count)
  · obtain ⟨x, hx⟩ := List.exists_mem_of_ne_nil first (hne first hfirst)
    exact List.ne_nil_of_mem (List.mem_flatten.mpr ⟨first, hfirst, hx⟩)
  · exact Ranges.describe_flatten hgroups fun g hg => (heach hg).1 ▸ (issueOf_describes (hne g hg)).threads
  · exact Ranges.describe_flatten hgroups fun g hg => (heach hg).2.1 ▸ (issueOf_describes (hne g hg)).blocks
  · rw [addressValues_flatten]
    exact IsRange.flatMap hgroups fun g hg => (heach hg).2.2 ▸ (issueOf_describes (hne g hg)).addresses

/-- The occurrences of each aggregated issue: the buckets of one signature, gathered by the signature without place. -/
def occurrenceGroups (u : Unicode) (occurrences : List Occurrence) : List (List (List Occurrence)) :=
  (buckets (crossKernelIssueSignature ∘ issueOf) ((buckets (issueSignature u) occurrences).map Prod.snd)).map Prod.snd

theorem issueOf_eq_some {group : List Occurrence} (hne : group ≠ []) :
    group.head?.map (aggregate group) = some (issueOf group) := by
  obtain ⟨first, rest, rfl⟩ := List.exists_cons_of_ne_nil hne
  rfl

/-- The merged issue of some groups of occurrences. -/
def mergedOf (groups : List (List Occurrence)) : MergedIssue := merge (groups.map issueOf) (issueOf (groups.headD []))

/-- **The aggregated issues are those of the groups of occurrences.** -/
theorem aggregate_eq (occurrences : List Occurrence) :
    aggregateComputeSanitizerIssues u occurrences = (occurrenceGroups u occurrences).map mergedOf := by
  have hfirst : ((buckets (issueSignature u) occurrences).filterMap fun b => b.2.head?.map (aggregate b.2)) =
      ((buckets (issueSignature u) occurrences).map Prod.snd).map issueOf := by
    rw [List.map_map, ← List.filterMap_eq_map']
    exact List.filterMap_congr fun b hb => issueOf_eq_some (buckets_sorted _ _ b hb).1
  rw [aggregateComputeSanitizerIssues, hfirst, aggregateEquivalentKernelLocations, buckets_map, List.filterMap_map,
    occurrenceGroups, List.map_map]
  refine Eq.trans (List.filterMap_congr (g := fun b => some (mergedOf b.2)) fun b hb => ?_)
    (congrFun List.filterMap_eq_map' _)
  obtain ⟨group, rest, hcons⟩ := List.exists_cons_of_ne_nil (buckets_sorted _ _ b hb).1
  simp only [Function.comp_apply, mergedOf, hcons, List.map_cons, List.head?_cons, Option.map_some, List.headD_cons]

/-- The groups hold every occurrence once. -/
theorem occurrenceGroups_perm (occurrences : List Occurrence) :
    ((occurrenceGroups u occurrences).map List.flatten).flatten.Perm occurrences := by
  rw [← List.flatten_flatten]
  exact (buckets_perm (crossKernelIssueSignature ∘ issueOf)
    ((buckets (issueSignature u) occurrences).map Prod.snd)).flatten.trans (buckets_perm (issueSignature u) occurrences)

/-- Each issue describes its group. -/
theorem mergedOf_describes {occurrences : List Occurrence} {groups : List (List Occurrence)}
    (h : groups ∈ occurrenceGroups u occurrences) : (mergedOf groups).issue.Describes groups.flatten := by
  obtain ⟨b, hb, rfl⟩ := List.mem_map.mp h
  obtain ⟨hne, hkey⟩ := buckets_sorted _ _ b hb
  have hmem : ∀ g ∈ b.2, g ≠ [] := by
    intro g hg
    have hg' := (buckets_perm (crossKernelIssueSignature ∘ issueOf)
      ((buckets (issueSignature u) occurrences).map Prod.snd)).subset (List.mem_flatMap.mpr ⟨b, hb, hg⟩)
    obtain ⟨b', hb', rfl⟩ := List.mem_map.mp hg'
    exact (buckets_sorted _ _ b' hb').1
  have hhead : b.2.headD [] ∈ b.2 := by
    obtain ⟨g, rest, hcons⟩ := List.exists_cons_of_ne_nil hne
    rw [hcons]
    exact List.mem_cons_self
  exact merge_describes hhead hmem fun g hg => (hkey g hg).trans (hkey _ hhead).symm

/-! ### The report -/

/-- What a report conserves of the output, whose parsed occurrences are given. -/
structure Report.Conserves (report : Report) (u : Unicode) (output : Text) (maxIssues : ℤ)
    (occurrences : List Occurrence) : Prop where
  /-- Each opening line, up to the limit, is the message of one occurrence. -/
  opened : occurrences.map Occurrence.message =
    (openings u false (cleanOutputLines u output)).take maxParsedIssueOccurrences
  parsed : report.parsedIssueCount =
    min (openings u false (cleanOutputLines u output)).length maxParsedIssueOccurrences
  /-- The aggregated issues are of groups that hold every occurrence once, and the reported ones of the first groups. -/
  groups : ∃ groups : List (List Occurrence), groups.flatten.Perm occurrences ∧
    List.Forall₂ (fun merged group => merged.issue.Describes group) (aggregateComputeSanitizerIssues u occurrences)
      groups ∧
    List.Forall₂ (fun merged group => merged.issue.Describes group) report.issues
      (groups.take (issueGroupLimit maxIssues))
  returned : report.issues = (aggregateComputeSanitizerIssues u occurrences).take (issueGroupLimit maxIssues)
  counted : ((aggregateComputeSanitizerIssues u occurrences).map fun merged => merged.issue.occurrenceCount).sum =
    report.parsedIssueCount
  occurrencesTruncated : report.occurrencesTruncated = true ↔
    report.parsedIssueCount < (openings u false (cleanOutputLines u output)).length ∨
      ∃ digits ∈ summaryNumbers u output, ∃ count, u.int digits = some count ∧ (report.parsedIssueCount : ℤ) < count
  issueGroupsTruncated : report.issueGroupsTruncated = true ↔
    report.issues ≠ aggregateComputeSanitizerIssues u occurrences

theorem lt_foldl_max {n m : ℕ} {counts : List ℕ} : n < counts.foldl max m ↔ n < m ∨ ∃ count ∈ counts, n < count := by
  induction counts generalizing m with
  | nil => simp
  | cons count rest ih =>
      have hmax : n < max m count ↔ n < m ∨ n < count := by omega
      rw [List.foldl_cons, ih, hmax]
      simp [or_assoc]

theorem take_ne_iff {α : Type} {n : ℕ} {l : List α} : l.take n ≠ l ↔ (l.take n).length < l.length := by
  rw [Ne, List.take_eq_self_iff, List.length_take]
  omega

section

variable {output tool : Text} {maxIssues : ℤ} {occurrences : List Occurrence} {report : Report}

theorem aggregate_describes_groups (occurrences : List Occurrence) :
    List.Forall₂ (fun merged group => merged.issue.Describes group) (aggregateComputeSanitizerIssues u occurrences)
      ((occurrenceGroups u occurrences).map List.flatten) := by
  rw [aggregate_eq, List.forall₂_map_left_iff, List.forall₂_map_right_iff, List.forall₂_same]
  exact fun groups h => mergedOf_describes h

theorem aggregate_counts (occurrences : List Occurrence) :
    ((aggregateComputeSanitizerIssues u occurrences).map fun merged => merged.issue.occurrenceCount).sum =
      occurrences.length := by
  have hcounts : ((occurrenceGroups u occurrences).map mergedOf).map (fun merged => merged.issue.occurrenceCount) =
      ((occurrenceGroups u occurrences).map List.flatten).map List.length := by
    rw [List.map_map, List.map_map]
    exact List.map_congr_left fun groups h => (mergedOf_describes h).count
  rw [aggregate_eq, hcounts, ← List.length_flatten, (occurrenceGroups_perm _).length_eq]

/-- A report conserves the occurrences that it parses. -/
theorem conserves_of_some (hoccurrences : occurrencesOf u output tool maxIssues = some occurrences)
    (hreport : parseComputeSanitizerOutput u output tool maxIssues = some report) :
    report.Conserves u output maxIssues occurrences := by
  simp only [parseComputeSanitizerOutput, hoccurrences, Option.bind_eq_bind, Option.bind_some,
    Option.bind_eq_some_iff] at hreport
  obtain ⟨counts, hcounts, hreport⟩ := hreport
  obtain rfl := Option.some.inj hreport
  have hobserved := (groupLines_openings (u := u) (cleanOutputLines u output)).2
  refine ⟨occurrencesOf_messages hoccurrences, occurrencesOf_length hoccurrences,
    ⟨_, occurrenceGroups_perm _, aggregate_describes_groups _, ?_⟩, rfl, aggregate_counts _, ?_, ?_⟩
  · exact List.forall₂_take _ (aggregate_describes_groups occurrences)
  · have hmax {a b c : ℕ} : a < max b c ↔ a < c ∨ a < b := by omega
    simp only [decide_eq_true_eq, hobserved, hmax, lt_foldl_max, Nat.not_lt_zero, false_or]
    refine or_congr_right ?_
    constructor
    · rintro ⟨_, hmem, hlt⟩
      obtain ⟨count, hcount, rfl⟩ := List.mem_map.mp hmem
      obtain ⟨digits, hdigits, hint⟩ := (mem_of_mapM hcounts count).mp hcount
      exact ⟨digits, hdigits, count, hint, by omega⟩
    · rintro ⟨digits, hdigits, count, hint, hlt⟩
      exact ⟨count.toNat, List.mem_map_of_mem ((mem_of_mapM hcounts count).mpr ⟨digits, hdigits, hint⟩), by omega⟩
  · simp only [decide_eq_true_eq]
    exact take_ne_iff.symm

theorem parse_isSome : (parseComputeSanitizerOutput u output tool maxIssues).isSome = true ↔
    (occurrencesOf u output tool maxIssues).isSome = true ∧ ((summaryNumbers u output).mapM u.int).isSome = true := by
  unfold parseComputeSanitizerOutput
  cases occurrencesOf u output tool maxIssues <;> cases (summaryNumbers u output).mapM u.int <;> simp

/-- **A sanitizer report conserves the diagnostics of the output**, for every text, tool and limit, exactly when no
number in it is too long to be read. -/
theorem report_conserves_iff (u : Unicode) (output tool : Text) (maxIssues : ℤ) :
    (∃ occurrences report, occurrencesOf u output tool maxIssues = some occurrences ∧
      parseComputeSanitizerOutput u output tool maxIssues = some report ∧
        report.Conserves u output maxIssues occurrences) ↔ Readable u output := by
  constructor
  · rintro ⟨occurrences, report, hoccurrences, hreport, -⟩
    have hgroups := occurrencesOf_isSome.mp (Option.isSome_iff_exists.mpr ⟨occurrences, hoccurrences⟩)
    have hsummaries := (parse_isSome.mp (Option.isSome_iff_exists.mpr ⟨report, hreport⟩)).2
    exact ⟨fun group hgroup => (hgroups group hgroup).1, fun group hgroup => (hgroups group hgroup).2,
      summaries_isSome.mp hsummaries⟩
  · intro h
    have hgroups : (occurrencesOf u output tool maxIssues).isSome = true :=
      occurrencesOf_isSome.mpr fun group hgroup => ⟨h.lines group hgroup, h.sizes group hgroup⟩
    have hparse := parse_isSome.mpr ⟨hgroups, summaries_isSome.mpr h.summaries⟩
    obtain ⟨occurrences, hoccurrences⟩ := Option.isSome_iff_exists.mp hgroups
    obtain ⟨report, hreport⟩ := Option.isSome_iff_exists.mp hparse
    exact ⟨occurrences, report, hoccurrences, hreport, conserves_of_some hoccurrences hreport⟩

end

/-! ### A count that is too long -/

/-- The pattern of the error summaries in its parts. -/
theorem errorSummaryRe_eq : Regex.compile errorSummaryRe =
    Regex.literal "ERROR SUMMARY:".toList (.seq (.star (.test .space)) (.seq (.group "" (.plus .digit))
      (.seq (.plus .space) (Regex.literal "error".toList (.alt (.test (.exact 's')) .empty))))) := by
  decide +kernel

/-- A summary that counts with the given digits. -/
def summaryOf (digits : Text) : Text := "ERROR SUMMARY:".toList ++ (" ".toList ++ (digits ++ (" ".toList ++ "errors".toList)))

theorem mem_summaryNumbers {digits : Text} (h : ∀ c ∈ digits, u.isDigit c = true) (hne : digits ≠ []) :
    digits ∈ summaryNumbers u (summaryOf digits) := by
  have hblank : u.isSpace ' ' = true := u.isSpace_ascii ' ' (by decide)
  have hletter : u.isSpace 'e' = false := u.isSpace_ascii 'e' (by decide)
  have hdigit : u.isDigit ' ' = false := by
    rw [Unicode.isDigit, u.digitValue_ascii ' ' (by decide)]
    rfl
  have hstart : ∀ c ∈ (digits ++ (" ".toList ++ "errors".toList)).head?, u.isSpace c = false := by
    obtain ⟨c, rest, rfl⟩ := List.exists_cons_of_ne_nil hne
    intro c' hc'
    obtain rfl : c = c' := by simpa using hc'
    exact u.isSpace_of_digitValue c (h c List.mem_cons_self)
  -- the positions behind the title, the blank, the digits and the second blank
  let p₁ := Position.after ⟨none, summaryOf digits, []⟩ "ERROR SUMMARY:".toList
    (" ".toList ++ (digits ++ (" ".toList ++ "errors".toList)))
  let p₂ := p₁.after " ".toList (digits ++ (" ".toList ++ "errors".toList))
  let p₃ : Position := { p₂.after digits (" ".toList ++ "errors".toList) with groups := [("", digits)] }
  let p₄ := p₃.after " ".toList "errors".toList
  have hword : ((Regex.literal "error".toList (.alt (.test (.exact 's')) .empty)).ends u true p₄).head? =
      some ⟨some 's', [], [("", digits)]⟩ := by
    refine Regex.ends_literal "s".toList rfl ?_
    simp [Regex.ends, Regex.advance, Position.after, CharTest.accepts, p₄, p₃]
  have hmatch : ((Regex.compile errorSummaryRe).ends u true ⟨none, summaryOf digits, []⟩).head? =
      some ⟨some 's', [], [("", digits)]⟩ := by
    rw [errorSummaryRe_eq]
    refine Regex.ends_literal (" ".toList ++ (digits ++ (" ".toList ++ "errors".toList))) rfl ?_
    refine Regex.ends_seq p₂ (Regex.ends_star (by simp [CharTest.accepts, hblank]) hstart rfl) ?_
    have hnumber : ((Regex.plus .digit).ends u true p₂).head? = some (p₂.after digits (" ".toList ++ "errors".toList)) :=
      Regex.ends_plus hne h (by simp [CharTest.accepts, hdigit]) rfl
    refine Regex.ends_seq p₃ (Regex.ends_group hnumber rfl) ?_
    exact Regex.ends_seq p₄
      (Regex.ends_plus (by simp) (by simp [CharTest.accepts, hblank]) (by simp [CharTest.accepts, hletter]) rfl) hword
  have hfound := Regex.mem_finditer (List.cons_ne_nil _ _) hmatch
  rw [summaryNumbers, List.mem_filterMap]
  exact ⟨_, List.mem_append_left _ hfound, rfl⟩

/-- A count of 4301 digits is no number for `int`, and there is no report. -/
theorem long_count_raises :
    parseComputeSanitizerOutput Unicode.ascii (summaryOf (List.replicate 4301 '1')) "memcheck".toList 20 = none := by
  have hdigits : ∀ c ∈ List.replicate 4301 '1', Unicode.ascii.isDigit c = true := fun c hc =>
    List.eq_of_mem_replicate hc ▸ rfl
  have hmem := mem_summaryNumbers hdigits (List.ne_nil_of_length_pos (by rw [List.length_replicate]; decide))
  rw [← Option.not_isSome_iff_eq_none]
  intro hsome
  have hshort := summaries_isSome.mp (parse_isSome.mp hsome).2 _ hmem
  rw [List.length_replicate] at hshort
  exact absurd hshort (by decide)

end KernelGym.Sanitizer
