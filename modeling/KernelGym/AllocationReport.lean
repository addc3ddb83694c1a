import KernelGym.AllocationCalls

/-! The lines that the detection reports, and when the report is exact. -/

namespace KernelGym.DirectAllocations

open Library

variable {u : Unicode}

/-! ### Numbers of lines -/

/-- Which characters of a text end its lines. -/
def newlines (text : Text) : List Bool := text.map fun c => c = '\n'

theorem newlines_blank (c : Char) : decide (blank c = '\n') = decide (c = '\n') := by
  by_cases hc : c = '\n'
  · simp [blank, hc]
  · simp [blank, hc]

theorem newlines_blankBlocks (inBlock : Bool) (text : Text) : newlines (blankBlocks inBlock text) = newlines text := by
  induction inBlock, text using blankBlocks.induct with
  | case1 => rw [blankBlocks]
  | case2 rest ih => rw [blankBlocks]; exact congrArg (false :: false :: ·) ih
  | case3 c rest hclose ih =>
      rw [blankBlocks]
      · exact congrArg₂ List.cons (newlines_blank c) ih
      · exact hclose
  | case4 rest hopen ih => rw [blankBlocks, if_pos hopen]; exact congrArg (false :: false :: ·) ih
  | case5 rest hopen ih => rw [blankBlocks, if_neg hopen]; exact congrArg (false :: ·) ih
  | case6 c rest hblock ih =>
      rw [blankBlocks]
      · exact congrArg (decide (c = '\n') :: ·) ih
      · exact hblock

theorem newlines_blankLines (inLine : Bool) (text : Text) : newlines (blankLines inLine text) = newlines text := by
  induction inLine, text using blankLines.induct with
  | case1 => rw [blankLines]
  | case2 rest ih => rw [blankLines, if_pos rfl]; exact congrArg (true :: ·) ih
  | case3 c rest hc ih =>
      rw [blankLines, if_neg hc]
      exact congrArg₂ List.cons (decide_eq_false hc).symm ih
  | case4 rest ih => rw [blankLines]; exact congrArg (false :: false :: ·) ih
  | case5 c rest hline ih =>
      rw [blankLines]
      · exact congrArg (decide (c = '\n') :: ·) ih
      · exact hline

theorem newlines_strip (source : Text) : newlines (stripCppComments source) = newlines source := by
  rw [stripCppComments, newlines_blankLines, newlines_blankBlocks]

theorem length_strip (source : Text) : (stripCppComments source).length = source.length := by
  have hlength := congrArg List.length (newlines_strip source)
  rwa [newlines, newlines, List.length_map, List.length_map] at hlength

/-- The blanks keep the numbers of the lines. -/
theorem count_strip (source : Text) (start : ℕ) :
    ((stripCppComments source).take start).count '\n' = (source.take start).count '\n' := by
  have hcount (text : Text) : (text.take start).count '\n' = ((newlines text).take start).count true := by
    rw [newlines, ← List.map_take, List.count, List.count, List.countP_map]
    exact List.countP_congr fun c _ => by simp
  rw [hcount, hcount, newlines_strip]

/-! ### Texts of lines -/

/-- Lines end with a newline only, or with a carriage return in front of it. -/
def plainLines : Text → Bool
  | [] => true
  | '\r' :: '\n' :: rest => plainLines rest
  | '\r' :: rest => rest.isEmpty
  | c :: rest => (c = '\n' || c ∉ lineBreaks) && plainLines rest

/-- A text behind its last newline. -/
def lastLine (text : Text) : Text := (text.reverse.takeWhile (· ≠ '\n')).reverse

theorem lastLine_newline (text rest : Text) : lastLine (text ++ '\n' :: rest) = lastLine rest := by
  have htake (front back : Text) : (front ++ '\n' :: back).takeWhile (· ≠ '\n') = front.takeWhile (· ≠ '\n') := by
    induction front with
    | nil => rfl
    | cons c front ih =>
        rw [List.cons_append, List.takeWhile_cons, List.takeWhile_cons, ih]
  rw [lastLine, List.reverse_append, List.reverse_cons, List.append_assoc, List.singleton_append, htake, lastLine]

theorem lastLine_of_notMem {text : Text} (h : '\n' ∉ text) : lastLine text = text := by
  rw [lastLine, List.takeWhile_eq_self_iff.mpr, List.reverse_reverse]
  intro c hc
  exact decide_eq_true fun hnewline => h (hnewline ▸ List.mem_reverse.mp hc)

/-- The line of `splitlines` that has the number of the last line of a plain text. -/
theorem splitLines_last (current : Text) {text rest : Text} (hplain : plainLines text = true)
    (hrest : ∀ c ∈ rest.head?, c = '\n')
    (hcurrent : '\n' ∉ current) (hne : lastLine (current.reverse ++ text) ≠ []) :
    ∃ line, (splitLinesFrom current (text ++ rest))[text.count '\n']? = some line ∧
      (lastLine (current.reverse ++ text) = line ∨ lastLine (current.reverse ++ text) = line ++ ['\r']) := by
  have hreverse {current : Text} (h : '\n' ∉ current) : lastLine current.reverse = current.reverse :=
    lastLine_of_notMem fun hmem => h (List.mem_reverse.mp hmem)
  induction text using plainLines.induct generalizing current with
  | case1 =>
      rw [List.append_nil, hreverse hcurrent] at hne ⊢
      refine ⟨current.reverse, ?_, .inl rfl⟩
      cases rest with
      | nil => rw [List.nil_append, splitLinesFrom, if_neg (by simpa using hne)]; rfl
      | cons c rest =>
          obtain rfl := hrest c rfl
          rw [List.nil_append, splitLinesFrom_newline]
          rfl
  | case2 text ih =>
      have hlast : lastLine (current.reverse ++ '\r' :: '\n' :: text) = lastLine text := by
        rw [← List.singleton_append, ← List.append_assoc, lastLine_newline]
      rw [hlast] at hne ⊢
      obtain ⟨line, hline, hsame⟩ := ih [] hplain List.not_mem_nil hne
      refine ⟨line, ?_, hsame⟩
      rw [List.cons_append, List.cons_append, splitLinesFrom_crlf, List.count_cons_of_ne (by decide), List.count_cons_self]
      exact hline
  | case3 text hcrlf =>
      obtain rfl : text = [] := by
        rw [plainLines] at hplain
        · exact List.isEmpty_iff.mp hplain
        · exact hcrlf
      have hlast : lastLine (current.reverse ++ ['\r']) = current.reverse ++ ['\r'] := by
        refine lastLine_of_notMem fun hmem => ?_
        rcases List.mem_append.mp hmem with h | h
        · exact hcurrent (List.mem_reverse.mp h)
        · exact absurd (List.mem_singleton.mp h) (by decide)
      refine ⟨current.reverse, ?_, .inr hlast⟩
      cases rest with
      | nil => rfl
      | cons c rest =>
          obtain rfl := hrest c rfl
          rw [List.singleton_append, splitLinesFrom_crlf]
          rfl
  | case4 c text hcrlf hreturn ih =>
      rw [plainLines, Bool.and_eq_true, Bool.or_eq_true, decide_eq_true_eq, decide_eq_true_eq] at hplain
      · obtain ⟨hc, hplain⟩ := hplain
        by_cases hnewline : c = '\n'
        · subst hnewline
          rw [lastLine_newline] at hne ⊢
          obtain ⟨line, hline, hsame⟩ := ih [] hplain List.not_mem_nil hne
          refine ⟨line, ?_, hsame⟩
          rw [List.cons_append, splitLinesFrom_newline, List.count_cons_self]
          exact hline
        · have hshift : current.reverse ++ c :: text = (c :: current).reverse ++ text := by simp
          rw [hshift] at hne ⊢
          obtain ⟨line, hline, hsame⟩ := ih (c :: current) hplain
            (fun hmem => (List.mem_cons.mp hmem).elim (fun h => hnewline h.symm) hcurrent) hne
          refine ⟨line, ?_, hsame⟩
          rw [List.cons_append, splitLinesFrom_plain (hc.resolve_left hnewline), List.count_cons_of_ne hnewline]
          exact hline
      · exact hcrlf
      · exact hreturn

/-! ### The report -/

/-- The lines up to a place are those of `splitlines`. -/
def PlainUpTo (source : Text) (start : ℕ) : Prop :=
  plainLines (source.take start ++ (source.drop start).takeWhile (· ≠ '\n')) = true

instance (source : Text) (start : ℕ) : Decidable (PlainUpTo source start) := inferInstanceAs (Decidable (_ = true))

theorem strip_return (text : Text) : u.strip (text ++ ['\r']) = u.strip text := by
  have hspace : u.isSpace '\r' = true := (u.isSpace_ascii '\r' (by decide)).trans rfl
  have hdrop (text : Text) : u.lstrip (text ++ ['\r']) = u.lstrip text ++ (if u.lstrip text = [] then [] else ['\r']) := by
    induction text with
    | nil => exact List.dropWhile_cons_of_pos hspace
    | cons c rest ih =>
        by_cases hc : u.isSpace c = true
        · have hcons (tail : Text) : u.lstrip (c :: tail) = u.lstrip tail := List.dropWhile_cons_of_pos hc
          rw [List.cons_append, hcons, hcons, ih]
        · have hcons (tail : Text) : u.lstrip (c :: tail) = c :: tail := List.dropWhile_cons_of_neg hc
          rw [List.cons_append, hcons, hcons, if_neg (List.cons_ne_nil _ _), List.cons_append]
  rw [Unicode.strip, hdrop]
  split_ifs with hnil
  · rw [List.append_nil]
    rfl
  · exact List.rdropWhile_concat_pos _ _ _ hspace

theorem ne_newline {c : Char} {text : Text} (h : c ∈ text.takeWhile (· ≠ '\n')) : c ≠ '\n' := by
  have hc := List.mem_takeWhile_imp h
  exact of_decide_eq_true hc

/-- **A call on a plain line is reported with its line.** -/
theorem report_eq {source : Text} {start : ℕ} (hstart : start < source.length) (hline : source[start] ≠ '\n')
    (hplain : PlainUpTo source start) (api : Text) :
    report u source (stripCppComments source) api start = some (expectedMatch u source api start) := by
  have hcount : (source.take start ++ (source.drop start).takeWhile (· ≠ '\n')).count '\n' =
      (source.take start).count '\n' := by
    rw [List.count_append, Nat.add_eq_left, List.count_eq_zero]
    exact fun hmem => ne_newline hmem rfl
  have hlast : lastLine (source.take start ++ (source.drop start).takeWhile (· ≠ '\n')) = lineAt source start := by
    have hall : ∀ c ∈ ((source.drop start).takeWhile (· ≠ '\n')).reverse, decide (c ≠ '\n') = true := fun c hc =>
      decide_eq_true (ne_newline (List.mem_reverse.mp hc))
    rw [lastLine, List.reverse_append, List.takeWhile_append_of_pos hall, List.reverse_append, List.reverse_reverse, lineAt]
  have hne : lineAt source start ≠ [] := by
    rw [lineAt, List.drop_eq_getElem_cons hstart, List.takeWhile_cons, if_pos (decide_eq_true hline)]
    simp
  have hrest : ∀ c ∈ ((source.drop start).dropWhile (· ≠ '\n')).head?, c = '\n' := by
    intro c hc
    have hnot := List.head?_dropWhile_not (fun c => decide (c ≠ '\n')) (source.drop start)
    rw [hc] at hnot
    exact not_not.mp (of_decide_eq_false hnot)
  obtain ⟨line, hget, hsame⟩ := splitLines_last [] hplain hrest List.not_mem_nil
    (by rwa [List.reverse_nil, List.nil_append, hlast])
  rw [List.reverse_nil, List.nil_append, hlast] at hsame
  rw [hcount, List.append_assoc, List.takeWhile_append_dropWhile, List.take_append_drop] at hget
  have hstrip : u.strip line = u.strip (lineAt source start) := by
    rcases hsame with h | h
    · rw [h]
    · rw [h, strip_return]
  have hsplit : (splitLines source)[(source.take start).count '\n']? = some line := hget
  simp only [report, expectedMatch, count_strip, Nat.add_sub_cancel, hsplit, Option.map_some, hstrip]

theorem mapM_some {α β : Type} {f : α → Option β} {g : α → β} {l : List α} (h : ∀ x ∈ l, f x = some (g x)) :
    l.mapM f = some (l.map g) := by
  induction l with
  | nil => rfl
  | cons x rest ih =>
      rw [List.mapM_cons, h x List.mem_cons_self, ih fun y hy => h y (List.mem_cons_of_mem x hy)]
      rfl

/-- A source whose comments are found, and whose lines are those of `splitlines` up to every call. -/
structure IsPlain (u : Unicode) (source : Text) : Prop where
  clean : Clean (pieces u source)
  lines : ∀ start < source.length, ∀ api ∈ names, IsCall u (uncommented u source) api start → PlainUpTo source start

instance (u : Unicode) (source : Text) : Decidable (IsPlain u source) :=
  decidable_of_iff (Clean (pieces u source) ∧
      ∀ start < source.length, ∀ api ∈ names, IsCall u (uncommented u source) api start → PlainUpTo source start)
    ⟨fun h => ⟨h.1, h.2⟩, fun h => ⟨h.clean, h.lines⟩⟩

/-- The calls outside comments are found, with their lines. -/
theorem directMatches_eq (u : Unicode) (source : Text) (h : IsPlain u source) :
    directMatches u source = some (expectedMatches u source) := by
  have hstrip : stripCppComments source = uncommented u source := stripped_of_clean source.length le_rfl h.clean
  have hlength : (uncommented u source).length = source.length := by rw [← hstrip, length_strip]
  have hfound : finditerFrom u 0 0 none (stripCppComments source) = (List.range source.length).flatMap fun start =>
      (names.filter fun api => IsCall u (uncommented u source) api start).map fun api => (api, start) := by
    rw [finditerFrom_eq 0 0 none _ fun k hk => absurd hk (Nat.not_lt_zero k), allMatches, length_strip, hstrip]
    refine List.flatMap_congr fun start _ => ?_
    rw [← matchAt_calls, Nat.zero_add]
    cases matchAt u (charBefore none (uncommented u source) start) ((uncommented u source).drop start) <;> rfl
  rw [directMatches, hfound, mapM_some (g := fun found => expectedMatch u source found.1 found.2), List.map_flatMap,
    expectedMatches]
  · refine congrArg some (List.flatMap_congr fun start _ => ?_)
    rw [List.map_map]
    rfl
  · intro found hmem
    obtain ⟨start, hrange, hmem⟩ := List.mem_flatMap.mp hmem
    obtain ⟨api, hcall, rfl⟩ := List.mem_map.mp hmem
    obtain ⟨hname, hcall⟩ := List.mem_filter.mp hcall
    have hstart := List.mem_range.mp hrange
    have hcall := of_decide_eq_true hcall
    refine report_eq hstart (fun hnewline => ?_) (h.lines start hstart api hname hcall) api
    -- the first character of the name stands at the place, and blanks keep the newlines
    obtain ⟨-, ⟨rest, hrest⟩, -⟩ := hcall
    obtain ⟨c, tail, rfl⟩ := List.exists_cons_of_ne_nil (name_ne_nil hname)
    have hget : (uncommented u source)[start]? = some c := by
      rw [← List.head?_drop, ← hrest]
      rfl
    have hsame := congrArg (fun ends => ends[start]?) (hstrip ▸ newlines_strip source)
    simp only [newlines, List.getElem?_map, hget, List.getElem?_eq_getElem hstart, Option.map_some, Option.some.injEq,
      hnewline, decide_true, decide_eq_true_eq] at hsame
    have hword := isWord_of_mem (u := u) hname (c := c) List.mem_cons_self
    rw [hsame, u.isWord_ascii '\n' (by decide)] at hword
    exact absurd hword (by decide)

/-- **The calls outside comments are reported, with their lines, and nothing else.** -/
theorem detected_exactly (u : Unicode) (source : Text) (h : IsPlain u source) :
    (detectDirectCudaAllocations u source).map AllocationCheck.directCudaAllocationMatches =
      some (expectedMatches u source) := by
  rw [detectDirectCudaAllocations, directMatches_eq u source h]
  rfl

def commentedSource : Text := "/* a */ cudaMalloc (p);\n// b /* c */ cuMemCreate(".toList

theorem detected_exactly_commented :
    (detectDirectCudaAllocations Unicode.ascii commentedSource).map AllocationCheck.directCudaAllocationMatches =
      some (expectedMatches Unicode.ascii commentedSource) :=
  detected_exactly Unicode.ascii commentedSource (by decide +kernel)

/-- Slashes in a literal hide the call behind it. -/
theorem slashes_hide_call :
    (detectDirectCudaAllocations Unicode.ascii "f(\"//\"); cudaMalloc(p);".toList).map
        AllocationCheck.directCudaAllocationMatches ≠
      some (expectedMatches Unicode.ascii "f(\"//\"); cudaMalloc(p);".toList) := by
  decide +kernel

end KernelGym.DirectAllocations
