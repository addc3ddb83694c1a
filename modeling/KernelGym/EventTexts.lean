import KernelGym.PageUser

/-! The texts of event streams: how a text splits into events and an event into lines, and that white space around a
text changes nothing of what is read, as long as it makes no line a line of data. -/

namespace KernelGym.PageUser

open Library JsonReader

variable {e : Surroundings}

/-! ### The data of lines -/

variable (e) in
/-- The data that is taken from lines. -/
def dataPart (lines : List Text) : List Text :=
  (lines.filter fun line => dataField.isPrefixOf line).map fun line => e.unicode.lstrip (line.drop dataField.length)

theorem dataPart_append (lines lines' : List Text) :
    dataPart e (lines ++ lines') = dataPart e lines ++ dataPart e lines' := by
  rw [dataPart, List.filter_append, List.map_append]
  rfl

theorem dataPart_blanks {lines : List Text} (h : ∀ line ∈ lines, line = []) : dataPart e lines = [] := by
  rw [dataPart, List.filter_eq_nil_iff.mpr, List.map_nil]
  intro line hline
  rw [h line hline]
  decide

theorem dataPart_other {line : Text} (h : ¬ dataField <+: line) : dataPart e [line] = [] := by
  have hnot : ¬ dataField.isPrefixOf line = true := fun hprefix => h (List.isPrefixOf_iff_prefix.mp hprefix)
  change List.map _ (List.filter _ [line]) = []
  rw [List.filter_cons_of_neg hnot]
  rfl

/-! ### Events of a text -/

theorem splitEvents_ne_nil (text : Text) : splitEvents text ≠ [] := by
  rw [splitEvents.eq_def]
  split
  · exact List.cons_ne_nil _ _
  · exact List.cons_ne_nil _ _
  · split <;> exact List.cons_ne_nil _ _

theorem splitEvents_cons {c : Char} {rest part : Text} {parts : List Text}
    (h : c = '\n' → rest.head? ≠ some '\n') (hrest : splitEvents rest = part :: parts) :
    splitEvents (c :: rest) = (c :: part) :: parts := by
  rw [splitEvents.eq_def]
  split
  · rename_i heq
    exact absurd heq (List.cons_ne_nil _ _)
  · rename_i heq
    obtain ⟨hc, htail⟩ := List.cons.inj heq
    exact absurd (by rw [htail]; rfl) (h hc)
  · rename_i heq
    obtain ⟨rfl, rfl⟩ := List.cons.inj heq
    rw [hrest]

/-- Two characters that do not end an event. -/
def Apart (a b : Char) : Prop := a = '\n' → b ≠ '\n'

theorem splitEvents_whole {text : Text} (h : text.IsChain Apart) : splitEvents text = [text] := by
  induction text with
  | nil => rfl
  | cons c rest ih =>
      obtain ⟨hhead, hrest⟩ := List.isChain_cons.mp h
      refine splitEvents_cons (fun hc hnext => ?_) (ih hrest)
      exact hhead '\n' hnext hc rfl

/-- An empty line behind a text that does not end with a newline ends its last event. -/
theorem splitEvents_append {text : Text} (hne : text ≠ []) (hlast : text.getLast hne ≠ '\n') (rest : Text) :
    splitEvents (text ++ '\n' :: '\n' :: rest) = splitEvents text ++ splitEvents rest := by
  induction text using splitEvents.induct with
  | case1 => exact absurd rfl hne
  | case2 text ih =>
      have htext : text ≠ [] := by
        rintro rfl
        exact hlast rfl
      rw [List.cons_append, List.cons_append, splitEvents, splitEvents,
        ih htext (by simpa [List.getLast_cons htext] using hlast)]
      rfl
  | case3 c text hpair hnil _ => exact absurd hnil (splitEvents_ne_nil text)
  | case4 c text hpair part parts hparts ih =>
      have hfirst : c = '\n' → text.head? ≠ some '\n' := by
        intro hc hhead
        obtain ⟨text', htext'⟩ := List.head?_eq_some_iff.mp hhead
        exact hpair text' hc htext'
      rw [splitEvents_cons hfirst hparts]
      by_cases htext : text = []
      · subst htext
        have hc : c ≠ '\n' := hlast
        obtain ⟨rfl, rfl⟩ : part = [] ∧ parts = [] := by
          simpa [splitEvents, eq_comm] using hparts
        rw [List.singleton_append, splitEvents_cons (fun h => absurd h hc) (by rw [splitEvents])]
        rfl
      · have hlast' : text.getLast htext ≠ '\n' := by simpa [List.getLast_cons htext] using hlast
        have hnext : c = '\n' → (text ++ '\n' :: '\n' :: rest).head? ≠ some '\n' := by
          rw [List.head?_append_of_ne_nil _ htext]
          exact hfirst
        have hsplit := ih htext hlast'
        rw [hparts, List.cons_append] at hsplit
        rw [List.cons_append, splitEvents_cons hnext hsplit]
        rfl

/-- Line ends in front of a text add empty lines only. -/
theorem dataLines_cons {c : Char} (hc : c = '\n' ∨ c = '\r') (text : Text) : dataLines e (c :: text) = dataLines e text := by
  change dataPart e (splitLines (c :: text)) = dataPart e (splitLines text)
  rcases hc with rfl | rfl
  · rw [splitLines, splitLinesFrom_newline]
    rfl
  · by_cases hnext : text.head? = some '\n'
    · obtain ⟨text, rfl⟩ := List.head?_eq_some_iff.mp hnext
      rw [splitLines, splitLinesFrom_crlf, splitLines, splitLinesFrom_newline]
    · rw [splitLines, splitLinesFrom_break (by decide) fun _ => hnext]
      rfl

variable (e) in
/-- The data of the events of a text that have some. -/
def groups (text : Text) : List (List Text) := ((splitEvents text).map (dataLines e)).filter (· ≠ [])

theorem groups_append {text : Text} (hne : text ≠ []) (hlast : text.getLast hne ≠ '\n') (rest : Text) :
    groups e (text ++ '\n' :: '\n' :: rest) = groups e text ++ groups e rest := by
  rw [groups, splitEvents_append hne hlast, List.map_append, List.filter_append]
  rfl

theorem groups_whole {text : Text} (h : text.IsChain Apart) :
    groups e text = if dataLines e text = [] then [] else [dataLines e text] := by
  rw [groups, splitEvents_whole h, List.map_singleton]
  split_ifs with hdata
  · rw [hdata]
    rfl
  · exact List.filter_cons_of_pos (by simpa using hdata)

/-- A newline in front of a text does not change its events. -/
theorem groups_newline (text : Text) : groups e ('\n' :: text) = groups e text := by
  have hpair (rest : Text) : groups e ('\n' :: '\n' :: rest) = groups e rest := by
    rw [groups, splitEvents, List.map_cons]
    exact List.filter_cons_of_neg (by simp [dataLines, splitLines, splitLinesFrom])
  induction hlength : text.length using Nat.strong_induction_on generalizing text with
  | _ n ih =>
      by_cases hnext : text.head? = some '\n'
      · obtain ⟨rest, rfl⟩ := List.head?_eq_some_iff.mp hnext
        rw [hpair, ih rest.length (by simp only [List.length_cons] at hlength; omega) rest rfl]
      · obtain ⟨part, parts, hparts⟩ := List.exists_cons_of_ne_nil (splitEvents_ne_nil text)
        rw [groups, groups, splitEvents_cons (fun _ => hnext) hparts, hparts, List.map_cons, List.map_cons,
          dataLines_cons (.inl rfl)]

/-! ### What is read of a text -/

variable (e) in
/-- What data are read as. -/
def readData (data : List Text) : Except LoadsError JsonValue := JsonReader.loads e.limits (List.intercalate ['\n'] data)

variable (e) in
/-- What is read of the events of a text. -/
def eventLoads (text : Text) : List (Except LoadsError JsonValue) := (splitEvents text).filterMap (dataLoads e)

theorem eventLoads_eq (text : Text) : eventLoads e text = (groups e text).map (readData e) := by
  rw [eventLoads, groups, ← List.filterMap_eq_map', List.filterMap_filter, List.filterMap_map]
  refine List.filterMap_congr fun event _ => ?_
  by_cases hdata : dataLines e event = []
  · simp [dataLoads, hdata]
  · simp [dataLoads, readData, hdata]

/-! ### White space behind a text -/

theorem dataField_not_space {c : Char} (h : c ∈ dataField) : e.unicode.isSpace c = false := by
  have hall : dataField.all (fun c => decide (c.toNat < 128) && !asciiSpace c) = true := by decide +kernel
  have hc := List.all_eq_true.mp hall c h
  simp only [Bool.and_eq_true, decide_eq_true_eq, Bool.not_eq_true'] at hc
  exact (e.unicode.isSpace_ascii c hc.1).trans hc.2

/-- White space does not complete the name of the field. -/
theorem prefix_of_append_space {line blanks : Text} (h : dataField <+: line ++ blanks)
    (hblanks : ∀ c ∈ blanks, e.unicode.isSpace c = true) : dataField <+: line := by
  induction blanks using List.reverseRecOn with
  | nil => rwa [List.append_nil] at h
  | append_singleton blanks c ih =>
      rw [← List.append_assoc, List.prefix_concat_iff] at h
      refine ih (h.resolve_left fun heq => ?_) fun c' hc' => hblanks c' (List.mem_append_left _ hc')
      have hspace := hblanks c (List.mem_append_right _ (List.mem_singleton.mpr rfl))
      have hmem : c ∈ dataField := heq ▸ List.mem_append_right _ (List.mem_singleton.mpr rfl)
      exact Bool.false_ne_true ((dataField_not_space hmem).symm.trans hspace)

theorem lstrip_concat {c : Char} (hc : e.unicode.isSpace c = true) (text : Text) :
    e.unicode.lstrip (text ++ [c]) = e.unicode.lstrip text ∨
      e.unicode.lstrip (text ++ [c]) = e.unicode.lstrip text ++ [c] := by
  rw [Unicode.lstrip, Unicode.lstrip, List.dropWhile_append]
  split
  · rename_i hnil
    rw [List.isEmpty_iff.mp hnil]
    exact .inl (List.dropWhile_cons_of_pos hc)
  · exact .inr rfl

theorem intercalate_concat (c : Char) (line : Text) (lines : List Text) :
    List.intercalate ['\n'] (lines ++ [line ++ [c]]) = List.intercalate ['\n'] (lines ++ [line]) ++ [c] := by
  induction lines with
  | nil => simp [List.intercalate]
  | cons first rest ih =>
      cases rest with
      | nil => simp [List.intercalate]
      | cons second rest => simpa [List.intercalate] using ih

/-- A blank behind an event is not read. -/
theorem dataLoads_concat {c : Char} (hspace : e.unicode.isSpace c = true) (hbreak : c ∈ lineBreaks → c = '\n' ∨ c = '\r')
    {event : Text} (h : isBlank c = true ∨ ¬ dataField <+: lastLine event) :
    dataLoads e (event ++ [c]) = dataLoads e event := by
  have hsame (hlines : dataLines e (event ++ [c]) = dataLines e event) :
      dataLoads e (event ++ [c]) = dataLoads e event := by rw [dataLoads, hlines, dataLoads]
  by_cases hend : c ∈ lineBreaks
  · obtain ⟨empty, hsplit, hall⟩ := splitLinesFrom_concat_break [] event (hbreak hend)
    refine hsame ?_
    change dataPart e (splitLines (event ++ [c])) = dataPart e (splitLines event)
    rw [splitLines, hsplit, dataPart_append, dataPart_blanks hall, List.append_nil]
    rfl
  · obtain ⟨front, hlonger, hsplit⟩ := splitLinesFrom_concat_plain [] event hend (by simp)
    change splitLines (event ++ [c]) = front ++ [lastLine event ++ [c]] at hlonger
    change splitLines event = front ++ (if lastLine event = [] then [] else [lastLine event]) at hsplit
    have hlines (text : Text) : dataLines e text = dataPart e (splitLines text) := rfl
    by_cases hdata : dataField <+: lastLine event
    · -- the blank stands behind the last data
      obtain ⟨text, htext⟩ := hdata
      have hone (tail : Text) : dataPart e [dataField ++ tail] = [e.unicode.lstrip tail] := rfl
      have hshort : dataLines e event = dataPart e front ++ [e.unicode.lstrip text] := by
        rw [hlines, hsplit, ← htext, if_neg (by simp [dataField]), dataPart_append, hone]
      have hlong : dataLines e (event ++ [c]) = dataPart e front ++ [e.unicode.lstrip (text ++ [c])] := by
        rw [hlines, hlonger, ← htext, dataPart_append, List.append_assoc, hone]
      have hblank : isBlank c = true := h.resolve_right fun hnot => hnot ⟨text, htext⟩
      rcases lstrip_concat hspace text with hstrip | hstrip
      · exact hsame (by rw [hlong, hstrip, hshort])
      · rw [dataLoads, dataLoads, hlong, hshort, hstrip, if_neg (by simp), if_neg (by simp), intercalate_concat,
          loads_concat_blank hblank]
    · have hlast : ¬ dataField <+: lastLine event ++ [c] := fun hprefix =>
        hdata (prefix_of_append_space (e := e) hprefix fun x hx => (List.mem_singleton.mp hx) ▸ hspace)
      refine hsame ?_
      rw [hlines, hlines, hlonger, hsplit, dataPart_append, dataPart_append, dataPart_other hlast]
      split_ifs
      · rfl
      · rw [dataPart_other hdata]

/-- One more character behind a text goes to its last event, or it ends it. -/
theorem splitEvents_concat (c : Char) (text : Text) :
    ∃ parts front last, splitEvents text = parts ++ [last] ∧ text = front ++ last ∧
      (parts = [] ∧ front = [] ∨ parts ≠ [] ∧ ∃ front', front = front' ++ ['\n']) ∧
      (splitEvents (text ++ [c]) = parts ++ [last ++ [c]] ∨
        c = '\n' ∧ ∃ last', last = last' ++ ['\n'] ∧ splitEvents (text ++ [c]) = parts ++ [last', []]) := by
  induction text using splitEvents.induct with
  | case1 =>
      refine ⟨[], [], [], by rw [splitEvents]; rfl, rfl, .inl ⟨rfl, rfl⟩, .inl ?_⟩
      exact splitEvents_cons (fun _ => by simp) (by rw [splitEvents])
  | case2 text ih =>
      obtain ⟨parts, front, last, hsplit, htext, hfront, hlonger⟩ := ih
      refine ⟨[] :: parts, '\n' :: '\n' :: front, last, ?_, by rw [htext]; rfl, .inr ⟨List.cons_ne_nil _ _, ?_⟩, ?_⟩
      · rw [splitEvents, hsplit]
        rfl
      · rcases hfront with ⟨-, rfl⟩ | ⟨-, front', rfl⟩
        · exact ⟨['\n'], rfl⟩
        · exact ⟨'\n' :: '\n' :: front', rfl⟩
      · rw [List.cons_append, List.cons_append, splitEvents]
        rcases hlonger with hlonger | ⟨hc, last', hlast, hlonger⟩
        · exact .inl (by rw [hlonger]; rfl)
        · exact .inr ⟨hc, last', hlast, by rw [hlonger]; rfl⟩
  | case3 d text hpair hnil _ => exact absurd hnil (splitEvents_ne_nil text)
  | case4 d text hpair part rest hrest ih =>
      have hfirst : d = '\n' → text.head? ≠ some '\n' := by
        intro hd hhead
        obtain ⟨text', htext'⟩ := List.head?_eq_some_iff.mp hhead
        exact hpair text' hd htext'
      rw [splitEvents_cons hfirst hrest]
      by_cases hends : d = '\n' ∧ (text ++ [c]).head? = some '\n'
      · obtain ⟨rfl, hhead⟩ := hends
        cases text with
        | cons x text => exact absurd hhead (hfirst rfl)
        | nil =>
            obtain rfl : c = '\n' := Option.some.inj hhead
            obtain ⟨rfl, rfl⟩ : part = [] ∧ rest = [] := by simpa [splitEvents, eq_comm] using hrest
            exact ⟨[], [], ['\n'], rfl, rfl, .inl ⟨rfl, rfl⟩, .inr ⟨rfl, [], rfl, by simp [splitEvents]⟩⟩
      · have hnext : d = '\n' → (text ++ [c]).head? ≠ some '\n' := fun hd hhead => hends ⟨hd, hhead⟩
        obtain ⟨parts, front, last, hsplit, htext, hfront, hlonger⟩ := ih
        rw [hrest] at hsplit
        cases parts with
        | nil =>
            obtain ⟨rfl, rfl⟩ := List.cons.inj hsplit
            obtain rfl : front = [] := hfront.elim And.right fun h => absurd rfl h.1
            refine ⟨[], [], d :: part, rfl, by rw [htext]; rfl, .inl ⟨rfl, rfl⟩, ?_⟩
            rcases hlonger with hlonger | ⟨hc, last', hlast, hlonger⟩
            · exact .inl (splitEvents_cons hnext hlonger)
            · exact .inr ⟨hc, d :: last', by rw [hlast]; rfl, splitEvents_cons hnext hlonger⟩
        | cons first parts =>
            obtain ⟨rfl, rfl⟩ := List.cons.inj hsplit
            obtain ⟨front', rfl⟩ := hfront.elim (fun h => absurd h.1 (List.cons_ne_nil _ _)) And.right
            refine ⟨(d :: part) :: parts, d :: (front' ++ ['\n']), last, rfl, by rw [htext]; rfl,
              .inr ⟨List.cons_ne_nil _ _, d :: front', rfl⟩, ?_⟩
            rcases hlonger with hlonger | ⟨hc, last', hlast, hlonger⟩
            · exact .inl (splitEvents_cons hnext hlonger)
            · exact .inr ⟨hc, last', hlast, splitEvents_cons hnext hlonger⟩

/-- A blank behind a text is not read. -/
theorem eventLoads_concat {c : Char} (hspace : e.unicode.isSpace c = true) (hbreak : c ∈ lineBreaks → c = '\n' ∨ c = '\r')
    {text : Text} (h : isBlank c = true ∨ ¬ dataField <+: lastLine text) :
    eventLoads e (text ++ [c]) = eventLoads e text := by
  obtain ⟨parts, front, last, hsplit, rfl, hfront, hlonger⟩ := splitEvents_concat c text
  have hlastLine : lastLine (front ++ last) = lastLine last := by
    rcases hfront with ⟨-, rfl⟩ | ⟨-, front', rfl⟩
    · rfl
    · rw [List.append_assoc]
      exact lastLine_append_break (by decide) front'
  rw [hlastLine] at h
  rw [eventLoads, eventLoads, hsplit]
  rcases hlonger with hlonger | ⟨rfl, last', rfl, hlonger⟩
  · rw [hlonger, List.filterMap_append, List.filterMap_append, List.filterMap_cons, List.filterMap_cons,
      dataLoads_concat hspace hbreak h]
  · have hempty : dataLoads e [] = none := rfl
    have hended : dataLoads e (last' ++ ['\n']) = dataLoads e last' :=
      dataLoads_concat hspace hbreak (.inl (by decide))
    have hpair : [last', []] = [last'] ++ [([] : Text)] := rfl
    rw [hlonger, hpair, ← List.append_assoc, List.filterMap_append, List.filterMap_append, List.filterMap_append,
      List.filterMap_cons_none hempty, List.filterMap_nil, List.append_nil, List.filterMap_cons, List.filterMap_cons, hended]

theorem not_data_of_space {text : Text} (h : ∀ c ∈ text, e.unicode.isSpace c = true) : ¬ dataField <+: text := by
  rintro ⟨rest, rfl⟩
  exact Bool.false_ne_true ((dataField_not_space (e := e) (c := 'd') (by decide)).symm.trans (h 'd' List.mem_cons_self))

/-- White space behind a text is not read, if the last line has no data or what follows it is white space of JSON. -/
theorem eventLoads_append {text blanks : Text} (hspace : ∀ c ∈ blanks, e.unicode.isSpace c = true)
    (hbreak : ∀ c ∈ blanks, c ∈ lineBreaks → c = '\n' ∨ c = '\r')
    (h : (∀ c ∈ blanks.takeWhile (· ∉ lineBreaks), isBlank c = true) ∨ ¬ dataField <+: lastLine text) :
    eventLoads e (text ++ blanks) = eventLoads e text := by
  induction blanks using List.reverseRecOn with
  | nil => rw [List.append_nil]
  | append_singleton blanks c ih =>
      have hlast : c ∈ blanks ++ [c] := List.mem_append_right _ (List.mem_singleton.mpr rfl)
      have hfront : ∀ x ∈ blanks, x ∈ blanks ++ [c] := fun x hx => List.mem_append_left _ hx
      have hshorter : blanks.takeWhile (· ∉ lineBreaks) <+: (blanks ++ [c]).takeWhile (· ∉ lineBreaks) := by
        rw [List.takeWhile_append]
        split_ifs
        · exact (List.takeWhile_prefix _).trans (List.prefix_append _ _)
        · exact List.prefix_rfl
      have ih := ih (fun x hx => hspace x (hfront x hx)) (fun x hx => hbreak x (hfront x hx))
        (h.imp_left fun hall x hx => hall x (hshorter.subset hx))
      rw [← List.append_assoc, ← ih]
      refine eventLoads_concat (hspace c hlast) (hbreak c hlast) ?_
      by_cases hc : c ∈ lineBreaks
      · refine .inl ?_
        rcases hbreak c hlast hc with rfl | rfl <;> decide
      · by_cases hended : ∃ d ∈ blanks, d ∈ lineBreaks
        · -- the last line is white space only
          obtain ⟨d, hd, hdbreak⟩ := hended
          obtain ⟨first, second, rfl⟩ := List.append_of_mem hd
          refine .inr (not_data_of_space (e := e) fun x hx => ?_)
          rw [← List.append_assoc, lastLine_append_break hdbreak] at hx
          have hmem : x ∈ second := List.rtakeWhile_suffix (p := (· ∉ lineBreaks)) (l := second) |>.subset hx
          exact hspace x (hfront x (List.mem_append_right _ (List.mem_cons_of_mem _ hmem)))
        · have hplain : ∀ x ∈ blanks, x ∉ lineBreaks := fun x hx hbreak => hended ⟨x, hx, hbreak⟩
          rcases h with hall | hnot
          · refine .inl (hall c ?_)
            rw [List.takeWhile_append_of_pos fun x hx => decide_eq_true (hplain x hx)]
            exact List.mem_append_right _ (by simp [hc])
          · refine .inr fun hprefix => hnot ?_
            have hlonger : lastLine (text ++ blanks) = lastLine text ++ blanks := lastLine_append_plain hplain
            rw [hlonger] at hprefix
            exact prefix_of_append_space (e := e) hprefix fun x hx => hspace x (hfront x hx)

/-! ### White space in front of a text -/

theorem splitEvents_begins {text part : Text} {parts : List Text} (h : splitEvents text = part :: parts) : part <+: text := by
  induction text using splitEvents.induct generalizing part parts with
  | case1 =>
      rw [splitEvents] at h
      exact (List.cons.inj h).1 ▸ List.nil_prefix
  | case2 text ih =>
      rw [splitEvents] at h
      exact (List.cons.inj h).1 ▸ List.nil_prefix
  | case3 d text hpair hnil _ => exact absurd hnil (splitEvents_ne_nil text)
  | case4 d text hpair first rest hrest ih =>
      have hfirst : d = '\n' → text.head? ≠ some '\n' := by
        intro hd hhead
        obtain ⟨text', htext'⟩ := List.head?_eq_some_iff.mp hhead
        exact hpair text' hd htext'
      rw [splitEvents_cons hfirst hrest] at h
      exact (List.cons.inj h).1 ▸ List.cons_prefix_cons.mpr ⟨rfl, ih hrest⟩

/-- A blank in front of a text is not read, unless it hides a line of data. -/
theorem eventLoads_cons {c : Char} (hspace : e.unicode.isSpace c = true) (hbreak : c ∈ lineBreaks → c = '\n' ∨ c = '\r')
    {text : Text} (h : c ∈ lineBreaks ∨ ¬ dataField <+: text) : eventLoads e (c :: text) = eventLoads e text := by
  by_cases hnewline : c = '\n'
  · rw [eventLoads_eq, eventLoads_eq, hnewline, groups_newline]
  · obtain ⟨part, parts, hparts⟩ := List.exists_cons_of_ne_nil (splitEvents_ne_nil text)
    have hlines : dataLines e (c :: part) = dataLines e part := by
      by_cases hend : c ∈ lineBreaks
      · exact dataLines_cons (hbreak hend) part
      · obtain ⟨line, tail, hfirst, hline, hsplit⟩ := splitLinesFrom_concat_current [] c part
        have hnot : ¬ dataField <+: line := fun hstart =>
          h.resolve_left hend ((hstart.trans hline).trans (splitEvents_begins hparts))
        have hmark : ¬ dataField <+: c :: line := by
          rintro ⟨rest, hrest⟩
          have hc : c = 'd' := (List.cons.inj hrest).1.symm
          exact Bool.false_ne_true ((dataField_not_space (e := e) (hc ▸ by decide)).symm.trans hspace)
        have hlonger : splitLines (c :: part) = [c :: line] ++ tail := (splitLinesFrom_plain hend).trans hfirst
        change dataPart e (splitLines (c :: part)) = dataPart e (splitLines part)
        rw [hlonger, dataPart_append, dataPart_other hmark]
        rcases hsplit with hsplit | ⟨-, rfl, hsplit⟩
        · have hshort : splitLines part = [line] ++ tail := hsplit
          rw [hshort, dataPart_append, dataPart_other hnot]
        · have hshort : splitLines part = [] := hsplit
          rw [hshort]
          rfl
    have hsame : dataLoads e (c :: part) = dataLoads e part := by rw [dataLoads, hlines, dataLoads]
    rw [eventLoads, eventLoads, splitEvents_cons (fun hc => absurd hc hnewline) hparts, hparts, List.filterMap_cons,
      List.filterMap_cons, hsame]

/-- White space in front of a text is not read, if it ends with a line or the text does not start with data. -/
theorem eventLoads_prepend {blanks text : Text} (hspace : ∀ c ∈ blanks, e.unicode.isSpace c = true)
    (hbreak : ∀ c ∈ blanks, c ∈ lineBreaks → c = '\n' ∨ c = '\r') (h : lastLine blanks = [] ∨ ¬ dataField <+: text) :
    eventLoads e (blanks ++ text) = eventLoads e text := by
  induction blanks with
  | nil => rfl
  | cons c blanks ih =>
      have htail : lastLine (c :: blanks) = [] → lastLine blanks = [] := by
        rw [lastLine, lastLine, List.rtakeWhile_eq_nil_iff, List.rtakeWhile_eq_nil_iff]
        intro hlast hne
        have hlast := hlast (List.cons_ne_nil _ _)
        rwa [List.getLast_cons hne] at hlast
      rw [List.cons_append, eventLoads_cons (hspace c List.mem_cons_self) (hbreak c List.mem_cons_self)]
      · exact ih (fun x hx => hspace x (List.mem_cons_of_mem _ hx)) (fun x hx => hbreak x (List.mem_cons_of_mem _ hx))
          (h.imp_left htail)
      · cases blanks with
        | nil =>
            refine h.imp_left fun hlast => ?_
            by_contra hc
            exact absurd hlast (by simp [lastLine_plain, hc])
        | cons d blanks =>
            refine .inr fun hprefix => ?_
            obtain ⟨rest, hrest⟩ := hprefix
            have hd : d = 'd' := (List.cons.inj hrest).1.symm
            have hblank := hspace d (List.mem_cons_of_mem _ List.mem_cons_self)
            exact Bool.false_ne_true ((dataField_not_space (e := e) (hd ▸ by decide)).symm.trans hblank)

end KernelGym.PageUser
