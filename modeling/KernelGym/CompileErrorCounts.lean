import KernelGym.ErrorClassifier

/-! The counts of the compiler's diagnostics in each category, and when the category of the whole text is among
them. -/

namespace KernelGym.ErrorClassifier

open Library

variable {u : Unicode} {errorText : Text} {backend : Option Text}

/-- The normalised excerpts assigned to a category. -/
def assigned (u : Unicode) (detail : Detail) (entries : List (Detail × Text)) : List Text :=
  (entries.filter fun entry => entry.1 = detail).map fun entry => normalizeErrorText u entry.2

/-- What the two views of a text are to agree on. -/
structure Consistent (u : Unicode) (errorText : Text) (backend : Option Text) : Prop where
  count : ∀ detail group, classifyCompileErrorMetadata u errorText backend detail = some group →
    group.count = (assigned u detail (entries u errorText backend)).dedup.length
  bounded : ∀ detail group, classifyCompileErrorMetadata u errorText backend detail = some group →
    group.errors.length ≤ 8
  distinct : ∀ detail group, classifyCompileErrorMetadata u errorText backend detail = some group →
    group.errors.Nodup
  truncated : ∀ detail group, classifyCompileErrorMetadata u errorText backend detail = some group →
    (group.truncated = true ↔ group.errors.length < group.count)
  primary : classifyCompileErrorDetail u errorText backend ≠ .otherCompileError →
    (extractCompileErrorExcerpt u errorText (classifyCompileErrorDetail u errorText backend)).isSome →
      (classifyCompileErrorMetadata u errorText backend (classifyCompileErrorDetail u errorText backend)).isSome

/-! ### Counting -/

/-- What is collected from a list of excerpts. -/
structure Counts (u : Unicode) (entries : List (Detail × Text)) (s : Collected) : Prop where
  keys : ∀ detail key, key ∈ (s.seen.get detail).getD [] ↔ key ∈ assigned u detail entries
  nodup : ∀ detail, ((s.seen.get detail).getD []).Nodup
  shown : ∀ detail, ((s.grouped.get detail).getD []).map (normalizeErrorText u) =
    ((s.seen.get detail).getD []).take 8
  present : ∀ detail, (s.grouped.get detail).isSome ↔ assigned u detail entries ≠ []

theorem assigned_append (detail : Detail) (entries : List (Detail × Text)) (entry : Detail × Text) :
    assigned u detail (entries ++ [entry]) =
      assigned u detail entries ++ if entry.1 = detail then [normalizeErrorText u entry.2] else [] := by
  rw [assigned, List.filter_append, List.map_append, ← assigned, List.filter_singleton]
  split_ifs with h <;> simp [h]

theorem counts_nil : Counts u [] {} where
  keys _ _ := by simp [assigned]
  nodup _ := by simp
  shown _ := by simp
  present _ := by simp [assigned]

/-- Excerpts are shown as long as there is room for them. -/
theorem map_shown {key : Text → Text} {shown seen : List Text} (h : shown.map key = seen.take 8) (excerpt : Text) :
    (if shown.length < 8 then shown ++ [excerpt] else shown).map key = (seen ++ [key excerpt]).take 8 := by
  have hlength := congrArg List.length h
  rw [List.length_map, List.length_take] at hlength
  split_ifs with hroom
  · have hall : seen.take 8 = seen := List.take_of_length_le (by omega)
    rw [List.map_append, h, hall, List.take_of_length_le (by rw [List.length_append, List.length_singleton]; omega),
      List.map_singleton]
  · rw [h, List.take_append_of_le_length (by omega)]

/-- An excerpt that is known changes nothing; a new one is counted, and shown if there is room. -/
theorem Counts.add {entries : List (Detail × Text)} {s : Collected} (h : Counts u entries s)
    (entry : Detail × Text) : Counts u (entries ++ [entry]) (s.add u entry) := by
  by_cases hknown : normalizeErrorText u entry.2 ∈ (s.seen.get entry.1).getD []
  · have hmem := (h.keys entry.1 _).mp hknown
    rw [Collected.add, if_pos hknown]
    refine ⟨fun detail key => ?_, h.nodup, h.shown, fun detail => ?_⟩
    · rw [h.keys, assigned_append]
      split_ifs with hdetail
      · subst hdetail
        rw [List.mem_append, List.mem_singleton]
        exact ⟨.inl, fun hkey => hkey.elim id fun heq => heq ▸ hmem⟩
      · rw [List.append_nil]
    · rw [h.present, assigned_append]
      split_ifs with hdetail
      · subst hdetail
        exact ⟨fun _ => by simp, fun _ => List.ne_nil_of_mem hmem⟩
      · rw [List.append_nil]
  · rw [Collected.add, if_neg hknown]
    refine ⟨fun detail key => ?_, fun detail => ?_, fun detail => ?_, fun detail => ?_⟩
    · rw [Dict.get_set, assigned_append]
      split_ifs with hdetail hother hother
      · subst hdetail
        rw [Option.getD_some, List.mem_append, List.mem_append, h.keys]
      · exact absurd hdetail.symm hother
      · exact absurd hother.symm hdetail
      · rw [h.keys, List.append_nil]
    · rw [Dict.get_set]
      split_ifs with hdetail
      · rw [Option.getD_some, List.nodup_append]
        exact ⟨h.nodup entry.1, List.nodup_singleton _, fun key hkey other hother heq =>
          hknown (by rw [← List.mem_singleton.mp hother, ← heq]; exact hkey)⟩
      · exact h.nodup detail
    · rw [Dict.get_set, Dict.get_set]
      by_cases hdetail : detail = entry.1
      · rw [if_pos hdetail, if_pos hdetail, Option.getD_some, Option.getD_some]
        exact map_shown (h.shown entry.1) entry.2
      · rw [if_neg hdetail, if_neg hdetail]
        exact h.shown detail
    · rw [Dict.get_set, assigned_append]
      by_cases hdetail : detail = entry.1
      · simp [hdetail]
      · rw [if_neg hdetail, if_neg (Ne.symm hdetail), h.present, List.append_nil]

theorem counts_foldl (entries : List (Detail × Text)) : Counts u entries (entries.foldl (Collected.add u) {}) := by
  induction entries using List.reverseRecOn with
  | nil => exact counts_nil
  | append_singleton entries entry ih =>
      rw [List.foldl_append]
      exact ih.add entry

/-- What the metadata says of a category that it has. -/
theorem metadata_eq_some {detail : Detail} {group : Group}
    (h : classifyCompileErrorMetadata u errorText backend detail = some group) :
    group.count = (assigned u detail (entries u errorText backend)).dedup.length ∧ group.errors.length ≤ 8 ∧
      group.errors.Nodup ∧ (group.truncated = true ↔ group.errors.length < group.count) := by
  have hcounts := counts_foldl (u := u) (entries u errorText backend)
  unfold classifyCompileErrorMetadata at h
  dsimp only at h
  rw [Option.map_eq_some_iff] at h
  obtain ⟨errors, herrors, rfl⟩ := h
  have hshown := hcounts.shown detail
  rw [herrors, Option.getD_some] at hshown
  refine ⟨?_, ?_, ?_, decide_eq_true_iff⟩
  · refine List.Perm.length_eq ((List.perm_ext_iff_of_nodup (hcounts.nodup detail) (List.nodup_dedup _)).mpr ?_)
    exact fun key => (hcounts.keys detail key).trans List.mem_dedup.symm
  · have hlength := congrArg List.length hshown
    rw [List.length_map, List.length_take] at hlength
    exact hlength.le.trans (min_le_left _ _)
  · refine List.Nodup.of_map (normalizeErrorText u) ?_
    rw [hshown]
    exact (hcounts.nodup detail).sublist (List.take_sublist _ _)

/-- The metadata has the categories of the excerpts. -/
theorem metadata_isSome {detail : Detail} : (classifyCompileErrorMetadata u errorText backend detail).isSome ↔
    ∃ entry ∈ entries u errorText backend, entry.1 = detail := by
  have hpresent := (counts_foldl (u := u) (entries u errorText backend)).present detail
  unfold classifyCompileErrorMetadata
  dsimp only
  rw [Option.isSome_map, hpresent, assigned, ne_eq, List.map_eq_nil_iff, List.filter_eq_nil_iff]
  push Not
  simp

/-! ### The primary category -/

/-- The first line of an excerpt is shown to its end: the excerpt is short, or the line ends in the part that is kept. -/
def Uncut (u : Unicode) (lines : List Text) : Prop :=
  (diagnosticExcerptAt u lines).length ≤ maxCompileErrorExcerptChars ∨
    (u.strip (lines.headD [])).length < (maxCompileErrorExcerptChars - truncationMarker.length) / 2

/-- The excerpt of the diagnostic at the head of the lines. -/
def excerptOf (u : Unicode) (lines : List Text) : Text := truncateCompileErrorExcerpt (diagnosticExcerptAt u lines)

/-- The categories in the order in which they are tried. -/
def tried : List Detail :=
  [.tvmFfiApiExportMacro, .tvmFfiApiWrongBindingFramework, .tvmFfiApiDtype, .tvmFfiApiShapeview,
    .tvmFfiApiTensorAccessor] ++ sharedDetails ++ [.tvmFfiApiMisuse]

/-- The test of a category on a text. -/
def passes (u : Unicode) (errorMessage : Text) (backend : Option Text) (detail : Detail) : Bool :=
  let errorText := normalizeErrorText u errorMessage
  let backendKey := (u.lower (backend.getD [])).map fun c => if c = '-' then '_' else c
  let marked := (Regex.compile tvmFfiMarkerRe).search u false errorText || backendKey = "tvm_ffi".toList
  let patterns := compileErrorDetailPatterns detail
  match detail with
  | .tvmFfiApiExportMacro | .tvmFfiApiWrongBindingFramework | .tvmFfiApiDtype | .tvmFfiApiTensorAccessor =>
    hasPattern u errorText patterns && marked
  | .tvmFfiApiShapeview => hasPattern u errorText patterns
  | .tvmFfiApiMisuse => (Regex.compile tvmFfiApiMarkerRe).search u false errorText && " error:".toList <:+: errorText
  | .otherCompileError => false
  | _ => hasDiagnosticPattern u errorText patterns

/-- The line that the first passed test rests on (the first diagnostic with one of its patterns, or else the first
diagnostic) is a diagnostic as it stands and is shown to its end. -/
def PrimaryShown (u : Unicode) (errorText : Text) (backend : Option Text) : Prop :=
  let lines := splitLines errorText
  ∀ detail, tried.find? (passes u errorText backend) = some detail →
    ∀ index, excerptIndex u lines detail = some index →
      isDiagnosticErrorLine u (lines.getD index []) = true ∧ Uncut u (lines.drop index)

/-- The category of a text is the first one whose test it passes. -/
theorem classify_eq_find (h : errorText ≠ []) : classifyCompileErrorDetail u errorText backend =
    (tried.find? (passes u errorText backend)).getD .otherCompileError := by
  have hcascade : classifyCompileErrorDetail u errorText backend =
      if passes u errorText backend .tvmFfiApiExportMacro then .tvmFfiApiExportMacro
      else if passes u errorText backend .tvmFfiApiWrongBindingFramework then .tvmFfiApiWrongBindingFramework
      else if passes u errorText backend .tvmFfiApiDtype then .tvmFfiApiDtype
      else if passes u errorText backend .tvmFfiApiShapeview then .tvmFfiApiShapeview
      else if passes u errorText backend .tvmFfiApiTensorAccessor then .tvmFfiApiTensorAccessor
      else
        (sharedDetails.find? (passes u errorText backend)).elim
          (if passes u errorText backend .tvmFfiApiMisuse then .tvmFfiApiMisuse else .otherCompileError) id := by
    have hfind : (sharedDetails.find? fun detail =>
        hasDiagnosticPattern u (normalizeErrorText u errorText) (compileErrorDetailPatterns detail)) =
        sharedDetails.find? (passes u errorText backend) := rfl
    rw [classifyCompileErrorDetail, if_neg h]
    dsimp only
    rw [hfind]
    cases sharedDetails.find? (passes u errorText backend) <;> rfl
  rw [hcascade, tried, List.find?_append, List.find?_append]
  cases hshared : sharedDetails.find? (passes u errorText backend)
  all_goals
    simp only [List.find?_cons, List.find?_nil]
    split_ifs <;> simp [*]

theorem excerpt_cases (line : Text) (rest : List Text) :
    diagnosticExcerptAt u (line :: rest) = u.strip line ∨
      ∃ source, diagnosticExcerptAt u (line :: rest) = u.strip line ++ '\n' :: source := by
  cases rest with
  | nil => exact .inl rfl
  | cons sourceLine following =>
      unfold diagnosticExcerptAt
      dsimp only
      split_ifs
      · exact .inl rfl
      · exact .inr ⟨_, rfl⟩

/-- A diagnostic has a character other than white space. -/
theorem strip_diagnostic {line : Text} (h : isDiagnosticErrorLine u line = true) : u.strip line ≠ [] := by
  rw [isDiagnosticErrorLine, Bool.and_eq_true] at h
  exact Unicode.strip_ne_nil (Regex.search_needs_ink (by decide +kernel) h.2)

theorem first_line_uncut {line : Text} {rest : List Text} (hline : ∀ c ∈ line, c ∉ lineBreaks)
    (hdiagnostic : isDiagnosticErrorLine u line = true) (huncut : Uncut u (line :: rest)) :
    (splitLines (excerptOf u (line :: rest))).head? = some (u.strip line) := by
  have hplain : ∀ c ∈ u.strip line, c ∉ lineBreaks := fun c hc => hline c (Unicode.strip_within.subset hc)
  unfold excerptOf truncateCompileErrorExcerpt
  rcases excerpt_cases (u := u) line rest with heq | ⟨source, heq⟩
  · have hshort : (diagnosticExcerptAt u (line :: rest)).length ≤ maxCompileErrorExcerptChars := by
      refine huncut.elim id fun hkept => ?_
      rw [heq]
      exact hkept.le.trans (by decide)
    rw [if_pos hshort, heq, splitLines_line hplain (strip_diagnostic hdiagnostic)]
    rfl
  · split_ifs with hshort
    · rw [heq, splitLines_line_newline hplain]
      rfl
    · have hkept : (u.strip line).length < (maxCompileErrorExcerptChars - truncationMarker.length) / 2 :=
        huncut.resolve_left hshort
      obtain ⟨room, hroom⟩ := Nat.exists_eq_add_of_lt hkept
      dsimp only
      rw [heq, List.take_append, List.take_of_length_le hkept.le, hroom, Nat.add_assoc, Nat.add_sub_cancel_left,
        List.take_succ_cons, List.append_assoc, List.append_assoc, List.cons_append, splitLines_line_newline hplain]
      rfl

/-! ### The condition -/

/-- A category other than `other` is the first one whose test the text passes. -/
theorem find_classify (h : classifyCompileErrorDetail u errorText backend ≠ .otherCompileError) :
    tried.find? (passes u errorText backend) = some (classifyCompileErrorDetail u errorText backend) := by
  have hne : errorText ≠ [] := fun hnil => h (by rw [classifyCompileErrorDetail, if_pos hnil])
  rw [classify_eq_find hne] at h ⊢
  cases hfind : tried.find? (passes u errorText backend)
  · rw [hfind] at h
    exact absurd rfl h
  · rfl

theorem excerptIndex_lt {lines : List Text} {detail : Detail} {index : ℕ} (h : excerptIndex u lines detail = some index) :
    index < lines.length := by
  have hmem : index ∈ (List.range lines.length).filter fun index =>
      isDiagnosticErrorLine u ((lines.map (normalizeErrorText u)).getD index []) := by
    rcases Option.or_eq_some_iff.mp h with hfound | ⟨-, hfirst⟩
    · exact List.mem_of_find?_eq_some hfound
    · exact List.mem_of_mem_head? hfirst
  exact List.mem_range.mp (List.mem_filter.mp hmem).1

theorem primaryDiagnostic_eq {index : ℕ} (hdetail : classifyCompileErrorDetail u errorText backend ≠ .otherCompileError)
    (h : excerptIndex u (splitLines errorText) (classifyCompileErrorDetail u errorText backend) = some index) :
    primaryDiagnostic u errorText backend = (splitLines (excerptOf u ((splitLines errorText).drop index))).head? := by
  rw [primaryDiagnostic, extractCompileErrorExcerpt, if_neg hdetail]
  dsimp only
  rw [h, Option.map_some, Option.bind_some, excerptOf]

/-- The excerpts of a category come from diagnostics that are of it themselves or read as the primary one. -/
theorem exists_entry {detail : Detail} : (∃ entry ∈ entries u errorText backend, entry.1 = detail) ↔
    ∃ index < (splitLines errorText).length, isDiagnosticErrorLine u ((splitLines errorText).getD index []) = true ∧
      (if primaryDiagnostic u errorText backend = some (u.strip ((splitLines errorText).getD index [])) then
        classifyCompileErrorDetail u errorText backend
      else classifyCompileErrorDetail u (excerptOf u ((splitLines errorText).drop index)) backend) = detail := by
  unfold entries
  dsimp only
  simp only [List.mem_filterMap, List.mem_range]
  have hentry (index : ℕ) (hlt : index < (splitLines errorText).length) :
      (splitLines errorText).drop index =
        (splitLines errorText).getD index [] :: (splitLines errorText).drop (index + 1) := by
    rw [List.getD_eq_getElem _ _ hlt]
    exact List.drop_eq_getElem_cons hlt
  constructor
  · rintro ⟨entry, ⟨index, hlt, hat⟩, rfl⟩
    rw [hentry index hlt, entryAt] at hat
    dsimp only at hat
    rw [Option.ite_none_right_eq_some] at hat
    obtain ⟨hdiagnostic, hsome⟩ := hat
    refine ⟨index, hlt, hdiagnostic, ?_⟩
    rw [← Option.some.inj hsome, excerptOf, ← hentry index hlt]
  · rintro ⟨index, hlt, hdiagnostic, rfl⟩
    refine ⟨(_, excerptOf u ((splitLines errorText).drop index)), ⟨index, hlt, ?_⟩, rfl⟩
    rw [hentry index hlt, entryAt]
    dsimp only
    rw [if_pos hdiagnostic, ← hentry index hlt]
    rfl

/-- **The two views agree if the line that the primary category rests on is recognised and shown to its end.** -/
theorem views_agree (h : PrimaryShown u errorText backend) : Consistent u errorText backend := by
  refine ⟨fun _ _ hgroup => (metadata_eq_some hgroup).1, fun _ _ hgroup => (metadata_eq_some hgroup).2.1,
    fun _ _ hgroup => (metadata_eq_some hgroup).2.2.1, fun _ _ hgroup => (metadata_eq_some hgroup).2.2.2, ?_⟩
  intro hdetail hsome
  have hindex : ∃ index, excerptIndex u (splitLines errorText)
      (classifyCompileErrorDetail u errorText backend) = some index := by
    rw [extractCompileErrorExcerpt, if_neg hdetail] at hsome
    dsimp only at hsome
    rw [Option.isSome_map] at hsome
    exact Option.isSome_iff_exists.mp hsome
  obtain ⟨index, hindex⟩ := hindex
  have hlt := excerptIndex_lt hindex
  obtain ⟨hdiagnostic, huncut⟩ := h _ (find_classify hdetail) index hindex
  refine metadata_isSome.mpr (exists_entry.mpr ⟨index, hlt, hdiagnostic, if_pos ?_⟩)
  rw [primaryDiagnostic_eq hdetail hindex]
  have hdrop := List.drop_eq_getElem_cons hlt
  rw [← List.getD_eq_getElem _ [] hlt] at hdrop
  rw [hdrop] at huncut ⊢
  refine first_line_uncut ?_ hdiagnostic huncut
  rw [List.getD_eq_getElem _ [] hlt]
  exact notMem_lineBreaks_of_mem (List.getElem_mem hlt) (by simp)

/-- The output of a compiler for a macro that it does not know, with the line of the source. -/
def shortError : Text := "k.cc:4: error: tvm_ffi_dll_export_typed_func\n  4 | x;\n".toList

theorem views_agree_shortError : Consistent Unicode.ascii shortError (some "tvm_ffi".toList) := by
  refine views_agree fun detail hdetail index hindex => ?_
  have hfound : tried.find? (passes Unicode.ascii shortError (some "tvm_ffi".toList)) = some .tvmFfiApiExportMacro := by
    decide +kernel
  obtain rfl : Detail.tvmFfiApiExportMacro = detail := Option.some.inj (hfound.symm.trans hdetail)
  have hfirst : excerptIndex Unicode.ascii (splitLines shortError) .tvmFfiApiExportMacro = some 0 := by
    decide +kernel
  obtain rfl : 0 = index := Option.some.inj (hfirst.symm.trans hindex)
  exact ⟨by decide +kernel, .inl (by decide +kernel)⟩

/-- Only a text with one of the patterns is about the export macro. -/
theorem exportMacro_of_classify {text : Text} (h : classifyCompileErrorDetail u text backend = .tvmFfiApiExportMacro) :
    hasPattern u (normalizeErrorText u text) tvmFfiExportMacroPatterns = true := by
  unfold classifyCompileErrorDetail at h
  dsimp only at h
  split_ifs at h with hnil hexport
  · exact (Bool.and_eq_true_iff.mp hexport).1
  all_goals
    split at h
    · rename_i detail hfound
      subst h
      exact absurd (List.mem_of_find?_eq_some hfound) (by decide)
    · exact absurd h (by decide)

/-- A diagnostic of 1016 characters with the name of the macro in its middle. -/
def longError : Text :=
  "error: ".toList ++ List.replicate 490 '.' ++ "tvm_ffi_dll_export_typed_func".toList ++ List.replicate 490 '.'

theorem splitLines_longError : splitLines longError = [longError] :=
  splitLines_line (List.forall_iff_forall_mem.mp (by decide +kernel)) (by decide +kernel)

/-- The middle of the line is not in its excerpt: the category of the text has no count. -/
theorem long_line_uncounted : ¬Consistent Unicode.ascii longError (some "tvm_ffi".toList) := by
  intro h
  have hdetail : classifyCompileErrorDetail Unicode.ascii longError (some "tvm_ffi".toList) =
      .tvmFfiApiExportMacro := by decide +kernel
  have hindex : excerptIndex Unicode.ascii [longError] .tvmFfiApiExportMacro = some 0 := by decide +kernel
  have hother : classifyCompileErrorDetail Unicode.ascii longError (some "tvm_ffi".toList) ≠ .otherCompileError := by
    rw [hdetail]
    decide
  rw [← splitLines_longError, ← hdetail] at hindex
  have hsome : (extractCompileErrorExcerpt Unicode.ascii longError
      (classifyCompileErrorDetail Unicode.ascii longError (some "tvm_ffi".toList))).isSome := by
    rw [extractCompileErrorExcerpt, if_neg hother]
    dsimp only
    rw [hindex]
    rfl
  obtain ⟨index, hlt, -, heq⟩ := exists_entry.mp (metadata_isSome.mp (h.primary hother hsome))
  rw [splitLines_longError] at hlt
  obtain rfl : index = 0 := Nat.lt_one_iff.mp hlt
  rw [primaryDiagnostic_eq hother hindex, splitLines_longError, hdetail, List.drop_zero, List.getD_cons_zero] at heq
  have hshort : (splitLines (excerptOf Unicode.ascii [longError])).head? ≠ some (Unicode.ascii.strip longError) := by
    decide +kernel
  rw [if_neg hshort] at heq
  have hnone : hasPattern Unicode.ascii (normalizeErrorText Unicode.ascii (excerptOf Unicode.ascii [longError]))
      tvmFfiExportMacroPatterns = false := by decide +kernel
  rw [exportMacro_of_classify heq] at hnone
  exact absurd hnone (by decide)

end KernelGym.ErrorClassifier
