import Mathlib.Data.List.Infix

/-! Replacing parts of a text by a marker. A text that does not run into the marker occurs in the result only within a
piece that was kept. -/

namespace KernelGym.Library

variable {α : Type} {marker s old text result a b : List α} {pieces : List (List α)}

/-- Neither contains the other, and no end of one is a beginning of the other. -/
structure ClearOf (marker s : List α) : Prop where
  inside : ¬s <:+: marker
  around : ¬marker <:+: s
  starts : ∀ t, t ≠ [] → t <:+ marker → ¬t <+: s
  ends : ∀ t, t ≠ [] → t <+: marker → ¬t <:+ s

theorem clearOf_iff : ClearOf marker s ↔ ¬s <:+: marker ∧ ¬marker <:+: s ∧
    (∀ t ∈ marker.tails, t ≠ [] → ¬t <+: s) ∧ ∀ t ∈ marker.inits, t ≠ [] → ¬t <:+ s :=
  ⟨fun h => ⟨h.inside, h.around, fun t ht hne => h.starts t hne ((List.mem_tails _ _).mp ht),
      fun t ht hne => h.ends t hne ((List.mem_inits _ _).mp ht)⟩,
    fun ⟨hinside, haround, hstarts, hends⟩ => ⟨hinside, haround,
      fun t hne ht => hstarts t ((List.mem_tails _ _).mpr ht) hne, fun t hne ht => hends t ((List.mem_inits _ _).mpr ht) hne⟩⟩

instance [DecidableEq α] : Decidable (ClearOf marker s) := decidable_of_iff _ clearOf_iff.symm

theorem ClearOf.infix_append (h : ClearOf marker s) (hs : s <:+: a ++ (marker ++ b)) : s <:+: a ∨ s <:+: b := by
  rcases List.infix_append_iff_ne_nil.mp hs with hleft | hright | ⟨t, u, -, hu, rfl, -, hbegins⟩
  · exact Or.inl hleft
  · rcases List.infix_append_iff_ne_nil.mp hright with hinside | hb | ⟨t, u, ht, -, rfl, hsuffix, -⟩
    · exact absurd hinside h.inside
    · exact Or.inr hb
    · exact absurd (List.prefix_append t u) (h.starts t ht hsuffix)
  · -- The text begins before the marker and reaches into it, or past it.
    rcases List.prefix_or_prefix_of_prefix hbegins (List.prefix_append marker b) with hwithin | hpast
    · exact absurd (List.suffix_append t u) (h.ends u hu hwithin)
    · exact absurd (hpast.isInfix.trans (List.suffix_append t u).isInfix) h.around

theorem ClearOf.infix_intercalate (h : ClearOf marker s) :
    ∀ {pieces : List (List α)}, s <:+: marker.intercalate pieces → ∃ piece ∈ pieces, s <:+: piece
  | [], hs => absurd (hs.trans List.nil_infix) h.inside
  | [piece], hs => ⟨piece, List.mem_singleton_self piece, by simpa using hs⟩
  | piece :: next :: rest, hs => by
      rw [List.intercalate_cons_cons, List.append_assoc] at hs
      rcases h.infix_append hs with hpiece | hlater
      · exact ⟨piece, List.mem_cons_self, hpiece⟩
      · obtain ⟨later, hmem, hs'⟩ := h.infix_intercalate hlater
        exact ⟨later, List.mem_cons_of_mem piece hmem, hs'⟩

/-- The pieces between the occurrences of the old text, which hold none, are kept and joined by the new one. -/
def Replaced (old new text result : List α) : Prop :=
  ∃ pieces : List (List α), text = old.intercalate pieces ∧ result = new.intercalate pieces ∧
    ∀ piece ∈ pieces, ¬old <:+: piece

theorem intercalate_cons (c : α) (first : List α) (rest : List (List α)) :
    old.intercalate ((c :: first) :: rest) = c :: old.intercalate (first :: rest) := by
  cases rest with
  | nil => simp
  | cons next rest => simp [List.intercalate_cons_cons]

theorem Replaced.nil (hold : old ≠ []) : Replaced old marker [] [] :=
  ⟨[[]], rfl, rfl, fun piece hmem => by
    rw [List.mem_singleton.mp hmem, List.infix_nil]
    exact hold⟩

/-- There is always a piece. -/
theorem Replaced.first (hold : old ≠ []) (h : Replaced old marker text result) :
    ∃ first rest, text = old.intercalate (first :: rest) ∧ result = marker.intercalate (first :: rest) ∧
      ∀ piece ∈ first :: rest, ¬old <:+: piece := by
  obtain ⟨pieces, rfl, rfl, hkept⟩ := h
  cases pieces with
  | nil => exact ⟨[], [], by simp, by simp, by simpa using hold⟩
  | cons first rest => exact ⟨first, rest, rfl, rfl, hkept⟩

/-- The next symbol is kept where the old text does not begin. -/
theorem Replaced.keep {c : α} (hold : old ≠ []) (h : Replaced old marker text result) (hc : ¬old <+: c :: text) :
    Replaced old marker (c :: text) (c :: result) := by
  obtain ⟨first, rest, rfl, rfl, hkept⟩ := h.first hold
  refine ⟨(c :: first) :: rest, (intercalate_cons c first rest).symm, (intercalate_cons c first rest).symm, ?_⟩
  intro piece hmem hoccurs
  rcases List.mem_cons.mp hmem with rfl | hrest
  · rcases List.infix_cons_iff.mp hoccurs with hbegins | hlater
    · refine hc (hbegins.trans ?_)
      rw [← intercalate_cons]
      cases rest with
      | nil => simp
      | cons next rest =>
          rw [List.intercalate_cons_cons, List.append_assoc]
          exact List.prefix_append _ _
    · exact hkept first List.mem_cons_self hlater
  · exact hkept piece (List.mem_cons_of_mem first hrest) hoccurs

/-- The old text where it begins becomes the marker. -/
theorem Replaced.replace (hold : old ≠ []) (h : Replaced old marker text result) :
    Replaced old marker (old ++ text) (marker ++ result) := by
  obtain ⟨first, rest, rfl, rfl, hkept⟩ := h.first hold
  refine ⟨[] :: first :: rest, by simp [List.intercalate_cons_cons], by simp [List.intercalate_cons_cons], ?_⟩
  intro piece hmem
  rcases List.mem_cons.mp hmem with rfl | hrest
  · rwa [List.infix_nil]
  · exact hkept piece hrest

theorem infix_intercalate_of_mem : ∀ {pieces : List (List α)} {piece : List α}, piece ∈ pieces →
    piece <:+: old.intercalate pieces
  | [_], _, h => by simp [List.mem_singleton.mp h]
  | first :: next :: rest, piece, h => by
      rw [List.intercalate_cons_cons]
      rcases List.mem_cons.mp h with rfl | hrest
      · exact ((List.prefix_append _ _).trans (List.prefix_append _ _)).isInfix
      · exact (infix_intercalate_of_mem hrest).trans (List.suffix_append _ _).isInfix

/-- A replacement brings no text about that is clear of the marker, and takes away those that contain the old
one. -/
theorem Replaced.absent (hreplaced : Replaced old marker text result) (h : ClearOf marker s)
    (hs : ¬s <:+: text ∨ old <:+: s) : ¬s <:+: result := by
  obtain ⟨pieces, rfl, rfl, hkept⟩ := hreplaced
  intro hresult
  obtain ⟨piece, hmem, hpiece⟩ := h.infix_intercalate hresult
  rcases hs with hs | hold
  · exact hs (hpiece.trans (infix_intercalate_of_mem hmem))
  · exact hkept piece hmem (hold.trans hpiece)

/-- After all replacements, a text that is clear of the marker and contains one of the old ones is gone. -/
theorem absent_foldl (replace : List α → List α → List α) :
    ∀ {olds : List (List α)} {text : List α},
      (∀ old ∈ olds, ∀ text, Replaced old marker text (replace old text)) → ClearOf marker s →
      (¬s <:+: text ∨ ∃ old ∈ olds, old <:+: s) →
      ¬s <:+: olds.foldl (fun text old => replace old text) text
  | [], _, _, _, hs => hs.resolve_right (by simp)
  | old :: rest, text, hreplace, h, hs => by
      rw [List.foldl_cons]
      refine absent_foldl replace (fun next hnext => hreplace next (List.mem_cons_of_mem old hnext)) h ?_
      have hfirst := hreplace old List.mem_cons_self text
      rcases hs with hs | ⟨next, hnext, hoccurs⟩
      · exact Or.inl (hfirst.absent h (Or.inl hs))
      · rcases List.mem_cons.mp hnext with rfl | hlater
        · exact Or.inl (hfirst.absent h (Or.inr hoccurs))
        · exact Or.inr ⟨next, hlater, hoccurs⟩

end KernelGym.Library
