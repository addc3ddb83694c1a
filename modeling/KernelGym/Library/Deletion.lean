import Mathlib.Data.List.Basic

/-! Deleting a word and the end mark after it from a text, as one pass from left to right does: the leftmost
occurrence first, and on after it. When no occurrence directly follows a symbol of a word, nothing new appears
where the pieces meet. -/

namespace KernelGym.Library

variable {α : Type} [DecidableEq α]

/-- The text starts with the word and an end mark. -/
def starts (mark : α → Bool) (word text : List α) : Bool :=
  word.isPrefixOf text && ((text.drop word.length).head?.any mark)

/-- One pass over the text; `skip` symbols of a match are still to be dropped. -/
def deletePass (mark : α → Bool) (word : List α) : (skip : ℕ) → List α → List α
  | _, [] => []
  | skip + 1, _ :: rest => deletePass mark word skip rest
  | 0, a :: rest =>
    if starts mark word (a :: rest) then deletePass mark word word.length rest
    else a :: deletePass mark word 0 rest

def deleteWord (mark : α → Bool) (word text : List α) : List α := deletePass mark word 0 text

/-- The word with an end mark occurs in the text. -/
def Occurs (mark : α → Bool) (word text : List α) : Prop := ∃ u v, text = u ++ v ∧ starts mark word v

/-- No occurrence of a word directly follows a symbol that a word contains. -/
def Separated (mark : α → Bool) (words : List (List α)) (text : List α) : Prop :=
  ∀ u a v, text = u ++ a :: v → (∃ word ∈ words, a ∈ word) → ∀ word ∈ words, ¬starts mark word v

variable {mark : α → Bool} {words : List (List α)} {word w text : List α} {a : α}

theorem starts_nil (hword : word ≠ []) : ¬starts mark word [] := by
  cases word with
  | nil => exact absurd rfl hword
  | cons => simp [starts]

theorem starts_cons_cons {b : α} : starts mark (b :: w) (a :: text) ↔ b = a ∧ starts mark w text := by
  simp [starts, List.isPrefixOf, and_assoc]

theorem starts_empty_iff : starts mark [] text ↔ ∃ a v, text = a :: v ∧ mark a := by
  cases text <;> simp [starts]

theorem occurs_nil (hword : word ≠ []) : ¬Occurs mark word [] := by
  rintro ⟨u, v, h, hv⟩
  obtain ⟨rfl, rfl⟩ := List.append_eq_nil_iff.1 h.symm
  exact starts_nil hword hv

theorem occurs_cons : Occurs mark word (a :: text) ↔ starts mark word (a :: text) ∨ Occurs mark word text := by
  constructor
  · rintro ⟨u, v, h, hv⟩
    cases u with
    | nil =>
        rw [List.nil_append] at h
        exact .inl (h ▸ hv)
    | cons b u =>
        rw [List.cons_append, List.cons.injEq] at h
        exact .inr ⟨u, v, h.2, hv⟩
  · rintro (h | ⟨u, v, rfl, hv⟩)
    · exact ⟨[], _, rfl, h⟩
    · exact ⟨a :: u, v, rfl, hv⟩

theorem separated_cons : Separated mark words (a :: text) ↔
    ((∃ word ∈ words, a ∈ word) → ∀ word ∈ words, ¬starts mark word text) ∧ Separated mark words text := by
  constructor
  · intro h
    exact ⟨h [] a text rfl, fun u b v hv => h (a :: u) b v (by rw [hv, List.cons_append])⟩
  · rintro ⟨hfirst, hrest⟩ u b v hv
    cases u with
    | nil =>
        rw [List.nil_append, List.cons.injEq] at hv
        obtain ⟨rfl, rfl⟩ := hv
        exact hfirst
    | cons c u =>
        rw [List.cons_append, List.cons.injEq] at hv
        exact hrest u b v hv.2

instance Separated.decidable : (text : List α) → Decidable (Separated mark words text)
  | [] => isTrue fun u a v h => by simp at h
  | _ :: text =>
      have := Separated.decidable text
      decidable_of_iff' _ separated_cons

theorem Separated.drop (h : Separated mark words text) (n : ℕ) : Separated mark words (text.drop n) := by
  intro u a v hv
  refine h (text.take n ++ u) a v ?_
  rw [List.append_assoc, ← hv, List.take_append_drop]

theorem deletePass_skip (n : ℕ) : deletePass mark word n text = deleteWord mark word (text.drop n) := by
  induction n generalizing text with
  | zero => rfl
  | succ n ih =>
      cases text with
      | nil => rfl
      | cons a rest => exact ih

/-- The pass at a match and at any other symbol. -/
theorem deleteWord_cons : deleteWord mark word (a :: text) =
    if starts mark word (a :: text) then deleteWord mark word (text.drop word.length)
    else a :: deleteWord mark word text := by
  rw [deleteWord, deletePass, deletePass_skip]
  rfl

/-- Induction along the pass. -/
theorem deleteWord_induction (mark : α → Bool) (word : List α) {motive : List α → List α → Prop} (nil : motive [] [])
    (hit : ∀ a text, starts mark word (a :: text) →
      motive (text.drop word.length) (deleteWord mark word (text.drop word.length)) →
      motive (a :: text) (deleteWord mark word (text.drop word.length)))
    (keep : ∀ a text, ¬starts mark word (a :: text) → motive text (deleteWord mark word text) →
      motive (a :: text) (a :: deleteWord mark word text)) (text : List α) :
    motive text (deleteWord mark word text) := by
  induction hn : text.length using Nat.strongRecOn generalizing text with
  | ind n ih =>
      cases text with
      | nil => exact nil
      | cons a text =>
          rw [List.length_cons] at hn
          rw [deleteWord_cons]
          split
          · rename_i h
            exact hit a text h (ih _ (by rw [List.length_drop]; omega) _ rfl)
          · rename_i h
            exact keep a text h (ih _ (by omega) _ rfl)

theorem deleteWord_sublist : (deleteWord mark word text).Sublist text := by
  refine deleteWord_induction mark word (motive := fun text out => out.Sublist text) .slnil ?_ ?_ text
  · intro a text _ ih
    exact (ih.trans (List.drop_sublist _ _)).cons a
  · intro a text _ ih
    exact ih.cons_cons a

theorem deleteWord_eq_self (h : ¬Occurs mark word text) : deleteWord mark word text = text := by
  induction text with
  | nil => rfl
  | cons a text ih =>
      rw [occurs_cons, not_or] at h
      rw [deleteWord_cons, if_neg h.1, ih h.2]

/-- After a symbol of a word the pass keeps what looks like a part of a word: a match would follow a symbol
of a word. -/
theorem starts_of_deleteWord (hword : word ∈ words) (hw : ∀ b ∈ w, ∃ word ∈ words, b ∈ word)
    (hhead : ∀ word ∈ words, ¬starts mark word text) (h : Separated mark words text)
    (hstarts : starts mark w (deleteWord mark word text)) : starts mark w text := by
  induction w generalizing text with
  | nil =>
      cases text with
      | nil => exact hstarts
      | cons a text =>
          rw [deleteWord_cons, if_neg (hhead word hword)] at hstarts
          obtain ⟨b, v, heq, hmark⟩ := starts_empty_iff.1 hstarts
          rw [List.cons.injEq] at heq
          exact starts_empty_iff.2 ⟨a, text, rfl, heq.1 ▸ hmark⟩
  | cons b w ih =>
      cases text with
      | nil => exact hstarts
      | cons a text =>
          rw [deleteWord_cons, if_neg (hhead word hword), starts_cons_cons] at hstarts
          obtain ⟨rfl, hstarts⟩ := hstarts
          obtain ⟨hfirst, hrest⟩ := separated_cons.1 h
          have hin := hw b List.mem_cons_self
          exact starts_cons_cons.2 ⟨rfl,
            ih (fun c hc => hw c (List.mem_cons_of_mem b hc)) (hfirst hin) hrest hstarts⟩

theorem starts_cons_of_deleteWord {w : List α} (hword : word ∈ words) (hmem : w ∈ words) (hne : w ≠ [])
    (h : Separated mark words (a :: text)) (hstarts : starts mark w (a :: deleteWord mark word text)) :
    starts mark w (a :: text) := by
  cases w with
  | nil => exact absurd rfl hne
  | cons b w =>
      obtain ⟨rfl, htail⟩ := starts_cons_cons.1 hstarts
      obtain ⟨hfirst, hrest⟩ := separated_cons.1 h
      refine starts_cons_cons.2 ⟨rfl, starts_of_deleteWord hword (fun c hc => ?_) (hfirst ?_) hrest htail⟩
      · exact ⟨b :: w, hmem, List.mem_cons_of_mem b hc⟩
      · exact ⟨b :: w, hmem, List.mem_cons_self⟩

theorem Separated.deleteWord (hword : word ∈ words) (h : Separated mark words text) :
    Separated mark words (deleteWord mark word text) := by
  refine deleteWord_induction mark word
    (motive := fun text out => Separated mark words text → Separated mark words out) id ?_ ?_ text h
  · intro a text _ ih hsep
    exact ih ((separated_cons.1 hsep).2.drop _)
  · intro a text _ ih hsep
    obtain ⟨hfirst, hrest⟩ := separated_cons.1 hsep
    refine separated_cons.2 ⟨fun hin w hw hstarts => ?_, ih hrest⟩
    exact hfirst hin w hw (starts_of_deleteWord hword (fun c hc => ⟨w, hw, hc⟩) (hfirst hin) hrest hstarts)

/-- A pass makes no word occur that did not. -/
theorem occurs_of_deleteWord {w : List α} (hword : word ∈ words) (hmem : w ∈ words) (hne : w ≠ [])
    (h : Separated mark words text) (hocc : Occurs mark w (Library.deleteWord mark word text)) :
    Occurs mark w text := by
  refine deleteWord_induction mark word
    (motive := fun text out => Separated mark words text → Occurs mark w out → Occurs mark w text)
    (fun _ => id) ?_ ?_ text h hocc
  · intro a text _ ih hsep hocc
    obtain ⟨u, v, huv, hv⟩ := ih ((separated_cons.1 hsep).2.drop _) hocc
    refine ⟨a :: (text.take word.length ++ u), v, ?_, hv⟩
    rw [List.cons_append, List.append_assoc, ← huv, List.take_append_drop]
  · intro a text _ ih hsep hocc
    obtain hstarts | hocc := occurs_cons.1 hocc
    · exact occurs_cons.2 (.inl (starts_cons_of_deleteWord hword hmem hne hsep hstarts))
    · exact occurs_cons.2 (.inr (ih (separated_cons.1 hsep).2 hocc))

/-- The word of a pass occurs no more. -/
theorem not_occurs_deleteWord (hword : word ∈ words) (hne : word ≠ []) (h : Separated mark words text) :
    ¬Occurs mark word (Library.deleteWord mark word text) := by
  refine deleteWord_induction mark word
    (motive := fun text out => Separated mark words text → ¬Occurs mark word out)
    (fun _ => occurs_nil hne) ?_ ?_ text h
  · intro a text _ ih hsep
    exact ih ((separated_cons.1 hsep).2.drop _)
  · intro a text hkeep ih hsep hocc
    obtain hstarts | hocc := occurs_cons.1 hocc
    · exact hkeep (starts_cons_of_deleteWord hword hword hne hsep hstarts)
    · exact ih (separated_cons.1 hsep).2 hocc

/-- **Passes for several words leave none of them.** -/
theorem not_occurs_foldl (passes : List (List α)) (hsub : passes ⊆ words) (hne : ∀ w ∈ words, w ≠ [])
    (h : Separated mark words text) :
    ∀ w ∈ passes, ¬Occurs mark w (passes.foldl (fun t w => Library.deleteWord mark w t) text) := by
  suffices hgone : ∀ gone : List (List α), gone ⊆ words → (∀ w ∈ gone, ¬Occurs mark w text) →
      ∀ w ∈ gone ++ passes, ¬Occurs mark w (passes.foldl (fun t w => Library.deleteWord mark w t) text) by
    intro w hw
    exact hgone [] (by simp) (by simp) w (by simpa using hw)
  induction passes generalizing text with
  | nil => simp
  | cons p passes ih =>
      intro gone hgone hclear w hw
      have hp : p ∈ words := hsub List.mem_cons_self
      have hsub' : passes ⊆ words := fun w hw => hsub (List.mem_cons_of_mem p hw)
      refine ih hsub' (h.deleteWord hp) (p :: gone) ?_ ?_ w ?_
      · exact List.cons_subset.2 ⟨hp, hgone⟩
      · intro w hw hocc
        obtain rfl | hw := List.mem_cons.1 hw
        · exact not_occurs_deleteWord hp (hne w hp) h hocc
        · exact hclear w hw (occurs_of_deleteWord hp (hgone hw) (hne w (hgone hw)) h hocc)
      · simp only [List.mem_append, List.mem_cons] at hw ⊢
        tauto

theorem foldl_deleteWord_eq_self (passes : List (List α)) (h : ∀ w ∈ passes, ¬Occurs mark w text) :
    passes.foldl (fun t w => Library.deleteWord mark w t) text = text := by
  induction passes with
  | nil => rfl
  | cons p passes ih =>
      rw [List.foldl_cons, deleteWord_eq_self (h p List.mem_cons_self)]
      exact ih fun w hw => h w (List.mem_cons_of_mem p hw)

theorem foldl_deleteWord_sublist (passes : List (List α)) :
    (passes.foldl (fun t w => Library.deleteWord mark w t) text).Sublist text := by
  induction passes generalizing text with
  | nil => exact List.Sublist.refl _
  | cons p passes ih => exact ih.trans deleteWord_sublist

end KernelGym.Library
