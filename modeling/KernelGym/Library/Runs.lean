import Mathlib.Logic.Relation

/-! Runs of a labelled transition system given by a partial step function. A run may be restricted to
steps that meet a condition on the state before the step and the label; invariants and stable
properties of runs are derived from one step. -/

namespace KernelGym.Library

variable {σ α : Type*} (step : σ → α → Option σ)

/-- One step with a label that meets `ok` in the state before it. -/
def StepWhen (ok : σ → α → Prop) (s t : σ) : Prop :=
  ∃ a, ok s a ∧ step s a = some t

/-- A finite run all of whose steps meet `ok`. -/
def RunWhen (ok : σ → α → Prop) : σ → σ → Prop :=
  Relation.ReflTransGen (StepWhen step ok)

/-- A finite run without a condition on its steps. -/
abbrev Run : σ → σ → Prop := RunWhen step fun _ _ => True

/-- The state after a list of labels, when every one of them can be taken. -/
def execute : List α → σ → Option σ
  | [], s => some s
  | a :: rest, s => (step s a).bind (execute rest)

variable {step} {ok ok' : σ → α → Prop} {s t u : σ}

theorem RunWhen.single {a : α} (hok : ok s a) (h : step s a = some t) : RunWhen step ok s t :=
  Relation.ReflTransGen.single ⟨a, hok, h⟩

theorem RunWhen.snoc {a : α} (h : RunWhen step ok s t) (hok : ok t a) (ha : step t a = some u) :
    RunWhen step ok s u :=
  Relation.ReflTransGen.tail h ⟨a, hok, ha⟩

theorem RunWhen.append (h : RunWhen step ok s t) (h' : RunWhen step ok t u) :
    RunWhen step ok s u :=
  Relation.ReflTransGen.trans h h'

theorem RunWhen.mono (himp : ∀ s a, ok s a → ok' s a) (h : RunWhen step ok s t) :
    RunWhen step ok' s t :=
  Relation.ReflTransGen.mono (fun _ _ hlast =>
    let ⟨a, hok, ha⟩ := hlast
    ⟨a, himp _ a hok, ha⟩) s t h

/-- What every allowed step preserves holds along every run that starts from it. -/
theorem RunWhen.invariant {I : σ → Prop}
    (hstep : ∀ s a t, I s → ok s a → step s a = some t → I t)
    (h : RunWhen step ok s t) (hs : I s) : I t := by
  induction h with
  | refl => exact hs
  | tail _ hlast ih =>
      obtain ⟨a, hok, ha⟩ := hlast
      exact hstep _ a _ ih hok ha

/-- A list of labels that can be taken is a run; a condition on the labels alone carries over. -/
theorem execute_run {allowed : α → Prop} {labels : List α} (hok : ∀ a ∈ labels, allowed a)
    (h : execute step labels s = some t) : RunWhen step (fun _ a => allowed a) s t := by
  induction labels generalizing s with
  | nil =>
      simp only [execute, Option.some.injEq] at h
      rw [h]
      exact Relation.ReflTransGen.refl
  | cons a rest ih =>
      simp only [execute, Option.bind_eq_some_iff] at h
      obtain ⟨mid, hmid, hrest⟩ := h
      exact (RunWhen.single (hok a List.mem_cons_self) hmid).append
        (ih (fun b hb => hok b (List.mem_cons_of_mem a hb)) hrest)

/-- The state a list of labels leads to is reached by a run, when every label can be taken. -/
theorem execute_run_getD {allowed : α → Prop} {labels : List α} (hok : ∀ a ∈ labels, allowed a)
    (h : (execute step labels s).isSome) :
    RunWhen step (fun _ a => allowed a) s ((execute step labels s).getD s) := by
  obtain ⟨t, ht⟩ := Option.isSome_iff_exists.mp h
  rw [ht]
  exact execute_run hok ht

/-- A list of labels that can be taken, each after a test of the state before it. -/
theorem execute_run_of_test {test : σ → α → Bool} {labels : List α}
    (himp : ∀ s a, test s a = true → ok s a)
    (h : execute (fun s a => if test s a then step s a else none) labels s = some t) :
    RunWhen step ok s t := by
  induction labels generalizing s with
  | nil =>
      obtain rfl := Option.some.inj h
      exact Relation.ReflTransGen.refl
  | cons a rest ih =>
      simp only [execute, Option.bind_eq_some_iff, Option.ite_none_right_eq_some] at h
      obtain ⟨mid, ⟨htest, hmid⟩, hrest⟩ := h
      exact (RunWhen.single (himp s a htest) hmid).append (ih hrest)

/-- A label that can be taken leads to its own successor. -/
theorem step_getD {a : α} (h : (step s a).isSome) : step s a = some ((step s a).getD s) := by
  obtain ⟨t, ht⟩ := Option.isSome_iff_exists.mp h
  rw [ht]
  rfl

end KernelGym.Library
