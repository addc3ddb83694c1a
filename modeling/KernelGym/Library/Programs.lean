import KernelGym.Library.Runs

/-! Programs of one client of a shared state. A program is a tree of atomic commands whose answers
decide how it goes on; between two commands other clients take any steps their rules allow. `Holds`
is the weakest precondition under this interference, with a guarantee on every step of the program;
the rules below follow the program, and `Holds.run` carries it along every run. -/

namespace KernelGym.Library

/-- A program that issues commands `c` and is answered in `Ans c`. -/
inductive Program {κ : Type} (Ans : κ → Type) (α : Type)
  | done (a : α)
  | call (c : κ) (next : Ans c → Program Ans α)

/-- How a block of statements ends: past its last one, by a return, or by an exception. -/
inductive Completion (ε β : Type)
  | next
  | returned (b : β)
  | raised (e : ε)
  deriving DecidableEq

variable {κ : Type} {Ans : κ → Type} {α β γ ε ι σ η χ : Type}

abbrev Block (Ans : κ → Type) (ε β : Type) := Program Ans (Completion ε β)

namespace Program

def bind : Program Ans α → (α → Program Ans β) → Program Ans β
  | .done a, f => f a
  | .call c next, f => .call c fun ans => (next ans).bind f

/-- `p`, and `q` unless `p` returned or raised. -/
def andThen (p q : Block Ans ε β) : Block Ans ε β :=
  p.bind fun
    | .next => q
    | how => .done how

def forEach (body : ι → Block Ans ε β) : List ι → Block Ans ε β
  | [] => .done .next
  | i :: rest => (body i).andThen (forEach body rest)

/-- `try body finally cleanup`; the body hands its local variables to the cleanup however it ends, and
an exception or return of the cleanup replaces that of the body. -/
def tryFinally (body : Program Ans (Completion ε β × α)) (cleanup : α → Block Ans ε β) :
    Block Ans ε β :=
  body.bind fun ended => (cleanup ended.2).bind fun
    | .next => .done ended.1
    | how => .done how

end Program

/-- The shared state: a step of another client, and a command of the program under an input that its
surroundings choose. -/
structure Machine (Ans : κ → Type) (σ η χ : Type) where
  env : σ → η → Option σ
  exec : σ → (c : κ) → χ → Option (Ans c × σ)

/-- Which steps of others, and which commands, a run is restricted to. -/
structure Rules (σ η κ : Type) where
  env : σ → η → Prop
  own : σ → κ → Prop

inductive Move (η χ : Type)
  | other (e : η)
  | own (x : χ)

/-- One step of the program and its surroundings. -/
def Machine.step (M : Machine Ans σ η χ) :
    σ × Program Ans α → Move η χ → Option (σ × Program Ans α)
  | (s, p), .other e => (M.env s e).map fun t => (t, p)
  | (_, .done _), .own _ => none
  | (s, .call c next), .own x => (M.exec s c x).map fun r => (r.2, next r.1)

def Rules.allow (R : Rules σ η κ) : σ × Program Ans α → Move η χ → Prop
  | (s, _), .other e => R.env s e
  | (_, .done _), .own _ => True
  | (s, .call c _), .own _ => R.own s c

variable (M : Machine Ans σ η χ) (R : Rules σ η κ) (G : σ → σ → Prop)

/-- Other clients do not invalidate the assertion. -/
def Stable (I : σ → Prop) : Prop := ∀ s e t, I s → R.env s e → M.env s e = some t → I t

/-- From `s`, whatever others do, every step of the program meets `G` and its result meets `Q`. -/
def Program.Holds (Q : α → σ → Prop) : Program Ans α → σ → Prop
  | .done a, s => ∀ t, RunWhen M.env R.env s t → Q a t
  | .call c next, s => ∀ t, RunWhen M.env R.env s t → R.own t c → ∀ x r, M.exec t c x = some r →
      G t r.2 ∧ (next r.1).Holds Q r.2

variable {M R G} {Q Q' : α → σ → Prop} {p : Program Ans α} {s t : σ}

theorem Stable.run {I : σ → Prop} (hI : Stable M R I) (hs : I s) (h : RunWhen M.env R.env s t) :
    I t :=
  RunWhen.invariant (fun s e t hi hok hstep => hI s e t hi hok hstep) h hs

theorem Stable.and {I J : σ → Prop} (hI : Stable M R I) (hJ : Stable M R J) :
    Stable M R fun s => I s ∧ J s :=
  fun s e t h hok hstep => ⟨hI s e t h.1 hok hstep, hJ s e t h.2 hok hstep⟩

namespace Program.Holds

theorem interfered (h : p.Holds M R G Q s) (hrun : RunWhen M.env R.env s t) : p.Holds M R G Q t := by
  cases p with
  | done a => exact fun u hu => h u (hrun.append hu)
  | call c next => exact fun u hu => h u (hrun.append hu)

theorem mono (himp : ∀ a s, Q a s → Q' a s) (h : p.Holds M R G Q s) : p.Holds M R G Q' s := by
  induction p generalizing s with
  | done a => exact fun t ht => himp a t (h t ht)
  | call c next ih =>
      intro t ht hown x r hr
      obtain ⟨hguar, hnext⟩ := h t ht hown x r hr
      exact ⟨hguar, ih r.1 hnext⟩

theorem done {a : α} (hstable : Stable M R (Q a)) (hs : Q a s) :
    (Program.done a : Program Ans α).Holds M R G Q s :=
  fun _ ht => hstable.run hs ht

/-- A command, from an assertion that others keep. -/
theorem call {c : κ} {next : Ans c → Program Ans α} {I : σ → Prop} (hstable : Stable M R I)
    (hs : I s) (hnext : ∀ t x r, I t → R.own t c → M.exec t c x = some r →
      G t r.2 ∧ (next r.1).Holds M R G Q r.2) :
    (Program.call c next).Holds M R G Q s :=
  fun t ht hown x r hr => hnext t x r (hstable.run hs ht) hown hr

theorem bind {f : α → Program Ans β} {Q : β → σ → Prop}
    (h : p.Holds M R G (fun a t => (f a).Holds M R G Q t) s) : (p.bind f).Holds M R G Q s := by
  induction p generalizing s with
  | done a => exact h s Relation.ReflTransGen.refl
  | call c next ih =>
      intro t ht hown x r hr
      obtain ⟨hguar, hnext⟩ := h t ht hown x r hr
      exact ⟨hguar, ih r.1 hnext⟩

section Blocks

variable {P q : Block Ans ε β} {Q : Completion ε β → σ → Prop} (hQ : ∀ how, Stable M R (Q how))

include hQ

theorem andThen (h : P.Holds M R G (fun how t => match how with
      | .next => q.Holds M R G Q t
      | how => Q how t) s) : (P.andThen q).Holds M R G Q s := by
  refine bind (h.mono fun how t ht => ?_)
  cases how with
  | next => exact ht
  | returned b => exact done (hQ _) ht
  | raised e => exact done (hQ _) ht

/-- A loop over a list, with an invariant on the items that are left. -/
theorem forEach {body : ι → Block Ans ε β} {I : List ι → σ → Prop}
    (hbody : ∀ i rest s, I (i :: rest) s → (body i).Holds M R G (fun how t => match how with
      | .next => I rest t
      | how => Q how t) s)
    (hend : ∀ s, I [] s → Q .next s) {items : List ι} (hs : I items s) :
    (Program.forEach body items).Holds M R G Q s := by
  induction items generalizing s with
  | nil => exact done (hQ _) (hend s hs)
  | cons i rest ih =>
      refine andThen hQ ((hbody i rest s hs).mono fun how t ht => ?_)
      cases how with
      | next => exact ih ht
      | returned b => exact ht
      | raised e => exact ht

theorem tryFinally {body : Program Ans (Completion ε β × α)} {cleanup : α → Block Ans ε β}
    (h : body.Holds M R G (fun ended t => (cleanup ended.2).Holds M R G (fun how u => match how with
      | .next => Q ended.1 u
      | how => Q how u) t) s) : (Program.tryFinally body cleanup).Holds M R G Q s := by
  refine bind (h.mono fun ended t ht => bind (ht.mono fun how u hu => ?_))
  cases how with
  | next => exact done (hQ _) hu
  | returned b => exact done (hQ _) hu
  | raised e => exact done (hQ _) hu

end Blocks

theorem step {m : Move η χ} {next : σ × Program Ans α} (h : p.Holds M R G Q s)
    (hallow : R.allow (s, p) m) (hstep : M.step (s, p) m = some next) :
    next.2.Holds M R G Q next.1 := by
  cases m with
  | other e =>
      simp only [Machine.step, Option.map_eq_some_iff] at hstep
      obtain ⟨t, ht, rfl⟩ := hstep
      exact h.interfered (RunWhen.single hallow ht)
  | own x =>
      cases p with
      | done a => exact absurd hstep (by simp [Machine.step])
      | call c cont =>
          simp only [Machine.step, Option.map_eq_some_iff] at hstep
          obtain ⟨r, hr, rfl⟩ := hstep
          exact (h s Relation.ReflTransGen.refl hallow x r hr).2

/-- What holds of a program holds of what is left of it at every point of a run. -/
theorem run {start stop : σ × Program Ans α} (h : start.2.Holds M R G Q start.1)
    (hrun : RunWhen M.step R.allow start stop) : stop.2.Holds M R G Q stop.1 :=
  RunWhen.invariant (I := fun now => now.2.Holds M R G Q now.1)
    (fun _ _ _ hi hallow hstep => step hi hallow hstep) hrun h

theorem result {a : α} (h : (Program.done a : Program Ans α).Holds M R G Q s) : Q a s :=
  h s Relation.ReflTransGen.refl

/-- Every step of a run is one of another client, or meets the guarantee. -/
theorem guarantee {m : Move η χ} {next : σ × Program Ans α} (h : p.Holds M R G Q s)
    (hallow : R.allow (s, p) m) (hstep : M.step (s, p) m = some next) :
    (∃ e, R.env s e ∧ M.env s e = some next.1) ∨ G s next.1 := by
  cases m with
  | other e =>
      simp only [Machine.step, Option.map_eq_some_iff] at hstep
      obtain ⟨t, ht, rfl⟩ := hstep
      exact Or.inl ⟨e, hallow, ht⟩
  | own x =>
      cases p with
      | done a => exact absurd hstep (by simp [Machine.step])
      | call c cont =>
          simp only [Machine.step, Option.map_eq_some_iff] at hstep
          obtain ⟨r, hr, rfl⟩ := hstep
          exact Or.inr (h s Relation.ReflTransGen.refl hallow x r hr).1

end Program.Holds

end KernelGym.Library
