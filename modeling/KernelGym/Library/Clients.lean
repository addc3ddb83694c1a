import KernelGym.Library.Programs
import Mathlib.Logic.Function.Basic

/-! Any number of clients of one shared state. Each runs a program, with a state of its own, and what every step of a
client guarantees is what the others rely on: a program that holds under this interference alone holds beside all the
others. The first part is for programs whose facts about the state are never taken back. -/

namespace KernelGym.Library

variable {κ : Type} {Ans : κ → Type} {α β σ ℓ ι δ χ η : Type}

/-- Others cannot spoil a result. -/
theorem Program.Holds.settled {M : Machine Ans σ η χ} {R : Rules σ η κ} {G : σ → σ → Prop} {Q : α → σ → Prop}
    {p : Program Ans α} {s : σ} (h : p.Holds M R G Q s) :
    p.Holds M R G (fun a t => (Program.done a : Program Ans α).Holds M R G Q t) s := by
  induction p generalizing s with
  | done a => exact fun t ht u hu => h u (ht.append hu)
  | call c next ih =>
      intro t ht hown x r hr
      obtain ⟨hguar, hnext⟩ := h t ht hown x r hr
      exact ⟨hguar, ih r.1 hnext⟩

/-! ### Facts that are never taken back -/

/-- The state only moves along `L`, in steps of others and in steps that meet the guarantee. -/
structure Grows (M : Machine Ans σ η χ) (R : Rules σ η κ) (G L : σ → σ → Prop) : Prop where
  refl : ∀ s, L s s
  trans : ∀ {s t u}, L s t → L t u → L s u
  env : ∀ {s e t}, R.env s e → M.env s e = some t → L s t
  own : ∀ {s c x r}, R.own s c → M.exec s c x = some r → G s r.2 → L s r.2

namespace Grows

variable {M : Machine Ans σ η χ} {R : Rules σ η κ} {G L : σ → σ → Prop} {Q : α → σ → Prop} {s t : σ}

theorem run (h : Grows M R G L) (hrun : RunWhen M.env R.env s t) : L s t := by
  induction hrun with
  | refl => exact h.refl s
  | tail _ hlast ih =>
      obtain ⟨e, hok, he⟩ := hlast
      exact h.trans ih (h.env hok he)

theorem done (h : Grows M R G L) {a : α} (hQ : ∀ t, L s t → Q a t) :
    (Program.done a : Program Ans α).Holds M R G Q s :=
  fun t ht => hQ t (h.run ht)

theorem call (h : Grows M R G L) {c : κ} {next : Ans c → Program Ans α}
    (hnext : ∀ t x r, L s t → R.own t c → M.exec t c x = some r →
      G t r.2 ∧ (L s r.2 → (next r.1).Holds M R G Q r.2)) :
    (Program.call c next).Holds M R G Q s := by
  intro t ht hown x r hr
  have hlater := h.run ht
  obtain ⟨hguar, hgoes⟩ := hnext t x r hlater hown hr
  exact ⟨hguar, hgoes (h.trans hlater (h.own hown hr hguar))⟩

theorem later (h : Grows M R G L) {p : Program Ans α} (hp : p.Holds M R G Q s) :
    p.Holds M R G (fun a t => L s t ∧ Q a t) s := by
  suffices hgen : ∀ u, p.Holds M R G Q u → L s u → p.Holds M R G (fun a t => L s t ∧ Q a t) u from
    hgen s hp (h.refl s)
  clear hp
  induction p with
  | done a => exact fun u hu hsu t ht => ⟨h.trans hsu (h.run ht), hu t ht⟩
  | call c next ih =>
      intro u hu hsu t ht hown x r hr
      obtain ⟨hguar, hgoes⟩ := hu t ht hown x r hr
      exact ⟨hguar, ih r.1 r.2 hgoes (h.trans hsu (h.trans (h.run ht) (h.own hown hr hguar)))⟩

theorem bind (h : Grows M R G L) {p : Program Ans α} {f : α → Program Ans β} {Q' : β → σ → Prop}
    (hp : p.Holds M R G Q s) (hf : ∀ a t, L s t → Q a t → (f a).Holds M R G Q' t) :
    (p.bind f).Holds M R G Q' s :=
  Program.Holds.bind ((h.later hp).mono fun a t ht => hf a t ht.1 ht.2)

end Grows

/-! ### Clients side by side -/

/-- A shared state, and of each client its own state and what is left of its program. -/
structure Site (Ans : κ → Type) (α σ ℓ ι : Type) where
  shared : σ
  client : ι → Option (ℓ × Program Ans α)

/-- What the surroundings and the clients of a site do; a client starts with the data `d` of a call. -/
structure ClientService (Ans : κ → Type) (α σ ℓ δ χ η : Type) where
  env : σ → η → Option σ
  exec : σ × ℓ → (c : κ) → χ → Option (Ans c × (σ × ℓ))
  start : δ → σ → ℓ × Program Ans α

inductive Turn (ι δ χ η : Type)
  | env (e : η)
  /-- A client starts a call; if it was still running one, that one has crashed. -/
  | start (i : ι) (d : δ)
  | own (i : ι) (x : χ)

namespace ClientService

variable (S : ClientService Ans α σ ℓ δ χ η)

def step [DecidableEq ι] (site : Site Ans α σ ℓ ι) : Turn ι δ χ η → Option (Site Ans α σ ℓ ι)
  | .env e => (S.env site.shared e).map fun t => { site with shared := t }
  | .start i d => some { site with client := Function.update site.client i (some (S.start d site.shared)) }
  | .own i x =>
    match site.client i with
    | some (l, .call c next) => (S.exec (site.shared, l) c x).map fun r =>
        ⟨r.2.1, Function.update site.client i (some (r.2.2, next r.1))⟩
    | _ => none

/-- One client alone, whose surroundings may replace the shared state. -/
def alone : Machine Ans (σ × ℓ) σ χ where
  env v t := some (t, v.2)
  exec := S.exec

/-- From states that meet the invariant others step along `Rely`. -/
def rules (I : σ → Prop) (Rely : σ → σ → Prop) : Rules (σ × ℓ) σ κ where
  env v t := I v.1 ∧ Rely v.1 t
  own v _ := I v.1

/-- The programs hold alone, and what they guarantee is what they rely on. -/
structure Sound (I : σ → Prop) (Rely : σ → σ → Prop) (G : σ × ℓ → σ × ℓ → Prop) (Q : α → σ × ℓ → Prop) : Prop where
  env : ∀ s e t, I s → S.env s e = some t → Rely s t
  guarantee : ∀ v w, I v.1 → G v w → Rely v.1 w.1
  keeps : ∀ s t, I s → Rely s t → I t
  start : ∀ d s, I s → (S.start d s).2.Holds S.alone (rules I Rely) G Q (s, (S.start d s).1)

variable {S} [DecidableEq ι] {I : σ → Prop} {Rely : σ → σ → Prop} {G : σ × ℓ → σ × ℓ → Prop} {Q : α → σ × ℓ → Prop}
  {site site' : Site Ans α σ ℓ ι} {J : σ × ℓ → Prop}

/-- The invariant, and for each client what holds of the rest of its program and of its view. -/
structure Holding (S : ClientService Ans α σ ℓ δ χ η) (I : σ → Prop) (Rely : σ → σ → Prop) (G : σ × ℓ → σ × ℓ → Prop)
    (Q : α → σ × ℓ → Prop) (J : σ × ℓ → Prop) (site : Site Ans α σ ℓ ι) : Prop where
  shared : I site.shared
  client : ∀ i c, site.client i = some c →
    c.2.Holds S.alone (rules I Rely) G Q (site.shared, c.1) ∧ J (site.shared, c.1)

section

variable (hS : S.Sound I Rely G Q) (hstart : ∀ d s, I s → J (s, (S.start d s).1))
  (hrely : ∀ v t, I v.1 → Rely v.1 t → J v → J (t, v.2)) (hguar : ∀ v w, I v.1 → G v w → J v → J w)

omit [DecidableEq ι] in
include hrely in
theorem Holding.moved {t : σ} (h : Holding S I Rely G Q J site) (ht : Rely site.shared t) {i : ι}
    {c : ℓ × Program Ans α} (hc : site.client i = some c) :
    c.2.Holds S.alone (rules I Rely) G Q (t, c.1) ∧ J (t, c.1) :=
  have hold := h.client i c hc
  ⟨hold.1.interfered (RunWhen.single (a := t) ⟨h.shared, ht⟩ rfl), hrely (site.shared, c.1) t h.shared ht hold.2⟩

include hS hstart hrely hguar in
theorem Holding.step {turn : Turn ι δ χ η} (h : Holding S I Rely G Q J site)
    (hstep : S.step site turn = some site') : Holding S I Rely G Q J site' := by
  cases turn with
  | env e =>
      obtain ⟨t, ht, rfl⟩ := Option.map_eq_some_iff.mp hstep
      have hmove := hS.env site.shared e t h.shared ht
      exact ⟨hS.keeps _ _ h.shared hmove, fun i c hc => h.moved hrely hmove hc⟩
  | start i d =>
      obtain rfl := Option.some.inj hstep
      refine ⟨h.shared, fun j c hc => ?_⟩
      by_cases hj : j = i
      · subst hj
        obtain rfl : S.start d site.shared = c := by simpa using hc
        exact ⟨hS.start d _ h.shared, hstart d _ h.shared⟩
      · exact h.client j c (by simpa [Function.update_of_ne hj] using hc)
  | own i x =>
      simp only [ClientService.step] at hstep
      split at hstep
      · rename_i l cmd next hclient
        obtain ⟨r, hr, rfl⟩ := Option.map_eq_some_iff.mp hstep
        obtain ⟨hholds, hJ⟩ := h.client i _ hclient
        obtain ⟨hG, hnext⟩ := hholds _ Relation.ReflTransGen.refl h.shared x r hr
        have hmove := hS.guarantee _ _ h.shared hG
        refine ⟨hS.keeps _ _ h.shared hmove, fun j c hc => ?_⟩
        by_cases hj : j = i
        · subst hj
          obtain rfl : (r.2.2, next r.1) = c := by simpa using hc
          exact ⟨hnext, hguar _ _ h.shared hG hJ⟩
        · exact h.moved hrely hmove (by simpa [Function.update_of_ne hj] using hc)
      · cases hstep

include hS hstart hrely hguar in
/-- **Programs that hold alone hold side by side**, in every run of any number of clients. -/
theorem Holding.run (h : Holding S I Rely G Q J site) (hrun : Run S.step site site') :
    Holding S I Rely G Q J site' :=
  RunWhen.invariant (fun _ _ _ hi _ hstep => hi.step hS hstart hrely hguar hstep) hrun h

end

end ClientService

end KernelGym.Library
