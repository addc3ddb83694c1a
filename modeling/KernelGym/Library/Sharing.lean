import Mathlib.Logic.Function.Basic
import KernelGym.Library.Runs

/-! Clients of shared entries. Every client works on the entry of its own key, and has a stage that only its own steps
change; what holds of an entry is proved one step of one client at a time. An entry may have a lock, which belongs to
the one client that is in a stage inside it. -/

namespace KernelGym.Library

/-- What one client does: the entry of its key and its own stage after an event. -/
structure Sharing (Client Key Entry Stage Event : Type) where
  key : Client → Key
  advance : Client → Entry → Stage → Event → Option (Entry × Stage)

namespace Sharing

variable {Client Key Entry Stage Event : Type} [DecidableEq Client] [DecidableEq Key]

/-- The entries, and where every client stands. -/
structure World (Client Key Entry Stage : Type) where
  entry : Key → Entry
  stage : Client → Stage

variable (S : Sharing Client Key Entry Stage Event)

def step (w : World Client Key Entry Stage) (a : Client × Event) : Option (World Client Key Entry Stage) :=
  (S.advance a.1 (w.entry (S.key a.1)) (w.stage a.1) a.2).map fun next =>
    ⟨Function.update w.entry (S.key a.1) next.1, Function.update w.stage a.1 next.2⟩

variable {S} {w w' : World Client Key Entry Stage} {p q : Client} {ev : Event}

/-- **A step of a client** changes its own stage and the entry of its key, and nothing else. -/
theorem step_cases (h : S.step w (p, ev) = some w') :
    ∃ e st, S.advance p (w.entry (S.key p)) (w.stage p) ev = some (e, st) ∧
      w' = ⟨Function.update w.entry (S.key p) e, Function.update w.stage p st⟩ := by
  obtain ⟨⟨e, st⟩, hadvance, rfl⟩ := Option.map_eq_some_iff.mp h
  exact ⟨e, st, hadvance, rfl⟩

theorem stage_of_step (h : S.step w (p, ev) = some w') (hq : q ≠ p) : w'.stage q = w.stage q := by
  obtain ⟨e, st, -, rfl⟩ := step_cases h
  exact Function.update_of_ne hq _ _

theorem entry_of_step {k : Key} (h : S.step w (p, ev) = some w') (hk : k ≠ S.key p) : w'.entry k = w.entry k := by
  obtain ⟨e, st, -, rfl⟩ := step_cases h
  exact Function.update_of_ne hk _ _

/-- An assertion about an entry and the stages of its clients. -/
def Local (S : Sharing Client Key Entry Stage Event) (I : Key → Entry → (Client → Stage) → Prop) : Prop :=
  ∀ k e stage stage', (∀ q, S.key q = k → stage' q = stage q) → I k e stage → I k e stage'

/-- **An assertion about one entry** that every step of its own clients keeps holds of all entries along every run. -/
theorem invariant {I : Key → Entry → (Client → Stage) → Prop}
    {ok : World Client Key Entry Stage → Client × Event → Prop} (hlocal : S.Local I)
    (hstep : ∀ w p ev e st, (∀ k, I k (w.entry k) w.stage) → ok w (p, ev) →
      S.advance p (w.entry (S.key p)) (w.stage p) ev = some (e, st) →
      I (S.key p) e (Function.update w.stage p st))
    (hrun : RunWhen S.step ok w w') (h : ∀ k, I k (w.entry k) w.stage) (k : Key) : I k (w'.entry k) w'.stage := by
  refine RunWhen.invariant (I := fun w => ∀ k, I k (w.entry k) w.stage) ?_ hrun h k
  rintro w ⟨p, ev⟩ w' hw hok hw' k
  obtain ⟨e, st, hadvance, rfl⟩ := step_cases hw'
  by_cases hk : k = S.key p
  · subst hk
    simpa using hstep w p ev e st hw hok hadvance
  · have hentry : Function.update w.entry (S.key p) e k = w.entry k := Function.update_of_ne hk _ _
    show I k (Function.update w.entry (S.key p) e k) (Function.update w.stage p st)
    rw [hentry]
    refine hlocal k (w.entry k) w.stage _ (fun q hq => ?_) (hw k)
    exact Function.update_of_ne (fun hqp => hk (by rw [← hq, hqp])) _ _

/-! ### Locks -/

section Lock

variable (S) (lock : Entry → Option Client) (inside : Stage → Bool)

/-- A step leaves the lock alone, takes a free lock, or gives up the own one. -/
def LockRule : Prop := ∀ p e st ev e' st', S.advance p e st ev = some (e', st') →
  lock e' = lock e ∧ inside st' = inside st ∨ lock e = none ∧ lock e' = some p ∧ inside st' = true ∨
    lock e' = (if lock e = some p then none else lock e) ∧ inside st' = false

/-- The lock belongs to the client that is inside. -/
def Held (k : Key) (e : Entry) (stage : Client → Stage) : Prop :=
  ∀ p, lock e = some p ↔ S.key p = k ∧ inside (stage p) = true

variable {S lock inside} {k : Key} {e e' : Entry} {st' : Stage} {stage : Client → Stage}

omit [DecidableEq Client] [DecidableEq Key] in
theorem Held.only (h : S.Held lock inside k e stage) (hp : S.key p = k) (hq : S.key q = k)
    (hinside : inside (stage p) = true) (hinside' : inside (stage q) = true) : p = q :=
  Option.some.inj (((h p).mpr ⟨hp, hinside⟩).symm.trans ((h q).mpr ⟨hq, hinside'⟩))

omit [DecidableEq Client] [DecidableEq Key] in
theorem held_local : S.Local (S.Held lock inside) := by
  intro k e stage stage' hsame he q
  rw [he q]
  exact and_congr_right fun hq => by rw [hsame q hq]

omit [DecidableEq Key] in
theorem Held.step (hrule : S.LockRule lock inside) (h : S.Held lock inside (S.key p) e stage)
    (hstep : S.advance p e (stage p) ev = some (e', st')) :
    S.Held lock inside (S.key p) e' (Function.update stage p st') := by
  intro q
  have hp := h p
  have hq := h q
  rcases hrule p e (stage p) ev e' st' hstep with ⟨hlock, hinside⟩ | ⟨hnone, hlock, hinside⟩ | ⟨hlock, hinside⟩
  · by_cases hqp : q = p
    · subst hqp
      rw [Function.update_self, hlock, hinside]
      exact hp
    · rw [Function.update_of_ne hqp, hlock]
      exact hq
  · by_cases hqp : q = p
    · subst hqp
      simp [hlock, hinside]
    · rw [Function.update_of_ne hqp, ← hq, hlock, hnone]
      simp [Ne.symm hqp]
  · rw [hlock]
    by_cases hqp : q = p
    · subst hqp
      by_cases hown : lock e = some q <;> simp [hinside, hown]
    · rw [Function.update_of_ne hqp, ← hq]
      by_cases hown : lock e = some p <;> simp [hown, Ne.symm hqp]

end Lock

end Sharing

end KernelGym.Library
