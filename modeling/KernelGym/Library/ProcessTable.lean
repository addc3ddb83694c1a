import Mathlib.Data.List.Basic

/-! The processes of a Linux host: their states, process groups and sessions, and what they can do. A number is not
given to a new process while some process still carries it as its own, its group's or its session's. -/

namespace KernelGym.Library

abbrev Pid := ℕ

/-- A session, by the process that began it. -/
structure LinuxSession where
  pid : Pid
  startTicks : ℕ
  deriving DecidableEq

/-- A stopped process, and one that has ended and is not reaped yet, do not run. -/
inductive ProcessState
  | executable
  | stopped
  | zombie
  deriving DecidableEq

structure LinuxProcess where
  pid : Pid
  startTicks : ℕ
  state : ProcessState
  group : Pid
  session : LinuxSession
  deriving DecidableEq

structure ProcessTable where
  processes : List LinuxProcess := []
  /-- History: all sessions. -/
  begun : List LinuxSession := []
  /-- History: of every fork the session. -/
  forked : List LinuxSession := []
  deriving DecidableEq

inductive ProcessEvent
  | fork (parent child : Pid) (startTicks : ℕ)
  /-- A new process that begins a session at once. -/
  | spawn (leader : Pid) (startTicks : ℕ)
  | setsid (pid : Pid)
  | setpgid (pid group : Pid)
  | stop (pid : Pid)
  | resume (pid : Pid)
  | exit (pid : Pid)
  | reap (pid : Pid)
  deriving DecidableEq

namespace ProcessTable

variable (t : ProcessTable)

/-- The process with a number, if it runs. -/
def running (pid : Pid) : Option LinuxProcess := t.processes.find? fun q => q.pid = pid && q.state = .executable

def isFree (n : Pid) : Bool := t.processes.all fun q => q.pid ≠ n && q.group ≠ n && q.session.pid ≠ n

/-- Every process for which the test holds changes. -/
def modify (test : LinuxProcess → Bool) (f : LinuxProcess → LinuxProcess) : ProcessTable :=
  { t with processes := t.processes.map fun q => if test q then f q else q }

def step : ProcessEvent → Option ProcessTable
  | .fork parent child startTicks =>
    match t.running parent with
    | some q =>
      if t.isFree child then
        some { t with
          processes := ⟨child, startTicks, .executable, q.group, q.session⟩ :: t.processes
          forked := q.session :: t.forked }
      else none
    | none => none
  | .spawn leader startTicks =>
    if t.isFree leader && ⟨leader, startTicks⟩ ∉ t.begun then
      some { t with
        processes := ⟨leader, startTicks, .executable, leader, ⟨leader, startTicks⟩⟩ :: t.processes
        begun := ⟨leader, startTicks⟩ :: t.begun }
    else none
  | .setsid pid =>
    match t.running pid with
    | some q =>
      if t.processes.all (fun r => r.group ≠ pid && r.session.pid ≠ pid) && ⟨pid, q.startTicks⟩ ∉ t.begun then
        some { t.modify (· = q) (fun _ => { q with group := pid, session := ⟨pid, q.startTicks⟩ }) with
          begun := ⟨pid, q.startTicks⟩ :: t.begun }
      else none
    | none => none
  | .setpgid pid group =>
    match t.running pid with
    | some q =>
      if group = pid || t.processes.any (fun r => r.group = group && r.session = q.session) then
        some (t.modify (· = q) fun _ => { q with group := group })
      else none
    | none => none
  | .stop pid => (t.running pid).map fun q => t.modify (· = q) fun _ => { q with state := .stopped }
  | .resume pid =>
    some (t.modify (fun q => q.pid = pid && q.state = .stopped) fun q => { q with state := .executable })
  | .exit pid => some (t.modify (fun q => q.pid = pid) fun q => { q with state := .zombie })
  | .reap pid => some { t with processes := t.processes.filter fun q => q.pid ≠ pid || q.state ≠ .zombie }

/-- Nothing in the session can run any more, or ever again. -/
def Drained (g : LinuxSession) : Prop := ∀ q ∈ t.processes, q.session = g → q.state = .zombie

instance (g : LinuxSession) : Decidable (t.Drained g) := by unfold Drained; infer_instance

variable {t} {t' : ProcessTable} {e : ProcessEvent} {g : LinuxSession} {pid : Pid}

theorem mem_of_running {q : LinuxProcess} (h : t.running pid = some q) :
    q ∈ t.processes ∧ q.pid = pid ∧ q.state = .executable := by
  have hfound := List.find?_some h
  simp only [Bool.and_eq_true, decide_eq_true_eq] at hfound
  exact ⟨List.mem_of_find?_eq_some h, hfound⟩

theorem Drained.modify {test : LinuxProcess → Bool} {f : LinuxProcess → LinuxProcess} (h : t.Drained g)
    (hf : ∀ q ∈ t.processes, test q = true → (f q).session = g → (f q).state = .zombie) :
    (t.modify test f).Drained g := by
  intro r hr hsession
  obtain ⟨q, hq, rfl⟩ := List.mem_map.mp hr
  cases htest : test q with
  | true =>
      rw [htest] at hsession
      exact hf q hq htest hsession
  | false =>
      rw [htest] at hsession
      exact h q hq hsession

/-- What one step does. -/
inductive Advances (t : ProcessTable) : ProcessTable → Prop
  | forked {q : LinuxProcess} {child : Pid} {startTicks : ℕ} (hmem : q ∈ t.processes) (hruns : q.state = .executable)
      (hfree : t.isFree child = true) :
      Advances t { t with
        processes := ⟨child, startTicks, .executable, q.group, q.session⟩ :: t.processes
        forked := q.session :: t.forked }
  | spawned {leader : Pid} {startTicks : ℕ} (hfree : t.isFree leader = true)
      (hnew : (⟨leader, startTicks⟩ : LinuxSession) ∉ t.begun) :
      Advances t { t with
        processes := ⟨leader, startTicks, .executable, leader, ⟨leader, startTicks⟩⟩ :: t.processes
        begun := ⟨leader, startTicks⟩ :: t.begun }
  | led {q : LinuxProcess} (hmem : q ∈ t.processes) (hnew : (⟨q.pid, q.startTicks⟩ : LinuxSession) ∉ t.begun) :
      Advances t { t.modify (· = q) (fun _ => { q with group := q.pid, session := ⟨q.pid, q.startTicks⟩ }) with
        begun := ⟨q.pid, q.startTicks⟩ :: t.begun }
  | grouped {q : LinuxProcess} {group : Pid} (hmem : q ∈ t.processes) (hruns : q.state = .executable) :
      Advances t (t.modify (· = q) fun _ => { q with group := group })
  | stopped {q : LinuxProcess} (hmem : q ∈ t.processes) (hruns : q.state = .executable) :
      Advances t (t.modify (· = q) fun _ => { q with state := .stopped })
  | resumed {pid : Pid} :
      Advances t (t.modify (fun q => q.pid = pid && q.state = .stopped) fun q => { q with state := .executable })
  | ended {pid : Pid} : Advances t (t.modify (fun q => q.pid = pid) fun q => { q with state := .zombie })
  | reaped {pid : Pid} : Advances t { t with processes := t.processes.filter fun q => q.pid ≠ pid || q.state ≠ .zombie }

theorem step_cases (h : t.step e = some t') : t.Advances t' := by
  cases e with
  | fork parent child startTicks =>
      simp only [step] at h
      split at h
      · rename_i q hq
        obtain ⟨hfree, heq⟩ := Option.ite_none_right_eq_some.mp h
        obtain ⟨hmem, -, hruns⟩ := mem_of_running hq
        exact Option.some.inj heq ▸ .forked hmem hruns hfree
      · cases h
  | spawn leader startTicks =>
      obtain ⟨hguard, heq⟩ := Option.ite_none_right_eq_some.mp h
      simp only [Bool.and_eq_true, decide_eq_true_eq] at hguard
      exact Option.some.inj heq ▸ .spawned hguard.1 hguard.2
  | setsid pid =>
      simp only [step] at h
      split at h
      · rename_i q hq
        obtain ⟨hguard, heq⟩ := Option.ite_none_right_eq_some.mp h
        obtain ⟨hmem, rfl, -⟩ := mem_of_running hq
        simp only [Bool.and_eq_true, decide_eq_true_eq] at hguard
        exact Option.some.inj heq ▸ .led hmem hguard.2
      · cases h
  | setpgid pid group =>
      simp only [step] at h
      split at h
      · rename_i q hq
        obtain ⟨-, heq⟩ := Option.ite_none_right_eq_some.mp h
        obtain ⟨hmem, -, hruns⟩ := mem_of_running hq
        exact Option.some.inj heq ▸ .grouped hmem hruns
      · cases h
  | stop pid =>
      obtain ⟨q, hq, rfl⟩ := Option.map_eq_some_iff.mp h
      obtain ⟨hmem, -, hruns⟩ := mem_of_running hq
      exact .stopped hmem hruns
  | resume pid => exact Option.some.inj h ▸ .resumed
  | exit pid => exact Option.some.inj h ▸ .ended
  | reap pid => exact Option.some.inj h ▸ .reaped

theorem begun_step (h : t.step e = some t') : ∀ g ∈ t.begun, g ∈ t'.begun := by
  intro g hg
  cases step_cases h with
  | spawned | led => exact List.mem_cons_of_mem _ hg
  | forked | grouped | stopped | resumed | ended | reaped => exact hg

/-- **A drained session stays drained**: no process of it can fork, and its number and start time never come again. -/
theorem Drained.step (h : t.Drained g) (hbegun : g ∈ t.begun) (hstep : t.step e = some t') : t'.Drained g := by
  have hlive : ∀ q ∈ t.processes, q.state = .executable → q.session ≠ g := by
    intro q hmem hruns hsession
    rw [h q hmem hsession] at hruns
    cases hruns
  cases step_cases hstep with
  | @forked q _ _ hmem hruns =>
      intro r hr hsession
      rcases List.mem_cons.mp hr with rfl | hr
      · exact absurd hsession (hlive q hmem hruns)
      · exact h r hr hsession
  | @spawned leader startTicks _ hnew =>
      intro r hr hsession
      rcases List.mem_cons.mp hr with rfl | hr
      · obtain rfl : (⟨leader, startTicks⟩ : LinuxSession) = g := hsession
        exact absurd hbegun hnew
      · exact h r hr hsession
  | @led q _ hnew =>
      refine h.modify fun _ _ _ hsession => ?_
      obtain rfl : (⟨q.pid, q.startTicks⟩ : LinuxSession) = g := hsession
      exact absurd hbegun hnew
  | @grouped q _ hmem hruns => exact h.modify fun _ _ _ hsession => absurd hsession (hlive q hmem hruns)
  | @stopped q hmem hruns => exact h.modify fun _ _ _ hsession => absurd hsession (hlive q hmem hruns)
  | resumed =>
      refine h.modify fun q hq htest hsession => ?_
      simp only [Bool.and_eq_true, decide_eq_true_eq] at htest
      rw [h q hq hsession] at htest
      cases htest.2
  | ended => exact h.modify fun q _ _ _ => rfl
  | reaped => exact fun q hq hsession => h q (List.mem_filter.mp hq).1 hsession

/-- No two processes have one number. -/
def Numbered (processes : List LinuxProcess) : Prop :=
  ∀ q ∈ processes, ∀ r ∈ processes, q.pid = r.pid → q = r

theorem Numbered.cons {processes : List LinuxProcess} {q : LinuxProcess} (h : Numbered processes)
    (hfresh : ∀ r ∈ processes, r.pid ≠ q.pid) : Numbered (q :: processes) := by
  intro r hr r' hr' hpid
  rcases List.mem_cons.mp hr with rfl | hold <;> rcases List.mem_cons.mp hr' with rfl | hold'
  · rfl
  · exact absurd hpid.symm (hfresh r' hold')
  · exact absurd hpid (hfresh r hold)
  · exact h r hold r' hold' hpid

theorem Numbered.modify (h : Numbered t.processes) {test : LinuxProcess → Bool} {f : LinuxProcess → LinuxProcess}
    (hf : ∀ q ∈ t.processes, test q = true → (f q).pid = q.pid) : Numbered (t.modify test f).processes := by
  have hsame : ∀ q ∈ t.processes, (if test q then f q else q).pid = q.pid := by
    intro q hq
    cases htest : test q with
    | true => exact hf q hq htest
    | false => rfl
  intro r hr r' hr' hpid
  obtain ⟨q, hq, rfl⟩ := List.mem_map.mp hr
  obtain ⟨q', hq', rfl⟩ := List.mem_map.mp hr'
  rw [h q hq q' hq' ((hsame q hq).symm.trans (hpid.trans (hsame q' hq')))]

theorem ne_pid_of_isFree {q : LinuxProcess} (h : t.isFree pid = true) (hq : q ∈ t.processes) : q.pid ≠ pid := by
  have hother := List.all_eq_true.mp h q hq
  simp only [Bool.and_eq_true, decide_eq_true_eq] at hother
  exact hother.1.1

/-- Every session has begun, a process whose number is that of its session has begun it, and no two processes have one
number. -/
structure Coherent (t : ProcessTable) : Prop where
  begun : ∀ q ∈ t.processes, q.session ∈ t.begun
  leader : ∀ q ∈ t.processes, q.session.pid = q.pid → q.session.startTicks = q.startTicks
  numbered : Numbered t.processes

theorem Coherent.modify (h : t.Coherent) {test : LinuxProcess → Bool} {f : LinuxProcess → LinuxProcess}
    (hf : ∀ q ∈ t.processes, test q = true → (f q).session = q.session ∧ (f q).pid = q.pid ∧
      (f q).startTicks = q.startTicks) : (t.modify test f).Coherent := by
  have hsame : ∀ r ∈ (t.modify test f).processes, ∃ q ∈ t.processes, r.session = q.session ∧ r.pid = q.pid ∧
      r.startTicks = q.startTicks := by
    intro r hr
    obtain ⟨q, hq, rfl⟩ := List.mem_map.mp hr
    cases htest : test q with
    | true => exact ⟨q, hq, hf q hq htest⟩
    | false => exact ⟨q, hq, rfl, rfl, rfl⟩
  constructor
  · intro r hr
    obtain ⟨q, hq, hsession, -⟩ := hsame r hr
    rw [hsession]
    exact h.begun q hq
  · intro r hr hnumber
    obtain ⟨q, hq, hsession, hpid, hticks⟩ := hsame r hr
    rw [hsession, hpid] at hnumber
    rw [hsession, hticks]
    exact h.leader q hq hnumber
  · exact h.numbered.modify fun q hq htest => (hf q hq htest).2.1

/-- A new process with a number that is free. -/
theorem Coherent.cons (h : t.Coherent) {q : LinuxProcess} (hfree : t.isFree q.pid = true)
    (hleader : q.session.pid = q.pid → q.session.startTicks = q.startTicks) {begun forked : List LinuxSession}
    (hsession : q.session ∈ begun) (hbegun : ∀ g ∈ t.begun, g ∈ begun) :
    Coherent ⟨q :: t.processes, begun, forked⟩ where
  begun r hr := by
    rcases List.mem_cons.mp hr with rfl | hr
    · exact hsession
    · exact hbegun _ (h.begun r hr)
  leader r hr hnumber := by
    rcases List.mem_cons.mp hr with rfl | hr
    · exact hleader hnumber
    · exact h.leader r hr hnumber
  numbered := h.numbered.cons fun _ hr => ne_pid_of_isFree hfree hr

theorem Coherent.step (h : t.Coherent) (hstep : t.step e = some t') : t'.Coherent := by
  cases step_cases hstep with
  | @forked q child _ hmem _ hfree =>
      refine h.cons hfree (fun hnumber => ?_) (h.begun q hmem) fun _ hg => hg
      have hother := List.all_eq_true.mp hfree q hmem
      simp only [Bool.and_eq_true, decide_eq_true_eq] at hother
      exact absurd hnumber hother.2
  | spawned hfree => exact h.cons hfree (fun _ => rfl) List.mem_cons_self fun _ => List.mem_cons_of_mem _
  | @led q =>
      constructor
      · intro r hr
        obtain ⟨q', hq', rfl⟩ := List.mem_map.mp hr
        split
        · exact List.mem_cons_self
        · exact List.mem_cons_of_mem _ (h.begun q' hq')
      · intro r hr hnumber
        obtain ⟨q', hq', rfl⟩ := List.mem_map.mp hr
        split at hnumber
        · rename_i htest
          rw [if_pos htest]
        · rename_i htest
          rw [if_neg htest]
          exact h.leader q' hq' hnumber
      · refine h.numbered.modify fun r _ htest => ?_
        obtain rfl := of_decide_eq_true htest
        rfl
  | grouped | stopped =>
      refine h.modify fun r _ htest => ?_
      obtain rfl := of_decide_eq_true htest
      exact ⟨rfl, rfl, rfl⟩
  | resumed | ended => exact h.modify fun _ _ _ => ⟨rfl, rfl, rfl⟩
  | reaped =>
      exact ⟨fun q hq => h.begun q (List.mem_filter.mp hq).1, fun q hq => h.leader q (List.mem_filter.mp hq).1,
        fun q hq r hr => h.numbered q (List.mem_filter.mp hq).1 r (List.mem_filter.mp hr).1⟩

/-! ### Looks that take time -/

/-- The process with this number is in the session, and has not ended. -/
def Alive (t : ProcessTable) (g : LinuxSession) (pid : Pid) : Prop :=
  ∃ q ∈ t.processes, q.pid = pid ∧ q.session = g ∧ q.state ≠ .zombie

theorem drained_iff : t.Drained g ↔ ∀ pid, ¬t.Alive g pid := by
  constructor
  · rintro h pid ⟨q, hq, -, hsession, hstate⟩
    exact hstate (h q hq hsession)
  · intro h q hq hsession
    by_contra hstate
    exact h q.pid ⟨q, hq, rfl, hsession, hstate⟩

theorem forked_step (h : t.step e = some t') (g : LinuxSession) : t.forked.count g ≤ t'.forked.count g := by
  cases step_cases h with
  | forked => exact List.count_le_count_cons
  | spawned | led | grouped | stopped | resumed | ended | reaped => exact Nat.le_refl _

theorem Alive.of_modify {test : LinuxProcess → Bool} {f : LinuxProcess → LinuxProcess}
    (h : (t.modify test f).Alive g pid) (hf : ∀ q ∈ t.processes, test q = true → (f q).session = g →
      (f q).state ≠ .zombie → (f q).pid = q.pid ∧ q.session = g ∧ q.state ≠ .zombie) : t.Alive g pid := by
  obtain ⟨r, hr, hpid, hsession, hstate⟩ := h
  obtain ⟨q, hq, rfl⟩ := List.mem_map.mp hr
  cases htest : test q with
  | true =>
      rw [htest] at hpid hsession hstate
      obtain ⟨hsame, hbefore⟩ := hf q hq htest hsession hstate
      exact ⟨q, hq, hsame.symm.trans hpid, hbefore⟩
  | false =>
      rw [htest] at hpid hsession hstate
      exact ⟨q, hq, hpid, hsession, hstate⟩

/-- **Without a fork nothing joins a session**: whatever is alive in it was alive before. -/
theorem Alive.before (h : t'.Alive g pid) (hstep : t.step e = some t') (hbegun : g ∈ t.begun)
    (hforked : t'.forked.count g = t.forked.count g) : t.Alive g pid := by
  cases step_cases hstep with
  | forked =>
      obtain ⟨r, hr, hpid, rfl, hstate⟩ := h
      rcases List.mem_cons.mp hr with rfl | hr
      · simp at hforked
      · exact ⟨r, hr, hpid, rfl, hstate⟩
  | spawned _ hnew =>
      obtain ⟨r, hr, hpid, rfl, hstate⟩ := h
      rcases List.mem_cons.mp hr with rfl | hr
      · exact absurd hbegun hnew
      · exact ⟨r, hr, hpid, rfl, hstate⟩
  | @led q _ hnew =>
      refine Alive.of_modify h fun r hr htest hsession _ => ?_
      obtain rfl : (⟨q.pid, q.startTicks⟩ : LinuxSession) = g := hsession
      exact absurd hbegun hnew
  | grouped =>
      refine h.of_modify fun r _ htest hsession hstate => ?_
      obtain rfl := of_decide_eq_true htest
      exact ⟨rfl, hsession, hstate⟩
  | stopped _ hruns =>
      refine h.of_modify fun r _ htest hsession _ => ?_
      obtain rfl := of_decide_eq_true htest
      refine ⟨rfl, hsession, ?_⟩
      rw [hruns]
      exact ProcessState.noConfusion
  | resumed =>
      refine h.of_modify fun r _ htest hsession _ => ?_
      simp only [Bool.and_eq_true, decide_eq_true_eq] at htest
      refine ⟨rfl, hsession, ?_⟩
      rw [htest.2]
      exact ProcessState.noConfusion
  | ended => exact h.of_modify fun r _ _ _ hstate => absurd rfl hstate
  | reaped =>
      obtain ⟨r, hr, halive⟩ := h
      exact ⟨r, (List.mem_filter.mp hr).1, halive⟩

end ProcessTable

end KernelGym.Library
