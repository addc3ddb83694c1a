import KernelGym.WorkerSession

/-! What the routines that end a worker guarantee: they remove a record only when its session has ended, they start a
process only when every session recorded before has, and they signal only what a look at `/proc` has shown to belong to
a session that they may act against. Others may do the same, and processes may do what they like, between any two of
their steps; a fork that overtakes a look is written down. -/

namespace KernelGym.WorkerSession

open Library

/-! ### Hosts and their moves -/

/-- Nothing in the session can run any more, unless a fork has overtaken the look that showed it. -/
def Host.Ended (h : Host) (g : LinuxSession) : Prop := h.table.Drained g ∨ g ∈ h.overtaken

/-- A session that was ever registered is registered now, or has ended. -/
structure Host.Valid (h : Host) : Prop where
  coherent : h.table.Coherent
  registered : ∀ reg, h.registered = some reg → reg.generation ∈ h.ever
  begun : ∀ g ∈ h.ever, g ∈ h.table.begun
  contained : ∀ g ∈ h.ever, h.Ended g ∨ ∃ reg, h.registered = some reg ∧ reg.generation = g

/-- What can become of a host. -/
inductive Host.Moves (h : Host) : Host → Prop
  | same : h.Moves h
  | process {e : ProcessEvent} {t : ProcessTable} (hstep : h.table.step e = some t) : h.Moves { h with table := t }
  | removed {reg : Registration} (hreg : h.registered = some reg) (hended : h.Ended reg.generation) :
    h.Moves { h with registered := none }
  | looked (sessions : List LinuxSession) : h.Moves { h with overtaken := sessions ++ h.overtaken }
  | registered {g : LinuxSession} (hempty : h.registered = none) (hbegun : g ∈ h.table.begun) :
    h.Moves { h with registered := some (.of g), ever := g :: h.ever }

theorem Host.Moves.valid {h h' : Host} (hmove : h.Moves h') (hv : h.Valid) : h'.Valid := by
  cases hmove with
  | same => exact hv
  | process hstep =>
      exact ⟨hv.coherent.step hstep, hv.registered, fun g hg => ProcessTable.begun_step hstep g (hv.begun g hg),
        fun g hg => (hv.contained g hg).imp_left fun hended => hended.imp_left fun hd => hd.step (hv.begun g hg) hstep⟩
  | removed hreg hended =>
      refine ⟨hv.coherent, fun reg hnone => absurd hnone (by simp), hv.begun, fun g hg => Or.inl ?_⟩
      rcases hv.contained g hg with hold | ⟨reg, hreg', rfl⟩
      · exact hold
      · obtain rfl := Option.some.inj (hreg.symm.trans hreg')
        exact hended
  | looked sessions =>
      exact ⟨hv.coherent, hv.registered, hv.begun,
        fun g hg => (hv.contained g hg).imp_left fun hended => hended.imp_right (List.mem_append_right sessions)⟩
  | @registered g hempty hbegun =>
      refine ⟨hv.coherent, ?_, ?_, ?_⟩
      · intro reg hreg
        obtain rfl := Option.some.inj hreg
        exact List.mem_cons_self
      · intro g' hg'
        rcases List.mem_cons.mp hg' with rfl | hg'
        · exact hbegun
        · exact hv.begun g' hg'
      · intro g' hg'
        rcases List.mem_cons.mp hg' with rfl | hg'
        · exact Or.inr ⟨_, rfl, rfl⟩
        · rcases hv.contained g' hg' with hd | ⟨reg, hreg, -⟩
          · exact Or.inl hd
          · rw [hempty] at hreg
            cases hreg

/-! ### Guarantees -/

/-- The record is that of a process which leads its group and session; the start time may be missing. -/
structure Record.Names (record : Record) (pid : Pid) (startTicks : Option ℕ) : Prop where
  pid_eq : record.pid = .number pid
  ticks_eq : ∀ n m, record.startTicks = some n → startTicks = some m → m = n
  group_eq : record.processGroup.toInt pid = some (pid : ℤ)
  session_eq : record.sessionId.toInt pid = some (pid : ℤ)

/-- The request was made for this process. -/
def Target.Names (target : Target) (pid : Pid) (startTicks : Option ℕ) : Prop :=
  pid = target.pid ∧ ∀ n m, target.startTicks = some n → startTicks = some m → m = n

/-- Whom a call may act against. -/
inductive Trace.Aimed (t : Trace) (pid : Pid) (startTicks : Option ℕ) : Prop
  /-- The process that the call has read in the record, if the request was made for it. -/
  | recorded (record : Record) (hread : .recorded record ∈ t.log) (hnames : record.Names pid startTicks)
    (hrequested : ∀ target, t.target = some target → target.Names pid startTicks)
  /-- The process that is to be registered. -/
  | asked (h : t.asked = some pid)
  /-- A process that the call has started. -/
  | spawned (h : .spawned pid ∈ t.log)
  /-- A process that the monitor has started before. -/
  | retained (child : Child) (h : .retained child ∈ t.log) (hpid : child.pid = pid)
    (hticks : ∀ i n, child.identity = some i → startTicks = some n → i.startTicks = n)

/-- The call has seen the leader of the session under its recorded start time, group and session. -/
def Trace.ReadLeader (t : Trace) (session : LinuxSession) : Prop :=
  ∃ i, .read i ∈ t.log ∧ i.pid = session.pid ∧ i.startTicks = session.startTicks ∧ i.processGroup = session.pid ∧
    i.sessionId = session.pid

/-- The call has seen a member of the session in this group, and no other leader with the session's number. -/
def Trace.Saw (t : Trace) (session : LinuxSession) (group : Pid) : Prop :=
  ∃ members, .scanned session.pid members ∈ t.log ∧ generationChanged session members = false ∧
    ∃ m ∈ members, m.processGroup = group

/-- What the call has seen before allows the action. -/
def Trace.Supports (t : Trace) : Observation → Prop
  | .signalled group .term session =>
    group = session.pid ∧ t.Aimed session.pid (some session.startTicks) ∧ t.ReadLeader session
  | .signalled group _ session => t.Aimed session.pid (some session.startTicks) ∧ t.Saw session group
  | .removing pid startTicks => t.Aimed pid startTicks
  | _ => True

/-- Every session that had been registered when the call began has ended. -/
def SeenEnded (v : View) : Prop := ∀ g ∈ v.2.seen, g ∈ v.1.table.begun ∧ v.1.Ended g

/-- A process is started only when all earlier sessions have ended. -/
def Justified (v : View) (o : Observation) : Prop := v.2.Supports o ∧ ∀ pid, o = .spawned pid → SeenEnded v

/-- One step of a call. -/
structure Fair (v w : View) : Prop where
  moves : v.1.Moves w.1
  target : w.2.target = v.2.target
  asked : w.2.asked = v.2.asked
  seen : w.2.seen = v.2.seen
  log : w.2.log = v.2.log ∨ ∃ o, w.2.log = o :: v.2.log ∧ Justified v o

/-- What is never taken back. -/
structure Later (v w : View) : Prop where
  begun : ∀ g ∈ v.1.table.begun, g ∈ w.1.table.begun
  ended : ∀ g ∈ v.1.table.begun, v.1.Ended g → w.1.Ended g
  forked : ∀ g, v.1.table.forked.count g ≤ w.1.table.forked.count g
  /-- Without a fork nothing joins a session. -/
  alive : ∀ g ∈ v.1.table.begun, w.1.table.forked.count g = v.1.table.forked.count g →
    ∀ pid, w.1.table.Alive g pid → v.1.table.Alive g pid
  ever : ∀ g ∈ v.1.ever, g ∈ w.1.ever
  registered : ∀ reg, w.1.registered = some reg → reg.record.startTicks.isSome ∨ v.1.registered = some reg
  target : w.2.target = v.2.target
  asked : w.2.asked = v.2.asked
  seen : w.2.seen = v.2.seen
  log : ∀ o ∈ v.2.log, o ∈ w.2.log

variable {u v w : View} {α β γ : Type}

theorem Later.refl (v : View) : Later v v :=
  ⟨fun _ h => h, fun _ _ h => h, fun _ => Nat.le_refl _, fun _ _ _ _ h => h, fun _ h => h, fun _ h => Or.inr h, rfl, rfl,
    rfl, fun _ h => h⟩

theorem Later.trans (h : Later u v) (h' : Later v w) : Later u w where
  begun g hg := h'.begun g (h.begun g hg)
  ended g hg hended := h'.ended g (h.begun g hg) (h.ended g hg hended)
  forked g := (h.forked g).trans (h'.forked g)
  alive g hg hcount pid halive := by
    have hfirst := h.forked g
    have hsecond := h'.forked g
    exact h.alive g hg (by omega) pid (h'.alive g (h.begun g hg) (by omega) pid halive)
  ever g hg := h'.ever g (h.ever g hg)
  registered reg hreg := (h'.registered reg hreg).elim Or.inl (h.registered reg)
  target := h'.target.trans h.target
  asked := h'.asked.trans h.asked
  seen := h'.seen.trans h.seen
  log o ho := h'.log o (h.log o ho)

theorem Later.of_moves {h : Host} (hmove : v.1.Moves h) {t : Trace} (htarget : t.target = v.2.target)
    (hasked : t.asked = v.2.asked) (hseen : t.seen = v.2.seen) (hlog : ∀ o ∈ v.2.log, o ∈ t.log) : Later v (h, t) := by
  have hsame := Later.refl v
  cases hmove with
  | same => exact { hsame with target := htarget, asked := hasked, seen := hseen, log := hlog }
  | process hstep =>
      refine { hsame with target := htarget, asked := hasked, seen := hseen, log := hlog, begun := ?_, ended := ?_,
                          forked := ?_, alive := ?_ }
      · exact ProcessTable.begun_step hstep
      · exact fun g hg hended => hended.imp_left fun hd => hd.step hg hstep
      · exact ProcessTable.forked_step hstep
      · exact fun g hg hcount pid halive => halive.before hstep hg hcount
  | removed _ _ =>
      exact { hsame with target := htarget, asked := hasked, seen := hseen, log := hlog,
                         registered := fun _ hreg => absurd hreg (by simp) }
  | looked sessions =>
      exact { hsame with target := htarget, asked := hasked, seen := hseen, log := hlog,
                         ended := fun _ _ hended => hended.imp_right (List.mem_append_right sessions) }
  | registered _ _ =>
      refine { hsame with target := htarget, asked := hasked, seen := hseen, log := hlog, ever := ?_, registered := ?_ }
      · exact fun _ h => List.mem_cons_of_mem _ h
      · intro reg hreg
        obtain rfl := Option.some.inj hreg
        exact Or.inl rfl

theorem Fair.later (h : Fair v w) : Later v w := by
  refine Later.of_moves h.moves h.target h.asked h.seen fun o ho => ?_
  rcases h.log with heq | ⟨o', heq, -⟩
  · rw [heq]
    exact ho
  · rw [heq]
    exact List.mem_cons_of_mem _ ho

/-! ### Assertions about routines -/

/-- One call, beside any others. -/
def machine : Machine Command.Answer View Host Outcome where
  env v h := some (h, v.2)
  exec := exec

def rules : Rules View Host Command where
  env v h := v.1.Valid ∧ v.1.Moves h
  own v _ := v.1.Valid

theorem grows : Grows machine rules Fair Later where
  refl := Later.refl
  trans := Later.trans
  env := by
    rintro v h w ⟨-, hmove⟩ henv
    obtain rfl := Option.some.inj henv
    exact Later.of_moves hmove rfl rfl rfl fun _ ho => ho
  own _ _ hfair := hfair.later

/-- Every step of the program is fair, and its result meets `Q`. -/
abbrev Meets (p : Program Command.Answer γ) (Q : γ → View → Prop) (v : View) : Prop :=
  p.Holds machine rules Fair Q v

/-- An assertion about what is returned; an exception returns nothing. -/
def Returned (Q : α → View → Prop) (r : Except Fault α) (w : View) : Prop := ∀ a, r = .ok a → Q a w

/-- Every step of the routine is fair, and what it returns meets `Q`. -/
def Routine.Safe (p : Routine α) (Q : α → View → Prop) (v : View) : Prop := Meets p (Returned Q) v

variable {P Q : α → View → Prop} {p : Routine α}

namespace Routine.Safe

theorem pure {a : α} (h : ∀ w, Later v w → Q a w) : (Pure.pure a : Routine α).Safe Q v := by
  change Meets (Program.done (Except.ok a)) (Returned Q) v
  refine grows.done fun w hw a' ha => ?_
  obtain rfl := Except.ok.inj ha
  exact h w hw

theorem raise {e : Fault} : (Routine.raise e : Routine α).Safe Q v := by
  change Meets (Program.done (Except.error e)) (Returned Q) v
  exact grows.done fun _ _ _ ha => by cases ha

theorem mono (h : p.Safe P v) (himp : ∀ a w, P a w → Q a w) : p.Safe Q v :=
  Program.Holds.mono (fun _ _ hr a ha => himp a _ (hr a ha)) h

/-- What holds before holds after, in a form that is never taken back. -/
theorem later (h : p.Safe Q v) : p.Safe (fun a w => Later v w ∧ Q a w) v :=
  (grows.later h).mono fun _ _ hr a ha => ⟨hr.1, hr.2 a ha⟩

theorem bind {f : α → Routine β} {Q : β → View → Prop} (h : p.Safe P v)
    (hf : ∀ a w, Later v w → P a w → (f a).Safe Q w) : (p >>= f).Safe Q v := by
  refine grows.bind h fun r w hw hr => ?_
  cases r with
  | ok a => exact hf a w hw (hr a rfl)
  | error e => exact raise

theorem after {p : Program Command.Answer γ} {P : γ → View → Prop} {f : γ → Routine β} {Q : β → View → Prop}
    (h : Meets p P v) (hf : ∀ c w, Later v w → P c w → (f c).Safe Q w) : (Routine.after p f).Safe Q v :=
  grows.bind h hf

theorem orReturn {handler : Routine α} (h : p.Safe Q v) (hhandler : ∀ w, Later v w → handler.Safe Q w) :
    (p.orReturn handler).Safe Q v := by
  refine grows.bind h.settled fun r w hw hr => ?_
  cases r with
  | ok a => exact hr
  | error e =>
      by_cases he : e = .cancelled
      · simp only [if_pos he]
        exact raise
      · simp only [if_neg he]
        exact hhandler w hw

end Routine.Safe

/-! ### Commands -/

/-- Commands that only look. -/
def Command.quiet : Command → Bool
  | .looked .. | .killpg .. | .compareAndDelete .. | .popen | .register _ => false
  | _ => true

theorem Fair.of_log {o : Observation} (h : Justified v o) : Fair v (v.1, v.2.add o) :=
  ⟨.same, rfl, rfl, rfl, Or.inr ⟨o, rfl, h⟩⟩

theorem Fair.refl (v : View) : Fair v v := ⟨.same, rfl, rfl, rfl, Or.inl rfl⟩

theorem fair_of_quiet {c : Command} {x : Outcome} {r : c.Answer × View} (hc : c.quiet = true)
    (h : exec v c x = some r) : Fair v r.2 := by
  cases c with
  | looked _ _ _ | killpg _ _ _ | compareAndDelete _ _ _ _ | popen | register _ => cases hc
  | ask _ | passes =>
      cases x <;> simp only [exec, Option.some.injEq, reduceCtorEq] at h <;> subst h <;> exact Fair.refl v
  | hgetall =>
      cases x <;> simp only [exec, Option.some.injEq, reduceCtorEq] at h
      · split at h <;> obtain rfl := Option.some.inj h
        · exact Fair.of_log ⟨trivial, fun _ h => by cases h⟩
        · exact Fair.refl v
      · subst h
        exact Fair.refl v
  | readIdentity pid =>
      cases x <;> simp only [exec, Option.some.injEq, reduceCtorEq] at h
      · split at h <;> obtain rfl := Option.some.inj h
        · exact Fair.of_log ⟨trivial, fun _ h => by cases h⟩
        · exact Fair.refl v
      · subst h
        exact Fair.refl v
  | list =>
      cases x <;> simp only [exec, Option.some.injEq, reduceCtorEq] at h
      · subst h
        exact Fair.refl v
      · obtain ⟨-, heq⟩ := Option.ite_none_right_eq_some.mp h
        obtain rfl := Option.some.inj heq
        exact Fair.refl v
  | groupGone group =>
      cases x <;> simp only [exec, Option.some.injEq, reduceCtorEq] at h
      · subst h
        exact Fair.refl v
      · obtain ⟨-, heq⟩ := Option.ite_none_right_eq_some.mp h
        obtain rfl := Option.some.inj heq
        exact Fair.refl v
  | retained =>
      cases x with
      | child c =>
          cases c <;> simp only [exec, Option.some.injEq] at h <;> subst h
          · exact Fair.refl v
          · exact Fair.of_log ⟨trivial, fun _ h => by cases h⟩
      | _ => cases h

theorem Meets.quiet {c : Command} {next : c.Answer → Program Command.Answer γ} {Q : γ → View → Prop}
    (hc : c.quiet = true) (h : ∀ w x r, Later v w → w.1.Valid → exec w c x = some r → Later w r.2 →
      Meets (next r.1) Q r.2) : Meets (.call c next) Q v := by
  refine grows.call fun w x r hw hvalid hr => ?_
  have hfair := fair_of_quiet hc hr
  exact ⟨hfair, fun _ => h w x r hw hvalid hr hfair.later⟩

theorem Routine.Safe.command {c : Command} {next : c.Answer → Routine α}
    (h : ∀ w x r, Later v w → w.1.Valid → exec w c x = some r →
      Fair w r.2 ∧ (Later v r.2 → (next r.1).Safe Q r.2)) : (Routine.command c next).Safe Q v :=
  grows.call h

theorem Routine.Safe.quiet {c : Command} {next : c.Answer → Routine α} (hc : c.quiet = true)
    (h : ∀ w x r, Later v w → w.1.Valid → exec w c x = some r → Later w r.2 → (next r.1).Safe Q r.2) :
    (Routine.command c next).Safe Q v :=
  Meets.quiet hc h

theorem ask_safe (query : Query) : (ask query).Safe (fun _ _ => True) v :=
  Meets.quiet rfl fun _ _ _ _ _ _ _ => grows.done fun _ _ _ _ => trivial

theorem refuse_safe {Q : Bool → View → Prop} (hQ : ∀ w, Later v w → Q false w) : refuse.Safe Q v :=
  (ask_safe _).bind fun _ _ hw _ => Routine.Safe.pure fun _ hu => hQ _ (hw.trans hu)

/-- The hash is what was registered at some moment of the read. -/
theorem hgetall_safe : hgetall.Safe (fun record w => ∃ base : View, Later v base ∧ Later base w ∧ base.1.Valid ∧
    record = base.1.registered.map Registration.record ∧ ∀ found, record = some found → .recorded found ∈ w.2.log) v := by
  refine Meets.quiet rfl fun w x r hw hvalid hr hlater => ?_
  refine grows.done fun u hu record hrecord => ?_
  cases x <;> simp only [exec, Option.some.injEq, reduceCtorEq] at hr
  · refine ⟨w, hw, hlater.trans hu, hvalid, ?_⟩
    split at hr <;> obtain rfl := Option.some.inj hr <;> obtain rfl := Except.ok.inj hrecord
    · rename_i reg hreg
      refine ⟨by rw [hreg]; rfl, ?_⟩
      rintro found ⟨⟩
      exact hu.log _ List.mem_cons_self
    · rename_i hreg
      exact ⟨by rw [hreg]; rfl, fun _ h => by cases h⟩
  · subst hr
    cases hrecord

theorem find_identity {t : ProcessTable} {pid : Pid} {q : LinuxProcess}
    (h : t.processes.find? (fun q => q.pid = pid) = some q) (hv : t.Coherent) : (identityOf q).pid = pid ∧
      ((identityOf q).sessionId = pid → ⟨pid, (identityOf q).startTicks⟩ ∈ t.begun) := by
  have hfound := List.find?_some h
  have hpid : q.pid = pid := of_decide_eq_true hfound
  have hmem := List.mem_of_find?_eq_some h
  refine ⟨hpid, fun hsession => ?_⟩
  have hleader := hv.leader q hmem (hsession.trans hpid.symm)
  have hbegun := hv.begun q hmem
  rwa [show q.session = ⟨pid, q.startTicks⟩ by rw [← hleader, ← hsession]; rfl] at hbegun

/-- What a read of an identity shows. -/
def Identified (pid : Pid) (identity : ProcessIdentity) (w : View) : Prop :=
  identity.pid = pid ∧ .read identity ∈ w.2.log ∧
    (identity.sessionId = pid → ⟨pid, identity.startTicks⟩ ∈ w.1.table.begun)

theorem Identified.later {pid : Pid} {identity : ProcessIdentity} (h : Identified pid identity v) (hw : Later v w) :
    Identified pid identity w :=
  ⟨h.1, hw.log _ h.2.1, fun hs => hw.begun _ (h.2.2 hs)⟩

theorem readProcessIdentity_safe (pid : Pid) :
    (readProcessIdentity pid).Safe (fun i w => ∀ identity, i = some identity → Identified pid identity w) v := by
  refine Meets.quiet rfl fun w x r hw hvalid hr hlater => ?_
  refine grows.done fun u hu i hi => ?_
  cases x <;> simp only [exec, Option.some.injEq, reduceCtorEq] at hr
  · split at hr <;> obtain rfl := Option.some.inj hr <;> obtain rfl := Except.ok.inj hi <;> rintro identity ⟨⟩
    rename_i q hq
    obtain ⟨hpid, hbegun⟩ := find_identity hq hvalid.coherent
    have hread : Identified pid (identityOf q) (w.1, w.2.add (.read (identityOf q))) :=
      ⟨hpid, List.mem_cons_self, hbegun⟩
    exact hread.later hu
  · subst hr
    cases hi

theorem retained_safe :
    retained.Safe (fun c w => ∀ child, c = some child → .retained child ∈ w.2.log) v := by
  unfold retained
  refine Routine.Safe.quiet rfl fun w x r hw hvalid hr hlater => ?_
  refine grows.done fun u hu c hc => ?_
  obtain rfl := Except.ok.inj hc
  cases x with
  | child c =>
      cases c <;> simp only [exec, Option.some.injEq] at hr <;> subst hr <;> rintro child ⟨⟩
      exact hu.log _ List.mem_cons_self
  | _ => cases hr

/-! ### The proof that a session is drained -/

/-- Every session with this number that had begun by `base` has ended. -/
def SessionEnded (base : View) (session : Pid) (w : View) : Prop :=
  ∀ g ∈ base.1.table.begun, g.pid = session → g ∈ w.1.table.begun ∧ w.1.Ended g

variable {session : Pid}

theorem SessionEnded.later (h : SessionEnded u session v) (hw : Later v w) : SessionEnded u session w :=
  fun g hg hpid => ⟨hw.begun g (h g hg hpid).1, hw.ended g (h g hg hpid).1 (h g hg hpid).2⟩

theorem SessionEnded.since (h : SessionEnded v session w) (hu : Later u v) : SessionEnded u session w :=
  fun g hg => h g (hu.begun g hg)

/-- What is alive in the session is still to be read, or a member that runs was found, unless one has forked since the
look began. -/
structure Covers (base : View) (session : Pid) (entries : List Pid) (members : List ProcessIdentity) (w : View) :
    Prop where
  later : Later base w
  covers : ∀ g ∈ base.1.table.begun, g.pid = session → w.1.table.forked.count g = base.1.table.forked.count g →
    ∀ pid, w.1.table.Alive g pid → pid ∈ entries ∨ nothingRuns members = false

variable {base : View} {entries : List Pid} {members : List ProcessIdentity}

theorem Covers.moved (h : Covers base session entries members v) (hw : Later v w) :
    Covers base session entries members w := by
  refine ⟨h.later.trans hw, fun g hg hpid hcount pid halive => ?_⟩
  have hbefore := h.later.forked g
  have hsince := hw.forked g
  exact h.covers g hg hpid (by omega) pid (hw.alive g (h.later.begun g hg) (by omega) pid halive)

/-- A process that is alive when it is read is found, and it runs. -/
theorem readProcessIdentity_alive (pid : Pid) : (readProcessIdentity pid).Safe (fun i w => ∃ base : View,
    Later v base ∧ Later base w ∧ ∀ g, base.1.table.Alive g pid →
      ∃ identity, i = some identity ∧ identity.sessionId = g.pid ∧ identity.state ≠ .zombie) v := by
  refine Meets.quiet rfl fun w x r hw hvalid hr hlater => ?_
  refine grows.done fun u hu i hi => ⟨w, hw, hlater.trans hu, ?_⟩
  rintro g ⟨q, hq, hpid, rfl, hstate⟩
  cases x <;> simp only [exec, Option.some.injEq, reduceCtorEq] at hr
  · split at hr <;> obtain rfl := Option.some.inj hr <;> obtain rfl := Except.ok.inj hi
    · rename_i found hfound
      have hnumber := List.find?_some hfound
      obtain rfl : found = q := hvalid.coherent.numbered found (List.mem_of_find?_eq_some hfound) q hq
        ((of_decide_eq_true hnumber).trans hpid.symm)
      exact ⟨_, rfl, rfl, hstate⟩
    · rename_i hnone
      exact absurd (decide_eq_true hpid) (List.find?_eq_none.mp hnone q hq)
  · subst hr
    cases hi

/-- The entry that was just read no longer counts. -/
theorem Covers.read {entry : Pid} {found : Option ProcessIdentity} (h : Covers base session (entry :: entries) members u)
    (hread : ∃ during : View, Later u during ∧ Later during w ∧ ∀ g, during.1.table.Alive g entry →
      ∃ identity, found = some identity ∧ identity.sessionId = g.pid ∧ identity.state ≠ .zombie) :
    Covers base session entries (members ++ (found.filter fun i => i.sessionId = session).toList) w := by
  obtain ⟨t, hut, htw, hfound⟩ := hread
  refine ⟨h.later.trans (hut.trans htw), fun g hg hpid hcount pid halive => ?_⟩
  have hearlier := (h.moved hut).later.forked g
  have hafter := htw.forked g
  have hthen := htw.alive g ((h.moved hut).later.begun g hg) (by omega) pid halive
  have hkeeps : nothingRuns members = false →
      nothingRuns (members ++ (found.filter fun i => i.sessionId = session).toList) = false := by
    intro hruns
    rw [nothingRuns, List.all_append, ← nothingRuns, hruns, Bool.false_and]
  rcases (h.moved hut).covers g hg hpid (by omega) pid hthen with hentry | hruns
  · rcases List.mem_cons.mp hentry with rfl | hrest
    · obtain ⟨identity, rfl, hsession, hstate⟩ := hfound g hthen
      refine Or.inr ?_
      rw [Option.filter_some, if_pos (decide_eq_true (hsession.trans hpid)), nothingRuns, List.all_append]
      simp [hstate]
    · exact Or.inl hrest
  · exact Or.inr (hkeeps hruns)

section Looked

variable {forked : List LinuxSession} {x : Outcome} {r : Command.Answer (.looked session forked members) × View}
  (h : exec v (.looked session forked members) x = some r)

include h

theorem looked_eq : r.2 = (v.1.looked session forked members, v.2.add (.scanned session members)) := by
  cases x <;> simp only [exec, Option.some.injEq, reduceCtorEq] at h
  rw [← h]

theorem fair_looked : Fair v r.2 := by
  rw [looked_eq h]
  have hmoves : v.1.Moves (v.1.looked session forked members) := by
    unfold Host.looked
    split
    · exact .looked _
    · exact .same
  exact ⟨hmoves, rfl, rfl, rfl, Or.inr ⟨_, rfl, trivial, fun _ h => by cases h⟩⟩

theorem scanned_looked : .scanned session members ∈ r.2.2.log := by
  rw [looked_eq h]
  exact List.mem_cons_self

theorem overtaken_looked {g : LinuxSession} (hnothing : nothingRuns members = true) (hbegun : g ∈ r.2.1.table.begun)
    (hpid : g.pid = session) (hcount : r.2.1.table.forked.count g ≠ forked.count g) : g ∈ r.2.1.overtaken := by
  rw [looked_eq h, Host.looked, if_pos hnothing] at hbegun hcount ⊢
  refine List.mem_append_left _ (List.mem_filter.mpr ⟨hbegun, ?_⟩)
  rw [Bool.and_eq_true]
  exact ⟨decide_eq_true hpid, decide_eq_true hcount⟩

end Looked

theorem readMembers_safe (h : Covers base session entries members v) :
    (readMembers session base.1.table.forked entries members).Safe (fun members w =>
      .scanned session members ∈ w.2.log ∧ (nothingRuns members = true → SessionEnded base session w)) v := by
  induction entries generalizing members v with
  | nil =>
      rw [readMembers]
      generalize hsorted : members.insertionSort (fun m n => m.pid ≤ n.pid) = sorted
      have hruns : nothingRuns sorted = nothingRuns members := by
        rw [← hsorted, nothingRuns, nothingRuns]
        exact (List.perm_insertionSort _ members).all_eq
      refine Routine.Safe.command fun w x r hw _ hr => ?_
      have hfair := fair_looked hr
      refine ⟨hfair, fun _ => Routine.Safe.pure fun t ht => ⟨ht.log _ (scanned_looked hr), fun hnothing => ?_⟩⟩
      refine SessionEnded.later (fun g hg hpid => ?_) ht
      have hnow := (h.moved hw).moved hfair.later
      refine ⟨hnow.later.begun g hg, ?_⟩
      by_cases hcount : r.2.1.table.forked.count g = base.1.table.forked.count g
      · refine Or.inl (ProcessTable.drained_iff.mpr fun pid halive => ?_)
        rcases hnow.covers g hg hpid hcount pid halive with hentry | hfound
        · exact absurd hentry List.not_mem_nil
        · rw [← hruns, hnothing] at hfound
          cases hfound
      · exact Or.inr (overtaken_looked hr hnothing (hnow.later.begun g hg) hpid hcount)
  | cons entry entries ih =>
      refine (readProcessIdentity_alive entry).bind fun found w _ hfound => ?_
      have hcovers := h.read hfound
      cases found with
      | none => exact ih (by simpa using hcovers)
      | some identity =>
          dsimp only
          split
          · rename_i hsession
            exact ih (by simpa [Option.filter_some, hsession] using hcovers)
          · rename_i hsession
            exact ih (by simpa [Option.filter_some, hsession] using hcovers)

/-- A look misses a process only if a fork overtakes it. -/
theorem liveSessionMembers_safe (session : Pid) : (liveSessionMembers session).Safe (fun members w =>
    .scanned session members ∈ w.2.log ∧ (nothingRuns members = true → SessionEnded v session w)) v := by
  unfold liveSessionMembers
  split
  · exact Routine.Safe.raise
  refine Routine.Safe.quiet rfl fun w x r hw _ hr _ => ?_
  cases x <;> simp only [exec, Option.some.injEq, reduceCtorEq] at hr
  · subst hr
    exact Routine.Safe.raise
  · rename_i pids
    obtain ⟨hall, heq⟩ := Option.ite_none_right_eq_some.mp hr
    obtain rfl := Option.some.inj heq
    have hcovers : Covers w session pids [] w := by
      refine ⟨Later.refl w, fun g _ _ _ pid halive => Or.inl ?_⟩
      obtain ⟨q, hq, rfl, -⟩ := halive
      exact of_decide_eq_true (List.all_eq_true.mp hall q hq)
    exact (readMembers_safe hcovers).mono fun _ _ h => ⟨h.1, fun hnothing => (h.2 hnothing).since hw⟩

theorem groupsAreDrained_safe (groups : List Pid) : (groupsAreDrained groups).Safe (fun _ _ => True) v := by
  induction groups generalizing v with
  | nil => exact Routine.Safe.pure fun _ _ => trivial
  | cons group rest ih =>
      rw [groupsAreDrained]
      refine Routine.Safe.quiet rfl fun w x r hw _ hr _ => ?_
      match r with
      | (.ok true, w') => exact ih
      | (.ok false, w') => exact Routine.Safe.pure fun _ _ => trivial
      | (.error e, w') => exact Routine.Safe.raise

/-- What a positive look at a session proves. -/
def Look.Sound (look : Look) (session : Pid) : Prop :=
  ∀ v observed, Meets (look observed) (fun r w => r.1 = .ok true → SessionEnded v session w) v

theorem sessionIsDrained_sound (session : Pid) : (sessionIsDrained session).Sound session := by
  intro v observed
  refine grows.bind (liveSessionMembers_safe session) fun answer w hw hanswer => ?_
  cases answer with
  | error e => exact grows.done fun _ _ hr => by cases hr
  | ok members =>
      dsimp only
      split
      · rename_i hnothing
        refine grows.bind (groupsAreDrained_safe _) fun r u hu _ => ?_
        exact grows.done fun t ht _ => ((hanswer members rfl).2 hnothing).later (hu.trans ht)
      · exact grows.done fun _ _ hr => by cases hr

variable {look : Look} {observed : List Pid}

theorem lookOnce_safe (h : look.Sound session) :
    (lookOnce look observed).Safe (fun r w => r.1 = true → SessionEnded v session w) v := by
  refine grows.bind (h v observed) fun r w hw hr => ?_
  refine grows.done fun t ht a ha htrue => ?_
  obtain ⟨drained, groups⟩ := r
  cases drained with
  | error e => cases ha
  | ok b =>
      obtain rfl := Except.ok.inj ha
      obtain rfl : b = true := htrue
      exact (hr rfl).later ht

theorem sessionDrainLoop_safe (h : look.Sound session) (n : ℕ) :
    (sessionDrainLoop look n observed).Safe (fun r w => r.1 = true → SessionEnded v session w) v := by
  induction n generalizing v observed with
  | zero =>
      refine Routine.Safe.after (h v observed) fun r w hw hr => ?_
      split
      · rename_i drained hok
        refine Routine.Safe.pure fun t ht htrue => ?_
        exact (hr (by rw [hok, ← htrue])).later ht
      · exact Routine.Safe.raise
  | succ n ih =>
      refine Routine.Safe.after (h v observed) fun r w hw hr => ?_
      split
      · rename_i hok
        exact Routine.Safe.pure fun t ht _ => (hr hok).later ht
      · exact (ask_safe _).bind fun _ u hu _ => ih.mono fun a t ht htrue => (ht htrue).since (hw.trans hu)

theorem waitForSessionDrain_safe (h : look.Sound session) :
    (waitForSessionDrain look observed).Safe (fun r w => r.1 = true → SessionEnded v session w) v := by
  unfold waitForSessionDrain
  refine Routine.Safe.quiet rfl fun w x r hw _ _ hlater => ?_
  exact (sessionDrainLoop_safe h r.1).mono fun a t ht htrue => (ht htrue).since (hw.trans hlater)

/-! ### Identities and signals -/

variable {pid : Pid} {startTicks : ℕ} {expected : Option ℕ} {g : LinuxSession} {group : Pid} {signal : Signal}

theorem verifiedProcessIdentity_safe : (verifiedProcessIdentity pid expected).Safe
    (fun i w => ∀ identity, i = some identity → Identified pid identity w ∧
      ∀ t, expected = some t → identity.startTicks = t) v := by
  refine (readProcessIdentity_safe pid).bind fun i w hw hi => ?_
  cases i with
  | none => exact Routine.Safe.pure fun _ _ _ h => by cases h
  | some identity =>
      have hread := hi identity rfl
      by_cases hticks : expected.any (· ≠ identity.startTicks) = true
      · simp only [if_pos hticks]
        exact Routine.Safe.raise
      have hsame : ∀ t, expected = some t → identity.startTicks = t := by
        rintro t rfl
        by_contra hne
        exact hticks (decide_eq_true (Ne.symm hne))
      have hkept : ∀ u, Later w u → ∀ other, some identity = some other →
          Identified pid other u ∧ ∀ t, expected = some t → other.startTicks = t := by
        rintro u hu other ⟨⟩
        exact ⟨hread.later hu, hsame⟩
      simp only [if_neg hticks]
      split
      · split
        · exact Routine.Safe.pure hkept
        · exact Routine.Safe.raise
      · refine (ask_safe _).bind fun yes u hu _ => ?_
        split
        · exact Routine.Safe.pure fun t ht => hkept t (hu.trans ht)
        · exact Routine.Safe.raise

theorem retainedHasExited_safe : (retainedHasExited pid).Safe (fun _ _ => True) v := by
  refine retained_safe.bind fun c w hw _ => ?_
  cases c with
  | none => exact Routine.Safe.pure fun _ _ => trivial
  | some child =>
      dsimp only
      split
      · exact ask_safe _
      · exact Routine.Safe.pure fun _ _ => trivial

theorem reapExactZombie_safe : (reapExactZombie pid expected).Safe (fun _ _ => True) v := by
  refine retainedHasExited_safe.bind fun exited w hw _ => ?_
  split
  · exact Routine.Safe.pure fun _ _ => trivial
  · refine verifiedProcessIdentity_safe.bind fun i u hu _ => ?_
    cases i with
    | none => exact Routine.Safe.pure fun _ _ => trivial
    | some identity =>
        dsimp only
        split
        · exact ask_safe _
        · exact Routine.Safe.pure fun _ _ => trivial

theorem Trace.Aimed.later {ticks : Option ℕ} (h : v.2.Aimed pid ticks) (hw : Later v w) : w.2.Aimed pid ticks := by
  cases h with
  | recorded record hread hnames hrequested =>
      exact .recorded record (hw.log _ hread) hnames fun target ht => hrequested target (hw.target ▸ ht)
  | asked h => exact .asked (hw.asked.trans h)
  | spawned h => exact .spawned (hw.log _ h)
  | retained child h hpid hticks => exact .retained child (hw.log _ h) hpid hticks

theorem Trace.ReadLeader.later (h : v.2.ReadLeader g) (hw : Later v w) : w.2.ReadLeader g := by
  obtain ⟨i, hi, hsame⟩ := h
  exact ⟨i, hw.log _ hi, hsame⟩

theorem Trace.Saw.later (h : v.2.Saw g group) (hw : Later v w) : w.2.Saw g group := by
  obtain ⟨members, hscan, hsame⟩ := h
  exact ⟨members, hw.log _ hscan, hsame⟩

theorem killpg_safe {next : Sent → Routine α} (hjust : ∀ w, Later v w → Justified w (.signalled group signal g))
    (hnext : ∀ how w, Later v w → (next how).Safe Q w) :
    (Routine.command (.killpg group signal g) next).Safe Q v := by
  refine grows.call fun w x r hw _ hr => ?_
  cases x with
  | sent how =>
      obtain rfl := Option.some.inj hr
      have hfair : Fair w (w.1, w.2.add (.signalled group signal g)) := Fair.of_log (hjust w hw)
      exact ⟨hfair, fun hlater => hnext how _ hlater⟩
  | _ => cases hr

theorem sendVerifiedSignal_safe (haimed : ∀ t, expected = some t → v.2.Aimed pid (some t)) (hsome : expected.isSome) :
    (sendVerifiedSignal pid expected).Safe (fun _ _ => True) v := by
  refine verifiedProcessIdentity_safe.bind fun i w hw hi => ?_
  cases i with
  | none => exact Routine.Safe.pure fun _ _ => trivial
  | some identity =>
      obtain ⟨hread, hticks⟩ := hi identity rfl
      obtain ⟨t, rfl⟩ := Option.isSome_iff_exists.mp hsome
      obtain rfl := hticks t rfl
      by_cases hgroup : identity.processGroup = pid
      swap
      · simp only [ne_eq, hgroup, not_false_eq_true, if_true]
        exact Routine.Safe.raise
      by_cases hsession : identity.sessionId = pid
      swap
      · simp only [ne_eq, hgroup, not_true_eq_false, if_false, hsession, not_false_eq_true, if_true]
        exact Routine.Safe.raise
      simp only [ne_eq, hgroup, hsession, not_true_eq_false, if_false]
      refine killpg_safe (fun u hu => ?_) fun how u hu => ?_
      · exact ⟨⟨hgroup, ((haimed _ rfl).later hw).later hu,
          Trace.ReadLeader.later (v := w) ⟨identity, hread.2.1, hread.1, rfl, hgroup, hsession⟩ hu⟩,
          fun _ h => by cases h⟩
      · cases how with
        | sent | noSuchGroup => exact Routine.Safe.pure fun _ _ => trivial
        | failed => exact Routine.Safe.raise

/-! ### Waiting for the end, and forcing it -/

theorem sessionDrain_safe (hu : Later u v) : (waitForSessionDrain (sessionIsDrained session) observed).Safe
    (fun r w => r.1 = true → SessionEnded u session w) v :=
  (waitForSessionDrain_safe (sessionIsDrained_sound session)).mono fun _ _ h htrue => (h htrue).since hu

theorem processExitLoop_safe (n : ℕ) : (processExitLoop pid expected group session observed n).Safe
    (fun r w => r.1 = true → SessionEnded v session w) v := by
  induction n generalizing v observed with
  | zero => exact Routine.Safe.pure fun _ _ h => by cases h
  | succ n ih =>
      refine retainedHasExited_safe.bind fun exited u hu _ => ?_
      split
      · exact sessionDrain_safe hu
      refine Routine.Safe.after verifiedProcessIdentity_safe fun r w hw hr => ?_
      have huw := hu.trans hw
      split
      · refine (sessionDrain_safe huw).later.bind fun waited t ht hwaited => ?_
        split
        · exact Routine.Safe.pure fun _ hx htrue => (hwaited.2 htrue).later hx
        · exact Routine.Safe.raise
      · exact Routine.Safe.raise
      · exact sessionDrain_safe huw
      · rename_i identity
        split
        · exact Routine.Safe.raise
        split
        · exact Routine.Safe.raise
        have hreap : ((if identity.state = .zombie then reapExactZombie pid expected else pure false) : Routine Bool).Safe
            (fun _ _ => True) w := by
          split
          · exact reapExactZombie_safe
          · exact Routine.Safe.pure fun _ _ => trivial
        refine hreap.bind fun gone t ht _ => ?_
        split
        · exact sessionDrain_safe (huw.trans ht)
        · refine (ask_safe _).bind fun _ x hx _ => ?_
          exact ih.mono fun _ _ h htrue => (h htrue).since (huw.trans (ht.trans hx))

theorem waitForProcessExit_safe : (waitForProcessExit pid expected group session observed).Safe
    (fun r w => r.1 = true → SessionEnded v session w) v := by
  unfold waitForProcessExit
  refine Routine.Safe.quiet rfl fun w x r hw _ _ hlater => ?_
  exact (processExitLoop_safe r.1).mono fun a t ht htrue => (ht htrue).since (hw.trans hlater)

theorem mem_groupsOf {members : List ProcessIdentity} :
    group ∈ groupsOf members ↔ ∃ m ∈ members, m.processGroup = group := by
  simp only [groupsOf, List.mem_insertionSort, List.mem_dedup, List.mem_map]

/-- A signal that a scan justifies. -/
theorem Justified.of_saw (hsignal : signal ≠ .term) (haimed : v.2.Aimed g.pid (some g.startTicks))
    (hsaw : v.2.Saw g group) : Justified v (.signalled group signal g) := by
  cases signal with
  | term => exact absurd rfl hsignal
  | stop | kill => exact ⟨⟨haimed, hsaw⟩, fun _ h => by cases h⟩

theorem killGroups_safe (hsignal : signal ≠ .term) (haimed : v.2.Aimed g.pid (some g.startTicks)) {groups : List Pid}
    (hsaw : ∀ group ∈ groups, v.2.Saw g group) : (killGroups signal g groups).Safe (fun _ _ => True) v := by
  induction groups generalizing v with
  | nil => exact Routine.Safe.pure fun _ _ => trivial
  | cons group rest ih =>
      rw [killGroups]
      refine killpg_safe (fun w hw => ?_) fun how w hw => ?_
      · exact Justified.of_saw hsignal (haimed.later hw) ((hsaw group List.mem_cons_self).later hw)
      · have hrest := ih (haimed.later hw) fun group' hgroup' =>
          (hsaw group' (List.mem_cons_of_mem _ hgroup')).later hw
        cases how with
        | failed => exact Routine.Safe.pure fun _ _ => trivial
        | sent | noSuchGroup => exact hrest

theorem saw_of_scan {members : List ProcessIdentity} (hlog : .scanned g.pid members ∈ v.2.log)
    (hsame : ¬generationChanged g members = true) : ∀ group ∈ groupsOf members, v.2.Saw g group := fun group hgroup =>
  ⟨members, hlog, by simpa using hsame, mem_groupsOf.mp hgroup⟩

theorem freezeLoop_safe (n : ℕ) {previous : Option (List (Pid × ℕ × Pid))} {stable : ℕ}
    (haimed : v.2.Aimed g.pid (some g.startTicks)) (hobserved : ∀ group ∈ observed, v.2.Saw g group) :
    (freezeLoop g n observed previous stable).Safe
      (fun r w => r.1 = true → ∀ group ∈ r.2, w.2.Saw g group) v := by
  induction n using Nat.strongRecOn generalizing v observed previous stable with
  | ind n ih =>
  unfold freezeLoop
  refine Routine.Safe.after (liveSessionMembers_safe g.pid) fun answer r hlater hanswer => ?_
  split
  · exact Routine.Safe.pure fun _ _ h => by cases h
  rename_i members
  split
  · exact Routine.Safe.pure fun _ _ h => by cases h
  rename_i hguard
  simp only [Bool.or_eq_true, not_or] at hguard
  have hkept : ∀ group ∈ observed, r.2.Saw g group := fun group hgroup => (hobserved group hgroup).later hlater
  split
  · exact Routine.Safe.pure fun w hw _ group hgroup => (hkept group hgroup).later hw
  have hseen := saw_of_scan (hanswer members rfl).1 hguard.1
  refine (killGroups_safe (by simp) (haimed.later hlater) hseen).bind fun all w hw _ => ?_
  split
  swap
  · exact Routine.Safe.pure fun _ _ h => by cases h
  refine Routine.Safe.after (liveSessionMembers_safe g.pid) fun answer' r' hr' hanswer' => ?_
  have hwr := hw.trans hr'
  split
  · exact Routine.Safe.pure fun _ _ h => by cases h
  rename_i confirmation
  dsimp only
  split
  · exact Routine.Safe.pure fun _ _ h => by cases h
  rename_i hsame
  have hall : ∀ group ∈ observed ∪ groupsOf members ∪ groupsOf confirmation, r'.2.Saw g group := by
    intro group hgroup
    rcases List.mem_union_iff.mp hgroup with hgroup | hgroup
    · rcases List.mem_union_iff.mp hgroup with hgroup | hgroup
      · exact (hkept group hgroup).later hwr
      · exact (hseen group hgroup).later hwr
    · exact saw_of_scan (hanswer' confirmation rfl).1 hsame group hgroup
  generalize (if confirmation.all fun m => m.state ≠ .executable then
    if some (confirmation.map ProcessIdentity.signature) = previous then stable + 1 else 1 else 0) = passes
  split
  · exact Routine.Safe.pure fun y hy _ group hgroup => (hall group hgroup).later hy
  cases n with
  | zero => exact Routine.Safe.pure fun _ _ h => by cases h
  | succ n =>
      refine (ask_safe _).bind fun _ y hy _ => ?_
      exact ih n (Nat.lt_succ_self n) (haimed.later (hlater.trans (hwr.trans hy)))
        fun group hgroup => (hall group hgroup).later hy

theorem freezeWorkerSession_safe (haimed : v.2.Aimed g.pid (some g.startTicks)) :
    (freezeWorkerSession g).Safe (fun r w => r.1 = true → ∀ group ∈ r.2, w.2.Saw g group) v := by
  unfold freezeWorkerSession
  refine Routine.Safe.quiet rfl fun w x r hw _ _ hlater => ?_
  exact freezeLoop_safe r.1 (haimed.later (hw.trans hlater)) fun _ h => absurd h List.not_mem_nil

theorem forceKillWorkerSession_safe (haimed : ∀ t, expected = some t → v.2.Aimed pid (some t)) :
    (forceKillWorkerSession pid expected session observed).Safe
      (fun stopped w => stopped = true → SessionEnded v session w) v := by
  unfold forceKillWorkerSession
  split
  · exact Routine.Safe.pure fun _ _ h => by cases h
  rename_i hguard
  obtain rfl : session = pid := by
    simp only [Bool.or_eq_true, decide_eq_true_eq, not_or, ne_eq, not_not] at hguard
    exact hguard.2
  split
  · exact Routine.Safe.pure fun _ _ h => by cases h
  rename_i startTicks
  have haim : v.2.Aimed session (some startTicks) := haimed startTicks rfl
  refine (freezeWorkerSession_safe (g := ⟨session, startTicks⟩) haim).bind fun frozen w hw hfrozen => ?_
  split
  swap
  · exact Routine.Safe.pure fun _ _ h => by cases h
  rename_i htrue
  refine (killGroups_safe (g := ⟨session, startTicks⟩) (by simp) (haim.later hw) (hfrozen htrue)).bind
    fun all u hu _ => ?_
  split
  swap
  · exact Routine.Safe.pure fun _ _ h => by cases h
  refine waitForProcessExit_safe.bind fun waited t ht hwaited => ?_
  exact Routine.Safe.pure fun x hx h => ((hwaited h).since (hw.trans hu)).later hx

theorem stopSession_safe (haimed : v.2.Aimed pid (some startTicks)) :
    (stopSession pid startTicks group session).Safe
      (fun stopped w => stopped = true → SessionEnded v session w) v := by
  have haim : ∀ w, Later v w → ∀ t, some startTicks = some t → w.2.Aimed pid (some t) := by
    rintro w hw t ⟨⟩
    exact haimed.later hw
  refine (sendVerifiedSignal_safe (haim v (Later.refl v)) rfl).bind fun _ w hw _ => ?_
  refine waitForProcessExit_safe.bind fun waited u hu hwaited => ?_
  split
  · rename_i htrue
    exact Routine.Safe.pure fun t ht _ => ((hwaited htrue).since hw).later ht
  refine (readProcessIdentity_safe pid).bind fun leader t ht _ => ?_
  split
  · exact Routine.Safe.raise
  have hlater := hw.trans (hu.trans ht)
  refine (forceKillWorkerSession_safe (haim t hlater)).bind fun stopped x hx hstopped => ?_
  split
  · rename_i htrue
    exact Routine.Safe.pure fun y hy _ => ((hstopped htrue).since hlater).later hy
  · exact refuse_safe fun _ _ h => by cases h

end KernelGym.WorkerSession
