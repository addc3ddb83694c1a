import KernelGym.ServiceWorkers

/-! One worker, and any number of monitors and service commands that restart, reconcile, drain and register it, at the
same time and in any order, while its processes fork, stop, end and are reaped. A crash is a call that is never
continued. -/

namespace KernelGym.WorkerSession

open Library

inductive Call
  | restart (request : Option Request)
  | reconcile
  | drain
  | register (pid : Pid)

def Call.target : Call → Option Target
  | .restart request => request.map fun r => ⟨r.pid, r.startTicks⟩
  | _ => none

def Call.asked : Call → Option Pid
  | .register pid => some pid
  | _ => none

def Call.program : Call → Routine Bool
  | .restart request => do
    let restarted ← restartWorker request
    pure (restarted = some true)
  | .reconcile => reconcileRecordedProcessGeneration
  | .drain => drainRegisteredWorker
  | .register pid => registerExpectedWorker pid

def service : ClientService Command.Answer (Except Fault Bool) Host Trace Call Outcome ProcessEvent where
  env h e := (h.table.step e).map fun t => { h with table := t }
  exec := exec
  start c h := (⟨c.target, c.asked, h.ever, []⟩, c.program)

/-- A host with its calls. -/
abbrev Worker := Site Command.Answer (Except Fault Bool) Host Trace ℕ

/-- What a call that returns `true` has proved. -/
def Settled (r : Except Fault Bool) (v : View) : Prop := r = .ok true → SeenEnded v

theorem program_holds (c : Call) {h : Host} : Meets c.program Settled (h, ⟨c.target, c.asked, h.ever, []⟩) := by
  have hseen : ∀ v : View, Contained (h, ⟨c.target, c.asked, h.ever, []⟩) v → Later (h, ⟨c.target, c.asked, h.ever, []⟩) v →
      SeenEnded v := fun v hc hv g hg => hc g (by rwa [hv.seen] at hg)
  suffices hsafe : c.program.Safe (fun done w => done = true → SeenEnded w) (h, ⟨c.target, c.asked, h.ever, []⟩) from
    Program.Holds.mono (fun r w hr htrue => hr true htrue rfl) hsafe
  cases c with
  | restart request =>
      refine (restartWorker_safe rfl fun g hg => hg).bind fun restarted w hw hr => ?_
      exact Routine.Safe.pure fun u hu htrue => (hr (of_decide_eq_true htrue)).later hu
  | reconcile =>
      exact (reconcileRecordedProcessGeneration_safe rfl).later.mono fun _ w hw htrue => hseen w (hw.2 htrue) hw.1
  | drain => exact (drainRegisteredWorker_safe rfl).later.mono fun _ w hw htrue => hseen w (hw.2 htrue) hw.1
  | register pid => exact registerExpectedWorker_safe rfl fun g hg => hg

theorem service_sound : service.Sound Host.Valid Host.Moves Fair Settled where
  env h e h' _ hstep := by
    obtain ⟨t, ht, rfl⟩ := Option.map_eq_some_iff.mp hstep
    exact .process ht
  guarantee _ _ _ hfair := hfair.moves
  keeps _ _ hv hmove := hmove.valid hv
  start c _ _ := program_holds c

/-- Every signal, and every removal, is one that the call had reason for when it did it. -/
def Trace.Supported (t : Trace) : Prop :=
  ∀ later o earlier, t.log = later ++ o :: earlier → Trace.Supports { t with log := earlier } o

/-- What a call has done so far. -/
structure Proper (v : View) : Prop where
  supported : v.2.Supported
  spawned : ∀ pid, .spawned pid ∈ v.2.log → SeenEnded v

theorem Proper.moved {v : View} {h : Host} (hmove : v.1.Moves h) (hp : Proper v) : Proper (h, v.2) :=
  ⟨hp.supported, fun pid hpid => (hp.spawned pid hpid).later (Later.of_moves hmove rfl rfl rfl fun _ ho => ho)⟩

theorem Proper.fair {v w : View} (hfair : Fair v w) (hp : Proper v) : Proper w := by
  have hlater := hfair.later
  obtain ⟨h, target, asked, seen, log⟩ := w
  obtain ⟨-, rfl, rfl, rfl, hlog⟩ := hfair
  rcases hlog with rfl | ⟨o, rfl, hsupports, hspawned⟩
  · exact ⟨hp.supported, fun pid hpid => (hp.spawned pid hpid).later hlater⟩
  · constructor
    · intro later o' earlier heq
      rcases List.cons_eq_append_iff.mp heq with ⟨-, hcons⟩ | ⟨before, -, hbefore⟩
      · obtain ⟨rfl, rfl⟩ := List.cons.inj hcons
        exact hsupports
      · exact hp.supported before o' earlier hbefore
    · intro pid hpid
      rcases List.mem_cons.mp hpid with rfl | hpid
      · exact (hspawned pid rfl).later hlater
      · exact (hp.spawned pid hpid).later hlater

section Runs

variable {start now : Worker} (hvalid : start.shared.Valid) (hidle : ∀ i, start.client i = none)
  (hrun : Run service.step start now)

include hvalid hidle hrun

theorem holding_of_run : ClientService.Holding service Host.Valid Host.Moves Fair Settled Proper now := by
  refine ClientService.Holding.run service_sound (fun c h _ => ?_) (fun v h _ hmove hp => hp.moved hmove)
    (fun v w _ hfair hp => hp.fair hfair) ⟨hvalid, fun i c hc => ?_⟩ hrun
  · refine ⟨fun later o earlier heq => ?_, fun pid hpid => absurd hpid List.not_mem_nil⟩
    exact absurd heq (by simp [service])
  · rw [hidle i] at hc
    cases hc

/-- **At most one session of a worker can run**: whatever was ever registered for it is drained, or is registered now,
unless a fork has overtaken a look at it. -/
theorem registered_or_drained : ∀ g ∈ now.shared.ever, g ∉ now.shared.overtaken →
    now.shared.table.Drained g ∨ ∃ reg, now.shared.registered = some reg ∧ reg.generation = g := fun g hg hforks =>
  ((holding_of_run hvalid hidle hrun).shared.contained g hg).imp_left fun hended => hended.resolve_right hforks

/-- **A worker is replaced only when it has ended**: once a call has started a process, or has returned `true`, every
session that had been registered when the call began is drained, unless a fork has overtaken a look at it. -/
theorem replaced_when_drained {i : ℕ} {t : Trace} {p : Program Command.Answer (Except Fault Bool)}
    (hclient : now.client i = some (t, p))
    (hdone : (∃ pid, .spawned pid ∈ t.log) ∨ p = .done (.ok true)) :
    ∀ g ∈ t.seen, g ∉ now.shared.overtaken → now.shared.table.Drained g := by
  obtain ⟨hholds, hproper⟩ := (holding_of_run hvalid hidle hrun).client i _ hclient
  intro g hg hforks
  rcases hdone with ⟨pid, hpid⟩ | rfl
  · exact (hproper.spawned pid hpid g hg).2.resolve_right hforks
  · exact (hholds.result rfl g hg).2.resolve_right hforks

/-- **Every signal has its reason**: it is meant for the recorded process, the one to be registered, or one that the
monitor has started, and a restart request reaches no other recorded process than its own. SIGTERM goes to the leader
that was read under the start time, group and session, SIGSTOP and SIGKILL to a group that a look at the session has
shown. -/
theorem signals_supported {i : ℕ} {t : Trace} {p : Program Command.Answer (Except Fault Bool)}
    (hclient : now.client i = some (t, p)) : t.Supported :=
  ((holding_of_run hvalid hidle hrun).client i _ hclient).2.supported

end Runs

/-! ### A restart -/

def Worker.unused : Worker := ⟨⟨{}, none, [], []⟩, fun _ => none⟩

theorem valid_unused : Worker.unused.shared.Valid where
  coherent := ⟨fun _ hq => absurd hq List.not_mem_nil, fun _ hq => absurd hq List.not_mem_nil,
    fun _ hq => absurd hq List.not_mem_nil⟩
  registered _ h := by cases h
  begun _ hg := absurd hg List.not_mem_nil
  contained _ hg := absurd hg List.not_mem_nil

/-- Process 10 is started by hand and registered. -/
def launch : List (Turn ℕ Call Outcome ProcessEvent) :=
  [.env (.spawn 10 5), .start 0 (.register 10)] ++
    [.child none, .done, .answered true, .done].map (.own 0)

/-- It ends, and a second call replaces it by process 11. -/
def replacement : List (Turn ℕ Call Outcome ProcessEvent) :=
  [.env (.exit 10), .env (.reap 10), .start 1 (.restart none)] ++
    [.answered false, .answered false, .done, .child none, .done, .entries [], .done, .answered true, .done,
      .answered true, .answered false, .begun 11 7].map (.own 1)

/-- It still runs when the second call sends it SIGTERM. -/
def termination : List (Turn ℕ Call Outcome ProcessEvent) :=
  [.start 1 (.restart (some ⟨10, some 5, 10, 10, true⟩))] ++
    [.answered false, .done, .done, .done, .child none, .done, .done, .answered true, .done, .answered true,
      .sent .sent].map (.own 1)

theorem run_of_execute (turns : List (Turn ℕ Call Outcome ProcessEvent)) {start now : Worker}
    (h : execute service.step turns start = some now) : Run service.step start now := by
  have hallowed : ∀ a ∈ turns, (fun _ => True) a := fun _ _ => trivial
  exact execute_run hallowed h

theorem registered_or_drained_launch : ∃ now, execute service.step launch Worker.unused = some now ∧
    (now.shared.table.Drained ⟨10, 5⟩ ∨ ∃ reg, now.shared.registered = some reg ∧ reg.generation = ⟨10, 5⟩) :=
  ⟨_, rfl, registered_or_drained valid_unused (fun _ => rfl) (run_of_execute launch rfl) _ List.mem_cons_self
    List.not_mem_nil⟩

/-- A look that misses a process: 12 forks 13 when it is listed, and has gone when it is read. -/
def overtaking : List (Turn ℕ Call Outcome ProcessEvent) :=
  [.env (.fork 10 12 6), .env (.exit 10), .env (.reap 10), .start 1 .drain] ++
    [.done, .done, .entries [12]].map (.own 1) ++
    [.env (.fork 12 13 8), .env (.setpgid 13 13), .env (.exit 12), .env (.reap 12)] ++
    [.done, .done, .answered true, .done].map (.own 1)

example : ∃ now, execute service.step (launch ++ overtaking) Worker.unused = some now ∧
    now.shared.registered = none ∧ now.shared.overtaken = [⟨10, 5⟩] ∧ ¬now.shared.table.Drained ⟨10, 5⟩ :=
  ⟨_, rfl, rfl, rfl, by decide⟩

/-- The history of a call after some turns. -/
def traceAfter (turns : List (Turn ℕ Call Outcome ProcessEvent)) (i : ℕ) : Option Trace :=
  ((execute service.step turns Worker.unused).bind fun now => now.client i).map Prod.fst

theorem client_of_trace {turns : List (Turn ℕ Call Outcome ProcessEvent)} {i : ℕ} {t : Trace}
    (h : traceAfter turns i = some t) :
    ∃ now p, execute service.step turns Worker.unused = some now ∧ now.client i = some (t, p) := by
  obtain ⟨c, hc, rfl⟩ := Option.map_eq_some_iff.mp h
  obtain ⟨now, hnow, hclient⟩ := Option.bind_eq_some_iff.mp hc
  exact ⟨now, c.2, hnow, hclient⟩

theorem replaced_when_drained_replacement : ∃ (now : Worker) (t : Trace) (p : Routine Bool),
    execute service.step (launch ++ replacement) Worker.unused = some now ∧ now.client 1 = some (t, p) ∧
    t.seen = [⟨10, 5⟩] ∧ .spawned 11 ∈ t.log ∧ now.shared.table.Drained ⟨10, 5⟩ := by
  have htrace : traceAfter (launch ++ replacement) 1 =
      some ⟨none, none, [⟨10, 5⟩], [.spawned 11, .removing 10 (some 5), .scanned 10 [], .recorded (.of ⟨10, 5⟩)]⟩ := rfl
  obtain ⟨now, p, hnow, hclient⟩ := client_of_trace htrace
  have hforks : now.shared.overtaken = [] := by
    have hnone : (execute service.step (launch ++ replacement) Worker.unused).map (fun now => now.shared.overtaken) =
        some [] := rfl
    rw [hnow] at hnone
    exact Option.some.inj hnone
  refine ⟨now, _, p, hnow, hclient, rfl, List.mem_cons_self, ?_⟩
  refine replaced_when_drained valid_unused (fun _ => rfl) (run_of_execute _ hnow) hclient
    (Or.inl ⟨11, List.mem_cons_self⟩) _ List.mem_cons_self ?_
  rw [hforks]
  exact List.not_mem_nil

theorem signals_supported_termination : ∃ (now : Worker) (t : Trace) (p : Routine Bool),
    execute service.step (launch ++ termination) Worker.unused = some now ∧ now.client 1 = some (t, p) ∧
    t.log.head? = some (.signalled 10 .term ⟨10, 5⟩) ∧ t.Supported := by
  have htrace : traceAfter (launch ++ termination) 1 = some ⟨some ⟨10, some 5⟩, none, [⟨10, 5⟩],
      .signalled 10 .term ⟨10, 5⟩ :: (List.replicate 3 (.read ⟨10, 5, .executable, 10, 10⟩) ++
        [.recorded (.of ⟨10, 5⟩), .read ⟨10, 5, .executable, 10, 10⟩, .recorded (.of ⟨10, 5⟩)])⟩ := rfl
  obtain ⟨now, p, hnow, hclient⟩ := client_of_trace htrace
  exact ⟨now, _, p, hnow, hclient, rfl, signals_supported valid_unused (fun _ => rfl) (run_of_execute _ hnow) hclient⟩

end KernelGym.WorkerSession
