import KernelGym.Library.ProcessTable
import KernelGym.Library.Clients
import Mathlib.Data.Int.Notation
import Mathlib.Data.List.Dedup
import Mathlib.Data.List.Sort

/-! How the monitor and the service command end a worker. A process session is recorded for a worker in Redis; who wants
to replace the worker signals the processes of the session, and removes the record only with the proof that nothing in
the session can run any more. Each routine is a program over single reads of `/proc`, signals and Redis commands: a look
at a session lists the processes first and reads them one after the other. -/

namespace KernelGym.WorkerSession

open Library

/-- `ProcessIdentity` -/
structure ProcessIdentity where
  pid : Pid
  startTicks : ℕ
  state : ProcessState
  processGroup : Pid
  sessionId : Pid
  deriving DecidableEq

/-- A number in a field of a Redis hash. -/
inductive Field
  | missing
  | malformed
  | number (n : ℤ)
  deriving DecidableEq

/-- `int(process_info.get(field) or default)` -/
def Field.toInt (default : ℤ) : Field → Option ℤ
  | .missing => some default
  | .malformed => none
  | .number n => some n

/-- The hash `worker_process:<id>`, as far as it names a process. Older versions did not write all of it. -/
structure Record where
  pid : Field
  startTicks : Option ℕ
  processGroup : Field
  sessionId : Field
  deriving DecidableEq

/-- The hash with the session that it was written for. -/
structure Registration where
  record : Record
  generation : LinuxSession
  pid_ne : record.pid ≠ .missing
  pid_eq : ∀ n, record.pid = .number n → n = generation.pid
  ticks_eq : ∀ n, record.startTicks = some n → n = generation.startTicks
  session_eq : ∀ n, record.sessionId = .number n → n = generation.pid

/-- What the scripts write for a session. -/
def Record.of (g : LinuxSession) : Record := ⟨.number g.pid, some g.startTicks, .number g.pid, .number g.pid⟩

def Registration.of (g : LinuxSession) : Registration where
  record := .of g
  generation := g
  pid_ne := by simp [Record.of]
  pid_eq n h := (Field.number.inj h).symm
  ticks_eq n h := (Option.some.inj h).symm
  session_eq n h := (Field.number.inj h).symm

/-- What the host and Redis hold for one worker. -/
structure Host where
  table : ProcessTable
  registered : Option Registration
  /-- History: the sessions that were ever registered. -/
  ever : List LinuxSession
  /-- History: the sessions in which a process has forked during a look that then showed nothing running. -/
  overtaken : List LinuxSession := []

/-- A process that a monitor has started: `spawned_processes` and `spawned_identities` of the worker. -/
structure Child where
  pid : Pid
  identity : Option ProcessIdentity
  identity_pid : ∀ i, identity = some i → i.pid = pid
  deriving DecidableEq

inductive Signal
  | term
  | stop
  | kill
  deriving DecidableEq

/-- What a call has seen and done. -/
inductive Observation
  /-- The hash that was in Redis. -/
  | recorded (record : Record)
  | read (identity : ProcessIdentity)
  | scanned (session : Pid) (members : List ProcessIdentity)
  /-- A signal to a process group, with the session it is meant for. -/
  | signalled (group : Pid) (signal : Signal) (session : LinuxSession)
  /-- The compare-and-delete script was sent. -/
  | removing (pid : Pid) (startTicks : Option ℕ)
  | spawned (pid : Pid)
  /-- A process that the monitor has started before. -/
  | retained (child : Child)
  deriving DecidableEq

/-- The process that a restart request was made for; requests without a start time leave it open. -/
structure Target where
  pid : ℤ
  startTicks : Option ℕ
  deriving DecidableEq

/-- What a call was made for, and its history, the latest first. -/
structure Trace where
  target : Option Target
  /-- The process that is to be registered. -/
  asked : Option Pid := none
  /-- The sessions that had been registered when the call began. -/
  seen : List LinuxSession
  log : List Observation

abbrev View := Host × Trace

/-- `ProcessIdentityMismatch`, a cancellation, and any other exception. -/
inductive Fault
  | mismatch
  | cancelled
  | failure
  deriving DecidableEq

inductive Sent
  | sent
  | noSuchGroup
  | failed
  deriving DecidableEq

/-- Questions whose answer only decides how a call goes on. -/
inductive Query
  | quarantined
  | admissionOpen
  | cmdlineMatches (pid : Pid)
  /-- `process.poll() is not None` -/
  | polled (pid : Pid)
  /-- `os.waitpid(pid, os.WNOHANG)` returns the process. -/
  | waited (pid : Pid)
  /-- The host names of the record, the expected worker and the heartbeat are this host's alone. -/
  | ownedHere
  /-- `asyncio.sleep` -/
  | sleep
  /-- `asyncio.shield` of a cleanup that has ended. -/
  | shield
  /-- `_quarantine_unsafe_process_group` -/
  | quarantine

/-- The numbers in `/proc`. Those of processes that have ended, or that come later, may be among them. -/
structure Listing where
  entries : List Pid
  /-- History: the forks so far. -/
  forked : List LinuxSession

inductive Command
  | hgetall
  | ask (query : Query)
  | readIdentity (pid : Pid)
  /-- `list(Path("/proc").iterdir())` -/
  | list
  /-- History: a look that began with so many forks has shown these members. -/
  | looked (session : Pid) (forked : List LinuxSession) (members : List ProcessIdentity)
  /-- `os.killpg(group, 0)` finds no such group. -/
  | groupGone (group : Pid)
  | killpg (group : Pid) (signal : Signal) (session : LinuxSession)
  /-- How often a loop with a deadline comes round. -/
  | passes
  | retained
  /-- `_compare_and_delete_process_map` -/
  | compareAndDelete (pid : Pid) (startTicks : Option ℕ) (processGroup sessionId : Field)
  | popen
  /-- The script that registers a session if none is registered. -/
  | register (session : LinuxSession)

def Command.Answer : Command → Type
  | .hgetall => Except Fault (Option Record)
  | .ask _ => Except Fault Bool
  | .readIdentity _ => Except Fault (Option ProcessIdentity)
  | .list => Except Fault Listing
  | .looked .. => Unit
  | .groupGone _ => Except Fault Bool
  | .killpg .. => Sent
  | .passes => ℕ
  | .retained => Option Child
  | .compareAndDelete .. => Except Fault Bool
  | .popen => Except Fault Pid
  | .register _ => Except Fault Bool

/-- How a command turns out, as far as the host's state leaves it open. -/
inductive Outcome
  | done
  | raised (e : Fault)
  /-- The script has run, and its answer is lost. -/
  | lost (e : Fault)
  | answered (yes : Bool)
  | entries (pids : List Pid)
  | sent (how : Sent)
  | count (n : ℕ)
  | child (c : Option Child)
  | begun (leader : Pid) (startTicks : ℕ)

def identityOf (q : LinuxProcess) : ProcessIdentity := ⟨q.pid, q.startTicks, q.state, q.group, q.session.pid⟩

/-- The sessions with this number in which a process has forked since. -/
def Host.forkedSince (h : Host) (session : Pid) (forked : List LinuxSession) : List LinuxSession :=
  h.table.begun.filter fun g => g.pid = session && h.table.forked.count g ≠ forked.count g

def nothingRuns (members : List ProcessIdentity) : Bool := members.all fun m => m.state = .zombie

/-- The end of a look. -/
def Host.looked (h : Host) (session : Pid) (forked : List LinuxSession) (members : List ProcessIdentity) : Host :=
  if nothingRuns members then { h with overtaken := h.forkedSince session forked ++ h.overtaken } else h

/-- `_PROCESS_MAP_DELETE_IF_CURRENT` -/
def Host.deleteIfCurrent (h : Host) (pid : Pid) (startTicks : Option ℕ) (processGroup sessionId : Field) :
    Bool × Host :=
  match h.registered with
  | some reg =>
    if reg.record = ⟨.number pid, startTicks, processGroup, sessionId⟩ then (true, { h with registered := none })
    else (false, h)
  | none => (false, h)

/-- `_PROCESS_MAP_REGISTER_IF_EMPTY` -/
def Host.registerIfEmpty (h : Host) (g : LinuxSession) : Bool × Host :=
  match h.registered with
  | none => (true, { h with registered := some (.of g), ever := g :: h.ever })
  | some _ => (false, h)

def Trace.add (t : Trace) (o : Observation) : Trace := { t with log := o :: t.log }

def exec (v : View) : (c : Command) → Outcome → Option (c.Answer × View)
  | .hgetall, .done =>
    match v.1.registered with
    | some reg => some (.ok (some reg.record), v.1, v.2.add (.recorded reg.record))
    | none => some (.ok none, v)
  | .hgetall, .raised e => some (.error e, v)
  | .ask _, .answered yes => some (.ok yes, v)
  | .ask _, .raised e => some (.error e, v)
  | .readIdentity pid, .done =>
    match v.1.table.processes.find? fun q => q.pid = pid with
    | some q => some (.ok (some (identityOf q)), v.1, v.2.add (.read (identityOf q)))
    | none => some (.ok none, v)
  | .readIdentity _, .raised e => some (.error e, v)
  | .list, .entries pids =>
    if v.1.table.processes.all fun q => q.pid ∈ pids then some (.ok ⟨pids, v.1.table.forked⟩, v) else none
  | .list, .raised e => some (.error e, v)
  | .looked session forked members, .done =>
    some ((), v.1.looked session forked members, v.2.add (.scanned session members))
  | .groupGone group, .answered yes =>
    if yes = true → v.1.table.processes.all fun q => q.group ≠ group then some (.ok yes, v) else none
  | .groupGone _, .raised e => some (.error e, v)
  | .killpg group signal session, .sent how => some (how, v.1, v.2.add (.signalled group signal session))
  | .passes, .count n => some (n, v)
  | .retained, .child none => some (none, v)
  | .retained, .child (some c) => some (some c, v.1, v.2.add (.retained c))
  | .compareAndDelete pid startTicks processGroup sessionId, .done =>
    let (deleted, h) := v.1.deleteIfCurrent pid startTicks processGroup sessionId
    some (.ok deleted, h, v.2.add (.removing pid startTicks))
  | .compareAndDelete pid startTicks processGroup sessionId, .lost e =>
    some (.error e, (v.1.deleteIfCurrent pid startTicks processGroup sessionId).2, v.2.add (.removing pid startTicks))
  | .compareAndDelete .., .raised e => some (.error e, v)
  | .popen, .begun leader startTicks =>
    (v.1.table.step (.spawn leader startTicks)).map fun t =>
      (.ok leader, { v.1 with table := t }, v.2.add (.spawned leader))
  | .popen, .raised e => some (.error e, v)
  | .register g, .done => some (.ok (v.1.registerIfEmpty g).1, (v.1.registerIfEmpty g).2, v.2)
  | .register g, .lost e => some (.error e, (v.1.registerIfEmpty g).2, v.2)
  | .register _, .raised e => some (.error e, v)
  | _, _ => none

/-! ### Routines -/

/-- A routine that returns or raises. -/
def Routine (α : Type) : Type := Program Command.Answer (Except Fault α)

namespace Routine

variable {α β : Type}

def raise (e : Fault) : Routine α := Program.done (.error e)

def command (c : Command) (next : c.Answer → Routine α) : Routine α := Program.call c next

/-- What follows `p`, however it ends. -/
def after {γ : Type} (p : Program Command.Answer γ) (f : γ → Routine β) : Routine β := Program.bind p f

def andThen (p : Routine α) (f : α → Routine β) : Routine β :=
  Program.bind p fun
    | .ok a => f a
    | .error e => raise e

/-- `try: p except: handler` -/
def orElse (p : Routine α) (handler : Fault → Routine α) : Routine α :=
  Program.bind p fun
    | .ok a => Program.done (.ok a)
    | .error e => handler e

instance : Monad Routine where
  pure a := Program.done (.ok a)
  bind := andThen

/-- `except Exception`, which a cancellation passes. -/
def orReturn (p : Routine α) (handler : Routine α) : Routine α :=
  p.orElse fun e => if e = .cancelled then raise e else handler

end Routine

open Routine

def hgetall : Routine (Option Record) := Program.call .hgetall .done

def ask (query : Query) : Routine Bool := Program.call (.ask query) .done

/-- `_read_process_identity` -/
def readProcessIdentity (pid : Pid) : Routine (Option ProcessIdentity) := Program.call (.readIdentity pid) .done

def retained : Routine (Option Child) := command .retained fun c => .done (.ok c)

/-- `_compare_and_delete_process_map` -/
def compareAndDelete (pid : Pid) (startTicks : Option ℕ) (processGroup sessionId : Field) : Routine Bool :=
  Program.call (.compareAndDelete pid startTicks processGroup sessionId) .done

/-- The worker's GPU is latched, and the caller is told that the session is not known to be drained. -/
def refuse : Routine Bool := do
  let _ ← ask .quarantine
  pure false

/-! ### The proof that a session is drained -/

/-- `all(_process_group_is_drained(group) for group in groups)` -/
def groupsAreDrained : List Pid → Routine Bool
  | [] => pure true
  | group :: rest => command (.groupGone group) fun
    | .ok true => groupsAreDrained rest
    | .ok false => pure false
    | .error e => raise e

/-- The groups of some processes, once each and in order. -/
def groupsOf (members : List ProcessIdentity) : List Pid :=
  (members.map ProcessIdentity.processGroup).dedup.insertionSort (· ≤ ·)

/-- The loop of `_live_session_members` over the entries of `/proc`: those that have gone are left out. -/
def readMembers (session : Pid) (forked : List LinuxSession) :
    List Pid → List ProcessIdentity → Routine (List ProcessIdentity)
  | [], members =>
    let members := members.insertionSort fun m n => m.pid ≤ n.pid
    command (.looked session forked members) fun _ => pure members
  | entry :: entries, members => do
    match ← readProcessIdentity entry with
    | some identity =>
      if identity.sessionId = session then readMembers session forked entries (members ++ [identity])
      else readMembers session forked entries members
    | none => readMembers session forked entries members

/-- `_live_session_members` -/
def liveSessionMembers (session : Pid) : Routine (List ProcessIdentity) :=
  if session ≤ 1 then raise .failure
  else command .list fun
    | .error e => raise e
    | .ok listing => readMembers session listing.forked listing.entries []

/-- A look at a session, which adds to the groups that were observed in it. -/
abbrev Look := List Pid → Program Command.Answer (Except Fault Bool × List Pid)

/-- `_session_is_drained` -/
def sessionIsDrained (session : Pid) : Look := fun observed =>
  Program.bind (liveSessionMembers session) fun
    | .error e => .done (.error e, observed)
    | .ok members =>
      if nothingRuns members then
        Program.bind (groupsAreDrained ((observed ∪ groupsOf members).filter (· ∉ groupsOf members))) fun answer =>
          .done (answer, observed ∪ groupsOf members)
      else .done (.ok false, observed ∪ groupsOf members)

/-- One look, as the callers outside of a loop take it. -/
def lookOnce (look : Look) (observed : List Pid) : Routine (Bool × List Pid) :=
  Program.bind (look observed) fun answer => .done (answer.1.map fun drained => (drained, answer.2))

/-- The loop of `_wait_for_session_drain`: a scan that fails is repeated, and an error only after the last pass. -/
def sessionDrainLoop (look : Look) : ℕ → List Pid → Routine (Bool × List Pid)
  | 0, observed => after (look observed) fun answer =>
    match answer.1 with
    | .ok drained => pure (drained, answer.2)
    | .error _ => raise .failure
  | n + 1, observed => after (look observed) fun answer =>
    match answer.1 with
    | .ok true => pure (true, answer.2)
    | _ => do
      let _ ← ask .sleep
      sessionDrainLoop look n answer.2

/-- `_wait_for_session_drain` -/
def waitForSessionDrain (look : Look) (observed : List Pid) : Routine (Bool × List Pid) :=
  command .passes fun n => sessionDrainLoop look n observed

/-! ### Identities -/

/-- `_verified_process_identity` -/
def verifiedProcessIdentity (pid : Pid) (expectedStartTicks : Option ℕ) : Routine (Option ProcessIdentity) := do
  match ← readProcessIdentity pid with
  | none => pure none
  | some identity =>
    if expectedStartTicks.any (· ≠ identity.startTicks) then raise .mismatch
    else if identity.state = .zombie then
      if expectedStartTicks.isSome then pure (some identity) else raise .mismatch
    else do
      if ← ask (.cmdlineMatches pid) then pure (some identity) else raise .mismatch

/-- The process is one that this monitor has started, and has ended. -/
def retainedHasExited (pid : Pid) : Routine Bool := do
  match ← retained with
  | some child => if child.pid = pid then ask (.polled pid) else pure false
  | none => pure false

/-- `_reap_exact_zombie` -/
def reapExactZombie (pid : Pid) (expectedStartTicks : Option ℕ) : Routine Bool := do
  if ← retainedHasExited pid then pure true
  else
    match ← verifiedProcessIdentity pid expectedStartTicks with
    | none => pure true
    | some identity => if identity.state = .zombie then ask (.waited pid) else pure false

/-- `_send_verified_signal` with SIGTERM -/
def sendVerifiedSignal (pid : Pid) (expectedStartTicks : Option ℕ) : Routine Bool := do
  match ← verifiedProcessIdentity pid expectedStartTicks with
  | none => pure false
  | some identity =>
    if identity.processGroup ≠ pid then raise .mismatch
    else if identity.sessionId ≠ pid then raise .mismatch
    else command (.killpg identity.processGroup .term ⟨pid, identity.startTicks⟩) fun
      | .sent => pure true
      | .noSuchGroup => pure false
      | .failed => raise .failure

/-! ### Waiting for the end, and forcing it -/

/-- The loop of `_wait_for_process_exit`. A leader whose identity no longer matches is left to end by itself. -/
def processExitLoop (pid : Pid) (expectedStartTicks : Option ℕ) (processGroup session : Pid) (observed : List Pid) :
    ℕ → Routine (Bool × List Pid)
  | 0 => pure (false, observed)
  | n + 1 => do
    if ← retainedHasExited pid then waitForSessionDrain (sessionIsDrained session) observed
    else after (verifiedProcessIdentity pid expectedStartTicks) fun
      | .error .mismatch => do
        let waited ← waitForSessionDrain (sessionIsDrained session) observed
        if waited.1 then pure waited else raise .mismatch
      | .error e => raise e
      | .ok none => waitForSessionDrain (sessionIsDrained session) observed
      | .ok (some identity) =>
        if identity.processGroup ≠ processGroup then raise .mismatch
        else if identity.sessionId ≠ session then raise .mismatch
        else do
          let gone ← (if identity.state = .zombie then reapExactZombie pid expectedStartTicks else pure false)
          if gone then waitForSessionDrain (sessionIsDrained session) observed
          else do
            let _ ← ask .sleep
            processExitLoop pid expectedStartTicks processGroup session observed n

/-- `_wait_for_process_exit` -/
def waitForProcessExit (pid : Pid) (expectedStartTicks : Option ℕ) (processGroup session : Pid)
    (observed : List Pid) : Routine (Bool × List Pid) :=
  command .passes fun n =>
    processExitLoop pid expectedStartTicks processGroup session (observed ∪ [processGroup]) n

/-- The leader's number is that of another process. -/
def generationChanged (session : LinuxSession) (members : List ProcessIdentity) : Bool :=
  members.any fun m => m.pid = session.pid && m.startTicks ≠ session.startTicks

/-- `os.killpg` to every group, where groups that have gone do not count. -/
def killGroups (signal : Signal) (session : LinuxSession) : List Pid → Routine Bool
  | [] => pure true
  | group :: rest => command (.killpg group signal session) fun
    | .failed => pure false
    | _ => killGroups signal session rest

def ProcessIdentity.signature (m : ProcessIdentity) : Pid × ℕ × Pid := (m.pid, m.startTicks, m.processGroup)

/-- The loop of `_freeze_worker_session`: whether the session is frozen, and the groups that were seen in it. Two equal
scans without an executable process are a fixed point. -/
def freezeLoop (session : LinuxSession) :
    ℕ → List Pid → Option (List (Pid × ℕ × Pid)) → ℕ → Routine (Bool × List Pid)
  | n, observed, previousSignature, stablePasses => after (liveSessionMembers session.pid) fun
    | .error _ => pure (false, observed)
    | .ok members =>
      if generationChanged session members || members.any fun m => m.processGroup ≤ 1 then pure (false, observed)
      else if members = [] then pure (true, observed)
      else do
        if ← killGroups .stop session (groupsOf members) then
          after (liveSessionMembers session.pid) fun
            | .error _ => pure (false, observed ∪ groupsOf members)
            | .ok confirmation =>
              let observed := observed ∪ groupsOf members ∪ groupsOf confirmation
              let signature := confirmation.map ProcessIdentity.signature
              let stablePasses :=
                if confirmation.all fun m => m.state ≠ .executable then
                  if some signature = previousSignature then stablePasses + 1 else 1
                else 0
              if generationChanged session confirmation then pure (false, observed)
              else if 2 ≤ stablePasses then pure (true, observed)
              else
                match n with
                | 0 => pure (false, observed)
                | n + 1 => do
                  let _ ← ask .sleep
                  freezeLoop session n observed (some signature) stablePasses
        else pure (false, observed ∪ groupsOf members)

/-- `_freeze_worker_session` -/
def freezeWorkerSession (session : LinuxSession) : Routine (Bool × List Pid) :=
  command .passes fun n => freezeLoop session n [] none 0

/-- `_force_kill_worker_session` -/
def forceKillWorkerSession (pid : Pid) (expectedLeaderStartTicks : Option ℕ) (session : Pid) (observed : List Pid) :
    Routine Bool :=
  if pid ≤ 1 || session ≠ pid then pure false
  else
    match expectedLeaderStartTicks with
    | none => pure false
    | some startTicks => do
      let frozen ← freezeWorkerSession ⟨session, startTicks⟩
      if frozen.1 then
        if ← killGroups .kill ⟨session, startTicks⟩ frozen.2 then do
          let waited ← waitForProcessExit pid (some startTicks) pid pid (observed ∪ frozen.2)
          pure waited.1
        else pure false
      else pure false

/-- SIGTERM to an authenticated leader, the wait, and the escalation, which `_stop_spawned_process` and
`_kill_worker_process` share. -/
def stopSession (pid : Pid) (startTicks : ℕ) (processGroup session : Pid) : Routine Bool := do
  let _ ← sendVerifiedSignal pid (some startTicks)
  let waited ← waitForProcessExit pid (some startTicks) processGroup session [processGroup]
  if waited.1 then pure true
  else do
    let leader ← readProcessIdentity pid
    if leader.any fun m => m.startTicks ≠ startTicks then raise .mismatch
    else do
      if ← forceKillWorkerSession pid (some startTicks) session waited.2 then pure true else refuse

/-! ### Processes that this monitor has started -/

/-- `_stop_spawned_process` -/
def stopSpawnedProcess (process : Pid) (identity : Option ProcessIdentity) : Routine Bool := do
  let processGroup := identity.elim process ProcessIdentity.processGroup
  let session := identity.elim process ProcessIdentity.sessionId
  if ← ask (.polled process) then
    after (sessionIsDrained session [processGroup]) fun answer =>
      if answer.1.toOption = some true then pure true
      else
        match identity with
        | some i => do
          if ← forceKillWorkerSession process (some i.startTicks) session answer.2 then pure true else refuse
        | none => refuse
  else
    match identity with
    | none => do
      -- The leader can end between the two polls.
      if ← ask (.polled process) then
        after (sessionIsDrained session [processGroup]) fun answer =>
          if answer.1.toOption = some true then pure true else refuse
      else refuse
    | some i =>
      if i.processGroup ≠ i.pid || i.sessionId ≠ i.pid then refuse
      else (stopSession process i.startTicks processGroup session).orReturn refuse

/-- The record of a process that was stopped, if it got as far as to have one. -/
def removeSpawned : Option ProcessIdentity → Routine Bool
  | some i => compareAndDelete i.pid (some i.startTicks) (.number i.processGroup) (.number i.sessionId)
  | none => pure false

/-- `_finish_spawn_cleanup` -/
def finishSpawnCleanup (process : Pid) (identity : Option ProcessIdentity) : Routine Bool := do
  let stopped ← stopSpawnedProcess process identity
  let _ ← (if stopped then removeSpawned identity else pure false)
  let _ ← ask .shield
  pure stopped

/-! ### Recorded sessions -/

/-- `_delete_stopped_process_map` -/
def deleteStoppedProcessMap (pid : Pid) (record : Record) : Routine Bool := do
  if ← compareAndDelete pid record.startTicks record.processGroup record.sessionId then pure true
  else do
    let current ← hgetall
    pure current.isNone

/-- The session is drained: what goes wrong from here on does not latch the GPU. -/
def containmentProven (pid : Pid) (record : Record) : Routine Bool :=
  (deleteStoppedProcessMap pid record).orReturn (pure false)

/-- The leader has gone, and the rest of its session has to. -/
def drainAfterLeader (pid : Pid) (startTicks : Option ℕ) (record : Record) : Routine Bool := do
  let look ← lookOnce (sessionIsDrained pid) [pid]
  if look.1 then containmentProven pid record
  else do
    if ← forceKillWorkerSession pid startTicks pid look.2 then containmentProven pid record else refuse

/-- `_kill_worker_process` from where the start time of the recorded leader is known. -/
def killAuthenticated (pid : Pid) (startTicks : ℕ) (record : Record) : Routine Bool :=
  after (verifiedProcessIdentity pid (some startTicks)) fun
    | .error .mismatch => do
      -- The process can end between the two looks at it; nothing is signalled then.
      let waited ← waitForSessionDrain (sessionIsDrained pid) [pid]
      if waited.1 then containmentProven pid record else raise .mismatch
    | .error e => raise e
    | .ok none => drainAfterLeader pid (some startTicks) record
    | .ok (some identity) =>
      if identity.processGroup ≠ pid then raise .mismatch
      else if identity.sessionId ≠ pid then raise .mismatch
      else do
        let reaped ← (if identity.state = .zombie then reapExactZombie pid (some startTicks) else pure false)
        if reaped then drainAfterLeader pid (some startTicks) record
        else do
          if ← stopSession pid startTicks pid pid then containmentProven pid record else pure false

/-- `_kill_worker_process` for a record that names a session. -/
def killRecorded (pid : Pid) (record : Record) (expectedStartTicks : Option ℕ) : Routine Bool := do
  let child ← retained
  let identity := (child.bind Child.identity).filter fun i => i.pid = pid
  let startTicks := (expectedStartTicks.or record.startTicks).or (identity.map ProcessIdentity.startTicks)
  match ← readProcessIdentity pid with
  | none => drainAfterLeader pid startTicks record
  | some identity =>
    match startTicks with
    | some startTicks => killAuthenticated pid startTicks record
    | none => do
      if identity.state = .zombie then refuse
      else if ← ask (.cmdlineMatches pid) then killAuthenticated pid identity.startTicks record
      else refuse

/-- `_kill_worker_process` without a record. -/
def killUnrecorded (expectedPid : Option ℤ) : Routine Bool := do
  match ← retained with
  | none => pure (expectedPid = none || expectedPid = some 0)
  | some child =>
    match child.identity with
    | none => finishSpawnCleanup child.pid none
    | some i => do
      if ← ask (.polled child.pid) then do
        let look ← lookOnce (sessionIsDrained i.sessionId) [i.processGroup]
        if look.1 then pure true
        else do
          if ← forceKillWorkerSession i.pid (some i.startTicks) i.sessionId look.2 then pure true else refuse
      else stopSpawnedProcess child.pid (some i)

/-- `_kill_worker_process` -/
def killWorkerProcess (expectedPid : Option ℤ) (expectedStartTicks : Option ℕ) : Routine Bool :=
  Routine.orReturn (do
    match ← hgetall with
    | none => killUnrecorded expectedPid
    | some record =>
      match record.pid.toInt 0 with
      | none => refuse
      | some pid =>
        if pid ≤ 1 then refuse
        else if expectedPid.any (· ≠ pid) then pure false
        else if record.processGroup.toInt pid ≠ some pid || record.sessionId.toInt pid ≠ some pid then refuse
        else if expectedStartTicks.any fun t => record.startTicks.any (· ≠ t) then pure false
        else killRecorded pid.toNat record expectedStartTicks) refuse

/-- A process of the monitor that is not the recorded one. -/
def Child.differs (pid : Pid) (startTicks : ℕ) (c : Child) : Bool :=
  c.pid ≠ pid || c.identity.all fun i =>
    i.pid ≠ pid || i.startTicks ≠ startTicks || i.processGroup ≠ pid || i.sessionId ≠ pid

/-- The leader has gone, or is a zombie, which is reaped. -/
def reconcileLeader (pid : Pid) (startTicks : ℕ) : Routine Bool := do
  match ← verifiedProcessIdentity pid (some startTicks) with
  | none => pure true
  | some identity =>
    if identity.processGroup ≠ pid || identity.sessionId ≠ pid then raise .mismatch
    else if identity.state ≠ .zombie then raise .failure
    else reapExactZombie pid (some startTicks)

/-- `reconcile_recorded_process_generation` for a complete record. -/
def reconcileRecord (pid : Pid) (startTicks : ℕ) : Routine Bool := do
  let child ← retained
  if child.any (Child.differs pid startTicks) then raise .mismatch
  else do
    let _ ← reconcileLeader pid startTicks
    let look ← lookOnce (sessionIsDrained pid) [pid]
    if look.1 then do
      let identity ← verifiedProcessIdentity pid (some startTicks)
      if identity.any fun m => m.state ≠ .zombie || m.processGroup ≠ pid || m.sessionId ≠ pid then raise .mismatch
      else compareAndDelete pid (some startTicks) (.number pid) (.number pid)
    else raise .failure

/-- `reconcile_recorded_process_generation` -/
def reconcileRecordedProcessGeneration : Routine Bool :=
  Routine.orReturn (do
    match ← hgetall with
    | none => pure true
    | some record =>
      if ← ask .ownedHere then
        match record.pid, record.startTicks with
        | .number pid, some startTicks =>
          if pid ≤ 1 || record.processGroup ≠ .number pid || record.sessionId ≠ .number pid || startTicks = 0 then
            raise .mismatch
          else reconcileRecord pid.toNat startTicks
        | _, _ => raise .failure
      else raise .mismatch) (pure false)

/-! ### Restarts -/

/-- What a restart request remembers of the process that was observed. -/
structure Request where
  pid : ℤ
  startTicks : Option ℕ
  processGroup : ℤ
  sessionId : ℤ
  replacementRequired : Bool

/-- `_restart_request_generation_is_current` -/
def restartRequestGenerationIsCurrent (request : Request) : Routine Bool := do
  let record ← hgetall
  match (record.elim .missing Record.pid).toInt 0 with
  | none => pure false
  | some pid =>
    if pid ≠ request.pid then pure false
    else if request.startTicks.any fun t => (record.bind Record.startTicks).any (· ≠ t) then pure false
    else do
      let identity ← (if pid = 0 || request.startTicks.isNone then pure none else readProcessIdentity pid.toNat)
      if identity.any fun i => some i.startTicks ≠ request.startTicks then pure false
      else pure ((record.elim .missing Record.processGroup).toInt pid = some request.processGroup &&
        (record.elim .missing Record.sessionId).toInt pid = some request.sessionId)

/-- An exception while a started process is not yet handed over: it is stopped, and the restart has failed. -/
def rescue (process : Pid) (identity : Option ProcessIdentity) (p : Routine Bool) : Routine Bool :=
  p.orReturn do
    let _ ← finishSpawnCleanup process identity
    pure false

/-- `_restart_worker` from `subprocess.Popen` on. -/
def spawnReplacement : Routine Bool :=
  command .popen fun
    | .error e => raise e
    | .ok process => after (readProcessIdentity process) fun
      | .error e => rescue process none (raise e)
      | .ok none => rescue process none do
        let _ ← finishSpawnCleanup process none
        pure false
      | .ok (some identity) =>
        if identity.pid ≤ 1 || identity.processGroup ≠ identity.pid || identity.sessionId ≠ identity.pid then
          -- The registration raises, and the process is stopped before the exception goes on.
          rescue process (some identity) do
            let _ ← finishSpawnCleanup process (some identity)
            pure false
        else command (.register ⟨identity.pid, identity.startTicks⟩) fun
          | .error e => do
            let _ ← rescue process (some identity) (finishSpawnCleanup process (some identity))
            raise e
          | .ok false => rescue process (some identity) do
            let _ ← finishSpawnCleanup process (some identity)
            pure false
          | .ok true => after (ask .sleep) fun
            | .error e => do
              let _ ← rescue process (some identity) (finishSpawnCleanup process (some identity))
              raise e
            | .ok _ => rescue process (some identity) do
              if ← ask (.polled process) then do
                let _ ← finishSpawnCleanup process (some identity)
                pure false
              else pure true

/-- `_restart_worker`; `none` when the request is obsolete. -/
def restartWorker (request : Option Request) : Routine (Option Bool) :=
  Routine.orReturn (do
    if ← ask .quarantined then pure (some false)
    else do
      let current ← request.elim (pure true) restartRequestGenerationIsCurrent
      if current then do
        let recovered ← (if request.any Request.replacementRequired then pure false else ask .admissionOpen)
        if recovered then pure none
        else if ← killWorkerProcess (request.map Request.pid) (request.bind Request.startTicks) then do
          let _ ← ask .sleep
          if ← ask .quarantined then pure (some false)
          else do
            let spawned ← spawnReplacement
            pure (some spawned)
        else pure (some false)
      else pure none) (pure (some false))

end KernelGym.WorkerSession
