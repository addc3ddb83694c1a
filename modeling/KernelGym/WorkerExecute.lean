import KernelGym.ResultChannel

/-! `PersistentWorker.execute_task`: the payload is put on the task queue, and the result is then awaited
until it comes, the worker dies, the task is cancelled or a deadline passes. -/

namespace KernelGym.Dispatch

/-- The fields of a `PersistentWorker` that the call reads and writes. -/
structure Worker where
  workerId : String
  isAliveFlag : Bool
  tasksProcessed : ℕ
  maxTasksPerWorker : ℕ
  deriving DecidableEq, Repr

/-- The arguments of a call, with the task's id. -/
structure Task where
  taskId : String
  timeout : ℚ
  correctnessTimeout : Option ℚ

/-- What `self.task_queue.put(task_data, timeout=5)` does; only `buffered` takes the payload. -/
inductive PutOutcome
  | buffered
  | full
  | raised (e : Raised)
  deriving DecidableEq, Repr

/-- What one round of the waiting loop observes. -/
structure Poll where
  cancelSet : Bool
  now : ℚ
  stageDone : Bool
  received : Received
  /-- `self.process is not None and not self.process.is_alive()` -/
  processExited : Bool
  /-- What the last read brings after the process has exited. -/
  drained : Received
  exitcode : String
  stderrTail : String

/-- Everything outside the parent that a call meets. -/
structure Surroundings where
  processAlive : Bool
  put : PutOutcome
  start : ℚ
  polls : List Poll

inductive Ending
  /-- The loop still waits after the rounds that are given. -/
  | waiting
  | returned (result : Payload)
  | raised (e : Raised)

/-- A call of `execute_task`: whether the payload went on the queue, how the call ended and the worker then. -/
structure Execution where
  put : Bool
  ending : Ending
  worker : Worker

def crashResult (w : Worker) (t : Task) (p : Poll) (reason : String) : Payload :=
  [("success", .bool false), ("error_type", .str "WorkerProcessCrashed"),
    ("error_message", .str ("Worker " ++ w.workerId ++ " subprocess became unavailable (exitcode=" ++
      p.exitcode ++ ") during task " ++ t.taskId ++ " before returning a result (" ++ reason ++
      "); likely a native crash in the evaluated kernel or an early process exit" ++
      (if p.stderrTail = "" then "" else ". Subprocess stderr tail:\n" ++ p.stderrTail))),
    ("stderr_tail", .str p.stderrTail), ("worker_exiting", .bool true), ("crashed", .bool true),
    ("fault_severity", .str "device"), ("device_suspect", .bool true)]

def Worker.die (w : Worker) : Worker := { w with isAliveFlag := false }

/-- The prefix of every error text of the worker. -/
def Worker.tag (w : Worker) : String := "[" ++ w.workerId ++ "] "

def taskCancelledError (text : String) : Raised := ⟨.taskCancelled, "TaskCancelledError", text⟩

/-- The budget of the correctness stage, where it is enforced: `corr_enforced`. -/
def Task.enforced (t : Task) : Option ℚ :=
  t.correctnessTimeout.filter fun c => c ≠ 0 ∧ c < t.timeout

/-- The round after a cancellation or a deadline: `none` when the loop goes on to read the channel. -/
def interrupt (u : Interpreter) (w : Worker) (t : Task) (start : ℚ) (corrDone : Bool) (p : Poll) :
    Option Raised :=
  let budget := t.enforced.getD t.timeout
  if p.cancelSet then some (taskCancelledError (w.tag ++ "Task " ++ t.taskId ++ " cancelled"))
  else if start + (if corrDone then t.timeout else budget) - p.now ≤ 0 then
    some ⟨.timeoutError, "TimeoutError",
      if corrDone then
        w.tag ++ "Task " ++ t.taskId ++ " timeout after " ++ u.seconds t.timeout ++ "s"
      else
        w.tag ++ "Task " ++ t.taskId ++ " correctness stage timeout after " ++ u.rounded budget ++ "s"⟩
  else none

/-- The read of one round: the worker's state and the ending, or `none` when nothing has come. -/
def readRound (u : Interpreter) (w : Worker) (t : Task) (p : Poll) : Option (Worker × Ending) :=
  match getTaskResult u p.received with
  | .ok result => some (w, .returned result)
  | .error e =>
    if e.kind = .queueEmpty then
      if p.processExited then
        match getTaskResult u p.drained with
        | .ok result => some (w, .returned result)
        | .error e' =>
          if e'.kind = .queueEmpty ∨ e'.kind = .channelClosed then
            some (w.die, .returned (crashResult w t p "process exited and the result pipe drained"))
          else some (w, .raised e')
      else none
    else if e.kind = .channelClosed then
      some (w.die, .returned (crashResult w t p "result channel reached EOF"))
    else some (w, .raised e)

/-- The waiting loop, with `corr_done` and `last_stage_check`. -/
def await (u : Interpreter) (w : Worker) (t : Task) (start : ℚ) :
    (corrDone : Bool) → (lastStageCheck : ℚ) → List Poll → Worker × Ending
  | _, _, [] => (w, .waiting)
  | corrDone, lastStageCheck, p :: rest =>
    let checked := !p.cancelSet && !corrDone && decide (1 ≤ p.now - lastStageCheck)
    let corrDone := corrDone || (checked && p.stageDone)
    match interrupt u w t start corrDone p with
    | some e => (w.die, .raised e)
    | none =>
      (readRound u w t p).getD
        (await u w t start corrDone (if checked then p.now else lastStageCheck) rest)

/-- The statistics and the flag after a result. -/
def Worker.account (w : Worker) (result : Payload) : Worker :=
  let exiting := match result.get "worker_exiting" with | .bool true => true | _ => false
  let processed := w.tasksProcessed + 1
  { w with
    isAliveFlag := w.isAliveFlag && !exiting && decide (processed < w.maxTasksPerWorker)
    tasksProcessed := processed }

/-- `PersistentWorker.execute_task` -/
def Worker.executeTask (u : Interpreter) (w : Worker) (t : Task) (s : Surroundings) : Execution :=
  if !(w.isAliveFlag && s.processAlive) then
    ⟨false, .raised ⟨.runtimeError, "RuntimeError", w.tag ++ "Worker is not alive"⟩, w⟩
  else match s.put with
    | .full => ⟨false, .raised ⟨.runtimeError, "RuntimeError", w.tag ++ "Task queue is full"⟩, w⟩
    | .raised e => ⟨false, .raised e, w⟩
    | .buffered =>
      match await u w t s.start t.enforced.isNone 0 s.polls with
      | (w', .returned result) => ⟨true, .returned result, w'.account result⟩
      | (w', ending) => ⟨true, ending, w'⟩

/-! ### The errors of a call whose payload was put -/

/-- `e` is what the decoder raises over a message that one of the rounds reads, beside the errors it
declares. -/
def DecoderRaises (u : Interpreter) (polls : List Poll) (e : Raised) : Prop :=
  ∃ p ∈ polls, ∃ encoded,
    (p.received = .message encoded ∨ p.drained = .message encoded) ∧ u.loads encoded = .raised e

/-- An error after the payload was put: a cancellation, a deadline, a recognised violation of the protocol, or
one that the decoder lets out. -/
def AfterPut (u : Interpreter) (polls : List Poll) (e : Raised) : Prop :=
  e.kind = .taskCancelled ∨ e.kind = .timeoutError ∨ e.Protocol ∨ DecoderRaises u polls e

theorem interrupt_kind {u : Interpreter} {w : Worker} {t : Task} {start : ℚ} {corrDone : Bool} {p : Poll}
    {e : Raised} (h : interrupt u w t start corrDone p = some e) :
    e.kind = .taskCancelled ∨ e.kind = .timeoutError := by
  unfold interrupt at h
  by_cases hcancel : p.cancelSet
  · simp only [hcancel, if_true] at h
    cases h
    exact .inl rfl
  · simp only [hcancel, if_false, Bool.false_eq_true, Option.ite_none_right_eq_some] at h
    obtain ⟨-, h⟩ := h
    cases h
    exact .inr rfl

theorem readRound_raised {u : Interpreter} {w w' : Worker} {t : Task} {p : Poll} {e : Raised}
    (h : readRound u w t p = some (w', .raised e)) : AfterPut u [p] e := by
  unfold readRound at h
  split at h
  · cases h
  · rename_i e₁ hread
    split at h
    · split at h
      · split at h
        · cases h
        · rename_i e₂ hdrain
          split at h
          · cases h
          · rename_i hkind
            obtain ⟨rfl, rfl⟩ : w = w' ∧ e₂ = e := by simpa using h
            rw [not_or] at hkind
            obtain hempty | rfl | hprotocol | ⟨encoded, hreceived, hloads⟩ := getMessage_error hdrain
            · exact absurd hempty hkind.1
            · exact absurd rfl hkind.2
            · exact .inr (.inr (.inl hprotocol))
            · exact .inr (.inr (.inr ⟨p, List.mem_singleton.2 rfl, encoded, .inr hreceived, hloads⟩))
      · cases h
    · rename_i hempty
      split at h
      · cases h
      · rename_i hclosed
        obtain ⟨rfl, rfl⟩ : w = w' ∧ e₁ = e := by simpa using h
        obtain hempty' | rfl | hprotocol | ⟨encoded, hreceived, hloads⟩ := getMessage_error hread
        · exact absurd hempty' hempty
        · exact absurd rfl hclosed
        · exact .inr (.inr (.inl hprotocol))
        · exact .inr (.inr (.inr ⟨p, List.mem_singleton.2 rfl, encoded, .inl hreceived, hloads⟩))

theorem readRound_of_error {u : Interpreter} {w : Worker} {t : Task} {p : Poll} {e : Raised}
    (h : getTaskResult u p.received = .error e) (hempty : e.kind ≠ .queueEmpty)
    (hclosed : e.kind ≠ .channelClosed) : readRound u w t p = some (w, .raised e) := by
  unfold readRound
  rw [h]
  dsimp only
  rw [if_neg hempty, if_neg hclosed]

theorem AfterPut.mono {u : Interpreter} {polls polls' : List Poll} {e : Raised} (h : AfterPut u polls e)
    (hsub : polls ⊆ polls') : AfterPut u polls' e := by
  obtain hkind | hkind | hprotocol | ⟨p, hp, hrest⟩ := h
  · exact .inl hkind
  · exact .inr (.inl hkind)
  · exact .inr (.inr (.inl hprotocol))
  · exact .inr (.inr (.inr ⟨p, hsub hp, hrest⟩))

theorem await_raised {u : Interpreter} {w w' : Worker} {t : Task} {start : ℚ} {corrDone : Bool} {last : ℚ}
    {polls : List Poll} {e : Raised} (h : await u w t start corrDone last polls = (w', .raised e)) :
    AfterPut u polls e := by
  induction polls generalizing corrDone last with
  | nil => cases h
  | cons p rest ih =>
      simp only [await] at h
      split at h
      · rename_i e' hinterrupt
        cases h
        obtain hkind | hkind := interrupt_kind hinterrupt
        · exact .inl hkind
        · exact .inr (.inl hkind)
      · cases hround : readRound u w t p with
        | none =>
            rw [hround] at h
            exact (ih h).mono (List.subset_cons_self p rest)
        | some round =>
            rw [hround, Option.getD_some] at h
            subst h
            exact (readRound_raised hround).mono (by simp)

/-- **Every error of a call whose payload was put is a cancellation, a deadline, a recognised violation of the
protocol, or an error that the decoder lets out.** -/
theorem Worker.executeTask_raised {u : Interpreter} {w : Worker} {t : Task} {s : Surroundings} {e : Raised}
    (hput : (w.executeTask u t s).put) (h : (w.executeTask u t s).ending = .raised e) :
    AfterPut u s.polls e := by
  unfold Worker.executeTask at hput h
  split at h
  · rename_i hdead
    simp [hdead] at hput
  · rename_i halive
    rw [if_neg halive] at hput
    cases hqueue : s.put with
    | full => simp [hqueue] at hput
    | raised e' => simp [hqueue] at hput
    | buffered =>
        rw [hqueue] at h
        rcases hawait : await u w t s.start t.enforced.isNone 0 s.polls with ⟨w', ending⟩
        rw [hawait] at h
        cases ending with
        | returned result => cases h
        | waiting => cases h
        | raised e' =>
            cases h
            exact await_raised hawait

/-- The payload is put exactly when the worker is alive and the queue takes it. -/
theorem Worker.executeTask_put_iff {u : Interpreter} {w : Worker} {t : Task} {s : Surroundings} :
    (w.executeTask u t s).put ↔ w.isAliveFlag ∧ s.processAlive ∧ s.put = .buffered := by
  unfold Worker.executeTask
  cases hflag : w.isAliveFlag <;> cases halive : s.processAlive <;> cases hqueue : s.put <;>
    simp only [Bool.and_self, Bool.and_true, Bool.and_false, Bool.not_true, Bool.not_false, if_true,
      Bool.false_eq_true, if_false, false_and, and_false, true_and, reduceCtorEq]
  rcases await u w t s.start t.enforced.isNone 0 s.polls with ⟨w', ending⟩
  cases ending <;> simp

end KernelGym.Dispatch
