import KernelGym.WorkerExecute

/-! `SubprocessWorkerPool.execute_task`: one call tries workers until a result, an error or the last retry. A
payload may reach a worker's task queue once; a retry is safe when the put before it has failed. -/

namespace KernelGym.Dispatch

/-- What `_begin_context_fault_validation` answers. -/
inductive Validation
  | staleHardRecoveryEpoch
  | none
  | generation (g : ℤ)
  deriving DecidableEq, Repr

/-- What the recovery steps of the pool do when one part of the call uses them. -/
structure Recovery where
  /-- The process of the worker is alive when `worker.is_alive()` is asked. -/
  processAlive : Bool
  beginValidation : Except Raised Validation
  recoverFromDeviceFault : Except Raised Unit
  restartWorker : Except Raised Unit

/-- What awaiting `run_in_executor` gives: the ending of the worker's call, or an error of its own, after which
the worker's call may still run unobserved. -/
inductive Awaited
  | observed
  | raised (e : Raised) (runs : Bool)

/-- Everything that one round of the retry loop meets. -/
structure Attempt where
  cancelSet : Bool
  getIdleWorker : Except Raised (Option Worker)
  /-- `asyncio.sleep(0.5)` -/
  sleep : Except Raised Unit
  surroundings : Surroundings
  awaited : Awaited
  /-- The steps after a result and those of the exception handlers. -/
  afterResult : Recovery
  afterError : Recovery
  /-- `_return_worker`, and whether the caller was cancelled meanwhile. -/
  returnWorker : Except Raised Bool

/-- How a round ends. -/
inductive Next
  | waiting
  | returned (result : Payload)
  | raised (e : Raised)
  /-- `break`, with `is_timeout_error` and the last error. -/
  | stop (isTimeoutError : Bool) (lastError : Raised)
  /-- The loop goes round, with the new `last_error` if there is one. -/
  | retry (lastError : Option Raised)

def Raised.isRuntimeOrTimeout (e : Raised) : Bool :=
  e.kind = .runtimeError || e.kind = .channelClosed || e.kind = .timeoutError

def Raised.isException (e : Raised) : Bool := e.kind ≠ .cancelled && e.kind ≠ .baseException

def cancelledError : Raised := ⟨.cancelled, "CancelledError", ""⟩

/-- `result[key] = value` -/
def Payload.set (p : Payload) (key : String) (v : Value) : Payload :=
  if p.any (·.1 = key) then p.map fun entry => if entry.1 = key then (key, v) else entry
  else p ++ [(key, v)]

/-- `str(result.get(key) or default)` -/
def Payload.textOr (u : Interpreter) (p : Payload) (key default : String) : String :=
  if (p.get key).truthy then u.str (p.get key) else default

/-- The severity of a result: the stronger one of the child's and the parent's own. -/
def resultSeverity (u : Interpreter) (result : Payload) : FaultSeverity :=
  let finalSyncFailed := match result.get "final_sync_failed" with | .bool true => true | _ => false
  strongestCudaFault (.ofText (result.textOr u "fault_severity" "none"))
    (classifyCudaFault u (result.textOr u "error_type" "") (result.textOr u "error_message" "")
      finalSyncFailed)

/-- The ways out of a context fault. -/
def Recovery.containContextFault (r : Recovery) : Except Raised Bool :=
  match r.beginValidation with
  | .error e => .error e
  | .ok (.generation _) => r.restartWorker.map fun _ => false
  | .ok _ => r.recoverFromDeviceFault.map fun _ => true

/-- The step that answers a fault of each severity; `true` when hard recovery has taken over. -/
def Recovery.contain (r : Recovery) : FaultSeverity → Except Raised Bool
  | .device => r.recoverFromDeviceFault.map fun _ => true
  | .context => r.containContextFault
  | .none => r.restartWorker.map fun _ => false

/-- What follows a result before it is returned: a worker without a fault is kept while it is alive. -/
def publish (u : Interpreter) (r : Recovery) (w : Worker) (result : Payload) : Next :=
  let severity := resultSeverity u result
  let kept := severity = .none ∧ w.isAliveFlag ∧ r.processAlive
  match if kept then .ok false else r.contain severity with
  | .error e => .raised e
  | .ok _ => .returned (result.set "fault_severity" (.str severity.text))

/-- `exception_severity` -/
def exceptionSeverity (u : Interpreter) (r : Recovery) (w : Worker) (e : Raised) : FaultSeverity :=
  let severity := classifyCudaFault u e.name e.text false
  if e.kind = .timeoutError || (severity = .none && !(w.isAliveFlag && r.processAlive)) then .device
  else severity

def Raised.isTimeout (u : Interpreter) (e : Raised) : Bool :=
  occursIn "timeout" (u.lower e.text) || occursIn "Task timeout after" e.text.toList

/-- The handler of `(RuntimeError, TimeoutError)`. -/
def handleRuntimeError (u : Interpreter) (r : Recovery) (w : Worker) (e : Raised) : Next :=
  match r.contain (exceptionSeverity u r w e) with
  | .error e' => .raised e'
  | .ok terminalDeviceFault =>
    if e.isTimeout u then .stop true e else if terminalDeviceFault then .stop false e
    else .retry (some e)

/-- The exception handlers of one round. -/
def handle (u : Interpreter) (r : Recovery) (w : Worker) (e : Raised) : Next :=
  if e.kind = .containment then .raised e
  else if e.kind = .taskCancelled ∨ e.kind = .cancelled then
    match r.recoverFromDeviceFault with
    | .error e' => .raised e'
    | .ok _ => .raised e
  else if e.isRuntimeOrTimeout then handleRuntimeError u r w e
  else if e.isException then
    match r.recoverFromDeviceFault with
    | .error e' => .raised e'
    | .ok _ => .stop false e
  else .raised e

/-- The `finally` clause, which returns the worker to the pool. -/
def finallyReturn (returned : Except Raised Bool) : Next → Next
  | .waiting => .waiting
  | .raised primary =>
    match returned with
    | .error e =>
      if primary.kind ≠ .containment ∧ e.kind = .containment then .raised e else .raised primary
    | .ok cancellationRequested =>
      if cancellationRequested ∧ primary.kind ≠ .containment then .raised cancelledError
      else .raised primary
  | next =>
    match returned with
    | .error e => if e.kind = .containment ∨ !e.isException then .raised e else next
    | .ok cancellationRequested => if cancellationRequested then .raised cancelledError else next

/-- The `try` statement of one round, on the worker's call. -/
def tryExecute (u : Interpreter) (a : Attempt) (w : Worker) (x : Execution) : Next :=
  match a.awaited with
  | .raised e _ =>
    handle u a.afterError (if e.kind = .cancelled then w.die else w) e
  | .observed =>
    match x.ending with
    | .waiting => .waiting
    | .raised e => handle u a.afterError x.worker e
    | .returned result =>
      match publish u a.afterResult x.worker result with
      | .raised e => handle u a.afterError x.worker e
      | next => next

/-- One round of the retry loop: whether the payload went on a task queue, and how the round ends. -/
def attempt (u : Interpreter) (deviceId : String) (t : Task) (a : Attempt) : Bool × Next :=
  if a.cancelSet then
    (false, .raised
      (taskCancelledError ("[GPU " ++ deviceId ++ "] Task " ++ t.taskId ++ " cancelled before dispatch")))
  else match a.getIdleWorker with
    | .error e => (false, .raised e)
    | .ok none =>
      match a.sleep with
      | .error e => (false, .raised e)
      | .ok _ => (false, .retry none)
    | .ok (some w) =>
      let x := w.executeTask u t a.surroundings
      let runs := match a.awaited with | .raised _ runs => runs | .observed => true
      (runs && x.put, finallyReturn a.returnWorker (tryExecute u a w x))

inductive Outcome
  | waiting
  | returned (result : Payload)
  | raised (e : Raised)

/-- A call of `execute_task`: for each round whether it put the payload on a task queue, and the outcome. -/
structure Call where
  sent : List Bool
  outcome : Outcome

/-- The error after a `break`. -/
def stopError (u : Interpreter) (deviceId : String) (t : Task) (isTimeoutError : Bool) (lastError : Raised) :
    Raised :=
  if isTimeoutError then
    ⟨.timeoutError, "TimeoutError", "[GPU " ++ deviceId ++ "] Task " ++ t.taskId ++ " timeout after " ++
      u.seconds t.timeout ++ "s. Not retried to avoid blocking worker queue."⟩
  else
    ⟨.runtimeError, "RuntimeError", "[GPU " ++ deviceId ++
      "] Task stopped after a device-level fault and was not retried. Last error: " ++ lastError.text⟩

/-- The error when every retry is used up. -/
def exhaustedError (deviceId : String) (maxRetries : ℤ) (lastError : Option Raised) : Raised :=
  ⟨.runtimeError, "RuntimeError", "[GPU " ++ deviceId ++ "] Task failed after " ++ toString maxRetries ++
    " retries. Last error: " ++ (lastError.map (·.text)).getD "None"⟩

section Loop

variable (u : Interpreter) (deviceId : String) (t : Task) (maxRetries : ℤ) (rounds : ℕ → Attempt)

/-- The retry loop from round `i` on, with the rounds that remain and `last_error`. -/
def retryLoop : (remaining i : ℕ) → (lastError : Option Raised) → Call
  | 0, _, lastError => ⟨[], .raised (exhaustedError deviceId maxRetries lastError)⟩
  | remaining + 1, i, lastError =>
    match attempt u deviceId t (rounds i) with
    | (sent, .retry e) =>
      let rest := retryLoop remaining (i + 1) (e.or lastError)
      ⟨sent :: rest.sent, rest.outcome⟩
    | (sent, .waiting) => ⟨[sent], .waiting⟩
    | (sent, .returned result) => ⟨[sent], .returned result⟩
    | (sent, .raised e) => ⟨[sent], .raised e⟩
    | (sent, .stop isTimeoutError e) => ⟨[sent], .raised (stopError u deviceId t isTimeoutError e)⟩

/-- `execute_task` with `max_retries`. -/
def executeTask : Call := retryLoop u deviceId t maxRetries rounds (maxRetries + 1).toNat 0 none

end Loop

/-- The payload goes on a task queue at most once, and no round follows one that has put it there. -/
def DispatchedOnce (c : Call) : Prop := c.sent.count true ≤ 1 ∧ ∀ sent ∈ c.sent.dropLast, sent = false

/-! ### Rounds that replay the payload -/

/-- The retry branch takes `e`: no timeout, and either no CUDA fault of a worker that is still alive or a
context fault whose validation begins; the worker is then restarted. -/
def Recovery.Retries (u : Interpreter) (r : Recovery) (w : Worker) (e : Raised) : Prop :=
  (e.kind = .runtimeError ∨ e.kind = .channelClosed) ∧ ¬e.isTimeout u ∧ r.restartWorker = .ok () ∧
    (classifyCudaFault u e.name e.text false = .none ∧ w.isAliveFlag ∧ r.processAlive ∨
      classifyCudaFault u e.name e.text false = .context ∧ ∃ g, r.beginValidation = .ok (.generation g))

/-- `_return_worker` lets a round that goes on go on. -/
def ReturnsQuietly (returned : Except Raised Bool) : Prop :=
  returned = .ok false ∨ ∃ e, returned = .error e ∧ e.kind ≠ .containment ∧ e.isException

/-- What can come out of the `try` statement after a put beside a cancellation, a timeout and a recognised
violation of the protocol: an error of the executor while the worker's call runs, one that the decoder lets
out, and one of the steps that follow a result. -/
inductive Attempt.LetsOut (u : Interpreter) (t : Task) (a : Attempt) (w : Worker) : Worker → Raised → Prop
  | executor (e : Raised) : a.awaited = .raised e true → LetsOut u t a w w e
  | decoder (e : Raised) : a.awaited = .observed → DecoderRaises u a.surroundings.polls e →
      (w.executeTask u t a.surroundings).ending = .raised e →
      LetsOut u t a w (w.executeTask u t a.surroundings).worker e
  | recovery (e : Raised) (result : Payload) : a.awaited = .observed →
      (w.executeTask u t a.surroundings).ending = .returned result →
      publish u a.afterResult (w.executeTask u t a.surroundings).worker result = .raised e →
      LetsOut u t a w (w.executeTask u t a.surroundings).worker e

/-- The round puts the payload on the queue of a live worker, and then takes the retry branch. -/
def Attempt.Replays (u : Interpreter) (t : Task) (a : Attempt) : Prop :=
  ¬a.cancelSet ∧ ReturnsQuietly a.returnWorker ∧
    ∃ w, a.getIdleWorker = .ok (some w) ∧
      w.isAliveFlag ∧ a.surroundings.processAlive ∧ a.surroundings.put = .buffered ∧
      ∃ w' e, a.LetsOut u t w w' e ∧ a.afterError.Retries u w' e

def Next.isRetry : Next → Bool
  | .retry _ => true
  | _ => false

theorem contain_false_iff {r : Recovery} {severity : FaultSeverity} :
    r.contain severity = .ok false ↔
      r.restartWorker = .ok () ∧
        (severity = .none ∨ severity = .context ∧ ∃ g, r.beginValidation = .ok (.generation g)) := by
  cases severity with
  | none => cases h : r.restartWorker <;> simp [Recovery.contain, Except.map, h]
  | device => cases h : r.recoverFromDeviceFault <;> simp [Recovery.contain, Except.map, h]
  | context =>
      simp only [Recovery.contain, Recovery.containContextFault]
      cases r.beginValidation with
      | error e => simp
      | ok v =>
          cases v with
          | generation g => cases r.restartWorker <;> simp [Except.map]
          | none | staleHardRecoveryEpoch => cases r.recoverFromDeviceFault <;> simp [Except.map]

theorem exceptionSeverity_none_iff {u : Interpreter} {r : Recovery} {w : Worker} {e : Raised} :
    exceptionSeverity u r w e = .none ↔
      e.kind ≠ .timeoutError ∧ classifyCudaFault u e.name e.text false = .none ∧ w.isAliveFlag ∧
        r.processAlive := by
  unfold exceptionSeverity
  by_cases htimeout : e.kind = .timeoutError
  · simp [htimeout]
  · cases classifyCudaFault u e.name e.text false <;> cases w.isAliveFlag <;> cases r.processAlive <;>
      simp [htimeout]

theorem exceptionSeverity_context_iff {u : Interpreter} {r : Recovery} {w : Worker} {e : Raised} :
    exceptionSeverity u r w e = .context ↔
      e.kind ≠ .timeoutError ∧ classifyCudaFault u e.name e.text false = .context := by
  unfold exceptionSeverity
  by_cases htimeout : e.kind = .timeoutError
  · simp [htimeout]
  · cases classifyCudaFault u e.name e.text false <;> cases w.isAliveFlag <;> cases r.processAlive <;>
      simp [htimeout]

theorem handleRuntimeError_isRetry_iff_contain {u : Interpreter} {r : Recovery} {w : Worker} {e : Raised} :
    (handleRuntimeError u r w e).isRetry ↔
      r.contain (exceptionSeverity u r w e) = .ok false ∧ ¬e.isTimeout u := by
  unfold handleRuntimeError
  cases r.contain (exceptionSeverity u r w e) with
  | error e' => simp [Next.isRetry]
  | ok terminalDeviceFault =>
      cases e.isTimeout u <;> cases terminalDeviceFault <;> simp [Next.isRetry]

theorem handleRuntimeError_isRetry_iff {u : Interpreter} {r : Recovery} {w : Worker} {e : Raised}
    (hkind : e.isRuntimeOrTimeout) : (handleRuntimeError u r w e).isRetry ↔ r.Retries u w e := by
  have hkind' : (e.kind = .runtimeError ∨ e.kind = .channelClosed) ↔ e.kind ≠ .timeoutError := by
    unfold Raised.isRuntimeOrTimeout at hkind
    cases hk : e.kind <;> simp [hk] at hkind ⊢
  rw [handleRuntimeError_isRetry_iff_contain, contain_false_iff, exceptionSeverity_none_iff,
    exceptionSeverity_context_iff, Recovery.Retries, hkind']
  constructor
  · rintro ⟨⟨hrestart, hseverity⟩, htimeout⟩
    obtain ⟨hk, hnone, halive⟩ | ⟨⟨hk, hcontext⟩, hbegins⟩ := hseverity
    · exact ⟨hk, htimeout, hrestart, .inl ⟨hnone, halive⟩⟩
    · exact ⟨hk, htimeout, hrestart, .inr ⟨hcontext, hbegins⟩⟩
  · rintro ⟨hk, htimeout, hrestart, hseverity⟩
    obtain ⟨hnone, halive⟩ | ⟨hcontext, hbegins⟩ := hseverity
    · exact ⟨⟨hrestart, .inl ⟨hk, hnone, halive⟩⟩, htimeout⟩
    · exact ⟨⟨hrestart, .inr ⟨⟨hk, hcontext⟩, hbegins⟩⟩, htimeout⟩

theorem handle_isRetry_iff {u : Interpreter} {r : Recovery} {w : Worker} {e : Raised} :
    (handle u r w e).isRetry ↔ r.Retries u w e := by
  by_cases hkind : e.isRuntimeOrTimeout
  · have h₁ : e.kind ≠ .containment := by rintro h; simp [Raised.isRuntimeOrTimeout, h] at hkind
    have h₂ : ¬(e.kind = .taskCancelled ∨ e.kind = .cancelled) := by
      rintro (h | h) <;> simp [Raised.isRuntimeOrTimeout, h] at hkind
    rw [handle, if_neg h₁, if_neg h₂, if_pos hkind]
    exact handleRuntimeError_isRetry_iff hkind
  · have hnot : ¬r.Retries u w e := by
      rintro ⟨h | h, -⟩ <;> simp [Raised.isRuntimeOrTimeout, h] at hkind
    unfold handle
    split
    · simpa [Next.isRetry] using hnot
    · split
      · cases r.recoverFromDeviceFault <;> simpa [Next.isRetry] using hnot
      · split
        · cases r.recoverFromDeviceFault <;> simpa [Next.isRetry] using hnot
        · simpa [Next.isRetry] using hnot

theorem finallyReturn_isRetry_iff {returned : Except Raised Bool} {next : Next} :
    (finallyReturn returned next).isRetry ↔ next.isRetry ∧ ReturnsQuietly returned := by
  unfold ReturnsQuietly
  cases next with
  | waiting => simp [finallyReturn, Next.isRetry]
  | raised primary =>
      cases returned <;> simp only [finallyReturn] <;> split <;> simp [Next.isRetry]
  | returned result =>
      cases returned <;> simp only [finallyReturn] <;> split <;> simp [Next.isRetry]
  | stop isTimeoutError e =>
      cases returned <;> simp only [finallyReturn] <;> split <;> simp [Next.isRetry]
  | retry lastError =>
      cases returned with
      | error e =>
          by_cases h : e.kind = .containment ∨ !e.isException
          · simp only [finallyReturn, if_pos h, Next.isRetry]
            simp at h ⊢
            tauto
          · simp only [finallyReturn, if_neg h, Next.isRetry]
            simp at h ⊢
            tauto
      | ok cancellationRequested => cases cancellationRequested <;> simp [finallyReturn, Next.isRetry]

/-- After a put, the errors that the handlers end the call with never take the retry branch. -/
theorem AfterPut.decoder_of_retries {u : Interpreter} {polls : List Poll} {r : Recovery} {w : Worker}
    {e : Raised} (h : AfterPut u polls e) (hretries : r.Retries u w e) : DecoderRaises u polls e := by
  obtain ⟨hkind, -, -, hseverity⟩ := hretries
  obtain hcancelled | htimeout | ⟨text, rfl⟩ | hdecoder := h
  · simp [hcancelled] at hkind
  · simp [htimeout] at hkind
  · have hdevice := classifyCudaFault_protocol u text false
    simp [ipcProtocolError, hdevice] at hseverity
  · exact hdecoder

theorem publish_cases (u : Interpreter) (r : Recovery) (w : Worker) (result : Payload) :
    (∃ e, publish u r w result = .raised e) ∨ ∃ result', publish u r w result = .returned result' := by
  unfold publish
  dsimp only
  split
  · exact .inl ⟨_, rfl⟩
  · exact .inr ⟨_, rfl⟩

/-- A round whose payload was put takes the retry branch exactly when one of the errors that are let out
leads into it. -/
theorem tryExecute_isRetry_iff {u : Interpreter} {t : Task} {a : Attempt} {w : Worker}
    (hput : (w.executeTask u t a.surroundings).put)
    (hruns : ∀ e, a.awaited ≠ .raised e false) :
    (tryExecute u a w (w.executeTask u t a.surroundings)).isRetry ↔
      ∃ w' e, a.LetsOut u t w w' e ∧ a.afterError.Retries u w' e := by
  cases hawaited : a.awaited with
  | raised e runs =>
      obtain rfl : runs = true := by
        cases runs with
        | true => rfl
        | false => exact absurd hawaited (hruns e)
      simp only [tryExecute, hawaited, handle_isRetry_iff]
      constructor
      · intro h
        have hkind : e.kind ≠ .cancelled := by rintro h'; obtain ⟨h'' | h'', -⟩ := h <;> simp [h'] at h''
        rw [if_neg hkind] at h
        exact ⟨w, e, .executor e hawaited, h⟩
      · rintro ⟨w', e', hout, h⟩
        cases hout with
        | executor _ h' =>
            cases hawaited.symm.trans h'
            have hkind : e.kind ≠ .cancelled := by rintro h'; obtain ⟨h'' | h'', -⟩ := h <;> simp [h'] at h''
            rwa [if_neg hkind]
        | decoder _ h' => simp [hawaited] at h'
        | recovery _ _ h' => simp [hawaited] at h'
  | observed =>
      simp only [tryExecute, hawaited]
      cases hending : (w.executeTask u t a.surroundings).ending with
      | waiting =>
          constructor
          · intro h
            cases h
          · rintro ⟨w', e', hout, h⟩
            cases hout with
            | executor _ h' => simp [hawaited] at h'
            | decoder _ _ _ h' => simp [hending] at h'
            | recovery _ _ _ h' => simp [hending] at h'
      | raised e =>
          simp only [handle_isRetry_iff]
          constructor
          · intro h
            exact ⟨_, e, .decoder e hawaited
              ((Worker.executeTask_raised hput hending).decoder_of_retries h) hending, h⟩
          · rintro ⟨w', e', hout, h⟩
            cases hout with
            | executor _ h' => simp [hawaited] at h'
            | decoder _ _ _ h' =>
                cases hending.symm.trans h'
                exact h
            | recovery _ _ _ h' => simp [hending] at h'
      | returned result =>
          obtain ⟨e, hpublish⟩ | ⟨result', hpublish⟩ :=
            publish_cases u a.afterResult (w.executeTask u t a.surroundings).worker result
          · simp only [hpublish, handle_isRetry_iff]
            constructor
            · intro h
              exact ⟨_, e, .recovery e result hawaited hending hpublish, h⟩
            · rintro ⟨w', e', hout, h⟩
              cases hout with
              | executor _ h' => simp [hawaited] at h'
              | decoder _ _ _ h' => simp [hending] at h'
              | recovery _ _ _ h₁ h₂ =>
                  cases hending.symm.trans h₁
                  cases hpublish.symm.trans h₂
                  exact h
          · simp only [hpublish]
            constructor
            · intro h
              cases h
            · rintro ⟨w', e', hout, h⟩
              cases hout with
              | executor _ h' => simp [hawaited] at h'
              | decoder _ _ _ h' => simp [hending] at h'
              | recovery _ _ _ h₁ h₂ =>
                  cases hending.symm.trans h₁
                  cases hpublish.symm.trans h₂

theorem attempt_replays_iff {u : Interpreter} (deviceId : String) {t : Task} {a : Attempt} :
    (attempt u deviceId t a).1 = true ∧ (attempt u deviceId t a).2.isRetry ↔ a.Replays u t := by
  unfold attempt Attempt.Replays
  by_cases hcancel : a.cancelSet
  · simp [hcancel]
  · rw [if_neg hcancel]
    cases hidle : a.getIdleWorker with
    | error e => simp
    | ok idle =>
        cases idle with
        | none => cases a.sleep <;> simp
        | some w =>
            simp only [Bool.and_eq_true, finallyReturn_isRetry_iff]
            constructor
            · rintro ⟨⟨hruns, hput⟩, htry, hreturn⟩
              have hruns' : ∀ e, a.awaited ≠ .raised e false := by
                intro e h
                simp [h] at hruns
              obtain ⟨halive, hprocess, hqueue⟩ := Worker.executeTask_put_iff.1 hput
              exact ⟨hcancel, hreturn, w, rfl, halive, hprocess, hqueue,
                (tryExecute_isRetry_iff hput hruns').1 htry⟩
            · rintro ⟨-, hreturn, w', hw, halive, hprocess, hqueue, hout⟩
              cases hw
              have hput := Worker.executeTask_put_iff (u := u) (t := t) |>.2 ⟨halive, hprocess, hqueue⟩
              have hruns' : ∀ e, a.awaited ≠ .raised e false := by
                intro e h
                obtain ⟨w', e', hout, -⟩ := hout
                cases hout with
                | executor _ h' => simp [h] at h'
                | decoder _ h' => simp [h] at h'
                | recovery _ _ h' => simp [h] at h'
              have hruns : (match a.awaited with | .raised _ runs => runs | .observed => true) = true := by
                cases hawaited : a.awaited with
                | observed => rfl
                | raised e runs =>
                    cases runs with
                    | true => rfl
                    | false => exact absurd hawaited (hruns' e)
              exact ⟨⟨hruns, hput⟩, (tryExecute_isRetry_iff hput hruns').2 hout, hreturn⟩

/-! ### The loop -/

section Loop

/-- The round goes on to another one, unless it was the last. -/
def Attempt.GoesOn (u : Interpreter) (deviceId : String) (t : Task) (a : Attempt) : Prop :=
  (attempt u deviceId t a).2.isRetry

variable (u : Interpreter) (deviceId : String) (t : Task) (maxRetries : ℤ) (rounds : ℕ → Attempt)

theorem retryLoop_sent (remaining i : ℕ) (last : Option Raised) :
    ∃ rest, (retryLoop u deviceId t maxRetries rounds (remaining + 1) i last).sent =
      (attempt u deviceId t (rounds i)).1 :: rest ∧
      ((rounds i).GoesOn u deviceId t → ∃ last',
        rest = (retryLoop u deviceId t maxRetries rounds remaining (i + 1) last').sent) ∧
      (¬(rounds i).GoesOn u deviceId t → rest = []) := by
  unfold Attempt.GoesOn
  rw [retryLoop]
  rcases attempt u deviceId t (rounds i) with ⟨sent, next⟩
  cases next with
  | retry e => exact ⟨_, rfl, fun _ => ⟨_, rfl⟩, fun h => absurd rfl h⟩
  | waiting | returned | raised | stop => exact ⟨[], rfl, (nomatch ·), fun _ => rfl⟩

theorem retryLoop_sent_eq_nil_iff (remaining i : ℕ) (last : Option Raised) :
    (retryLoop u deviceId t maxRetries rounds remaining i last).sent = [] ↔ remaining = 0 := by
  cases remaining with
  | zero => simp [retryLoop]
  | succ remaining =>
      obtain ⟨rest, hsent, -⟩ := retryLoop_sent u deviceId t maxRetries rounds remaining i last
      simp [hsent]

/-- Only the last round has put the payload exactly when no reached round before it replays it. -/
theorem retryLoop_dropLast_iff (remaining i : ℕ) (last : Option Raised) :
    (∀ sent ∈ (retryLoop u deviceId t maxRetries rounds remaining i last).sent.dropLast, sent = false) ↔
      ∀ k, k + 1 < remaining → (∀ j < k, (rounds (i + j)).GoesOn u deviceId t) →
        ¬(rounds (i + k)).Replays u t := by
  induction remaining generalizing i last with
  | zero => simp [retryLoop]
  | succ remaining ih =>
      obtain ⟨rest, hsent, hon, hoff⟩ := retryLoop_sent u deviceId t maxRetries rounds remaining i last
      rw [hsent]
      by_cases hgoes : (rounds i).GoesOn u deviceId t
      · obtain ⟨last', rfl⟩ := hon hgoes
        cases remaining with
        | zero => simp [retryLoop]
        | succ remaining =>
            have hne : (retryLoop u deviceId t maxRetries rounds (remaining + 1) (i + 1) last').sent ≠ [] := by
              simp [retryLoop_sent_eq_nil_iff]
            rw [List.dropLast_cons_of_ne_nil hne, List.forall_mem_cons, ih (i + 1) last']
            constructor
            · rintro ⟨hfirst, hrest⟩ k hk hreached hreplays
              cases k with
              | zero =>
                  have := (attempt_replays_iff deviceId).2 hreplays
                  simp [hfirst] at this
              | succ k =>
                  refine hrest k (by omega) (fun j hj => ?_) (by simpa [Nat.add_assoc, Nat.add_comm 1] using hreplays)
                  simpa [Nat.add_assoc, Nat.add_comm 1] using hreached (j + 1) (by omega)
            · intro h
              constructor
              · by_contra hfirst
                exact h 0 (by omega) (by simp)
                  ((attempt_replays_iff deviceId).1 ⟨by simpa using hfirst, hgoes⟩)
              · intro k hk hreached
                have := h (k + 1) (by omega) (fun j hj => ?_)
                · simpa [Nat.add_assoc, Nat.add_comm 1] using this
                · cases j with
                  | zero => exact hgoes
                  | succ j => simpa [Nat.add_assoc, Nat.add_comm 1] using hreached j (by omega)
      · rw [hoff hgoes]
        refine ⟨fun _ k hk hreached hreplays => ?_, fun _ => by simp⟩
        cases k with
        | zero => exact hgoes ((attempt_replays_iff deviceId).2 hreplays).2
        | succ k => exact hgoes (hreached 0 (by omega))

theorem count_true_le_one {sent : List Bool} (h : ∀ b ∈ sent.dropLast, b = false) :
    sent.count true ≤ 1 := by
  induction sent with
  | nil => simp
  | cons b rest ih =>
      cases rest with
      | nil => cases b <;> simp
      | cons b' rest =>
          rw [List.dropLast_cons_of_ne_nil (by simp), List.forall_mem_cons] at h
          obtain ⟨rfl, hrest⟩ := h
          simpa using ih hrest

/-- **The payload of a call is dispatched at most once, and retried only after a failed put, exactly when no
reached round before the last puts it and then lets out an error that the retry branch takes.** -/
theorem dispatchedOnce_iff (u : Interpreter) (deviceId : String) (t : Task) (maxRetries : ℤ)
    (rounds : ℕ → Attempt) :
    DispatchedOnce (executeTask u deviceId t maxRetries rounds) ↔
      ∀ k : ℕ, k < maxRetries → (∀ j < k, (rounds j).GoesOn u deviceId t) → ¬(rounds k).Replays u t := by
  have hdrop := retryLoop_dropLast_iff u deviceId t maxRetries rounds (maxRetries + 1).toNat 0 none
  simp only [Nat.zero_add] at hdrop
  have hbound : ∀ k : ℕ, k + 1 < (maxRetries + 1).toNat ↔ (k : ℤ) < maxRetries := by omega
  simp only [hbound] at hdrop
  rw [← hdrop]
  exact ⟨fun h => h.2, fun h => ⟨count_true_le_one h, h⟩⟩

end Loop

/-! ### A deeply nested answer -/

def recursionError : Raised :=
  ⟨.runtimeError, "RecursionError",
    "maximum recursion depth exceeded while decoding a JSON array from a unicode string"⟩

/-- An interpreter over ASCII texts whose decoder gives up on arrays nested more than 10000 deep. -/
def asciiInterpreter : Interpreter where
  lower s := s.toList.map Char.toLower
  isWord c := c.isAlphanum || c = '_'
  isSpace c := c.isWhitespace
  isDigit c := c.isDigit
  repr _ := ""
  seconds x := toString x.num
  rounded x := toString x.num
  loads encoded :=
    if 10000 < (encoded.takeWhile (· = 91)).length then .raised recursionError
    else .invalid "Expecting value: line 1 column 1 (char 0)"

def nestedAnswer : List UInt8 := List.replicate 100000 91

def idleWorker : Worker := ⟨"worker_0_0", true, 0, 100⟩

def nestedPoll : Poll := ⟨false, 0, false, .message nestedAnswer, false, .notReady, "None", ""⟩

/-- The candidate writes 100000 opening brackets on the result pipe of its worker. -/
def nestedRound : Attempt where
  cancelSet := false
  getIdleWorker := .ok (some idleWorker)
  sleep := .ok ()
  surroundings :=
    { processAlive := true
      put := .buffered
      start := 0
      polls := [nestedPoll] }
  awaited := .observed
  afterResult := ⟨true, .ok .none, .ok (), .ok ()⟩
  afterError := ⟨true, .ok .none, .ok (), .ok ()⟩
  returnWorker := .ok false

theorem recursionError_isTimeout : recursionError.isTimeout asciiInterpreter = false := by
  simp only [Raised.isTimeout, recursionError, asciiInterpreter, occursIn, String.reduceToList,
    List.map_cons, List.map_nil, Char.reduceToLower]
  decide +kernel

theorem recursionError_severity :
    classifyCudaFault asciiInterpreter recursionError.name recursionError.text false = .none := by
  simp only [classifyCudaFault, recursionError, asciiInterpreter, deviceFaultMarkers, contextFaultMarkers,
    benignExitMarkers, occursIn, List.any_cons, List.any_nil, String.reduceAppend, String.reduceToList,
    List.map_cons, List.map_nil, Char.reduceToLower]
  decide +kernel

theorem recursionError_retries :
    nestedRound.afterError.Retries asciiInterpreter idleWorker recursionError :=
  ⟨.inl rfl, by simp [recursionError_isTimeout], rfl, .inl ⟨recursionError_severity, rfl, rfl⟩⟩

theorem loads_nested :
    asciiInterpreter.loads nestedAnswer = .raised recursionError := by
  simp [asciiInterpreter, nestedAnswer, -List.reduceReplicate]

theorem readRound_nested (t : Task) :
    readRound asciiInterpreter idleWorker t nestedPoll = some (idleWorker, .raised recursionError) :=
  readRound_of_error (getTaskResult_raised loads_nested) (by decide) (by decide)

theorem await_nested :
    await asciiInterpreter idleWorker ⟨"t", 60, none⟩ 0 true 0 [nestedPoll] =
      (idleWorker, .raised recursionError) := by
  have hinterrupt : interrupt asciiInterpreter idleWorker ⟨"t", 60, none⟩ 0 true nestedPoll = none := by
    have htime : ¬((0 : ℚ) + 60 - 0 ≤ 0) := by simp
    unfold interrupt
    exact (if_neg (by decide)).trans (if_neg htime)
  rw [await]
  simp only [Bool.true_or, hinterrupt, readRound_nested, Option.getD_some]

theorem executeTask_nested :
    idleWorker.executeTask asciiInterpreter ⟨"t", 60, none⟩ nestedRound.surroundings =
      ⟨true, .raised recursionError, idleWorker⟩ := by
  unfold Worker.executeTask
  have hawait : await asciiInterpreter idleWorker ⟨"t", 60, none⟩ nestedRound.surroundings.start
      (Task.enforced ⟨"t", 60, none⟩).isNone 0 nestedRound.surroundings.polls =
      (idleWorker, .raised recursionError) := await_nested
  rw [hawait]
  rfl

theorem nestedRound_replays : nestedRound.Replays asciiInterpreter ⟨"t", 60, none⟩ := by
  refine ⟨by decide, .inl rfl, idleWorker, rfl, rfl, rfl, rfl, _, recursionError, ?_,
    recursionError_retries⟩
  have := Attempt.LetsOut.decoder (u := asciiInterpreter) (t := ⟨"t", 60, none⟩) (a := nestedRound)
    (w := idleWorker) recursionError rfl
    ⟨nestedPoll, List.mem_singleton.2 rfl, nestedAnswer, .inl rfl, loads_nested⟩ (by rw [executeTask_nested])
  rwa [executeTask_nested] at this

/-- The nested answer makes `RecursionError`, a `RuntimeError`, leave the decoder; the worker is alive, so the
payload runs once more. -/
theorem dispatches_twice :
    ¬DispatchedOnce (executeTask asciiInterpreter "0" ⟨"t", 60, none⟩ 2 fun _ => nestedRound) := by
  intro h
  exact (retryLoop_dropLast_iff _ _ _ 2 _ 3 0 none).1 h.2 0 (by decide) (by simp) nestedRound_replays

end KernelGym.Dispatch
