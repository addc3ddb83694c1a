import Mathlib.Algebra.Order.Field.Rat

/-! The channel on which a CUDA subprocess answers its parent, the exceptions that reading it raises, and the
fault that the parent reads off an exception or a result. -/

namespace KernelGym.Dispatch

/-- The classes of exceptions that the handlers of `execute_task` tell apart. -/
inductive ExceptionKind
  | queueEmpty
  /-- `WorkerResultChannelClosed`, a `RuntimeError`. -/
  | channelClosed
  /-- Every other `RuntimeError`. -/
  | runtimeError
  | timeoutError
  | taskCancelled
  /-- `PoolShutdownContainmentError` and `UnsafeGPUContainmentError`. -/
  | containment
  /-- `asyncio.CancelledError`. -/
  | cancelled
  /-- Every other `Exception`. -/
  | exception
  /-- Every other `BaseException`. -/
  | baseException
  deriving DecidableEq, Repr

/-- A raised exception: `type(e).__name__` and `str(e)`. -/
structure Raised where
  kind : ExceptionKind
  name : String
  text : String
  deriving DecidableEq, Repr

/-- A value that `json.loads` returns; of a float only what the code looks at, its value if it is finite. -/
inductive Value
  | null
  | bool (b : Bool)
  | int (n : ℤ)
  | float (x : Option ℚ)
  | str (s : String)
  | list (items : List Value)
  | dict (items : List (String × Value))

abbrev Payload := List (String × Value)

/-- What `json.loads(encoded.decode("utf-8"))` does with a message. -/
inductive Decoding
  | value (v : Value)
  /-- A `UnicodeError` or a `JSONDecodeError`. -/
  | invalid (text : String)
  | raised (e : Raised)

/-- What reading a message takes from the interpreter. -/
structure Decoder where
  loads : List UInt8 → Decoding
  repr : Value → String

/-- What the code takes from the interpreter: Unicode tables, printing and the JSON decoder. -/
structure Interpreter extends Decoder where
  lower : String → List Char
  isWord : Char → Bool
  isSpace : Char → Bool
  isDigit : Char → Bool
  /-- `f"{x}"` of a number of seconds. -/
  seconds : ℚ → String
  /-- `f"{x:.0f}"` -/
  rounded : ℚ → String

def Payload.get (p : Payload) (key : String) : Value := (p.lookup key).getD .null

def Value.truthy : Value → Bool
  | .null => false
  | .bool b => b
  | .int n => n ≠ 0
  | .float x => x ≠ some 0
  | .str s => s ≠ ""
  | .list items => !items.isEmpty
  | .dict items => !items.isEmpty

def Interpreter.str (u : Interpreter) : Value → String
  | .str s => s
  | v => u.repr v

/-! ### Faults -/

inductive FaultSeverity
  | none
  | context
  | device
  deriving DecidableEq, Repr

def FaultSeverity.text : FaultSeverity → String
  | .none => "none"
  | .context => "context"
  | .device => "device"

def FaultSeverity.ranking : FaultSeverity → ℕ
  | .none => 0
  | .context => 1
  | .device => 2

/-- `severity if severity in ranking else FAULT_NONE` -/
def FaultSeverity.ofText (s : String) : FaultSeverity :=
  if s = "device" then .device else if s = "context" then .context else .none

def strongestCudaFault (a b : FaultSeverity) : FaultSeverity := if a.ranking < b.ranking then b else a

def contextFaultMarkers : List String :=
  ["illegal memory access", "device-side assert", "misaligned address", "illegal instruction",
    "invalid pc", "hardware stack error", "launch failure", "unspecified launch failure"]

def deviceFaultMarkers : List String :=
  ["cuda_error_not_initialized", "cuda_error_unknown", "cuda error: unknown",
    "cuda driver initialization failed", "driver initialization failed", "initialization error",
    "device lost", "system not ready", "system not yet initialized", "fallen off the bus",
    "gpu has fallen off", "uncorrectable ecc", "all cuda-capable devices are busy or unavailable",
    "context is destroyed", "context destroyed", "launch timeout", "launch timed out",
    "forward compatibility was attempted"]

def benignExitMarkers : List String :=
  ["out of memory", "profiler_no_cuda_events", "nvcc", "compilation failed", "compilation error",
    "compile error"]

/-- `marker in text` -/
def occursIn (marker : String) (text : List Char) : Bool :=
  text.tails.any (marker.toList.isPrefixOf ·)

/-- What follows `xid` in the expression `xid(?:\s*[:(]|\s+\d)`. -/
def xidTail (u : Interpreter) (text : List Char) : Bool :=
  let rest := text.dropWhile u.isSpace
  match rest with
  | [] => false
  | c :: _ => c = ':' || c = '(' || (rest.length < text.length && u.isDigit c)

/-- The search for `\bxid(?:\s*[:(]|\s+\d)`; `afterWord` says whether a word character stands just before. -/
def searchXid (u : Interpreter) : (afterWord : Bool) → List Char → Bool
  | _, [] => false
  | afterWord, c :: rest =>
    (!afterWord && ['x', 'i', 'd'].isPrefixOf (c :: rest) && xidTail u ((c :: rest).drop 3)) ||
      searchXid u (u.isWord c) rest

/-- `_classify_cuda_fault` without its argument `is_cuda_error`. -/
def classifyCudaFault (u : Interpreter) (errorType errorMessage : String) (finalSyncFailed : Bool) :
    FaultSeverity :=
  let text := u.lower (errorType ++ " " ++ errorMessage)
  if errorType ∈ ["TimeoutError", "WorkerProcessCrashed", "WorkerIPCProtocolError"] then .device
  else if deviceFaultMarkers.any (occursIn · text) || searchXid u false text then .device
  else if finalSyncFailed || contextFaultMarkers.any (occursIn · text) then .context
  else if benignExitMarkers.any (occursIn · text) then .none
  else if occursIn "cuda" text || u.lower errorType = "cudaerror".toList then .context
  else .none

/-! ### `_ParentJSONResultChannel.get` -/

/-- What the connection does when it is read. -/
inductive Received
  | pollFailed (text : String)
  | notReady
  | endOfFile
  | failed (text : String)
  | message (encoded : List UInt8)

def ipcProtocolError (text : String) : Raised := ⟨.runtimeError, "WorkerIPCProtocolError", text⟩

def channelClosed : Raised :=
  ⟨.channelClosed, "WorkerResultChannelClosed", "child result channel closed before the expected message"⟩

mutual
/-- `_visit` of `_validate_exact_json_primitives`: how many nodes remain after the value. What the decoder
returns has string keys, no other types and no cycles. -/
def Value.visit : Value → (depth remaining : ℕ) → Except Raised ℕ
  | _, _, 0 => throw (ipcProtocolError "result payload exceeds JSON node limit")
  | v, depth, remaining + 1 =>
    if 32 < depth then throw (ipcProtocolError "result payload exceeds JSON nesting limit")
    else match v with
      | .float none => throw (ipcProtocolError "result payload contains a non-finite float")
      | .list items => visitAll items (depth + 1) remaining
      | .dict items => visitValues items (depth + 1) remaining
      | _ => pure remaining

def visitAll : List Value → (depth remaining : ℕ) → Except Raised ℕ
  | [], _, remaining => pure remaining
  | v :: rest, depth, remaining => do visitAll rest depth (← v.visit depth remaining)

def visitValues : List (String × Value) → (depth remaining : ℕ) → Except Raised ℕ
  | [], _, remaining => pure remaining
  | (_, v) :: rest, depth, remaining => do visitValues rest depth (← v.visit depth remaining)
end

def validateExactJsonPrimitives (p : Payload) : Except Raised Unit := do
  let _ ← (Value.dict p).visit 0 200000
  pure ()

def resultProtocolMagic : String := "kernelgym-result-json-v1"

def Value.isStr : Value → Bool
  | .str _ => true
  | _ => false

def Value.isInt : Value → Bool
  | .int _ => true
  | _ => false

def Value.isNumber : Value → Bool
  | .int _ | .float _ => true
  | _ => false

def Value.isBool : Value → Bool
  | .bool _ => true
  | _ => false

def Value.isDict : Value → Bool
  | .dict _ => true
  | _ => false

def Value.isText (v : Value) (text : String) : Bool :=
  match v with
  | .str s => s = text
  | _ => false

/-- What `_validate_result_message_schema` computes as `valid`. -/
def schemaHolds (kind : String) (p : Payload) : Bool :=
  let identity := ["pid", "start_ticks", "pgid", "sid"].all fun field => (p.get field).isInt
  if kind = "contained" then (p.get "status").isText "CONTAINED" && identity
  else if kind = "ready" then
    (p.get "status").isText "READY" && (p.get "init_time").isNumber && (p.get "device").isStr && identity
  else if kind = "init_failed" then
    (p.get "status").isText "INIT_FAILED" &&
      ["init_stage", "error", "traceback"].all fun field => (p.get field).isStr
  else if kind = "task_result" then
    match p.get "success" with
    | .bool true => (p.get "result").isDict && (p.get "worker_exiting").isBool
    | .bool false => (p.get "error_type").isStr && (p.get "error_message").isStr
    | _ => false
  else false

/-- `_validate_result_message_schema` -/
def validateResultMessageSchema (kind : String) (p : Payload) : Except Raised Unit :=
  if schemaHolds kind p then pure ()
  else throw (ipcProtocolError
    ("invalid " ++ (if kind = "" then "unknown" else kind) ++ " result-message schema"))

/-- The envelope, the kind and the payload of a decoded message. -/
def openMessage (d : Decoder) (expectedKinds : List String) : Value → Except Raised Payload
  | .list [.str magic, .str kind, .dict payload] => do
    if magic ≠ resultProtocolMagic then
      throw (ipcProtocolError "child result used an invalid protocol envelope")
    if kind ∉ expectedKinds then
      throw (ipcProtocolError ("unexpected child result kind " ++ d.repr (.str kind) ++ "; expected one of: " ++
        ", ".intercalate (expectedKinds.mergeSort (· ≤ ·))))
    validateExactJsonPrimitives payload
    validateResultMessageSchema kind payload
    pure payload
  | _ => throw (ipcProtocolError "child result used an invalid protocol envelope")

/-- `_ParentJSONResultChannel.get` -/
def getMessage (d : Decoder) (expectedKinds : List String) : Received → Except Raised Payload
  | .pollFailed text => throw (ipcProtocolError ("could not poll bounded child result: " ++ text))
  | .notReady => throw ⟨.queueEmpty, "Empty", ""⟩
  | .endOfFile => throw channelClosed
  | .failed text => throw (ipcProtocolError ("could not receive bounded child result: " ++ text))
  | .message encoded =>
    match d.loads encoded with
    | .value v => openMessage d expectedKinds v
    | .invalid text => throw (ipcProtocolError ("child result was not valid UTF-8 JSON: " ++ text))
    | .raised e => throw e

/-- `get` with `expected_kinds = {"task_result"}`. -/
def getTaskResult (u : Interpreter) : Received → Except Raised Payload := getMessage u.toDecoder ["task_result"]

/-- `e` is a violation of the result protocol that the channel has recognised. -/
def Raised.Protocol (e : Raised) : Prop := ∃ text, e = ipcProtocolError text

mutual
theorem visit_error {v : Value} {depth remaining : ℕ} {e : Raised}
    (h : v.visit depth remaining = .error e) : e.Protocol := by
  cases remaining with
  | zero => cases v <;> (simp only [Value.visit] at h; cases h; exact ⟨_, rfl⟩)
  | succ remaining =>
      cases v with
      | float x =>
          cases x with
          | none =>
              simp only [Value.visit] at h
              split at h <;> cases h <;> exact ⟨_, rfl⟩
          | some x =>
              simp only [Value.visit] at h
              split at h <;> cases h
              exact ⟨_, rfl⟩
      | list items =>
          simp only [Value.visit] at h
          split at h
          · cases h
            exact ⟨_, rfl⟩
          · exact visitAll_error h
      | dict items =>
          simp only [Value.visit] at h
          split at h
          · cases h
            exact ⟨_, rfl⟩
          · exact visitValues_error h
      | null | bool | int | str =>
          simp only [Value.visit] at h
          split at h <;> cases h
          exact ⟨_, rfl⟩

theorem visitAll_error {items : List Value} {depth remaining : ℕ} {e : Raised}
    (h : visitAll items depth remaining = .error e) : e.Protocol := by
  cases items with
  | nil => cases h
  | cons v rest =>
      rw [visitAll] at h
      cases hv : v.visit depth remaining with
      | error e' =>
          rw [hv] at h
          cases h
          exact visit_error hv
      | ok remaining' =>
          rw [hv] at h
          exact visitAll_error h

theorem visitValues_error {items : List (String × Value)} {depth remaining : ℕ} {e : Raised}
    (h : visitValues items depth remaining = .error e) : e.Protocol := by
  cases items with
  | nil => cases h
  | cons entry rest =>
      obtain ⟨key, v⟩ := entry
      rw [visitValues] at h
      cases hv : v.visit depth remaining with
      | error e' =>
          rw [hv] at h
          cases h
          exact visit_error hv
      | ok remaining' =>
          rw [hv] at h
          exact visitValues_error h
end

theorem validateResultMessageSchema_error {kind : String} {p : Payload} {e : Raised}
    (h : validateResultMessageSchema kind p = .error e) : e.Protocol := by
  unfold validateResultMessageSchema at h
  split at h
  · cases h
  · cases h
    exact ⟨_, rfl⟩

variable {d : Decoder} {expectedKinds : List String}

theorem openMessage_error {v : Value} {e : Raised} (h : openMessage d expectedKinds v = .error e) : e.Protocol := by
  unfold openMessage at h
  split at h
  · rename_i magic kind payload
    by_cases hmagic : magic = resultProtocolMagic
    · by_cases hkind : kind ∈ expectedKinds
      · simp only [hmagic, hkind, ne_eq, not_true_eq_false, if_false, validateExactJsonPrimitives] at h
        cases hvisit : (Value.dict payload).visit 0 200000 with
        | error e' =>
            simp only [hvisit] at h
            cases h
            exact visit_error hvisit
        | ok remaining =>
            simp only [hvisit] at h
            cases hschema : validateResultMessageSchema kind payload with
            | error e' =>
                rw [hschema] at h
                cases h
                exact validateResultMessageSchema_error hschema
            | ok _ =>
                rw [hschema] at h
                cases h
      · simp only [hmagic, hkind, ne_eq, not_true_eq_false, not_false_eq_true, if_false, if_true] at h
        cases h
        exact ⟨_, rfl⟩
    · simp only [hmagic, ne_eq, not_false_eq_true, if_true] at h
      cases h
      exact ⟨_, rfl⟩
  · cases h
    exact ⟨_, rfl⟩

/-- Reading a message ends in nothing to read, in a closed channel, in a recognised violation of the protocol
or in whatever else the decoder raises. -/
theorem getMessage_error {r : Received} {e : Raised} (h : getMessage d expectedKinds r = .error e) :
    e.kind = .queueEmpty ∨ e = channelClosed ∨ e.Protocol ∨
      ∃ encoded, r = .message encoded ∧ d.loads encoded = .raised e := by
  cases r with
  | pollFailed text => cases h; exact .inr (.inr (.inl ⟨_, rfl⟩))
  | notReady => cases h; exact .inl rfl
  | endOfFile => cases h; exact .inr (.inl rfl)
  | failed text => cases h; exact .inr (.inr (.inl ⟨_, rfl⟩))
  | message encoded =>
      simp only [getMessage] at h
      split at h
      · exact .inr (.inr (.inl (openMessage_error h)))
      · cases h
        exact .inr (.inr (.inl ⟨_, rfl⟩))
      · rename_i raised hloads
        cases h
        exact .inr (.inr (.inr ⟨encoded, rfl, hloads⟩))

theorem getTaskResult_raised {u : Interpreter} {encoded : List UInt8} {e : Raised}
    (h : u.loads encoded = .raised e) : getTaskResult u (.message encoded) = .error e := by
  simp only [getTaskResult, getMessage, h]
  rfl

theorem classifyCudaFault_protocol (u : Interpreter) (text : String) (f : Bool) :
    classifyCudaFault u "WorkerIPCProtocolError" text f = .device := by
  simp [classifyCudaFault]

end KernelGym.Dispatch
