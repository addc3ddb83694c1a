import KernelGym.Library.Dicts
import KernelGym.Library.Doubles
import KernelGym.Library.Extended
import KernelGym.Library.JsonTrees

/-! `ReferenceRuntimeCache`: the reference runtimes of problems, in the memory of every process and in a Redis
that the processes share. -/

namespace KernelGym.ReferenceCache

open Library

inductive Number
  | int (n : ℤ)
  | float (x : Extended)
  deriving DecidableEq

/-- A value of a JSON record. -/
abbrev Value := Json Number

abbrev Object := JsonObject Number

/-- The functions of Python that the cache uses on texts. -/
structure Python where
  /-- `float(text)` -/
  floatOfText : String → Option Extended
  /-- `str(value)` for a value that is not a text -/
  repr : Value → String
  sha256 : String → String

def executionPolicyVersion : String := "eval_no_grad_tf32_decoy_v3"

def text (py : Python) : Value → String
  | .str s => s
  | v => py.repr v

def truthy : Value → Bool
  | .null => false
  | .bool b => b
  | .num (.int n) => n ≠ 0
  | .num (.float x) => x ≠ .finite 0
  | .str s => s ≠ ""
  | .arr length _ => length ≠ 0
  | .obj keys _ => keys ≠ ∅

/-- `float(value)`, which raises for texts that are no numbers, integers that are too large and other kinds. -/
def float (py : Python) : Value → Option Extended
  | .num (.int n) =>
    let x := binary64.round n
    if |x| < doubleBound then some (.finite x) else none
  | .num (.float x) => some x
  | .bool b => some (.finite (if b then 1 else 0))
  | .str s => py.floatOfText s
  | _ => none

/-- `_code_hash`; `encode` raises for a code that is no text. -/
def codeHash (py : Python) : Value → Except String (Option String)
  | .str code => .ok (if code = "" then none else some (py.sha256 code))
  | v => if truthy v then .error "AttributeError" else .ok none

/-- `_nested_get`, with the path split at its dots -/
def nestedGet : Value → List String → Option Value
  | v, [] => some v
  | .obj keys values, part :: rest =>
    match (⟨keys, values⟩ : Object).get part with
    | some v => nestedGet v rest
    | none => none
  | _, _ :: _ => none

/-- `value not in (None, "")` -/
def present : Value → Bool
  | .null => false
  | .str s => s ≠ ""
  | _ => true

/-- `_extract_first` -/
def extractFirst (record : Value) (paths : List (List String)) : Option Value :=
  paths.findSome? fun path => (nestedGet record path).filter present

def uuidPaths : List (List String) :=
  [["uuid"], ["problem_id"], ["metadata", "uuid"], ["metadata", "problem_id"], ["extra_info", "uuid"],
    ["extra_info", "problem_id"], ["result", "uuid"], ["result", "problem_id"], ["result", "metadata", "uuid"],
    ["result", "metadata", "problem_id"]]

def runtimePaths : List (List String) :=
  [["reference_runtime"], ["runtime"], ["result", "reference_runtime"], ["result", "runtime"]]

def referenceMemoryPaths : List (List String) := [["reference_memory"], ["result", "reference_memory"]]

def referenceCodePaths : List (List String) :=
  [["reference_code"], ["ground_truth"], ["reward_model", "ground_truth"], ["result", "reference_code"]]

def executionPolicyPaths : List (List String) :=
  [["execution_policy"], ["metadata", "execution_policy"], ["result", "execution_policy"],
    ["result", "metadata", "execution_policy"]]

def recordUuid (py : Python) (record : Value) : Option String := (extractFirst record uuidPaths).map (text py)

/-- The runtime of a record; `null` if there is none. -/
def recordRuntime (record : Value) : Value := (extractFirst record runtimePaths).getD .null

/-- `_extract_first(record, _REFERENCE_CODE_PATHS) or ""` -/
def recordCode (record : Value) : Value :=
  ((extractFirst record referenceCodePaths).filter truthy).getD (.str "")

/-- The record is an object with the current execution policy. -/
def current (record : Value) : Bool :=
  match record with
  | .obj _ _ =>
    match extractFirst record executionPolicyPaths with
    | some (.str policy) => policy = executionPolicyVersion
    | _ => false
  | _ => false

/-- `reference_memory`, if it is a dictionary -/
def memoryRecord : Option Value → Option Object
  | some (.obj keys values) => some ⟨keys, values⟩
  | _ => none

/-- What is stored of a reference. -/
structure Entry where
  referenceRuntime : Extended
  codeHash : Option String
  executionPolicy : String
  referenceMemory : Option Object

abbrev ProcessId := ℕ

/-- The entries in Redis, and those in the memory of every process. -/
structure World where
  redis : Dict String Entry := {}
  memory : ProcessId → Dict String Entry := fun _ => {}

/-- `_entry_key`; every process has the same Redis prefix before it. -/
def entryKey (uuid : String) (isValid : Bool) : String :=
  (if isValid then "val" else "train") ++ ":" ++ executionPolicyVersion ++ ":" ++ uuid

/-- `_is_compatible` -/
def Entry.isCompatible (py : Python) (e : Entry) (referenceCode : Value) : Except String Bool :=
  (ReferenceCache.codeHash py referenceCode).map fun expected =>
    e.executionPolicy = executionPolicyVersion &&
      match expected, e.codeHash with
      | some hash, some cached => hash = cached
      | _, _ => true

/-- The checks on a memory record that `get_memory` returns; a Boolean is an integer, too. -/
def usableMemory (m : Object) : Bool :=
  let isInt : Option Value → Bool
    | some (.num (.int _)) | some (.bool _) => true
    | _ => false
  isInt (m.get "forward_incremental_peak_allocated_bytes") && isInt (m.get "total_task_peak_allocated_bytes") &&
    (match m.get "measurement_valid" with
      | some (.bool true) => true
      | _ => false) &&
    match m.get "measurement_complete" with
    | some (.bool _) => true
    | _ => false

/-- Who asks, and whether Redis answers. -/
structure Access where
  process : ProcessId
  reachable : Bool

namespace World

variable (py : Python) (w : World)

def setMemory (process : ProcessId) (key : String) (e : Entry) : World :=
  { w with memory := fun p => if p = process then (w.memory p).set key e else w.memory p }

/-- The entry is kept in memory and sent to Redis. -/
def store (a : Access) (key : String) (e : Entry) : World :=
  let w := w.setMemory a.process key e
  if a.reachable then { w with redis := w.redis.set key e } else w

/-- The entry in memory or else in Redis, which is then kept in memory. -/
def fetch (a : Access) (key : String) : Option Entry × World :=
  match (w.memory a.process).get key with
  | some e => (some e, w)
  | none =>
    match if a.reachable then w.redis.get key else none with
    | some e => (some e, w.setMemory a.process key e)
    | none => (none, w)

/-- `get` -/
def get (a : Access) (uuid : Option String) (referenceCode : Value) (isValid : Bool) :
    Except String (Option Extended) × World :=
  match given uuid with
  | none => (.ok none, w)
  | some uuid =>
    let (entry, w) := w.fetch a (entryKey uuid isValid)
    match entry with
    | none => (.ok none, w)
    | some e =>
      ((e.isCompatible py referenceCode).map fun compatible =>
        if compatible && e.referenceRuntime.positive then some e.referenceRuntime else none, w)

/-- `get_memory` -/
def getMemory (a : Access) (uuid : Option String) (referenceCode : Value) (isValid : Bool) :
    Except String (Option Object) × World :=
  let (answer, w) := w.get py a uuid referenceCode isValid
  (answer.map fun runtime =>
    match runtime, given uuid with
    | some _, some uuid =>
      ((w.memory a.process).get (entryKey uuid isValid)).bind fun e => e.referenceMemory.filter usableMemory
    | _, _ => none, w)

/-- `put`; no runtime is the value `null`, which `float` does not convert either. -/
def put (a : Access) (uuid : Option String) (referenceCode : Value) (isValid : Bool) (runtime : Value)
    (referenceMemory : Option Value) : Except String World :=
  match given uuid, float py runtime with
  | some uuid, some runtime =>
    if runtime.le (.finite 0) then .ok w
    else
      (codeHash py referenceCode).map fun hash =>
        let e : Entry :=
          { referenceRuntime := runtime
            codeHash := hash
            executionPolicy := executionPolicyVersion
            referenceMemory := memoryRecord referenceMemory }
        w.store a (entryKey uuid isValid) e
  | _, _ => .ok w

/-- One record of a data set in `preload`: whether it counts as loaded, or the exception that ends the call. -/
def preloadRecord (process : ProcessId) (isValid : Bool) (record : Value) (reachable : Bool × Bool × Bool) :
    Except String Bool × World :=
  if current record then
    let uuid := recordUuid py record
    let code := recordCode record
    let (before, w) := w.get py ⟨process, reachable.1⟩ uuid code isValid
    match before with
    | .error e => (.error e, w)
    | .ok before =>
      match w.put py ⟨process, reachable.2.1⟩ uuid code isValid (recordRuntime record)
          (extractFirst record referenceMemoryPaths) with
      | .error e => (.error e, w)
      | .ok w =>
        let (after, w) := w.get py ⟨process, reachable.2.2⟩ uuid code isValid
        (after.map fun after => before.isNone && after.isSome, w)
  else (.ok false, w)

/-- The records of `preload` one after the other, up to an exception; it returns the number of loaded ones. -/
def preload (process : ProcessId) (isValid : Bool) : List (Value × Bool × Bool × Bool) → World → ℕ → ℕ × World
  | [], w, loaded => (loaded, w)
  | (record, reachable) :: rest, w, loaded =>
    match w.preloadRecord py process isValid record reachable with
    | (.ok counted, w) => preload process isValid rest w (if counted then loaded + 1 else loaded)
    | (.error _, w) => (0, w)

end World

/-- One operation of one process; a `preload` is the list of its records, and those of several processes
interleave. -/
inductive Op
  | put (a : Access) (uuid : Option String) (referenceCode : String) (isValid : Bool) (runtime : Value)
      (referenceMemory : Option Value)
  | record (process : ProcessId) (isValid : Bool) (record : Value) (reachable : Bool × Bool × Bool)
  | get (a : Access) (uuid : Option String) (referenceCode : String) (isValid : Bool)
  | getMemory (a : Access) (uuid : Option String) (referenceCode : String) (isValid : Bool)

def step (py : Python) (w : World) : Op → World
  | .put a uuid referenceCode isValid runtime referenceMemory =>
    match w.put py a uuid (.str referenceCode) isValid runtime referenceMemory with
    | .ok w => w
    | .error _ => w
  | .record process isValid record reachable => (w.preloadRecord py process isValid record reachable).2
  | .get a uuid referenceCode isValid => (w.get py a uuid (.str referenceCode) isValid).2
  | .getMemory a uuid referenceCode isValid => (w.getMemory py a uuid (.str referenceCode) isValid).2

/-- The state after a sequence of operations on an empty cache. -/
def run (py : Python) (ops : List Op) : World := ops.foldl (step py) {}

end KernelGym.ReferenceCache
