import KernelGym.Records
import Mathlib.Data.List.Count

/-! The part of Redis that one key prefix names, and the commands the Lua scripts issue on it. Every
key of the task manager is a function of the prefix, a kind and an id, so each kind is one map.
List heads are on the left: `LPUSH` conses, `RPOP` takes the last element. -/

namespace KernelGym

/-- An entry `{token}|{task_id}` of an inflight list. -/
abbrev Entry := Token × TaskId

/-- Everything stored under one key prefix. A `*Ttl` flag says that the key has a time to live, so
that it may disappear at any later moment; a lease always has one. -/
structure Store where
  tasks : TaskId → Option TaskHash := fun _ => none
  results : TaskId → Option ResultHash := fun _ => none
  queues : Lane → List TaskId := fun _ => []
  inflight : WorkerId → List Entry := fun _ => []
  leases : TaskId → Option Generation := fun _ => none
  cancelMarks : TaskId → Bool := fun _ => false
  tombstones : TaskId → Bool := fun _ => false
  children : TaskId → Generation → List TaskId := fun _ _ => []
  activeWorkflows : List TaskId := []
  taskTtl : TaskId → Bool := fun _ => false
  resultTtl : TaskId → Bool := fun _ => false
  cancelTtl : TaskId → Bool := fun _ => false
  childrenTtl : TaskId → Generation → Bool := fun _ _ => false
  now : Nat := 0

/-- `settings.terminal_task_ttl_sec` and `settings.terminal_result_ttl_sec`; zero keeps records. -/
structure Retention where
  taskTtl : Nat := 43200
  resultTtl : Nat := 43200

namespace Store

variable (s : Store)

/-- `HGET` on any field of a missing hash answers nil. -/
def hgetall (id : TaskId) : TaskHash := (s.tasks id).getD {}

/-- `HSET task:{id}`; the hash is created when it is missing. -/
def hset (id : TaskId) (f : TaskHash → TaskHash) : Store :=
  { s with tasks := Function.update s.tasks id (some (f (s.hgetall id))) }

/-- `DEL task:{id}`, which also ends the key's time to live. -/
def delTask (id : TaskId) : Store :=
  { s with
    tasks := Function.update s.tasks id none
    taskTtl := Function.update s.taskTtl id false }

/-- `HSET result:{id}`. -/
def hsetResult (id : TaskId) (f : ResultHash → ResultHash) : Store :=
  { s with results := Function.update s.results id (some (f ((s.results id).getD {}))) }

/-- `DEL result:{id}`. -/
def delResult (id : TaskId) : Store :=
  { s with
    results := Function.update s.results id none
    resultTtl := Function.update s.resultTtl id false }

/-- `EXPIRE task:{id}` when the configured time to live is positive. -/
def expireTask (ttl : Nat) (id : TaskId) : Store :=
  if 0 < ttl then { s with taskTtl := Function.update s.taskTtl id true } else s

/-- `EXPIRE result:{id}` when the configured time to live is positive. -/
def expireResult (ttl : Nat) (id : TaskId) : Store :=
  if 0 < ttl then { s with resultTtl := Function.update s.resultTtl id true } else s

/-- `LPUSH queue id`. -/
def lpush (lane : Lane) (id : TaskId) : Store :=
  { s with queues := Function.update s.queues lane (id :: s.queues lane) }

/-- `LREM queue 0 id`: every copy. -/
def lremAll (lane : Lane) (id : TaskId) : Store :=
  { s with queues := Function.update s.queues lane ((s.queues lane).filter (· ≠ id)) }

/-- `LREM queue 1 id`: the copy nearest the head. -/
def lremOne (lane : Lane) (id : TaskId) : Store :=
  { s with queues := Function.update s.queues lane ((s.queues lane).erase id) }

/-- The list left by `RPOP queue`. -/
def rpop (lane : Lane) : Store :=
  { s with queues := Function.update s.queues lane (s.queues lane).dropLast }

/-- `LPUSH inflight {token}|{id}`. -/
def pushInflight (w : WorkerId) (entry : Entry) : Store :=
  { s with inflight := Function.update s.inflight w (entry :: s.inflight w) }

/-- `LREM inflight 1 {token}|{id}`. -/
def lremInflight (w : WorkerId) (entry : Entry) : Store :=
  { s with inflight := Function.update s.inflight w ((s.inflight w).erase entry) }

/-- `SET cancelled:{id}`, without a time to live. -/
def setTombstone (id : TaskId) : Store :=
  { s with tombstones := Function.update s.tombstones id true }

/-- `SET cancel:{id}`, which drops any time to live the marker had. -/
def setCancel (id : TaskId) : Store :=
  { s with
    cancelMarks := Function.update s.cancelMarks id true
    cancelTtl := Function.update s.cancelTtl id false }

/-- `DEL cancel:{id}`. -/
def delCancel (id : TaskId) : Store :=
  { s with
    cancelMarks := Function.update s.cancelMarks id false
    cancelTtl := Function.update s.cancelTtl id false }

/-- `EXPIRE cancel:{id}` when the configured time to live is positive. -/
def expireCancel (ttl : Nat) (id : TaskId) : Store :=
  if 0 < ttl then { s with cancelTtl := Function.update s.cancelTtl id true } else s

/-- `SET workflow:{id} generation PX ...`. -/
def setLease (id : TaskId) (g : Generation) : Store :=
  { s with leases := Function.update s.leases id (some g) }

/-- `DEL workflow:{id}`. -/
def delLease (id : TaskId) : Store :=
  { s with leases := Function.update s.leases id none }

/-- `SADD workflow_children:{id}:{generation} child`. -/
def addChild (key : TaskId × Generation) (child : TaskId) : Store :=
  { s with
    children := Function.update s.children key.1
      (Function.update (s.children key.1) key.2 ((s.children key.1 key.2).insert child)) }

/-- `DEL workflow_children:{id}:{generation}`. -/
def delChildren (id : TaskId) (g : Generation) : Store :=
  { s with
    children := Function.update s.children id (Function.update (s.children id) g [])
    childrenTtl := Function.update s.childrenTtl id (Function.update (s.childrenTtl id) g false) }

/-- `EXPIRE workflow_children:{id}:{generation}` when the configured time to live is positive. -/
def expireChildren (ttl : Nat) (id : TaskId) (g : Generation) : Store :=
  if 0 < ttl then
    { s with
      childrenTtl := Function.update s.childrenTtl id
        (Function.update (s.childrenTtl id) g true) }
  else s

end Store

end KernelGym
