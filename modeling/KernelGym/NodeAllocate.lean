import KernelGym.Library.Dicts
import KernelGym.Library.Programs

/-! `POST /node/allocate`: the handler as a program of Redis commands, and the system of its calls, which
interleave between any two commands. -/

namespace KernelGym.NodeAllocate

open Library

abbrev Hostname := String

abbrev NodeId := String

/-- The hashes `nodes`, `nodes_by_host` and `node_names` of a key prefix. -/
structure Hashes where
  nodes : Dict NodeId Hostname := {}
  hosts : Dict Hostname NodeId := {}
  names : Dict NodeId Hostname := {}

/-- The hashes under the primary prefix, those under a legacy prefix that differs from it, and the counter
`node_seq`. -/
structure Redis where
  primary : Hashes := {}
  legacy : Option Hashes := none
  seq : ℕ := 0

inductive Hash
  | nodes
  | hosts
  | names
  deriving DecidableEq, Repr

inductive KeyPrefix
  | primary
  | legacy
  deriving DecidableEq, Repr

inductive Command
  | hget (keys : KeyPrefix) (hash : Hash) (field : String)
  /-- Only the primary keys are written. -/
  | hset (hash : Hash) (field value : String)
  | incr

def Ans : Command → Type
  | .hget _ _ _ => Option String
  | .hset _ _ _ => Unit
  | .incr => ℕ

def Hashes.get (h : Hashes) : Hash → String → Option String
  | .nodes, field => h.nodes.get field
  | .hosts, field => h.hosts.get field
  | .names, field => h.names.get field

def Hashes.set (h : Hashes) (field value : String) : Hash → Hashes
  | .nodes => { h with nodes := h.nodes.set field value }
  | .hosts => { h with hosts := h.hosts.set field value }
  | .names => { h with names := h.names.set field value }

def Redis.legacyHashes (r : Redis) : Hashes := r.legacy.getD {}

def Redis.exec (r : Redis) : (c : Command) → Ans c × Redis
  | .hget .primary hash field => (r.primary.get hash field, r)
  | .hget .legacy hash field => (r.legacyHashes.get hash field, r)
  | .hset hash field value => ((), { r with primary := r.primary.set field value hash })
  | .incr => (r.seq + 1, { r with seq := r.seq + 1 })

inductive Response
  | allocated (nodeId : NodeId) (hostname : Hostname)
  | refused (statusCode : ℕ) (detail : String)
  deriving DecidableEq, Repr

abbrev Handler := Program Ans Response

/-- The value under the primary keys or, if there is none, under the legacy keys. -/
def lookup (keysLegacy : Bool) (hash : Hash) (field : String) (next : Option String → Handler) : Handler :=
  .call (.hget .primary hash field) fun value =>
    match given value with
    | some v => next (some v)
    | none =>
      if keysLegacy then .call (.hget .legacy hash field) fun value => next (given value) else next none

/-- `HSET` commands, one after the other. -/
def store : List (Hash × String × String) → Handler → Handler
  | [], next => next
  | (hash, field, value) :: rest, next => .call (.hset hash field value) fun _ => store rest next

/-- The writes that copy a legacy entry, unless the primary keys have one. -/
def migrate (keysLegacy : Bool) (hash : Hash) (field : String) (writes : List (Hash × String × String))
    (response : Response) : Handler :=
  if keysLegacy then
    .call (.hget .primary hash field) fun value =>
      match given value with
      | some _ => .done response
      | none => store writes (.done response)
  else .done response

/-- The branch for a `node_name` that is assigned already. -/
def allocateAssigned (keysLegacy : Bool) (hostname : Hostname) (nodeName : NodeId) (existing : Hostname) :
    Handler :=
  if existing ≠ hostname then
    .done (.refused 409 ("node_name '" ++ nodeName ++ "' already assigned to hostname '" ++ existing ++ "'"))
  else
    migrate keysLegacy .names nodeName
      [(.names, nodeName, hostname), (.nodes, nodeName, hostname), (.hosts, hostname, nodeName)]
      (.allocated nodeName hostname)

/-- The branch for an explicit `node_name`. -/
def allocateNamed (keysLegacy : Bool) (hostname : Hostname) (nodeName : NodeId) : Handler :=
  lookup keysLegacy .names nodeName fun
    | some existing => allocateAssigned keysLegacy hostname nodeName existing
    | none =>
      store [(.nodes, nodeName, hostname), (.names, nodeName, hostname), (.hosts, hostname, nodeName)]
        (.done (.allocated nodeName hostname))

/-- The branch without a `node_name`. -/
def allocateAutomatic (keysLegacy : Bool) (hostname : Hostname) : Handler :=
  lookup keysLegacy .hosts hostname fun
    | some nodeId =>
      migrate keysLegacy .hosts hostname [(.hosts, hostname, nodeId), (.nodes, nodeId, hostname)]
        (.allocated nodeId hostname)
    | none =>
      .call .incr fun seq =>
        let nodeId := "node-" ++ toString (show ℕ from seq)
        store [(.nodes, nodeId, hostname), (.hosts, hostname, nodeId)] (.done (.allocated nodeId hostname))

/-- `allocate_node_id`; an empty `node_name` counts as none. -/
def allocateNodeId (keysLegacy : Bool) (hostname : Hostname) (nodeName : Option String) : Handler :=
  match given nodeName with
  | some name => allocateNamed keysLegacy hostname name
  | none => allocateAutomatic keysLegacy hostname

/-! ### The system of calls -/

structure Call where
  hostname : Hostname
  nodeName : Option String
  rest : Handler

/-- The mode of a call: the explicit name, or `none` for the automatic one. -/
def Call.mode (c : Call) : Option NodeId := given c.nodeName

/-- The id that a call has returned. -/
def Call.answer (c : Call) : Option NodeId :=
  match c.rest with
  | .done (.allocated nodeId _) => some nodeId
  | _ => none

structure System where
  redis : Redis
  /-- All calls so far, in the order of their requests. -/
  calls : List Call

inductive Action
  | request (hostname : Hostname) (nodeName : Option String)
  | command (id : ℕ)
  /-- A command raises, after or without its effect. -/
  | fail (id : ℕ) (applied : Bool) (detail : String)

def System.step (s : System) : Action → Option System
  | .request hostname nodeName =>
    some { s with
      calls := s.calls ++ [⟨hostname, nodeName, allocateNodeId s.redis.legacy.isSome hostname nodeName⟩] }
  | .command id =>
    s.calls[id]?.bind fun call =>
      match call.rest with
      | .done _ => none
      | .call c next =>
        some ⟨(s.redis.exec c).2, s.calls.set id { call with rest := next (s.redis.exec c).1 }⟩
  | .fail id applied detail =>
    s.calls[id]?.bind fun call =>
      match call.rest with
      | .done _ => none
      | .call c _ =>
        some ⟨if applied then (s.redis.exec c).2 else s.redis,
          s.calls.set id { call with rest := .done (.refused 500 detail) }⟩

/-- Only the legacy prefix has entries. -/
def start (legacy : Option Hashes) : System := ⟨{ legacy := legacy }, []⟩

/-! ### Who has an id -/

/-- The hosts that an id is bound to, in `nodes` or in the legacy mapping. -/
def Redis.owners (r : Redis) (n : NodeId) : List Hostname :=
  (r.primary.nodes.get n).toList ++ ((r.legacyHashes.names.get n).toList ++
    r.legacyHashes.hosts.keysWhere fun _ m => m = n)

/-- The id that a host has for automatic calls. -/
def Redis.effective (r : Redis) (h : Hostname) : Option NodeId :=
  (given (r.primary.hosts.get h)).or (given (r.legacyHashes.hosts.get h))

/-- No two hosts have one id. -/
def Redis.Injective (r : Redis) : Prop :=
  ∀ n h h', n ≠ "" → h ∈ r.owners n → h' ∈ r.owners n → h = h'

/-- The hosts with an automatic call. -/
def System.automatic (s : System) : List Hostname :=
  (s.calls.filter fun c => c.mode.isNone).map Call.hostname

/-- A command that binds an id finds it free for the host, and one that binds a host with automatic calls
finds the host free for the id. -/
def Command.binds (r : Redis) (automatic : List Hostname) : Command → Bool
  | .hset .nodes n h => (r.owners n).all (· = h)
  | .hset .hosts h n => !automatic.contains h || (r.effective h).all (· = n)
  | _ => true

def System.binds (s : System) : Action → Bool
  | .request _ _ => true
  | .command id | .fail id _ _ =>
    s.calls[id]?.all fun call =>
      match call.rest with
      | .done _ => true
      | .call c _ => c.binds s.redis s.automatic

/-- Calls of one host in one mode agree, and no two hosts have one id. -/
def System.Sound (s : System) : Prop :=
  ∀ c ∈ s.calls, ∀ d ∈ s.calls, ∀ n m, c.answer = some n → d.answer = some m →
    (c.hostname = d.hostname → c.mode = d.mode → n = m) ∧ (c.hostname ≠ d.hostname → n ≠ m)

end KernelGym.NodeAllocate
