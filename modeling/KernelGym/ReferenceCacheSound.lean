import KernelGym.ReferenceCache

/-! What the cache returns was put by one operation: every entry in Redis or in a memory is backed by an
operation, and a lookup answers with one entry. -/

namespace KernelGym.ReferenceCache

open Library

/-- What an operation offers to the cache. -/
structure Offer where
  uuid : String
  isValid : Bool
  referenceCode : String
  runtime : Extended
  memory : Option Object

/-- The offer of a `put` or of a preloaded record of the current policy: it has a uuid, a code that is a text
and a runtime that is a number. -/
def offer (py : Python) (uuid : Option String) (code : Value) (isValid : Bool) (runtime : Value)
    (referenceMemory : Option Value) : Option Offer :=
  match given uuid, code, float py runtime with
  | some uuid, .str code, some runtime => some ⟨uuid, isValid, code, runtime, memoryRecord referenceMemory⟩
  | _, _, _ => none

def Op.offer (py : Python) : Op → Option Offer
  | .put _ uuid code isValid runtime referenceMemory =>
    ReferenceCache.offer py uuid (.str code) isValid runtime referenceMemory
  | .record _ isValid r _ =>
    if current r then
      ReferenceCache.offer py (recordUuid py r) (recordCode r) isValid (recordRuntime r)
        (extractFirst r referenceMemoryPaths)
    else none
  | _ => none

/-- The runtime of a `put` or of a preloaded record is missing, no number, or not above zero. -/
def Unusable (py : Python) (runtime : Value) : Prop :=
  ∀ x, float py runtime = some x → x.le (.finite 0) = true

def Offer.key (o : Offer) : String := entryKey o.uuid o.isValid

def Offer.entry (py : Python) (o : Offer) : Entry where
  referenceRuntime := o.runtime
  codeHash := if o.referenceCode = "" then none else some (py.sha256 o.referenceCode)
  executionPolicy := executionPolicyVersion
  referenceMemory := o.memory

variable {py : Python} {w w' : World} {a : Access} {uuid : Option String} {code : Value} {isValid : Bool}
  {isValid' : Bool} {key : String} {e : Entry}

theorem entryKey_inj {u u' : String} {v v' : Bool} : entryKey u v = entryKey u' v' ↔ u = u' ∧ v = v' := by
  refine ⟨fun h => ?_, fun h => by rw [h.1, h.2]⟩
  have hlist := congrArg String.toList h
  cases v <;> cases v' <;> simp [entryKey, executionPolicyVersion] at hlist
  · exact ⟨String.ext hlist, rfl⟩
  · exact ⟨String.ext hlist, rfl⟩

/-! ### Entries and lookups -/

/-- Redis or some process has the entry. -/
def World.Has (w : World) (key : String) (e : Entry) : Prop :=
  w.redis.get key = some e ∨ ∃ p, (w.memory p).get key = some e

theorem has_setMemory {p : ProcessId} {key' : String} {e' : Entry}
    (h : (w.setMemory p key' e').Has key e) : w.Has key e ∨ key = key' ∧ e = e' := by
  rcases h with hredis | ⟨q, hq⟩
  · exact .inl (.inl hredis)
  · simp only [World.setMemory] at hq
    split_ifs at hq with hp
    · rw [Dict.get_set] at hq
      split_ifs at hq with hkey
      · exact .inr ⟨hkey, (Option.some.inj hq).symm⟩
      · exact .inl (.inr ⟨q, hq⟩)
    · exact .inl (.inr ⟨q, hq⟩)

theorem has_store {key' : String} {e' : Entry} (h : (w.store a key' e').Has key e) :
    w.Has key e ∨ key = key' ∧ e = e' := by
  unfold World.store at h
  split_ifs at h
  · rcases h with hredis | hmemory
    · rw [Dict.get_set] at hredis
      split_ifs at hredis with hkey
      · exact .inr ⟨hkey, (Option.some.inj hredis).symm⟩
      · exact .inl (.inl hredis)
    · exact has_setMemory (.inr hmemory)
  · exact has_setMemory h

/-- What a lookup finds: the entry in memory, or the one in Redis, which it keeps, or none. -/
theorem fetch_cases (w : World) (a : Access) (key : String) :
    (∃ e, (w.memory a.process).get key = some e ∧ w.fetch a key = (some e, w)) ∨
      (w.memory a.process).get key = none ∧
        ((∃ e, w.redis.get key = some e ∧ w.fetch a key = (some e, w.setMemory a.process key e)) ∨
          w.fetch a key = (none, w)) := by
  unfold World.fetch
  cases hheld : (w.memory a.process).get key with
  | some e => exact .inl ⟨e, rfl, rfl⟩
  | none =>
      refine .inr ⟨rfl, ?_⟩
      cases hreach : a.reachable with
      | false => exact .inr rfl
      | true =>
          cases hredis : w.redis.get key with
          | none => exact .inr (by simp)
          | some e => exact .inl ⟨e, rfl, by simp⟩

theorem fetch_has (h : (w.fetch a key).1 = some e) : w.Has key e := by
  rcases fetch_cases w a key with ⟨held, hheld, heq⟩ | ⟨-, ⟨found, hfound, heq⟩ | heq⟩ <;> rw [heq] at h
  · obtain rfl := Option.some.inj h
    exact .inr ⟨_, hheld⟩
  · obtain rfl := Option.some.inj h
    exact .inl hfound
  · cases h

theorem has_fetch {key' : String} (h : (w.fetch a key').2.Has key e) : w.Has key e := by
  rcases fetch_cases w a key' with ⟨held, -, heq⟩ | ⟨-, ⟨found, hfound, heq⟩ | heq⟩ <;> rw [heq] at h
  · exact h
  · rcases has_setMemory h with hold | ⟨rfl, rfl⟩
    · exact hold
    · exact .inl hfound
  · exact h

theorem fetch_memory (h : (w.fetch a key).1 = some e) : ((w.fetch a key).2.memory a.process).get key = some e := by
  rcases fetch_cases w a key with ⟨held, hheld, heq⟩ | ⟨-, ⟨found, -, heq⟩ | heq⟩ <;> rw [heq] at h ⊢
  · obtain rfl := Option.some.inj h
    exact hheld
  · obtain rfl := Option.some.inj h
    simp [World.setMemory]
  · cases h

/-- What a process finds with Redis at hand is not changed by a lookup. -/
theorem fetch_fetch {key' : String} {p : ProcessId} :
    ((w.fetch a key').2.fetch ⟨p, true⟩ key).1 = (w.fetch ⟨p, true⟩ key).1 := by
  rcases fetch_cases w a key' with ⟨held, -, heq⟩ | ⟨hmiss, ⟨found, hfound, heq⟩ | heq⟩ <;> rw [heq]
  by_cases hp : p = a.process
  · subst hp
    by_cases hkey : key = key'
    · subst hkey
      simp [World.fetch, World.setMemory, hmiss, hfound]
    · simp only [World.fetch, World.setMemory, if_true, Dict.get_set_of_ne _ hkey]
      cases (w.memory a.process).get key with
      | some held => rfl
      | none => cases w.redis.get key <;> rfl
  · simp only [World.fetch, World.setMemory, if_neg hp]
    cases (w.memory p).get key with
    | some held => rfl
    | none =>
        simp only [if_true]
        cases w.redis.get key <;> rfl

/-! ### The operations -/

/-- The answer of `get` depends on the entry that is found alone. -/
theorem get_eq {u : String} (hu : given uuid = some u) :
    w.get py a uuid code isValid = ((match (w.fetch a (entryKey u isValid)).1 with
      | none => .ok none
      | some e => (e.isCompatible py code).map fun compatible =>
          if compatible && e.referenceRuntime.positive then some e.referenceRuntime else none),
      (w.fetch a (entryKey u isValid)).2) := by
  unfold World.get
  rw [hu]
  dsimp only
  cases (w.fetch a (entryKey u isValid)).1 <;> rfl

theorem get_none (hu : given uuid = none) : w.get py a uuid code isValid = (.ok none, w) := by
  unfold World.get
  rw [hu]

theorem has_get (h : (w.get py a uuid code isValid).2.Has key e) : w.Has key e := by
  cases hu : given uuid with
  | none =>
      rw [get_none hu] at h
      exact h
  | some u =>
      rw [get_eq hu] at h
      exact has_fetch h

theorem get_get {a' : Access} {uuid' : Option String} {code' : Value} {isValid' : Bool} {p : ProcessId} :
    ((w.get py a' uuid' code' isValid').2.get py ⟨p, true⟩ uuid code isValid).1 =
      (w.get py ⟨p, true⟩ uuid code isValid).1 := by
  cases hu' : given uuid' with
  | none => rw [get_none hu']
  | some u' =>
      cases hu : given uuid with
      | none => rw [get_none hu, get_none hu]
      | some u => rw [get_eq hu, get_eq hu, get_eq hu', fetch_fetch]

/-- An answer is the runtime of an entry that fits the code. -/
theorem get_some {referenceCode : String} {r : Extended} (hcode : referenceCode ≠ "")
    (h : (w.get py a uuid (.str referenceCode) isValid).1 = .ok (some r)) :
    ∃ u e, given uuid = some u ∧ (w.fetch a (entryKey u isValid)).1 = some e ∧ e.referenceRuntime = r ∧
      e.executionPolicy = executionPolicyVersion ∧
      (e.codeHash = none ∨ e.codeHash = some (py.sha256 referenceCode)) := by
  cases hu : given uuid with
  | none =>
      rw [get_none hu] at h
      cases h
  | some u =>
      rw [get_eq hu] at h
      cases hfetch : (w.fetch a (entryKey u isValid)).1 with
      | none =>
          rw [hfetch] at h
          cases h
      | some e =>
          rw [hfetch] at h
          simp only [Entry.isCompatible, codeHash, if_neg hcode, Except.map, Except.ok.injEq, Option.ite_none_right_eq_some,
            Bool.and_eq_true, decide_eq_true_eq, Option.some.injEq] at h
          obtain ⟨⟨⟨hpolicy, hhash⟩, -⟩, hr⟩ := h
          refine ⟨u, e, rfl, hfetch, hr, hpolicy, ?_⟩
          cases hcached : e.codeHash with
          | none => exact .inl rfl
          | some cached =>
              rw [hcached] at hhash
              exact .inr (congrArg some (of_decide_eq_true hhash).symm)

theorem put_unusable {runtime : Value} {referenceMemory : Option Value} (h : Unusable py runtime) :
    w.put py a uuid code isValid runtime referenceMemory = .ok w := by
  unfold World.put
  cases given uuid with
  | none => rfl
  | some u =>
      cases hruntime : float py runtime with
      | none => rfl
      | some x => exact if_pos (h x hruntime)

theorem has_put {runtime : Value} {referenceMemory : Option Value} (hcode : (∃ s, code = .str s) ∨ truthy code = true)
    (hput : w.put py a uuid code isValid runtime referenceMemory = .ok w') (h : w'.Has key e) :
    w.Has key e ∨ ∃ o, offer py uuid code isValid runtime referenceMemory = some o ∧ o.key = key ∧
      o.entry py = e := by
  unfold World.put at hput
  unfold offer
  cases hu : given uuid with
  | none =>
      rw [hu] at hput
      obtain rfl := Except.ok.inj hput
      exact .inl h
  | some u =>
      cases hruntime : float py runtime with
      | none =>
          rw [hu, hruntime] at hput
          obtain rfl := Except.ok.inj hput
          exact .inl h
      | some x =>
          simp only [hu, hruntime] at hput
          split_ifs at hput with hle
          · obtain rfl := Except.ok.inj hput
            exact .inl h
          · cases code with
            | str s =>
                obtain rfl := Except.ok.inj hput
                rcases has_store h with hold | ⟨rfl, rfl⟩
                · exact .inl hold
                · exact .inr ⟨_, rfl, rfl, rfl⟩
            | _ =>
                obtain ⟨s, hs⟩ | htruthy := hcode
                · cases hs
                · simp [codeHash, htruthy, Except.map] at hput

theorem recordCode_text (r : Value) : (∃ s, recordCode r = .str s) ∨ truthy (recordCode r) = true := by
  unfold recordCode
  cases hcode : (extractFirst r referenceCodePaths).filter truthy with
  | none => exact .inl ⟨"", rfl⟩
  | some code =>
      refine .inr ?_
      obtain ⟨-, htruthy⟩ := Option.filter_eq_some_iff.1 hcode
      exact htruthy

/-- Every entry in Redis or in a memory is the one that an operation offered. -/
def Backed (py : Python) (ops : List Op) (w : World) : Prop :=
  ∀ key e, w.Has key e → ∃ op ∈ ops, ∃ o, op.offer py = some o ∧ o.key = key ∧ o.entry py = e

theorem has_step {op : Op} (h : (step py w op).Has key e) :
    w.Has key e ∨ ∃ o, op.offer py = some o ∧ o.key = key ∧ o.entry py = e := by
  cases op with
  | put a uuid code isValid runtime referenceMemory =>
      simp only [step] at h
      split at h
      · rename_i hput
        exact has_put (.inl ⟨code, rfl⟩) hput h
      · exact .inl h
  | record process isValid r reachable =>
      simp only [step, World.preloadRecord] at h
      by_cases hcurrent : current r = true
      · simp only [if_pos hcurrent] at h
        split at h
        · exact .inl (has_get h)
        · split at h
          · exact .inl (has_get h)
          · rename_i hput
            rcases has_put (recordCode_text r) hput (has_get h) with hold | hoffer
            · exact .inl (has_get hold)
            · refine .inr ?_
              simp only [Op.offer, if_pos hcurrent]
              exact hoffer
      · simp only [if_neg hcurrent] at h
        exact .inl h
  | get a uuid code isValid => exact .inl (has_get h)
  | getMemory a uuid code isValid => exact .inl (has_get h)

theorem run_append {ops : List Op} {op : Op} : run py (ops ++ [op]) = step py (run py ops) op := by
  rw [run, List.foldl_append]
  rfl

theorem run_backed (ops : List Op) : Backed py ops (run py ops) := by
  induction ops using List.reverseRecOn with
  | nil =>
      rintro key e (hredis | ⟨p, hmemory⟩)
      · cases hredis
      · cases hmemory
  | append_singleton ops op ih =>
      intro key e h
      rw [run_append] at h
      rcases has_step h with hold | ⟨o, ho⟩
      · obtain ⟨op', hop', hoffer⟩ := ih key e hold
        exact ⟨op', List.mem_append_left _ hop', hoffer⟩
      · exact ⟨op, List.mem_append_right _ (List.mem_singleton.2 rfl), o, ho⟩

/-! ### Soundness -/

/-- The operation offered the runtime for the uuid and the namespace, with this reference code or with none. -/
def Op.Carries (py : Python) (op : Op) (uuid : Option String) (referenceCode : String) (isValid : Bool)
    (runtime : Extended) (o : Offer) : Prop :=
  op.offer py = some o ∧ uuid = some o.uuid ∧ o.isValid = isValid ∧
    (o.referenceCode = referenceCode ∨ o.referenceCode = "") ∧ o.runtime = runtime

/-- The entry that a lookup found comes from one operation. -/
theorem get_carried {ops : List Op} {referenceCode : String} {r : Extended} (hsha : Function.Injective py.sha256)
    (hcode : referenceCode ≠ "")
    (h : ((run py ops).get py a uuid (.str referenceCode) isValid).1 = .ok (some r)) :
    ∃ op ∈ ops, ∃ o, op.Carries py uuid referenceCode isValid r o ∧
      ((run py ops).fetch a (entryKey o.uuid isValid)).1 = some (o.entry py) := by
  obtain ⟨u, e, hu, hfetch, hr, -, hhash⟩ := get_some hcode h
  obtain ⟨op, hop, o, hoffer, hkey, rfl⟩ := run_backed ops _ e (fetch_has hfetch)
  obtain ⟨rfl, hvalid⟩ := entryKey_inj.1 hkey
  refine ⟨op, hop, o, ⟨hoffer, (given_eq_some.1 hu).1, hvalid, ?_, hr⟩, hfetch⟩
  simp only [Offer.entry] at hhash
  split_ifs at hhash with hempty
  · exact .inr hempty
  · obtain hnone | hsome := hhash
    · cases hnone
    · exact .inl (hsha (Option.some.inj hsome))

theorem getMemory_carried {ops : List Op} {referenceCode : String} {m : Object}
    (hsha : Function.Injective py.sha256) (hcode : referenceCode ≠ "")
    (h : ((run py ops).getMemory py a uuid (.str referenceCode) isValid).1 = .ok (some m)) :
    ∃ r, ((run py ops).get py a uuid (.str referenceCode) isValid).1 = .ok (some r) ∧
      ∃ op ∈ ops, ∃ o, op.Carries py uuid referenceCode isValid r o ∧ o.memory = some m := by
  unfold World.getMemory at h
  dsimp only at h
  cases hget : ((run py ops).get py a uuid (.str referenceCode) isValid).1 with
  | error e =>
      rw [hget] at h
      cases h
  | ok answer =>
      rw [hget] at h
      cases answer with
      | none => cases h
      | some r =>
          obtain ⟨op, hop, o, hcarries, hfetch⟩ := get_carried hsha hcode hget
          refine ⟨r, rfl, op, hop, o, hcarries, ?_⟩
          obtain ⟨u, e, hu, -⟩ := get_some hcode hget
          obtain rfl : u = o.uuid := Option.some.inj ((given_eq_some.1 hu).1.symm.trans hcarries.2.1)
          simp only [Except.map, hu, get_eq hu, fetch_memory hfetch, Option.bind_some, Except.ok.injEq,
            Option.filter_eq_some_iff] at h
          exact h.1

/-- A preloaded record without a usable runtime has the effect of lookups. -/
theorem record_unusable {process p : ProcessId} {r : Value} {reachable : Bool × Bool × Bool}
    (h : Unusable py (recordRuntime r)) :
    ((step py w (.record process isValid r reachable)).get py ⟨p, true⟩ uuid code isValid').1 =
      (w.get py ⟨p, true⟩ uuid code isValid').1 := by
  simp only [step, World.preloadRecord]
  by_cases hcurrent : current r = true
  · simp only [if_pos hcurrent, put_unusable h]
    split
    · exact get_get
    · rw [get_get, get_get]
  · rw [if_neg hcurrent]

/-- The data set of `preload` is a sequence of records, up to the one that raises. -/
theorem preload_run {process : ProcessId} {records : List (Value × Bool × Bool × Bool)} {loaded : ℕ} :
    ∃ count, (w.preload py process isValid records loaded).2 =
      ((records.take count).map fun r => Op.record process isValid r.1 r.2).foldl (step py) w := by
  induction records generalizing w loaded with
  | nil => exact ⟨0, rfl⟩
  | cons r rest ih =>
      unfold World.preload
      split
      · rename_i counted w' hrecord
        obtain ⟨count, hcount⟩ := @ih w' (if counted then loaded + 1 else loaded)
        refine ⟨count + 1, ?_⟩
        rw [hcount, List.take_succ_cons, List.map_cons, List.foldl_cons, step, hrecord]
      · rename_i hrecord
        refine ⟨1, ?_⟩
        rw [List.take_succ_cons, List.take_zero, List.map_singleton, List.foldl_cons, List.foldl_nil, step, hrecord]

/-- A runtime that is found after a `preload` was put before, or stands in a record of its data set. -/
theorem get_after_preload {ops : List Op} {process : ProcessId} {records : List (Value × Bool × Bool × Bool)}
    {preloadValid : Bool} {referenceCode : String} {r : Extended} (hsha : Function.Injective py.sha256)
    (hcode : referenceCode ≠ "")
    (h : (((run py ops).preload py process preloadValid records 0).2.get py a uuid (.str referenceCode)
      isValid).1 = .ok (some r)) :
    ∃ op, (op ∈ ops ∨ ∃ record ∈ records, op = .record process preloadValid record.1 record.2) ∧
      ∃ o, op.Carries py uuid referenceCode isValid r o := by
  obtain ⟨count, hcount⟩ : ∃ count, ((run py ops).preload py process preloadValid records 0).2 =
      ((records.take count).map fun r => Op.record process preloadValid r.1 r.2).foldl (step py) (run py ops) :=
    preload_run
  rw [hcount, run, ← List.foldl_append] at h
  obtain ⟨op, hop, o, hcarries, -⟩ := get_carried hsha hcode h
  refine ⟨op, ?_, o, hcarries⟩
  rcases List.mem_append.1 hop with hold | hloaded
  · exact .inl hold
  · obtain ⟨record, hrecord, rfl⟩ := List.mem_map.1 hloaded
    exact .inr ⟨record, List.mem_of_mem_take hrecord, rfl⟩

/-- **The reference cache answers with what was put.** A runtime comes from one earlier `put` or preloaded
record of the same uuid and namespace that has the same reference code or none, and a memory record from the
operation that the runtime comes from; a `put` without a usable runtime changes nothing, and a preloaded record
without one changes no answer. -/
theorem reference_cache_sound (py : Python) (hsha : Function.Injective py.sha256) :
    (∀ ops a uuid referenceCode isValid r, referenceCode ≠ "" →
      ((run py ops).get py a uuid (.str referenceCode) isValid).1 = .ok (some r) →
        ∃ op ∈ ops, ∃ o, op.Carries py uuid referenceCode isValid r o) ∧
    (∀ ops a uuid referenceCode isValid m, referenceCode ≠ "" →
      ((run py ops).getMemory py a uuid (.str referenceCode) isValid).1 = .ok (some m) →
        ∃ r, ((run py ops).get py a uuid (.str referenceCode) isValid).1 = .ok (some r) ∧
          ∃ op ∈ ops, ∃ o, op.Carries py uuid referenceCode isValid r o ∧ o.memory = some m) ∧
    (∀ w a uuid referenceCode isValid runtime referenceMemory, Unusable py runtime →
      step py w (.put a uuid referenceCode isValid runtime referenceMemory) = w) ∧
    ∀ w process isValid r reachable, Unusable py (recordRuntime r) →
      ∀ p uuid referenceCode isValid',
        ((step py w (.record process isValid r reachable)).get py ⟨p, true⟩ uuid referenceCode isValid').1 =
          (w.get py ⟨p, true⟩ uuid referenceCode isValid').1 := by
  refine ⟨fun ops a uuid referenceCode isValid r hcode h => ?_, fun ops a uuid referenceCode isValid m hcode h => ?_,
    fun w a uuid referenceCode isValid runtime referenceMemory h => ?_, fun w process isValid r reachable h => ?_⟩
  · obtain ⟨op, hop, o, hcarries, -⟩ := get_carried hsha hcode h
    exact ⟨op, hop, o, hcarries⟩
  · exact getMemory_carried hsha hcode h
  · simp only [step, put_unusable h]
  · exact fun p uuid referenceCode isValid' => record_unusable h

/-- A Python whose digests are the texts themselves. -/
def plain : Python := ⟨fun _ => none, fun _ => "", id⟩

def putOnce : List Op :=
  [.put ⟨0, true⟩ (some "problem-1") "class Model: pass" false (.num (.float (.finite (5 / 4)))) none]

theorem reference_cache_sound_once :
    ((run plain putOnce).get plain ⟨1, true⟩ (some "problem-1") (.str "class Model: pass") false).1 =
        .ok (some (.finite (5 / 4))) ∧
      ∃ op ∈ putOnce, ∃ o, op.Carries plain (some "problem-1") "class Model: pass" false (.finite (5 / 4)) o := by
  have hget : ((run plain putOnce).get plain ⟨1, true⟩ (some "problem-1") (.str "class Model: pass") false).1 =
      .ok (some (.finite (5 / 4))) := by decide +kernel
  exact ⟨hget, (reference_cache_sound plain Function.injective_id).1 _ _ _ _ _ _ (by decide) hget⟩

/-- A record without a reference code. -/
def codeless : Value :=
  (((JsonObject.empty.set "uuid" (.str "problem-1")).set "runtime" (.num (.float (.finite (5 / 2))))).set
    "execution_policy" (.str executionPolicyVersion)).toJson

/-- A record without a reference code answers for every code. -/
theorem codeless_answers :
    ((run plain [.record 0 false codeless (true, true, true)]).get plain ⟨1, true⟩ (some "problem-1")
        (.str "class Model: pass") false).1 = .ok (some (.finite (5 / 2))) ∧
      ∀ op ∈ [Op.record 0 false codeless (true, true, true)], ∀ o, op.offer plain = some o →
        o.referenceCode ≠ "class Model: pass" := by
  refine ⟨by decide +kernel, fun op hop o ho => ?_⟩
  have hoffer : ((Op.record 0 false codeless (true, true, true)).offer plain).map Offer.referenceCode = some "" := by
    decide +kernel
  rw [List.mem_singleton.1 hop] at ho
  rw [ho, Option.map_some, Option.some.injEq] at hoffer
  rw [hoffer]
  decide

end KernelGym.ReferenceCache
