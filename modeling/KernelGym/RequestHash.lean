import KernelGym.Library.JsonPaths
import KernelGym.Library.JsonText

/-! `request_hash`: the request without bookkeeping keys, written as JSON and hashed. A dict is a finite map:
the function reads dicts in the order of their keys, and so does the JSON it writes. -/

namespace KernelGym.RequestHash

open Library

/-- How floats are written: `float.__repr__`, `NaN` and `Infinity`. -/
structure FloatFormat (F : Type) where
  text : F → List Char
  injective : Function.Injective text
  plain : ∀ x, ∀ c ∈ text x, c ∉ [',', ']', '}']
  opens : ∀ x, ∃ c rest, text x = c :: rest ∧ c ∉ ['n', 't', 'f', '"', '[', '{']
  /-- A float is no integer text. -/
  marked : ∀ x, ∃ c ∈ text x, c ≠ '-' ∧ ¬c.isDigit

inductive Number (F : Type)
  | int (n : ℤ)
  | float (x : F)
  deriving DecidableEq

/-- A payload tree, with lists and tuples as finite families. -/
inductive PyValue (F : Type)
  | none
  | bool (b : Bool)
  | num (n : Number F)
  | str (s : String)
  | list (length : ℕ) (items : Fin length → PyValue F)
  | tuple (length : ℕ) (items : Fin length → PyValue F)
  | dict (keys : Finset String) (values : {k // k ∈ keys} → PyValue F)

/-- The payload of a request, a dict. -/
structure Payload (F : Type) where
  keys : Finset String
  values : {k // k ∈ keys} → PyValue F

/-- `REQUEST_HASH_IGNORED_KEYS` -/
def ignoredKeys : Finset String :=
  {"assigned_device", "completed_at", "estimated_completion", "force_refresh", "line_index", "metadata",
    "model_id", "output_index", "progress", "queue_position", "run_id", "status", "submitted_at", "task_id",
    "turn_id"}

variable {F : Type}

/-- The tree with tuples as lists. -/
def PyValue.toJson : PyValue F → Json (Number F)
  | .none => .null
  | .bool b => .bool b
  | .num n => .num n
  | .str s => .str s
  | .list length items => .arr length fun i => (items i).toJson
  | .tuple length items => .arr length fun i => (items i).toJson
  | .dict keys values => .obj keys fun k => (values k).toJson

/-- The keys that are no bookkeeping keys. -/
def kept (keys : Finset String) : Finset String := keys \ ignoredKeys

theorem mem_of_kept {keys : Finset String} {k : String} (h : k ∈ kept keys) : k ∈ keys :=
  (Finset.mem_sdiff.1 h).1

/-- `canonicalize_for_request_hash` -/
def canonicalize : PyValue F → Json (Number F)
  | .none => .null
  | .bool b => .bool b
  | .num n => .num n
  | .str s => .str s
  | .list length items => .arr length fun i => canonicalize (items i)
  | .tuple length items => .arr length fun i => canonicalize (items i)
  | .dict keys values => .obj (kept keys) fun k => canonicalize (values ⟨k.1, mem_of_kept k.2⟩)

def executionPolicyVersion : String := "eval_no_grad_tf32_decoy_v3"

def Payload.toValue (p : Payload F) : PyValue F := .dict p.keys p.values

/-- `canonical` -/
def canonical (workflow : String) (payload : Payload F) : Json (Number F) :=
  .obj (if workflow = "kernelbench" then {"workflow", "payload", "execution_policy"} else {"workflow", "payload"})
    fun k =>
      if k.1 = "workflow" then .str workflow
      else if k.1 = "payload" then canonicalize payload.toValue
      else .str executionPolicyVersion

/-- `str(n)` -/
def intText (n : ℤ) : List Char :=
  if n < 0 then '-' :: Nat.toDigits 10 n.natAbs else Nat.toDigits 10 n.natAbs

theorem natText_injective : Function.Injective (Nat.toDigits 10) := by
  intro m n h
  have := congrArg (fun text => Nat.ofDigitChars 10 text 0) h
  simpa only [Nat.ofDigitChars_ten_toDigits] using this

theorem isDigit_of_mem {n : ℕ} {c : Char} (h : c ∈ Nat.toDigits 10 n) : c.isDigit :=
  Nat.isDigit_of_mem_toDigits (by decide) (by decide) h

theorem mem_intText {n : ℤ} {c : Char} (h : c ∈ intText n) : c = '-' ∨ c.isDigit := by
  unfold intText at h
  split at h
  · obtain rfl | h := List.mem_cons.1 h
    · exact .inl rfl
    · exact .inr (isDigit_of_mem h)
  · exact .inr (isDigit_of_mem h)

theorem intText_injective : Function.Injective intText := by
  have hminus : ∀ n : ℕ, ∀ rest, Nat.toDigits 10 n ≠ '-' :: rest := by
    intro n rest h
    have : ('-' : Char).isDigit := isDigit_of_mem (n := n) (by rw [h]; exact List.mem_cons_self)
    exact absurd this (by decide)
  intro m n h
  unfold intText at h
  split at h <;> split at h
  · have := natText_injective (List.cons.inj h).2
    omega
  · exact absurd h.symm (hminus _ _)
  · exact absurd h (hminus _ _)
  · have := natText_injective h
    omega

theorem intText_opens (n : ℤ) : ∃ c rest, intText n = c :: rest := by
  unfold intText
  split
  · exact ⟨_, _, rfl⟩
  · exact List.exists_cons_of_ne_nil Nat.toDigits_ne_nil

theorem digit_or_minus_notMem {c : Char} (h : c = '-' ∨ c.isDigit) {l : List Char}
    (hl : ∀ d ∈ l, d ≠ '-' ∧ ¬d.isDigit) : c ∉ l := by
  intro hmem
  obtain ⟨hminus, hdigit⟩ := hl c hmem
  exact h.elim hminus hdigit

/-- How `json.dumps` writes numbers. -/
def numberFormat (f : FloatFormat F) : NumberFormat (Number F) where
  text
    | .int n => intText n
    | .float x => f.text x
  injective := by
    have hmarked : ∀ n x, intText n ≠ f.text x := by
      intro n x h
      obtain ⟨c, hc, hminus, hdigit⟩ := f.marked x
      exact (mem_intText (h ▸ hc)).elim hminus hdigit
    rintro (m | x) (n | y) h
    · exact congrArg Number.int (intText_injective h)
    · exact absurd h (hmarked m y)
    · exact absurd h.symm (hmarked n x)
    · exact congrArg Number.float (f.injective h)
  plain
    | .int n => fun _ hc => digit_or_minus_notMem (mem_intText hc) (by simp [Char.isDigit])
    | .float x => f.plain x
  opens
    | .int n => by
      obtain ⟨c, rest, h⟩ := intText_opens n
      exact ⟨c, rest, h, digit_or_minus_notMem (mem_intText (h ▸ List.mem_cons_self))
        (by simp [Char.isDigit])⟩
    | .float x => f.opens x

/-- `request_hash`, for a hash function and a way to write floats. -/
def requestHash (sha1 : ByteArray → String) (f : FloatFormat F) (workflowName : String)
    (payload : Payload F) : String :=
  let workflow := if workflowName = "" then "kernelbench" else workflowName
  sha1 (String.ofList (dumps (numberFormat f) (canonical workflow payload))).toByteArray

/-! ### Requests that are the same -/

/-- The request without bookkeeping keys at its top level, with tuples as lists. -/
def Payload.request (p : Payload F) : Json (Number F) :=
  .obj (kept p.keys) fun k => (p.values ⟨k.1, mem_of_kept k.2⟩).toJson

/-- Equal up to the order of keys, tuples for lists, and bookkeeping keys at the top level. -/
def SameRequest (p q : Payload F) : Prop := p.request = q.request

/-- No bookkeeping key stands in the path. -/
def Clean (path : List JsonStep) : Prop := ∀ k ∈ ignoredKeys, JsonStep.key k ∉ path

instance : DecidablePred Clean := fun path => inferInstanceAs (Decidable (∀ k ∈ ignoredKeys, JsonStep.key k ∉ path))

/-- The path begins at a bookkeeping key of the request. -/
def Outer (path : List JsonStep) : Prop := ∃ k ∈ ignoredKeys, path.head? = some (.key k)

instance : DecidablePred Outer := fun path =>
  inferInstanceAs (Decidable (∃ k ∈ ignoredKeys, path.head? = some (.key k)))

/-- The path leads below a bookkeeping key that is no key of the request itself. -/
def Shadowed (path : List JsonStep) : Prop := ¬Outer path ∧ ¬Clean path

/-- The payloads have something else at the end of the path, or one of them has no such path. -/
def DifferAt (p q : Payload F) (path : List JsonStep) : Prop :=
  p.toValue.toJson.read path ≠ q.toValue.toJson.read path

theorem requestHash_eq_iff {sha1 : ByteArray → String} (hsha1 : Function.Injective sha1) (f : FloatFormat F)
    (w : String) (p q : Payload F) :
    requestHash sha1 f w p = requestHash sha1 f w q ↔ canonicalize p.toValue = canonicalize q.toValue := by
  unfold requestHash
  dsimp only
  generalize (if w = "" then "kernelbench" else w) = workflow
  rw [hsha1.eq_iff, String.toByteArray_inj, String.ofList_inj, (dumps_injective _).eq_iff]
  constructor
  · intro h
    simp only [canonical, Json.obj.injEq, heq_eq_eq, true_and] at h
    have hmem : "payload" ∈ (if workflow = "kernelbench" then
        ({"workflow", "payload", "execution_policy"} : Finset String) else {"workflow", "payload"}) := by
      split <;> decide
    have hvalue := congrFun h ⟨"payload", hmem⟩
    simpa using hvalue
  · intro h
    simp only [canonical, h]

theorem obj_congr {ν : Type} {keys keys' : Finset String} {values : {k // k ∈ keys} → Json ν}
    {values' : {k // k ∈ keys'} → Json ν} (hkeys : keys = keys')
    (hvalues : ∀ k h h', values ⟨k, h⟩ = values' ⟨k, h'⟩) : Json.obj keys values = .obj keys' values' := by
  subst hkeys
  congr
  funext k
  exact hvalues k.1 k.2 k.2

theorem obj_values {ν : Type} {keys keys' : Finset String} {values : {k // k ∈ keys} → Json ν}
    {values' : {k // k ∈ keys'} → Json ν} (h : Json.obj keys values = .obj keys' values') :
    keys = keys' ∧ ∀ k h h', values ⟨k, h⟩ = values' ⟨k, h'⟩ := by
  cases h
  exact ⟨rfl, fun _ _ _ => rfl⟩

/-! ### What stands where -/

theorem clean_nil : Clean [] := fun _ _ => List.not_mem_nil

theorem clean_item {i : ℕ} {path : List JsonStep} : Clean (.item i :: path) ↔ Clean path := by
  simp [Clean]

theorem clean_key {k : String} {path : List JsonStep} : Clean (.key k :: path) ↔ k ∉ ignoredKeys ∧ Clean path := by
  simp only [Clean, List.mem_cons, JsonStep.key.injEq, not_or]
  constructor
  · intro h
    exact ⟨fun hk => (h k hk).1 rfl, fun k' hk' => (h k' hk').2⟩
  · rintro ⟨hk, hpath⟩ k' hk'
    exact ⟨fun heq => hk (heq ▸ hk'), hpath k' hk'⟩

/-- The canonical form has what the payload has at the paths without bookkeeping keys, and nothing elsewhere. -/
theorem read_canonicalize (v : PyValue F) (path : List JsonStep) :
    (canonicalize v).read path = if Clean path then v.toJson.read path else none := by
  induction v generalizing path with
  | list length items ih | tuple length items ih =>
      cases path with
      | nil => simp [canonicalize, PyValue.toJson, clean_nil, Json.head]
      | cons step path =>
          cases step with
          | key k => simp [canonicalize, PyValue.toJson, Json.read]
          | item i =>
              simp only [canonicalize, PyValue.toJson, Json.read_item, clean_item, ih]
              split_ifs <;> rfl
  | dict keys values ih =>
      cases path with
      | nil => simp [canonicalize, PyValue.toJson, clean_nil, Json.head]
      | cons step path =>
          cases step with
          | item i => simp [canonicalize, PyValue.toJson, Json.read]
          | key k =>
              simp only [canonicalize, PyValue.toJson, Json.read_key, clean_key, ih, kept, Finset.mem_sdiff]
              by_cases hk : k ∈ keys <;> by_cases hignored : k ∈ ignoredKeys <;> simp [hk, hignored]
  | _ =>
      cases path with
      | nil => simp [canonicalize, PyValue.toJson, clean_nil]
      | cons step path => cases step <;> simp [canonicalize, PyValue.toJson, Json.read]

/-- The request has what the payload has except under its own bookkeeping keys. -/
theorem read_request (p : Payload F) (path : List JsonStep) :
    p.request.read path = if Outer path then none else p.toValue.toJson.read path := by
  cases path with
  | nil => simp [Payload.request, Payload.toValue, PyValue.toJson, Outer, Json.head]
  | cons step path =>
      cases step with
      | item i => simp [Payload.request, Payload.toValue, PyValue.toJson, Json.read]
      | key k =>
          have houter : Outer (.key k :: path) ↔ k ∈ ignoredKeys := by simp [Outer]
          simp only [Payload.request, Payload.toValue, PyValue.toJson, Json.read_key, kept, Finset.mem_sdiff, houter]
          by_cases hk : k ∈ p.keys <;> by_cases hignored : k ∈ ignoredKeys <;> simp [hk, hignored]

theorem canonicalize_eq_iff (p q : Payload F) :
    canonicalize p.toValue = canonicalize q.toValue ↔ ∀ path, Clean path → ¬DifferAt p q path := by
  constructor
  · intro h path hclean
    have hread := congrArg (Json.read · path) h
    simpa [read_canonicalize, hclean, DifferAt] using hread
  · intro h
    refine Json.ext_read fun path => ?_
    rw [read_canonicalize, read_canonicalize]
    split_ifs with hclean
    · exact not_not.1 (h path hclean)
    · rfl

theorem sameRequest_iff (p q : Payload F) : SameRequest p q ↔ ∀ path, ¬Outer path → ¬DifferAt p q path := by
  constructor
  · intro h path houter
    have hread := congrArg (Json.read · path) h
    simpa [read_request, houter, DifferAt] using hread
  · intro h
    refine Json.ext_read fun path => ?_
    rw [read_request, read_request]
    split_ifs with houter
    · rfl
    · exact not_not.1 (h path houter)

theorem not_outer_of_clean {path : List JsonStep} (h : Clean path) : ¬Outer path := by
  rintro ⟨k, hk, hhead⟩
  exact h k hk (List.mem_of_mem_head? hhead)

/-- **For every two requests: they have one hash exactly when they are the same, if and only if they differ below
a nested bookkeeping key only where they differ in something else too.** -/
theorem request_identified_iff (sha1 : ByteArray → String) (hsha1 : Function.Injective sha1)
    (f : FloatFormat F) (workflowName : String) (p q : Payload F) :
    (requestHash sha1 f workflowName p = requestHash sha1 f workflowName q ↔ SameRequest p q) ↔
      ((∃ path, Shadowed path ∧ DifferAt p q path) → ∃ path, Clean path ∧ DifferAt p q path) := by
  rw [requestHash_eq_iff hsha1, canonicalize_eq_iff, sameRequest_iff]
  constructor
  · rintro h ⟨path, ⟨houter, -⟩, hdiffer⟩
    by_contra helse
    push Not at helse
    exact h.1 helse path houter hdiffer
  · intro h
    constructor
    · intro hclean path houter hdiffer
      by_cases hpath : Clean path
      · exact hclean path hpath hdiffer
      · obtain ⟨path', hpath', hdiffer'⟩ := h ⟨path, ⟨houter, hpath⟩, hdiffer⟩
        exact hclean path' hpath' hdiffer'
    · intro hsame path hpath
      exact hsame path (not_outer_of_clean hpath)

/-! ### A nested configuration -/

/-- The bytes as characters, an injective stand-in for the hash. -/
def latin1 (bytes : ByteArray) : String := String.ofList (bytes.data.toList.map fun b => Char.ofNat b.toNat)

theorem latin1_injective : Function.Injective latin1 := by
  have hchar : Function.Injective fun b : UInt8 => Char.ofNat b.toNat := by
    intro b c h
    have hvalid : ∀ n < 256, (Char.ofNat n).toNat = n := by decide +kernel
    have := congrArg Char.toNat h
    simp only [hvalid _ b.toNat_lt, hvalid _ c.toNat_lt] at this
    exact UInt8.toNat_inj.1 this
  intro b c h
  have hlist := List.map_injective_iff.2 hchar (String.ofList_inj.1 h)
  exact ByteArray.ext (Array.toList_inj.1 hlist)

def noFloats : FloatFormat Empty := ⟨nofun, nofun, nofun, nofun, nofun⟩

/-- A request whose `config` holds one value under a key. -/
def configured (key value : String) : Payload Empty :=
  ⟨{"config"}, fun _ => .dict {key} fun _ => .str value⟩

/-- Two requests that differ in a nested value under another key have different hashes. -/
theorem request_identified_nested :
    requestHash latin1 noFloats "kernelbench" (configured "lr" "1") ≠
      requestHash latin1 noFloats "kernelbench" (configured "lr" "2") := by
  have hdiffer : DifferAt (configured "lr" "1") (configured "lr" "2") [.key "config", .key "lr"] := by
    simp [DifferAt, configured, Payload.toValue, PyValue.toJson, Json.head]
  have h := (request_identified_iff latin1 latin1_injective noFloats "kernelbench" (configured "lr" "1")
    (configured "lr" "2")).2 fun _ => ⟨_, by decide, hdiffer⟩
  intro heq
  exact (sameRequest_iff _ _).1 (h.1 heq) [.key "config", .key "lr"] (by decide) hdiffer

/-- Two requests that differ in a nested value under the key `status` have one hash. -/
theorem nested_status_dropped :
    requestHash latin1 noFloats "kernelbench" (configured "status" "train") =
        requestHash latin1 noFloats "kernelbench" (configured "status" "eval") ∧
      ¬SameRequest (configured "status" "train") (configured "status" "eval") := by
  constructor
  · refine (requestHash_eq_iff latin1_injective _ _ _ _).2 (obj_congr rfl fun k _ _ => ?_)
    exact obj_congr rfl fun k hk _ => absurd (Finset.mem_sdiff.1 hk) (by simp +contextual [ignoredKeys])
  · intro h
    have hconfig := (obj_values h).2 "config" (by decide) (by decide)
    have hvalue := (obj_values hconfig).2 "status" (by decide) (by decide)
    simp [PyValue.toJson] at hvalue

end KernelGym.RequestHash
