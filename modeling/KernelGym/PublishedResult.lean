import KernelGym.ResultCodecs
import KernelGym.ScriptsWorkflow

/-! The result that a workflow publishes on a normal completion, compared with the result of its
controller. -/

namespace KernelGym

open Library

/-! ### The controller's result -/

/-- `TaskStatus.value`. -/
def TaskStatus.value : TaskStatus → String
  | .pending => "pending"
  | .processing => "processing"
  | .completed => "completed"
  | .failed => "failed"
  | .timeout => "timeout"

/-- `_value`, for the words that it is compared with: no other value has the text of one of them. -/
def payloadText (v : Option (Json PyNumber)) : String :=
  match v with
  | some (.str s) => s
  | _ => ""

/-- `str.upper` on the letters of `TIMEOUT_ERROR`. -/
def upperChar (c : Char) : Char := if c = 'ı' then 'I' else c.toUpper

/-- `task_status_from_result_payload`. -/
def resultStatus (r : JsonObject PyNumber) : TaskStatus :=
  let status := (payloadText (r.get "status")).map Char.toLower
  let code := (payloadText (r.get "error_code")).map upperChar
  taskStatusFromResultPayload
    (if status = "timeout" then some .timeout else if status = "failed" then some .failed else none)
    (if code = "TIMEOUT_ERROR" then some .timeoutError else none)

/-- What `WorkflowLifecycle.run` makes of the result of its controller. -/
def controllerResult (id : TaskId) (r : JsonObject PyNumber) : JsonObject PyNumber :=
  let result := r.set "task_id" (.str id)
  result.set "status" (.str (resultStatus result).value)

/-! ### `_FINISH` -/

/-- The `children` field of a parent, decoded; `{}` where there is none. -/
def childrenJson {ν : Type} (children : Option (List (Stage × TaskId))) : JsonObject ν :=
  (children.getD []).foldl (fun o child => o.set child.1.name (.str child.2)) .empty

/-- The reason and the table that `_FINISH` publishes. -/
def finishTable (id : TaskId) (g : Generation) (table : JsonObject LuaNumber) (reason : String)
    (s : Store) : JsonObject LuaNumber :=
  let record := s.hgetall id
  let step₁ : String × JsonObject LuaNumber :=
    if record.parent.cancellationKey.any s.tombstones then
      ("Task cancelled", (table.set "status" (.str "failed")).set "error_code" (.str "SYSTEM_ERROR"))
    else (reason, table)
  let step₂ : String × JsonObject LuaNumber :=
    if record.workflow.deadline.getD 0 ≤ s.now then
      ("Workflow end-to-end deadline exceeded",
        (step₁.2.set "status" (.str "timeout")).set "error_code" (.str "TIMEOUT_ERROR"))
    else if s.leases id ≠ some g ∧ step₁.1 = "" then
      ("Workflow owner lease expired",
        (step₁.2.set "status" (.str "failed")).set "error_code" (.str "SYSTEM_ERROR"))
    else step₁
  let step₃ : JsonObject LuaNumber :=
    if step₂.1 ≠ "" then
      ((step₂.2.set "error_message" (.str step₂.1)).set "compiled" (.bool false)).set "correctness"
        (.bool false)
    else step₂.2
  ((step₃.set "task_id" (.str id)).set "workflow_generation" (.str g)).set "workflow_children"
    (childrenJson record.parent.children).toJson

/-- The JSON that `finish` stores with the result; `none` where it stores nothing. -/
def publish (id : TaskId) (g : Generation) (r : JsonObject PyNumber) (reason : String) (s : Store) :
    Option (JsonObject Literal) :=
  let record := s.hgetall id
  if record.workflow.generation ≠ some g then none
  else if !record.active then none
  else cjsonEncode (finishTable id g (cjsonDecode (dumps r)) reason s)

/-! ### Normal completions -/

/-- The workflow is still owned: no tombstone, within its deadline, and with a valid lease. -/
structure NormalCompletion (s : Store) (id : TaskId) (g : Generation) : Prop where
  generation : (s.hgetall id).workflow.generation = some g
  active : (s.hgetall id).active = true
  tombstone : (s.hgetall id).parent.cancellationKey.any s.tombstones = false
  deadline : s.now < (s.hgetall id).workflow.deadline.getD 0
  lease : s.leases id = some g

/-- The controller's result with the four fields that the lifecycle sets. -/
def expectedResult (s : Store) (id : TaskId) (g : Generation) (r : JsonObject PyNumber) :
    JsonObject PyNumber :=
  (((r.set "task_id" (.str id)).set "status" (.str (resultStatus r).value)).set "workflow_generation"
    (.str g)).set "workflow_children" (childrenJson (s.hgetall id).parent.children).toJson

def lifecycleKeys : List String := ["task_id", "status", "workflow_generation", "workflow_children"]

variable {s : Store} {id : TaskId} {g : Generation} {r : JsonObject PyNumber}

/-! ### The lifecycle fields in the codecs -/

/-- A value that passes the decoding of what `json.dumps` writes as it is. -/
theorem decoded_set (o : JsonObject PyNumber) (k : String) (v : Json PyNumber) :
    cjsonDecode (dumps (o.set k v)) =
      (cjsonDecode (dumps o)).set k ((v.map PyNumber.literal).map Literal.lua).collapse := by
  rw [cjsonDecode, dumps, JsonObject.map_set, JsonObject.map_set, JsonObject.collapse_set, cjsonDecode,
    dumps]

theorem decoded_str (o : JsonObject PyNumber) (k text : String) :
    cjsonDecode (dumps (o.set k (.str text))) = (cjsonDecode (dumps o)).set k (.str text) :=
  decoded_set o k (.str text)

theorem decoded_childrenJson (children : Option (List (Stage × TaskId))) :
    cjsonDecode (dumps (childrenJson children)) = childrenJson children := by
  have hfold : ∀ (rest : List (Stage × TaskId)) (o : JsonObject PyNumber),
      cjsonDecode (dumps (rest.foldl (fun o child => o.set child.1.name (.str child.2)) o)) =
        rest.foldl (fun o child => o.set child.1.name (.str child.2)) (cjsonDecode (dumps o)) := by
    intro rest
    induction rest with
    | nil => exact fun _ => rfl
    | cons child rest ih =>
        intro o
        rw [List.foldl_cons, ih, decoded_str, List.foldl_cons]
  have hempty : cjsonDecode (dumps .empty) = .empty := JsonObject.ext_get fun _ => rfl
  rw [childrenJson, hfold, hempty, childrenJson]

theorem preserved_iff (o : JsonObject PyNumber) :
    Preserved o.toJson ↔ ∀ k v, o.get k = some v → Preserved v := by
  have hboth : ∀ P : Json PyNumber → Prop, (∀ x, P (o.values x)) ↔ ∀ k v, o.get k = some v → P v :=
    fun P => JsonObject.forall_values_iff
  change ((∀ x, (o.values x).NoEmptyArray) ∧ ∀ x, (o.values x).AllNum PyNumber.FewDigits) ↔ _
  rw [← forall_and]
  exact hboth Preserved

theorem preserved_str (text : String) : Preserved (.str text) := ⟨trivial, trivial⟩

theorem preserved_set (o : JsonObject PyNumber) {k : String} {v : Json PyNumber} (hv : Preserved v) :
    Preserved (o.set k v).toJson ↔ ∀ k', k' ≠ k → ∀ v', o.get k' = some v' → Preserved v' := by
  rw [preserved_iff]
  simp only [JsonObject.get_set]
  constructor
  · intro h k' hk v' hv'
    exact h k' v' (by rw [if_neg hk]; exact hv')
  · intro h k' v' hv'
    split_ifs at hv' with hk
    · exact Option.some.inj hv' ▸ hv
    · exact h k' hk v' hv'

theorem preserved_childrenJson (children : Option (List (Stage × TaskId))) :
    Preserved (childrenJson children).toJson := by
  have hfold : ∀ (rest : List (Stage × TaskId)) (o : JsonObject PyNumber), Preserved o.toJson →
      Preserved (rest.foldl (fun o child => o.set child.1.name (.str child.2)) o).toJson := by
    intro rest
    induction rest with
    | nil => exact fun _ h => h
    | cons child rest ih =>
        intro o ho
        rw [List.foldl_cons]
        refine ih _ ((preserved_set o (preserved_str _)).mpr fun k' _ v' hv' => ?_)
        exact (preserved_iff o).mp ho k' v' hv'
  refine hfold _ _ ((preserved_iff _).mpr fun k v hv => ?_)
  exact absurd hv (by simp [JsonObject.get, JsonObject.empty])

/-- The fields that the lifecycle sets are preserved, whatever they replace. -/
theorem preserved_expected_iff : Preserved (expectedResult s id g r).toJson ↔
    ∀ k v, k ∉ lifecycleKeys → r.get k = some v → Preserved v := by
  rw [expectedResult, preserved_set _ (preserved_childrenJson _)]
  simp only [JsonObject.get_set, lifecycleKeys, List.mem_cons, List.not_mem_nil, or_false, not_or]
  constructor
  · rintro h k v ⟨htask, hstatus, hgeneration, hchildren⟩ hv
    refine h k hchildren v ?_
    rw [if_neg hgeneration, if_neg hstatus, if_neg htask]
    exact hv
  · intro h k hchildren v hv
    split_ifs at hv with hgeneration hstatus htask
    · exact Option.some.inj hv ▸ preserved_str _
    · exact Option.some.inj hv ▸ preserved_str _
    · exact Option.some.inj hv ▸ preserved_str _
    · exact h k v ⟨htask, hstatus, hgeneration, hchildren⟩ hv

/-- The table that a normal completion publishes is the decoded result with the four fields. -/
theorem finishTable_normal (h : NormalCompletion s id g) :
    finishTable id g (cjsonDecode (dumps (controllerResult id r))) "" s =
      cjsonDecode (dumps (expectedResult s id g r)) := by
  have hstatus : resultStatus (r.set "task_id" (.str id)) = resultStatus r := by
    have hget : ∀ k, k ≠ "task_id" → (r.set "task_id" (.str id)).get k = r.get k := fun k hk => by
      rw [JsonObject.get_set, if_neg hk]
    rw [resultStatus, hget _ (by decide), hget _ (by decide), resultStatus]
  have hagain : (controllerResult id r).set "task_id" (.str id) =
      (r.set "task_id" (.str id)).set "status" (.str (resultStatus r).value) := by
    apply JsonObject.ext_get
    intro k
    rw [controllerResult, hstatus]
    simp only [JsonObject.get_set]
    split_ifs with htask hstatus <;> first | rfl | (subst htask; exact absurd hstatus (by decide))
  have hchildren : (((childrenJson (s.hgetall id).parent.children).toJson.map PyNumber.literal).map
      Literal.lua).collapse = (childrenJson (s.hgetall id).parent.children).toJson :=
    congrArg JsonObject.toJson (decoded_childrenJson (s.hgetall id).parent.children)
  rw [expectedResult, ← hagain, decoded_set, decoded_str, decoded_str, hchildren, finishTable]
  simp only [h.tombstone, h.deadline.not_ge, h.lease, Bool.false_eq_true, if_false, ne_eq,
    not_true_eq_false, false_and]

/-- What `finish` stores is the encoded decoding of the expected result. -/
theorem publish_normal (h : NormalCompletion s id g) : publish id g (controllerResult id r) "" s =
    cjsonEncode (cjsonDecode (dumps (expectedResult s id g r))) := by
  rw [publish, if_neg (not_not.mpr h.generation), if_neg (by simp [h.active]), finishTable_normal h]

/-- **A published result is the controller's if and only if its codecs lose nothing.** On a normal
completion, what `finish` stores is read as the controller's result with the fields of the lifecycle exactly
if no value outside these fields has an empty list or a number with too many digits. -/
theorem published_iff (h : NormalCompletion s id g) :
    (∃ text, publish id g (controllerResult id r) "" s = some text ∧
      PyEqual (loads text) (expectedResult s id g r)) ↔
      ∀ k v, k ∉ lifecycleKeys → r.get k = some v → Preserved v := by
  rw [← @preserved_expected_iff s id g r, ← codecs_survive_iff, publish_normal h]

/-- A store in which the workflow `t` is owned. -/
def ownedStore : Store where
  tasks _ := some
    { status := some .processing
      workflow := { generation := some "g", deadline := some 10 }
      parent := { children := some [(.kernel, "t_kernel_g")] } }
  leases _ := some "g"
  now := 5

theorem ownedStore_normal : NormalCompletion ownedStore "t" "g" :=
  ⟨rfl, rfl, rfl, by decide, rfl⟩

def oneField (k : String) (v : Json PyNumber) : JsonObject PyNumber := JsonObject.empty.set k v

theorem published_iff_small : ∃ text,
    publish "t" "g" (controllerResult "t" (oneField "num_trials" (.num (.int 5)))) "" ownedStore =
      some text ∧
    PyEqual (loads text) (expectedResult ownedStore "t" "g" (oneField "num_trials" (.num (.int 5)))) := by
  refine (published_iff ownedStore_normal).mpr fun k v _ hv => ?_
  rw [oneField, JsonObject.get_set] at hv
  split_ifs at hv
  · rw [← Option.some.inj hv]
    exact ⟨trivial, fewDigits_intCast (by norm_num)⟩
  · exact absurd hv (by simp [JsonObject.get, JsonObject.empty])

/-- A list of mismatches that is empty. -/
def emptyListResult : JsonObject PyNumber := oneField "mismatches" (.arr 0 fun i => i.elim0)

/-- A time of `time.monotonic_ns` as `complete_task` puts it into the metadata of a result. -/
def timestampResult : JsonObject PyNumber :=
  oneField "metadata" (oneField "tm_enter_monotonic_ns" (.num (.int 123456789012345))).toJson

/-- The published result differs from that of the controller where it has an empty list or a time of 15
digits. -/
theorem published_differs :
    (¬∃ text, publish "t" "g" (controllerResult "t" emptyListResult) "" ownedStore = some text ∧
      PyEqual (loads text) (expectedResult ownedStore "t" "g" emptyListResult)) ∧
    ¬∃ text, publish "t" "g" (controllerResult "t" timestampResult) "" ownedStore = some text ∧
      PyEqual (loads text) (expectedResult ownedStore "t" "g" timestampResult) := by
  have hlost : ∀ {k v}, k ∉ lifecycleKeys → ¬Preserved v → ¬∃ text,
      publish "t" "g" (controllerResult "t" (oneField k v)) "" ownedStore = some text ∧
        PyEqual (loads text) (expectedResult ownedStore "t" "g" (oneField k v)) := by
    intro k v hk hv h
    rw [publish_normal ownedStore_normal, codecs_survive_iff, preserved_expected_iff] at h
    refine hv (h k v hk ?_)
    rw [oneField, JsonObject.get_set, if_pos rfl]
  refine ⟨hlost (by decide) fun h => h.1.1 rfl, hlost (by decide) fun h => ?_⟩
  have hnumber : Preserved (.num (.int 123456789012345)) := by
    refine (preserved_iff _).mp h "tm_enter_monotonic_ns" _ ?_
    rw [oneField, JsonObject.get_set, if_pos rfl]
  have hdvd := dvd_of_fewDigits (by norm_num) (by norm_num) hnumber.2
  omega

end KernelGym
