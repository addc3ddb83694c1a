import KernelGym.ObjectGraph
import KernelGym.Library.Frames

/-! The result channel from end to end: the child validates an object graph, encodes it and frames it; the
parent reads a frame, decodes it and validates it again. -/

namespace KernelGym.Dispatch

open Library

/-- `json.dumps(..).encode("utf-8")`, which fails on some values, and the decoder. -/
structure JsonModule extends Decoder where
  dumps : Value → Option Bytes

/-- `json.loads` inverts `json.dumps` on trees with finite floats. -/
def JsonModule.Inverts (json : JsonModule) : Prop :=
  ∀ v encoded, v.Finite → json.dumps v = some encoded → json.loads encoded = .value v

/-- `_MAX_RESULT_MESSAGE_BYTES` -/
def maxResultMessageBytes : ℕ := 64 * 1024 * 1024

/-- The tree that an object within the depth budget unfolds into. -/
def readTree (heap : Heap) : (levels : ℕ) → Id → Value
  | 0, _ => .null
  | levels + 1, id =>
    match heap id with
    | .bool b => .bool b
    | .int n => .int n
    | .float x => .float x
    | .str s => .str s
    | .list items => .list (items.map (readTree heap levels))
    | .dict items => .dict (items.map fun (key, child) => (key.getD "", readTree heap levels child))
    | .none | .other => .null

/-- `_ChildJSONResultChannel.send`: the bytes that go on the pipe. The kind is there if it is an exact `str`. -/
def send (json : JsonModule) (heap : Heap) (maxMessageBytes : ℕ) (kind : Option String) (payload : Id) :
    Except Raised Bytes := do
  let some kind := kind | throw (ipcProtocolError "result message kind must be a string")
  let .dict _ := heap payload | throw (ipcProtocolError "result payload must be an exact dict")
  validateObject heap 32 200000 payload
  let .dict items := readTree heap 33 payload | throw (ipcProtocolError "result payload must be an exact dict")
  validateResultMessageSchema kind items
  let some encoded := json.dumps (.list [.str resultProtocolMagic, .str kind, .dict items])
    | throw (ipcProtocolError "result payload is not JSON-safe")
  if maxMessageBytes < encoded.length then
    throw (ipcProtocolError ("encoded result exceeds " ++ toString maxMessageBytes ++ " byte safety limit"))
  let some framed := frame encoded | throw ⟨.exception, "error", "int too large to convert"⟩
  pure framed

/-- `recv_bytes` of a pipe that holds the bytes: what it does, and the bytes that are left. -/
def recvBytes (maxMessageBytes : ℕ) (stream : Bytes) : Received × Bytes :=
  match readFrame maxMessageBytes stream with
  | .error .endOfFile => (.endOfFile, [])
  | .error .cut => (.failed "got end of file during message", [])
  | .error .tooLong => (.failed "bad message length", [])
  | .ok (encoded, rest) => (.message encoded, rest)

/-- `_ParentJSONResultChannel.get` on what the pipe holds: the payload and the bytes that are left. -/
def receive (json : JsonModule) (maxMessageBytes : ℕ) (expectedKinds : List String) (stream : Bytes) :
    Except Raised (Payload × Bytes) :=
  let (received, rest) := recvBytes maxMessageBytes stream
  (getMessage json.toDecoder expectedKinds received).map fun payload => (payload, rest)

/-! ### The parent accepts what the child has accepted -/

mutual
theorem visit_accepted {t : Value} (hfinite : t.Finite) {depth : ℕ} (hdepth : depth + t.depth ≤ 32) (r : ℕ) :
    t.visit depth (t.nodes + r) = .ok r := by
  have hlevel : ¬32 < depth := by omega
  cases t with
  | list ts =>
      rw [Value.nodes, Nat.add_right_comm _ 1 r]
      simp only [Value.visit, if_neg hlevel]
      exact visitAll_accepted hfinite hdepth r
  | dict ts =>
      rw [Value.nodes, Nat.add_right_comm _ 1 r]
      simp only [Value.visit, if_neg hlevel]
      exact visitValues_accepted hfinite hdepth r
  | float x =>
      obtain ⟨x, rfl⟩ := Option.isSome_iff_exists.1 hfinite
      rw [Value.nodes, Nat.add_comm 1 r]
      · simp only [Value.visit, if_neg hlevel]
        rfl
      all_goals simp
  | null | bool | int | str =>
      rw [Value.nodes, Nat.add_comm 1 r]
      · simp only [Value.visit, if_neg hlevel]
        rfl
      all_goals simp

theorem visitAll_accepted {ts : List Value} (hfinite : FiniteAll ts) {depth : ℕ}
    (hdepth : depth + levelsAll ts ≤ 32) (r : ℕ) : visitAll ts (depth + 1) (nodesAll ts + r) = .ok r := by
  cases ts with
  | nil =>
      simp only [nodesAll, Nat.zero_add, visitAll]
      rfl
  | cons t ts =>
      simp only [levelsAll] at hdepth
      have hchild := visit_accepted hfinite.1 (by omega : depth + 1 + t.depth ≤ 32) (nodesAll ts + r)
      simp only [nodesAll, Nat.add_assoc, visitAll, hchild]
      exact visitAll_accepted hfinite.2 (by omega) r

theorem visitValues_accepted {ts : List (String × Value)} (hfinite : FiniteItems ts) {depth : ℕ}
    (hdepth : depth + levelsItems ts ≤ 32) (r : ℕ) :
    visitValues ts (depth + 1) (nodesItems ts + r) = .ok r := by
  cases ts with
  | nil =>
      simp only [nodesItems, Nat.zero_add, visitValues]
      rfl
  | cons entry ts =>
      obtain ⟨key, t⟩ := entry
      simp only [levelsItems] at hdepth
      have hchild := visit_accepted hfinite.1 (by omega : depth + 1 + t.depth ≤ 32) (nodesItems ts + r)
      simp only [nodesItems, Nat.add_assoc, visitValues, hchild]
      exact visitValues_accepted hfinite.2 (by omega) r
end

theorem validateExactJsonPrimitives_accepted {p : Payload} (hfinite : (Value.dict p).Finite)
    (hdepth : (Value.dict p).depth ≤ 32) (hnodes : (Value.dict p).nodes ≤ 200000) :
    validateExactJsonPrimitives p = .ok () := by
  obtain ⟨r, hr⟩ := Nat.exists_eq_add_of_le hnodes
  rw [validateExactJsonPrimitives, hr, visit_accepted hfinite (by omega) r]
  rfl

variable {heap : Heap}

mutual
theorem readTree_eq {t : Value} {id : Id} (h : Represents heap t id) {levels : ℕ} (hdepth : t.depth < levels) :
    readTree heap levels id = t := by
  obtain ⟨levels, rfl⟩ := Nat.exists_eq_add_of_lt hdepth
  cases t with
  | list ts =>
      obtain ⟨items, hid, hts⟩ := h
      simp only [readTree, hid, readTree_all hts (Nat.le_add_right (levelsAll ts) levels), Value.depth]
  | dict ts =>
      obtain ⟨items, hid, hts⟩ := h
      simp only [readTree, hid, readTree_items hts (Nat.le_add_right (levelsItems ts) levels), Value.depth]
  | null | bool | int | float | str =>
      simp only [Represents] at h
      simp only [readTree, h]

theorem readTree_all {ts : List Value} {items : List Id} (h : RepresentsAll heap ts items) {levels : ℕ}
    (hlevels : levelsAll ts ≤ levels) : items.map (readTree heap levels) = ts := by
  cases ts with
  | nil =>
      obtain rfl := h
      rfl
  | cons t ts =>
      obtain ⟨child, rest, rfl, ht, hts⟩ := h
      simp only [levelsAll] at hlevels
      rw [List.map_cons, readTree_eq ht (by omega), readTree_all hts (by omega)]

theorem readTree_items {ts : List (String × Value)} {items : List (Option String × Id)}
    (h : RepresentsItems heap ts items) {levels : ℕ} (hlevels : levelsItems ts ≤ levels) :
    (items.map fun (key, child) => (key.getD "", readTree heap levels child)) = ts := by
  cases ts with
  | nil =>
      obtain rfl := h
      rfl
  | cons entry ts =>
      obtain ⟨key, t⟩ := entry
      obtain ⟨child, rest, rfl, ht, hts⟩ := h
      simp only [levelsItems] at hlevels
      rw [List.map_cons, readTree_items hts (by omega)]
      simp only [Option.getD_some, readTree_eq ht (by omega : t.depth < levels)]
end

/-- What an accepted send has written: the frame of the encoded envelope of the tree. -/
theorem send_ok {json : JsonModule} {maxMessageBytes : ℕ} {kind : Option String} {payload : Id} {framed : Bytes}
    (h : send json heap maxMessageBytes kind payload = .ok framed) :
    ∃ k items encoded, kind = some k ∧ Represents heap (.dict items) payload ∧ (Value.dict items).Finite ∧
      (Value.dict items).depth ≤ 32 ∧ (Value.dict items).nodes ≤ 200000 ∧ validateResultMessageSchema k items = .ok () ∧
      json.dumps (.list [.str resultProtocolMagic, .str k, .dict items]) = some encoded ∧
      encoded.length ≤ maxMessageBytes ∧ frame encoded = some framed := by
  cases kind with
  | none => cases h
  | some k =>
      cases hpayload : heap payload with
      | dict children =>
          cases hvalid : validateObject heap 32 200000 payload with
          | error e =>
              simp only [send, hpayload, hvalid] at h
              cases h
          | ok _ =>
              obtain ⟨t, hrep, hfinite, hdepth, hnodes⟩ := validateObject_iff.1 hvalid
              have htree := readTree_eq hrep (by omega : t.depth < 33)
              cases t with
              | dict items =>
                  simp only [send, hpayload, hvalid, htree] at h
                  cases hschema : validateResultMessageSchema k items with
                  | error e =>
                      simp only [hschema] at h
                      cases h
                  | ok _ =>
                      cases hdumps : json.dumps (.list [.str resultProtocolMagic, .str k, .dict items]) with
                      | none =>
                          simp only [hschema, hdumps] at h
                          cases h
                      | some encoded =>
                          cases hframe : frame encoded with
                          | none =>
                              by_cases hlength : maxMessageBytes < encoded.length <;>
                                simp only [hschema, hdumps, hlength, hframe, if_true, if_false] at h <;> cases h
                          | some framed' =>
                              by_cases hlength : maxMessageBytes < encoded.length
                              · simp only [hschema, hdumps, hlength, if_true] at h
                                cases h
                              · simp only [hschema, hdumps, hlength, hframe, if_false] at h
                                cases h
                                exact ⟨k, items, encoded, rfl, hrep, hfinite, hdepth, hnodes, hschema, hdumps,
                                  Nat.le_of_not_lt hlength, hframe⟩
              | null | bool | int | float | str | list => simp [Represents, hpayload] at hrep
      | _ =>
          simp only [send, hpayload] at h
          cases h

theorem receive_ok {json : JsonModule} {maxMessageBytes : ℕ} {expectedKinds : List String} {k : String}
    {items : Payload} {encoded framed : Bytes} (hk : k ∈ expectedKinds)
    (hfinite : (Value.dict items).Finite) (hdepth : (Value.dict items).depth ≤ 32)
    (hnodes : (Value.dict items).nodes ≤ 200000) (hschema : validateResultMessageSchema k items = .ok ())
    (hloads : json.loads encoded = .value (.list [.str resultProtocolMagic, .str k, .dict items]))
    (hlength : encoded.length ≤ maxMessageBytes) (hframe : frame encoded = some framed) (rest : Bytes) :
    receive json maxMessageBytes expectedKinds (framed ++ rest) = .ok (items, rest) := by
  have hopen : openMessage json.toDecoder expectedKinds (.list [.str resultProtocolMagic, .str k, .dict items]) =
      .ok items := by
    simp only [openMessage, ne_eq, not_true_eq_false, if_false, hk,
      validateExactJsonPrimitives_accepted hfinite hdepth hnodes, hschema]
    rfl
  simp only [receive, recvBytes, readFrame_append hframe hlength, getMessage, hloads, hopen]
  rfl

theorem receive_cut {json : JsonModule} {maxMessageBytes : ℕ} {expectedKinds : List String}
    {encoded framed part : Bytes} (hframe : frame encoded = some framed) (hpart : part <+: framed)
    (hne : part ≠ framed) : ∃ e, receive json maxMessageBytes expectedKinds part = .error e := by
  have hread : ∃ e, readFrame maxMessageBytes part = .error e := readFrame_cut hframe hpart hne
  obtain ⟨e, he⟩ := hread
  unfold receive recvBytes
  rw [he]
  cases e <;> exact ⟨_, rfl⟩

/-- **The validator accepts exactly the finite trees of exact primitives within its budgets, and every payload
that the child sends is received as an equal one.** It is received whatever the child sends afterwards, and
nothing is received from a message that is cut short. -/
theorem result_channel_faithful (json : JsonModule) (hinverts : json.Inverts) (heap : Heap) :
    (∀ maxDepth maxNodes id, validateObject heap maxDepth maxNodes id = .ok () ↔
      ∃ t, Represents heap t id ∧ t.Finite ∧ t.depth ≤ maxDepth ∧ t.nodes ≤ maxNodes) ∧
    ∀ maxMessageBytes kind payload framed, send json heap maxMessageBytes kind payload = .ok framed →
      ∃ items, Represents heap (.dict items) payload ∧
        (∀ k expectedKinds rest, kind = some k → k ∈ expectedKinds →
          receive json maxMessageBytes expectedKinds (framed ++ rest) = .ok (items, rest)) ∧
        ∀ expectedKinds part, part <+: framed → part ≠ framed →
          ∃ e, receive json maxMessageBytes expectedKinds part = .error e := by
  refine ⟨fun _ _ _ => validateObject_iff, fun maxMessageBytes kind payload framed hsend => ?_⟩
  obtain ⟨k, items, encoded, rfl, hrep, hfinite, hdepth, hnodes, hschema, hdumps, hlength, hframe⟩ :=
    send_ok hsend
  have hloads := hinverts (.list [.str resultProtocolMagic, .str k, .dict items]) encoded
    ⟨trivial, trivial, hfinite, trivial⟩ hdumps
  refine ⟨items, hrep, fun k' expectedKinds rest hkind hk => ?_, fun expectedKinds part hpart hne => ?_⟩
  · cases hkind
    exact receive_ok hk hfinite hdepth hnodes hschema hloads hlength hframe rest
  · exact receive_cut hframe hpart hne

/-- A failed result without texts, whose two texts are one shared object. -/
def sharedHeap : Heap
  | 0 => .dict [(some "success", 1), (some "error_type", 2), (some "error_message", 2)]
  | 1 => .bool false
  | 2 => .str ""
  | _ => .other

def sharedPayload : Payload := [("success", .bool false), ("error_type", .str ""), ("error_message", .str "")]

/-- The message of this result as `json.dumps` writes it. -/
def sharedText : String :=
  "[\"kernelgym-result-json-v1\",\"task_result\",\x7b\"success\":false,\"error_type\":\"\",\"error_message\":\"\"\x7d]"

/-- The text in UTF-8; all its characters are ASCII. -/
def sharedEncoded : Bytes := sharedText.toList.map fun c => UInt8.ofNat c.toNat

/-- The JSON module on this one message. -/
def sharedJson : JsonModule where
  dumps
    | .list [.str "kernelgym-result-json-v1", .str "task_result",
        .dict [("success", .bool false), ("error_type", .str ""), ("error_message", .str "")]] => some sharedEncoded
    | _ => none
  loads encoded :=
    if encoded = sharedEncoded then .value (.list [.str resultProtocolMagic, .str "task_result", .dict sharedPayload])
    else .invalid "Expecting value: line 1 column 1 (char 0)"
  repr
    | .str s => "'" ++ s ++ "'"
    | _ => ""

theorem sharedJson_inverts : sharedJson.Inverts := by
  intro v encoded _ h
  simp only [sharedJson] at h ⊢
  split at h
  · rw [if_pos (Option.some.inj h).symm]
    rfl
  · cases h

theorem result_channel_faithful_shared :
    send sharedJson sharedHeap maxResultMessageBytes (some "task_result") 0 = .ok ([0, 0, 0, 95] ++ sharedEncoded) ∧
      receive sharedJson maxResultMessageBytes ["task_result"] ([0, 0, 0, 95] ++ sharedEncoded) =
        .ok (sharedPayload, []) := by
  have hsend : send sharedJson sharedHeap maxResultMessageBytes (some "task_result") 0 =
      .ok ([0, 0, 0, 95] ++ sharedEncoded) := by rfl
  obtain ⟨items, hrep, hreceive, -⟩ :=
    (result_channel_faithful sharedJson sharedJson_inverts sharedHeap).2 _ _ _ _ hsend
  have hitems : Value.dict items = .dict sharedPayload := by
    refine hrep.unique ?_
    exact ⟨_, rfl, _, _, rfl, rfl, _, _, rfl, rfl, _, _, rfl, rfl, rfl⟩
  cases hitems
  exact ⟨hsend, hreceive "task_result" ["task_result"] [] rfl (by simp)⟩

end KernelGym.Dispatch
