import KernelGym.EventTexts

/-! Replies as servers send them: streams of events and plain JSON, and what the decoder makes of them. -/

namespace KernelGym.PageUser

open Library JsonReader

/-! ### Streams of events -/

/-- A line of an event: data behind its field name, with or without a blank, the field name alone, or any other line. -/
inductive SseLine
  | data (space : Bool) (value : Text)
  | bare
  | other (text : Text)

namespace SseLine

def text : SseLine → Text
  | data space value => dataField ++ (if space then [' '] else []) ++ value
  | bare => "data".toList
  | other text => text

/-- The part of the payload that a line carries. -/
def payload : SseLine → Option Text
  | data _ value => some value
  | bare => some []
  | other _ => none

def isData : SseLine → Bool
  | data _ _ => true
  | _ => false

def Valid : SseLine → Prop
  | data space value => '\n' ∉ value ∧ '\r' ∉ value ∧ (space = false → value.head? ≠ some ' ')
  | bare => True
  | other text => text ≠ [] ∧ '\n' ∉ text ∧ '\r' ∉ text ∧ ¬ dataField <+: text ∧ text ≠ "data".toList

end SseLine

abbrev Event := List SseLine

/-- The payload of an event, if it has one. -/
def Event.payload (event : Event) : Option Text :=
  if event.filterMap SseLine.payload = [] then none
  else some (List.intercalate ['\n'] (event.filterMap SseLine.payload))

/-- What an event delivers. -/
def Event.value (event : Event) : Option JsonValue := event.payload.bind JsonReader.value

structure EventStream where
  crlf : Bool
  events : List Event
  valid : ∀ event ∈ events, ∀ line ∈ event, line.Valid

namespace EventStream

def ending (s : EventStream) : Text := if s.crlf then ['\r', '\n'] else ['\n']

/-- The lines of the stream; an empty line ends an event. -/
def lines (s : EventStream) : List Text := s.events.flatMap fun event => event.map SseLine.text ++ [[]]

def text (s : EventStream) : Text := s.lines.flatMap fun line => line ++ s.ending

def values (s : EventStream) : List JsonValue := s.events.filterMap Event.value

end EventStream

/-! ### Replies -/

/-- A JSON object, or a batch. -/
def isMessage : JsonValue → Bool
  | .object _ => true
  | .array _ => true
  | _ => false

inductive Body
  | events (stream : EventStream)
  | plain (text : Text) (value : JsonValue) (decodes : JsonReader.value text = some value) (message : isMessage value = true)

namespace Body

def text : Body → Text
  | events stream => stream.text
  | plain text _ _ _ => text

/-- The payloads: those of the events, or the members of a batch. -/
def payloads : Body → List JsonValue
  | events stream => stream.values
  | plain _ (.array items) _ _ => items
  | plain _ value _ _ => [value]

end Body

/-- The payload is an object with the id of the request. -/
def HasId (requestId : ℤ) (v : JsonValue) : Prop := isDict v = true ∧ getKey "id" v = some (.integer requestId)

/-- The payload reports the success of the tool. -/
def IsSuccess (v : JsonValue) : Prop :=
  (getKey "error" v).any isDict = false ∧
    ∃ fields, getKey "result" v = some (.object fields) ∧ (getKey "isError" (.object fields)).any isTrue = false

/-- A body is decoded to the payload for the request, and a page that is confirmed counts as delivered. -/
structure Faithful (e : Surroundings) (body : Body) (requestId : ℤ) : Prop where
  returned : ∀ v, decodeRpcBody e body.text requestId = .ok v → v ∈ body.payloads ∧ HasId requestId v
  found : (∃ v ∈ body.payloads, HasId requestId v) → ∃ v, decodeRpcBody e body.text requestId = .ok v
  delivered : (∃ v ∈ body.payloads, HasId requestId v) → (∀ v ∈ body.payloads, HasId requestId v → IsSuccess v) →
    ∀ config status sessionId modernAttempt, succeeded status = true →
      ∃ result, rpcResult e config ⟨status, sessionId, body.text⟩ requestId modernAttempt = .ok result ∧
        checkToolResult e config result = .ok ()

/-- The white space in front of a text. -/
def leading (e : Surroundings) (text : Text) : Text := text.takeWhile e.unicode.isSpace

/-- The white space behind a text. -/
def trailing (e : Surroundings) (text : Text) : Text := (e.unicode.lstrip text).rtakeWhile e.unicode.isSpace

/-- What the decoder relies on in a stream of events. -/
structure Framed (e : Surroundings) (s : EventStream) : Prop where
  endings : s.crlf = true → (s.events.filter fun event => event.any SseLine.isData).length ≤ 1
  breaks : ∀ event ∈ s.events, ∀ line ∈ event, ∀ c ∈ line.text, c ∉ lineBreaks
  blanks : ∀ event ∈ s.events, ∀ line ∈ event, ∀ space value, line = .data space value →
    ∀ c ∈ value.takeWhile e.unicode.isSpace, isBlank c = true
  limits : ∀ event ∈ s.events, ∀ text ∈ event.payload,
    JsonReader.loads e.limits text = (value text).elim (.error .decode) .ok
  starts : lastLine (leading e s.text) = [] ∨ ¬ dataField <+: e.unicode.strip s.text
  ends : (∀ c ∈ (trailing e s.text).takeWhile (· ∉ lineBreaks), isBlank c = true) ∨
    ¬ dataField <+: lastLine (e.unicode.strip s.text)
  fields : (∀ event ∈ s.events, event.any SseLine.isData = false) →
    ∀ v, JsonReader.loads e.limits (e.unicode.strip s.text) ≠ .ok v

def Body.Framed (e : Surroundings) : Body → Prop
  | .events stream => PageUser.Framed e stream
  | .plain _ _ _ _ => True

/-- The last payload whose id equals that of the request has the integer itself. -/
def LastIsRequest (requestId : ℤ) (payloads : List JsonValue) : Prop :=
  ∀ v, payloads.reverse.find? (matchesRequest requestId) = some v → getKey "id" v = some (.integer requestId)

/-- The condition on ids. A plain body beyond the limits of `json.loads` is refused, whatever its ids are. -/
def Body.Identified (e : Surroundings) (requestId : ℤ) : Body → Prop
  | .events stream => LastIsRequest requestId stream.values
  | .plain text value decodes message =>
    match JsonReader.loads e.limits (e.unicode.strip text) with
    | .ok _ => LastIsRequest requestId (Body.plain text value decodes message).payloads
    | .error _ => ∀ v ∈ (Body.plain text value decodes message).payloads, ¬ HasId requestId v

/-! ### The choice among candidates -/

def isInteger (n : ℤ) : Option JsonValue → Bool
  | some (.integer m) => m = n
  | _ => false

theorem isInteger_iff {n : ℤ} {v : Option JsonValue} : isInteger n v = true ↔ v = some (.integer n) := by
  cases v with
  | none => simp [isInteger]
  | some v => cases v <;> simp [isInteger]

instance (n : ℤ) (v : Option JsonValue) : Decidable (v = some (.integer n)) := decidable_of_iff _ isInteger_iff

instance (n : ℤ) (v : JsonValue) : Decidable (HasId n v) := inferInstanceAs (Decidable (_ ∧ _))

instance (n : ℤ) (payloads : List JsonValue) : Decidable (LastIsRequest n payloads) :=
  inferInstanceAs (Decidable (∀ v ∈ payloads.reverse.find? (matchesRequest n), getKey "id" v = some (.integer n)))

theorem matchesRequest_of_hasId {n : ℤ} {v : JsonValue} (h : HasId n v) : matchesRequest n v = true := by
  rw [matchesRequest, h.1, h.2]
  simp [equalsInteger]

theorem isDict_of_matches {n : ℤ} {v : JsonValue} (h : matchesRequest n v = true) : isDict v = true :=
  (Bool.and_eq_true_iff.mp h).1

/-- What the choice of the last match has to give. -/
theorem chooseCandidate_iff {n : ℤ} {payloads : List JsonValue} :
    ((∀ v, chooseCandidate n payloads = .ok v → v ∈ payloads ∧ HasId n v) ∧
        ((∃ v ∈ payloads, HasId n v) → ∃ v, chooseCandidate n payloads = .ok v)) ↔ LastIsRequest n payloads := by
  unfold chooseCandidate LastIsRequest
  cases hfind : payloads.reverse.find? (matchesRequest n) with
  | none =>
      refine iff_of_true ⟨fun v hv => (nomatch hv), ?_⟩ fun v hv => (nomatch hv)
      rintro ⟨v, hv, hid⟩
      exact absurd (matchesRequest_of_hasId hid) (List.find?_eq_none.mp hfind v (List.mem_reverse.mpr hv))
  | some found =>
      have hmem : found ∈ payloads := List.mem_reverse.mp (List.mem_of_find?_eq_some hfind)
      have hdict := isDict_of_matches (List.find?_some hfind)
      constructor
      · rintro ⟨hreturned, -⟩ v hv
        obtain rfl := Option.some.inj hv
        exact (hreturned found rfl).2.2
      · intro hlast
        refine ⟨fun v hv => ?_, fun _ => ⟨found, rfl⟩⟩
        obtain rfl := Except.ok.inj hv
        exact ⟨hmem, hdict, hlast found rfl⟩

variable {e : Surroundings}

/-- A response that reports success counts as one. -/
theorem rpcResult_success {config : PageUserConfig} {reply : HttpReply} {n : ℤ} {modernAttempt : Bool} {v : JsonValue}
    (hdecode : decodeRpcBody e reply.body n = .ok v) (hstatus : succeeded reply.status = true) (h : IsSuccess v) :
    ∃ result, rpcResult e config reply n modernAttempt = .ok result ∧ checkToolResult e config result = .ok () := by
  obtain ⟨herror, fields, hresult, hflag⟩ := h
  refine ⟨.object fields, ?_, ?_⟩
  · rw [rpcResult, hdecode]
    simp only [hstatus, Bool.not_true, Bool.false_eq_true, if_false]
    split
    · rename_i fields' herror'
      rw [herror'] at herror
      exact absurd herror (by simp [isDict])
    · rw [hresult]
  · rw [checkToolResult, hflag]
    rfl

/-- A body whose candidates are its payloads is decoded faithfully exactly if the last match is one. -/
theorem faithful_of_candidates {body : Body} {n : ℤ} (h : decodeRpcBody e body.text n = chooseCandidate n body.payloads) :
    Faithful e body n ↔ LastIsRequest n body.payloads := by
  constructor
  · rintro ⟨hreturned, hfound, -⟩
    rw [h] at hreturned hfound
    exact chooseCandidate_iff.mp ⟨hreturned, hfound⟩
  · intro hlast
    obtain ⟨hreturned, hfound⟩ := chooseCandidate_iff.mpr hlast
    refine ⟨by rwa [h], by rwa [h], fun hsome hall config status sessionId modernAttempt hstatus => ?_⟩
    obtain ⟨v, hv⟩ := hfound hsome
    obtain ⟨hmem, hid⟩ := hreturned v hv
    exact rpcResult_success (h.trans hv) hstatus (hall v hmem hid)

/-- A body that is refused is decoded faithfully exactly if it has no payload for the request. -/
theorem faithful_of_error {body : Body} {n : ℤ} (failure : Failure) (h : decodeRpcBody e body.text n = .error failure) :
    Faithful e body n ↔ ∀ v ∈ body.payloads, ¬ HasId n v := by
  constructor
  · rintro ⟨-, hfound, -⟩ v hv hid
    obtain ⟨v', hv'⟩ := hfound ⟨v, hv, hid⟩
    exact nomatch h.symm.trans hv'
  · intro hnone
    refine ⟨fun v hv => (nomatch h.symm.trans hv), ?_, ?_⟩
    · rintro ⟨v, hv, hid⟩
      exact absurd hid (hnone v hv)
    · rintro ⟨v, hv, hid⟩
      exact absurd hid (hnone v hv)

/-! ### Plain bodies -/

theorem isEventStream_of_loads {limits : Limits} {text : Text} {v : JsonValue}
    (h : JsonReader.loads limits text = .ok v) :
    isEventStream text = false := by
  obtain ⟨hstart, hline⟩ := no_field_of_loads h
  rw [isEventStream, Bool.or_eq_false_iff]
  refine ⟨?_, decide_eq_false hline⟩
  exact Bool.eq_false_iff.mpr fun hprefix => hstart (List.isPrefixOf_iff_prefix.mp hprefix)

theorem decode_plain {text : Text} {v : JsonValue} (h : value text = some v) (n : ℤ) (hmessage : isMessage v = true) :
    Faithful e (.plain text v h hmessage) n ↔ (Body.plain text v h hmessage).Identified e n := by
  have hstrip : JsonReader.loads {} (e.unicode.strip text) = .ok v := loads_strip (loads_of_value h)
  have hne : e.unicode.strip text ≠ [] := by
    intro hnil
    rw [hnil] at hstrip
    exact nomatch hstrip
  rw [Body.Identified]
  cases hloads : JsonReader.loads e.limits (e.unicode.strip text) with
  | error error =>
      refine faithful_of_error ((limitError e error).getD (responseError "page-user MCP returned malformed JSON")) ?_
      rw [Body.text, decodeRpcBody, if_neg hne, isEventStream_of_loads hstrip, if_neg Bool.false_ne_true, hloads]
  | ok v' =>
      obtain rfl : v' = v := Option.some.inj ((value_of_loads hloads).symm.trans (value_of_loads hstrip))
      refine faithful_of_candidates ?_
      rw [Body.text, decodeRpcBody, if_neg hne, isEventStream_of_loads hstrip, if_neg Bool.false_ne_true, hloads]
      cases v' with
      | array items => rfl
      | object fields => rfl
      | _ => exact absurd hmessage Bool.false_ne_true

/-! ### The data of lines -/

variable (e) in
/-- What is taken from a line of an event. -/
def taken : SseLine → Option Text
  | .data _ value => some (e.unicode.lstrip value)
  | _ => none

theorem dataPart_event {event : Event} (h : ∀ line ∈ event, line.Valid) :
    dataPart e (event.map SseLine.text) = event.filterMap (taken e) := by
  induction event with
  | nil => rfl
  | cons line rest ih =>
      have hrest := ih fun line' hline' => h line' (List.mem_cons_of_mem _ hline')
      have hvalid := h line List.mem_cons_self
      rw [List.map_cons, ← List.singleton_append, dataPart_append, hrest]
      cases line with
      | data space value =>
          have hlstrip : e.unicode.lstrip ((if space then [' '] else []) ++ value) = e.unicode.lstrip value := by
            have hblank : e.unicode.isSpace ' ' = true := (e.unicode.isSpace_ascii ' ' (by decide)).trans rfl
            cases space with
            | true => exact List.dropWhile_cons_of_pos hblank
            | false => rfl
          have hone : dataPart e [SseLine.text (.data space value)] = [e.unicode.lstrip value] := by
            rw [← hlstrip]
            rfl
          rw [hone]
          rfl
      | bare => rfl
      | other text =>
          have hnone : dataPart e [SseLine.text (.other text)] = [] := dataPart_other hvalid.2.2.2.1
          rw [hnone]
          rfl

/-- The data that are taken are read as the payload of the event. -/
theorem readData_taken {event : Event} (hblanks : ∀ line ∈ event, ∀ space value, line = .data space value →
      ∀ c ∈ value.takeWhile e.unicode.isSpace, isBlank c = true) :
    readData e (event.filterMap (taken e)) = readData e (event.filterMap SseLine.payload) := by
  refine (loads_lines e.limits _ fun line hline s hmode => ?_).symm
  cases line with
  | data space value =>
      have hsplit : value.takeWhile e.unicode.isSpace ++ e.unicode.lstrip value = value := List.takeWhile_append_dropWhile
      change s.lineStep _ value = s.lineStep _ (e.unicode.lstrip value)
      nth_rewrite 1 [← hsplit]
      exact Lexer.lineStep_blanks hmode (hblanks _ hline space value rfl)
  | bare => exact Lexer.lineStep_nil hmode
  | other text => rfl

/-! ### Lines of streams -/

namespace SseLine

theorem newline_notMem {line : SseLine} (h : line.Valid) : '\n' ∉ line.text ∧ '\r' ∉ line.text := by
  cases line with
  | data space value =>
      obtain ⟨hnewline, hreturn, -⟩ := h
      cases space <;> simp [text, dataField, hnewline, hreturn]
  | bare => decide
  | other text => exact ⟨h.2.1, h.2.2.1⟩

theorem text_ne_nil {line : SseLine} (h : line.Valid) : line.text ≠ [] := by
  cases line with
  | data space value => cases space <;> simp [text, dataField]
  | bare => decide
  | other text => exact h.1

end SseLine

/-- Lines as they stand in a stream, each with its ending. -/
def joined (ending : Text) (lines : List Text) : Text := lines.flatMap fun line => line ++ ending

theorem joined_append (ending : Text) (lines lines' : List Text) :
    joined ending (lines ++ lines') = joined ending lines ++ joined ending lines' := List.flatMap_append

theorem isChain_of_notMem {text : Text} (h : '\n' ∉ text) : text.IsChain Apart := by
  refine List.Pairwise.isChain (List.pairwise_of_forall_mem_list fun a ha b _ hnewline => ?_)
  exact absurd (hnewline ▸ ha) h

/-- Lines that are not empty, without the ending of the last. -/
theorem joined_newline {lines : List Text} (hne : lines ≠ []) (h : ∀ line ∈ lines, line ≠ [] ∧ '\n' ∉ line) :
    ∃ text, ∃ htext : text ≠ [], joined ['\n'] lines = text ++ ['\n'] ∧ text.getLast htext ≠ '\n' ∧
      text.head? ≠ some '\n' ∧ text.IsChain Apart := by
  induction lines with
  | nil => exact absurd rfl hne
  | cons line rest ih =>
      obtain ⟨hline, hplain⟩ := h line List.mem_cons_self
      have hhead (tail : Text) : (line ++ tail).head? ≠ some '\n' := by
        rw [List.head?_append_of_ne_nil _ hline]
        exact fun hfirst => hplain (List.mem_of_head? hfirst)
      by_cases hrest : rest = []
      · subst hrest
        refine ⟨line, hline, List.append_nil _, fun hlast => ?_, ?_, isChain_of_notMem hplain⟩
        · exact hplain (hlast ▸ List.getLast_mem hline)
        · simpa using hhead []
      · obtain ⟨text, htext, hjoined, hlast, hfirst, hchain⟩ :=
          ih hrest fun line' hline' => h line' (List.mem_cons_of_mem _ hline')
        refine ⟨line ++ '\n' :: text, by simp, ?_, ?_, hhead _, ?_⟩
        · rw [joined, List.flatMap_cons]
          change line ++ ['\n'] ++ joined ['\n'] rest = _
          rw [hjoined]
          simp
        · simpa [List.getLast_append, List.getLast_cons htext] using hlast
        · refine List.isChain_append.mpr ⟨isChain_of_notMem hplain, ?_, fun a ha b _ hnewline => ?_⟩
          · refine List.isChain_cons.mpr ⟨fun b hb _ hnewline => ?_, hchain⟩
            exact hfirst (hnewline ▸ hb)
          · exact absurd (hnewline ▸ List.mem_of_getLast? ha) hplain

/-- A text with line ends of two characters has no event of its own. -/
theorem isChain_crlf {lines : List Text} (h : ∀ line ∈ lines, '\n' ∉ line) :
    (joined ['\r', '\n'] lines).IsChain Apart ∧ (joined ['\r', '\n'] lines).head? ≠ some '\n' := by
  induction lines with
  | nil => exact ⟨List.isChain_nil, by simp [joined]⟩
  | cons line rest ih =>
      obtain ⟨hchain, hhead⟩ := ih fun line' hline' => h line' (List.mem_cons_of_mem _ hline')
      have hline := h line List.mem_cons_self
      have hjoined : joined ['\r', '\n'] (line :: rest) = line ++ '\r' :: '\n' :: joined ['\r', '\n'] rest := by
        rw [joined, List.flatMap_cons, List.append_assoc]
        rfl
      rw [hjoined]
      constructor
      · refine List.isChain_append.mpr ⟨isChain_of_notMem hline, ?_, fun a ha b _ hnewline => ?_⟩
        · refine List.isChain_cons_cons.mpr ⟨fun hreturn => absurd hreturn (by decide), ?_⟩
          exact List.isChain_cons.mpr ⟨fun b hb _ hnewline => hhead (hnewline ▸ hb), hchain⟩
        · exact absurd (hnewline ▸ List.mem_of_getLast? ha) hline
      · cases line with
        | nil => simp
        | cons c line =>
            intro hfirst
            exact hline (List.mem_cons.mpr (.inl (Option.some.inj hfirst).symm))

theorem splitLines_crlf {lines : List Text} (h : ∀ line ∈ lines, ∀ c ∈ line, c ∉ lineBreaks) :
    splitLines (joined ['\r', '\n'] lines) = lines := by
  induction lines with
  | nil => rfl
  | cons line rest ih =>
      have hrest := ih fun line' hline' => h line' (List.mem_cons_of_mem _ hline')
      rw [joined, List.flatMap_cons, List.append_assoc]
      change splitLines (line ++ '\r' :: '\n' :: joined ['\r', '\n'] rest) = _
      rw [splitLines_line_crlf (h line List.mem_cons_self), hrest]

theorem splitLines_newline {lines : List Text} (h : ∀ line ∈ lines, ∀ c ∈ line, c ∉ lineBreaks) :
    splitLines (joined ['\n'] lines) = lines := by
  induction lines with
  | nil => rfl
  | cons line rest ih =>
      have hrest := ih fun line' hline' => h line' (List.mem_cons_of_mem _ hline')
      rw [joined, List.flatMap_cons, List.append_assoc]
      change splitLines (line ++ '\n' :: joined ['\n'] rest) = _
      rw [splitLines_line_newline (h line List.mem_cons_self), hrest]

/-! ### Streams -/

variable (e) in
/-- The data of the events of a stream that have some. -/
def EventStream.data (s : EventStream) : List (List Text) := (s.events.map (List.filterMap (taken e))).filter (· ≠ [])

namespace EventStream

variable {s : EventStream}

theorem line_valid {line : Text} (h : line ∈ s.lines) :
    line = [] ∨ ∃ event ∈ s.events, ∃ l ∈ event, l.Valid ∧ line = l.text := by
  obtain ⟨event, hevent, hline⟩ := List.mem_flatMap.mp h
  rcases List.mem_append.mp hline with hline | hline
  · obtain ⟨l, hl, rfl⟩ := List.mem_map.mp hline
    exact .inr ⟨event, hevent, l, hl, s.valid event hevent l hl, rfl⟩
  · exact .inl (List.mem_singleton.mp hline)

section

variable {crlf : Bool} {event : Event} {events : List Event}

/-- The stream behind its first event. -/
def rest (crlf : Bool) (valid : ∀ event' ∈ event :: events, ∀ line ∈ event', line.Valid) : EventStream :=
  ⟨crlf, events, fun event' h => valid event' (List.mem_cons_of_mem _ h)⟩

theorem lines_cons (valid : ∀ event' ∈ event :: events, ∀ line ∈ event', line.Valid) :
    lines ⟨crlf, event :: events, valid⟩ = event.map SseLine.text ++ [[]] ++ (rest crlf valid).lines := List.flatMap_cons

theorem data_cons (valid : ∀ event' ∈ event :: events, ∀ line ∈ event', line.Valid) :
    data e ⟨crlf, event :: events, valid⟩ =
      [event.filterMap (taken e)].filter (· ≠ []) ++ (rest crlf valid).data e := by
  rw [data, List.map_cons, ← List.singleton_append, List.filter_append]
  rfl

end

theorem line_breaks (hbreaks : ∀ event ∈ s.events, ∀ line ∈ event, ∀ c ∈ line.text, c ∉ lineBreaks) :
    ∀ line ∈ s.lines, ∀ c ∈ line, c ∉ lineBreaks := by
  intro line hline c hc
  rcases line_valid hline with rfl | ⟨event, hevent, l, hl, -, rfl⟩
  · exact absurd hc List.not_mem_nil
  · exact hbreaks event hevent l hl c hc

/-- The events of a stream with newlines. -/
theorem groups_text (hlf : s.crlf = false)
    (hbreaks : ∀ event ∈ s.events, ∀ line ∈ event, ∀ c ∈ line.text, c ∉ lineBreaks) : groups e s.text = s.data e := by
  obtain ⟨crlf, events, valid⟩ := s
  obtain rfl : crlf = false := hlf
  change groups e (joined ['\n'] (EventStream.lines ⟨false, events, valid⟩)) = _
  induction events with
  | nil => rfl
  | cons event events ih =>
      have hvalid := valid event List.mem_cons_self
      have hrest := ih (fun event' hevent' => valid event' (List.mem_cons_of_mem _ hevent')) fun event' hevent' =>
        hbreaks event' (List.mem_cons_of_mem _ hevent')
      rw [lines_cons, data_cons, joined_append, joined_append, List.append_assoc]
      refine Eq.trans ?_ (congrArg _ hrest)
      by_cases hevent : event = []
      · subst hevent
        exact groups_newline _
      · have hplain : ∀ line ∈ event.map SseLine.text, line ≠ [] ∧ '\n' ∉ line := by
          intro line hline
          obtain ⟨l, hl, rfl⟩ := List.mem_map.mp hline
          exact ⟨SseLine.text_ne_nil (hvalid l hl), (SseLine.newline_notMem (hvalid l hl)).1⟩
        obtain ⟨text, htext, hjoined, hlast, -, hchain⟩ := joined_newline (by simpa using hevent) hplain
        have hbreaks' : ∀ line ∈ event.map SseLine.text, ∀ c ∈ line, c ∉ lineBreaks := by
          intro line hline
          obtain ⟨l, hl, rfl⟩ := List.mem_map.mp hline
          exact hbreaks event List.mem_cons_self l hl
        have hsplit : dataLines e text = event.filterMap (taken e) := by
          obtain ⟨empty, hlines, hall⟩ := splitLinesFrom_concat_break [] text (.inl (rfl : '\n' = '\n'))
          have hwhole : dataPart e (splitLines (text ++ ['\n'])) = event.filterMap (taken e) := by
            rw [← hjoined, splitLines_newline hbreaks', dataPart_event hvalid]
          rw [splitLines, hlines, dataPart_append, dataPart_blanks hall, List.append_nil] at hwhole
          exact hwhole
        rw [hjoined, List.append_assoc]
        change groups e (text ++ '\n' :: '\n' :: _) = _
        rw [groups_append htext hlast, groups_whole hchain, hsplit]
        split_ifs with hnone
        · rw [hnone]
          rfl
        · rw [List.filter_cons_of_pos (by simpa using hnone)]
          rfl

/-- All data of a stream, from its lines. -/
theorem dataPart_lines : dataPart e s.lines = (s.data e).flatten := by
  obtain ⟨crlf, events, valid⟩ := s
  induction events with
  | nil => rfl
  | cons event events ih =>
      have hrest := ih fun event' hevent' => valid event' (List.mem_cons_of_mem _ hevent')
      have hsame : dataPart e (rest crlf valid).lines = ((rest crlf valid).data e).flatten := hrest
      rw [lines_cons, data_cons, dataPart_append, dataPart_append, dataPart_event (valid event List.mem_cons_self), hsame,
        List.flatten_append, List.filter_cons]
      split_ifs with hsome
      · rfl
      · rw [show event.filterMap (taken e) = [] by simpa using hsome]
        rfl

end EventStream

/-- A line with data is taken from. -/
theorem taken_eq_nil_iff {event : Event} : event.filterMap (taken e) = [] ↔ event.any SseLine.isData = false := by
  rw [List.filterMap_eq_nil_iff, List.any_eq_false]
  refine forall₂_congr fun line _ => ?_
  cases line <;> simp [taken, SseLine.isData]

/-! ### Stripped streams -/

section

variable {s : EventStream}

/-- A text is its core with the white space around it. -/
theorem strip_parts (text : Text) : leading e text ++ e.unicode.strip text ++ trailing e text = text := by
  have hright : e.unicode.strip text ++ trailing e text = e.unicode.lstrip text := List.rdropWhile_append_rtakeWhile
  rw [List.append_assoc, hright]
  exact List.takeWhile_append_dropWhile

theorem leading_space {text : Text} : ∀ c ∈ leading e text, e.unicode.isSpace c = true := fun _ => List.mem_takeWhile_imp

theorem trailing_space {text : Text} : ∀ c ∈ trailing e text, e.unicode.isSpace c = true := fun _ =>
  List.mem_rtakeWhile_imp

/-- A character of a stream is plain, or it stands in the ending of a line. -/
theorem EventStream.mem_text (hbreaks : ∀ event ∈ s.events, ∀ line ∈ event, ∀ c ∈ line.text, c ∉ lineBreaks) {c : Char}
    (hc : c ∈ s.text) : c ∉ lineBreaks ∨ c ∈ s.ending := by
  obtain ⟨line, hline, hmem⟩ := List.mem_flatMap.mp hc
  rcases List.mem_append.mp hmem with hmem | hmem
  · exact .inl (EventStream.line_breaks hbreaks line hline c hmem)
  · exact .inr hmem

theorem EventStream.mem_ending {c : Char} (hc : c ∈ s.ending) : c = '\n' ∨ c = '\r' := by
  rw [EventStream.ending] at hc
  split at hc
  · simpa [or_comm] using hc
  · exact .inl (List.mem_singleton.mp hc)

/-- The text of the stream has its events. -/
theorem groups_framed (h : Framed e s) : groups e s.text = s.data e := by
  cases hcrlf : s.crlf with
  | false => exact EventStream.groups_text hcrlf h.breaks
  | true =>
      -- all lines are those of one event, but only one event has data
      have hplain : ∀ line ∈ s.lines, '\n' ∉ line := fun line hline hmem =>
        EventStream.line_breaks h.breaks line hline '\n' hmem (by decide)
      have hjoined : s.text = joined ['\r', '\n'] s.lines := by
        rw [EventStream.text, EventStream.ending, hcrlf]
        rfl
      have hchain : s.text.IsChain Apart := hjoined ▸ (isChain_crlf hplain).1
      have hdata : dataLines e s.text = (s.data e).flatten := by
        rw [hjoined, ← EventStream.dataPart_lines, dataLines, splitLines_crlf (EventStream.line_breaks h.breaks)]
        rfl
      have hone : (s.data e).length ≤ 1 := by
        have hsame : (s.data e).length = (s.events.filter fun event => event.any SseLine.isData).length := by
          rw [EventStream.data, List.filter_map, List.length_map]
          refine congrArg List.length (List.filter_congr fun event _ => ?_)
          cases hdata : event.any SseLine.isData with
          | false => exact decide_eq_false fun hne => hne (taken_eq_nil_iff.mpr hdata)
          | true => exact decide_eq_true fun hnil => Bool.false_ne_true ((taken_eq_nil_iff.mp hnil).symm.trans hdata)
        rw [hsame]
        exact h.endings hcrlf
      rw [groups_whole hchain, hdata]
      have hall : ∀ data ∈ s.data e, data ≠ [] := fun data hmem => of_decide_eq_true (List.mem_filter.mp hmem).2
      cases hd : s.data e with
      | nil => rfl
      | cons data rest =>
          rw [hd] at hone hall
          obtain rfl : rest = [] := List.eq_nil_of_length_eq_zero (by simpa using hone)
          simp [hall data List.mem_cons_self]

/-- What is read of the stripped text are the events of the stream. -/
theorem eventLoads_strip (h : Framed e s) : eventLoads e (e.unicode.strip s.text) = (s.data e).map (readData e) := by
  have hparts := strip_parts (e := e) s.text
  have hbreak (c : Char) (hc : c ∈ s.text) (hline : c ∈ lineBreaks) : c = '\n' ∨ c = '\r' :=
    EventStream.mem_ending ((EventStream.mem_text h.breaks hc).resolve_left (not_not_intro hline))
  have hfront (c : Char) (hc : c ∈ leading e s.text) : c ∈ s.text :=
    hparts ▸ List.mem_append_left _ (List.mem_append_left _ hc)
  have hback (c : Char) (hc : c ∈ trailing e s.text) : c ∈ s.text := hparts ▸ List.mem_append_right _ hc
  calc
    eventLoads e (e.unicode.strip s.text) = eventLoads e (e.unicode.strip s.text ++ trailing e s.text) :=
      (eventLoads_append trailing_space (fun c hc => hbreak c (hback c hc)) h.ends).symm
    _ = eventLoads e (leading e s.text ++ (e.unicode.strip s.text ++ trailing e s.text)) := by
      refine (eventLoads_prepend leading_space (fun c hc => hbreak c (hfront c hc)) (h.starts.imp_right ?_)).symm
      exact fun hnot hprefix => hnot (prefix_of_append_space (e := e) hprefix trailing_space)
    _ = (s.data e).map (readData e) := by rw [← List.append_assoc, hparts, eventLoads_eq, groups_framed h]

/-- A line of a stream stands at its start or behind a newline. -/
theorem EventStream.mem_lines {line : Text} (h : line ∈ s.lines) :
    ∃ front tail, s.text = front ++ line ++ tail ∧ (front = [] ∨ ∃ front', front = front' ++ ['\n']) := by
  obtain ⟨linesBefore, linesAfter, hlines⟩ := List.append_of_mem h
  refine ⟨joined s.ending linesBefore, s.ending ++ joined s.ending linesAfter, ?_, ?_⟩
  · change joined s.ending s.lines = _
    rw [hlines, joined_append]
    simp [joined]
  · rcases List.eq_nil_or_concat linesBefore with rfl | ⟨linesBefore, last, rfl⟩
    · exact .inl rfl
    · have hending : ∃ start, s.ending = start ++ ['\n'] := by
        rw [EventStream.ending]
        split
        · exact ⟨['\r'], rfl⟩
        · exact ⟨[], rfl⟩
      obtain ⟨start, hstart⟩ := hending
      refine .inr ⟨joined s.ending linesBefore ++ (last ++ start), ?_⟩
      rw [List.concat_eq_append, joined_append]
      simp [joined, hstart]

/-- What begins with a character that is not among those in front begins behind them. -/
theorem append_of_not_mem_front {before rest front tail : Text} {c : Char} (hc : c ∉ before)
    (h : before ++ rest = front ++ c :: tail) : ∃ inner, front = before ++ inner ∧ rest = inner ++ c :: tail := by
  rcases List.append_eq_append_iff.mp h with ⟨inner, hinner, hrest⟩ | ⟨beyond, hover, hrest⟩
  · exact ⟨inner, hinner, hrest⟩
  · cases beyond with
    | nil => exact ⟨[], by simpa using hover.symm, hrest.symm⟩
    | cons d beyond =>
        obtain ⟨rfl, -⟩ := List.cons.inj hrest
        exact absurd (hover ▸ List.mem_append_right _ List.mem_cons_self) hc

/-- What ends with a character that is not among those behind ends in front of them. -/
theorem append_of_not_mem_back {core after field tail : Text} {c : Char} (hc : c ∉ after)
    (h : core ++ after = field ++ [c] ++ tail) : ∃ rest, core = field ++ [c] ++ rest := by
  rcases List.append_eq_append_iff.mp h with ⟨beyond, hover, hafter⟩ | ⟨rest, hrest, -⟩
  · rcases List.eq_nil_or_concat beyond with rfl | ⟨beyond, last, rfl⟩
    · exact ⟨[], by simpa using hover.symm⟩
    · rw [List.concat_eq_append, ← List.append_assoc] at hover
      obtain ⟨-, hlast⟩ := List.append_inj' hover rfl
      obtain rfl := (List.cons.inj hlast).1
      refine absurd ?_ hc
      rw [hafter, List.concat_eq_append]
      exact List.mem_append_left _ (List.mem_append_right _ List.mem_cons_self)
  · exact ⟨rest, hrest⟩

/-- A stream with data is recognised. -/
theorem isEventStream_strip (hdata : s.data e ≠ []) : isEventStream (e.unicode.strip s.text) = true := by
  obtain ⟨before, hbeforeSpace, after, hafterSpace, htext⟩ : ∃ before, (∀ c ∈ before, e.unicode.isSpace c = true) ∧
      ∃ after, (∀ c ∈ after, e.unicode.isSpace c = true) ∧ s.text = before ++ e.unicode.strip s.text ++ after :=
    ⟨_, leading_space, _, trailing_space, (strip_parts s.text).symm⟩
  generalize e.unicode.strip s.text = core at htext ⊢
  obtain ⟨data, hmem⟩ := List.exists_mem_of_ne_nil _ hdata
  obtain ⟨hmem, hne⟩ := List.mem_filter.mp hmem
  obtain ⟨event, hevent, rfl⟩ := List.mem_map.mp hmem
  obtain ⟨line, hline, hisData⟩ : ∃ line ∈ event, SseLine.isData line = true := by
    rw [← List.any_eq_true, ← Bool.not_eq_false]
    exact fun hnone => of_decide_eq_true hne (taken_eq_nil_iff.mpr hnone)
  obtain ⟨value, hvalue⟩ : ∃ value, line.text = dataField ++ value := by
    cases line with
    | data space value => exact ⟨_, List.append_assoc _ _ _⟩
    | bare => exact absurd hisData Bool.false_ne_true
    | other text => exact absurd hisData Bool.false_ne_true
  obtain ⟨front, tail, hfront, hstart⟩ := EventStream.mem_lines (s := s) (List.mem_flatMap.mpr
    ⟨event, hevent, List.mem_append_left _ (List.mem_map_of_mem hline)⟩)
  rw [hvalue, htext] at hfront
  have hbefore (c : Char) (hc : c ∈ dataField) : c ∉ before := fun hmem =>
    Bool.false_ne_true ((dataField_not_space hc).symm.trans (hbeforeSpace c hmem))
  have hafter (c : Char) (hc : c ∈ dataField) : c ∉ after := fun hmem =>
    Bool.false_ne_true ((dataField_not_space hc).symm.trans (hafterSpace c hmem))
  -- the field does not overlap the white space at the front
  obtain ⟨inner, hinner, hcore⟩ := append_of_not_mem_front (hbefore 'd' (by decide))
    (show before ++ (core ++ after) = front ++ 'd' :: ("ata:".toList ++ (value ++ tail)) by
      simpa [dataField] using hfront)
  -- nor that at the end
  obtain ⟨rest, hrest⟩ : ∃ rest, core = inner ++ dataField ++ rest := by
    obtain ⟨rest, hrest⟩ := append_of_not_mem_back (hafter ':' (by decide))
      (show core ++ after = (inner ++ "data".toList) ++ [':'] ++ (value ++ tail) by simpa using hcore)
    exact ⟨rest, by simpa [dataField] using hrest⟩
  rw [isEventStream, Bool.or_eq_true]
  rcases List.eq_nil_or_concat inner with rfl | ⟨inner, last, rfl⟩
  · exact .inl (List.isPrefixOf_iff_prefix.mpr ⟨rest, by rw [hrest]; rfl⟩)
  · refine .inr (decide_eq_true ⟨inner, rest, ?_⟩)
    rcases hstart with hnil | ⟨front', hfront'⟩
    · rw [hnil] at hinner
      exact absurd hinner (by simp)
    · have hlast : last = '\n' := by
        rw [hfront', List.concat_eq_append, ← List.append_assoc] at hinner
        exact (List.cons.inj (List.append_inj' hinner rfl).2).1.symm
      rw [hrest, hlast, List.concat_eq_append]
      simp

/-- An event with data has a payload. -/
theorem payload_of_taken {event : Event} (htaken : event.filterMap (taken e) ≠ []) :
    event.filterMap SseLine.payload ≠ [] := by
  rw [Ne, taken_eq_nil_iff, Bool.not_eq_false] at htaken
  obtain ⟨line, hline, hdata⟩ := List.any_eq_true.mp htaken
  intro hnil
  have hnone := List.filterMap_eq_nil_iff.mp hnil line hline
  cases line with
  | data space value => exact absurd hnone (Option.some_ne_none _)
  | bare => exact absurd hdata Bool.false_ne_true
  | other text => exact absurd hdata Bool.false_ne_true

section

variable {event : Event}
  (hblanks : ∀ line ∈ event, ∀ space value, line = .data space value →
    ∀ c ∈ value.takeWhile e.unicode.isSpace, isBlank c = true)
  (hlimits : ∀ text ∈ event.payload, JsonReader.loads e.limits text = (value text).elim (.error .decode) .ok)
include hblanks hlimits

theorem readData_payload (hne : event.filterMap SseLine.payload ≠ []) :
    readData e (event.filterMap (taken e)) = event.value.elim (.error .decode) .ok := by
  have hpayload : event.payload = some (List.intercalate ['\n'] (event.filterMap SseLine.payload)) := if_neg hne
  rw [readData_taken hblanks, readData, hlimits _ hpayload, Event.value, hpayload, Option.bind_some]

/-- An event of which nothing is taken delivers nothing. -/
theorem value_of_untaken (htaken : event.filterMap (taken e) = []) : event.value = none := by
  by_cases hne : event.filterMap SseLine.payload = []
  · rw [Event.value, Event.payload, if_pos hne, Option.bind_none]
  · -- the payload has empty lines only
    have hempty := readData_payload hblanks hlimits hne
    rw [htaken] at hempty
    cases hvalue : event.value with
    | none => rfl
    | some v =>
        rw [hvalue, Option.elim_some, show readData e [] = .error .decode from rfl] at hempty
        cases hempty

end

/-- What is read of events are their payloads. -/
theorem collect_events {events : List Event}
    (hblanks : ∀ event ∈ events, ∀ line ∈ event, ∀ space value, line = .data space value →
      ∀ c ∈ value.takeWhile e.unicode.isSpace, isBlank c = true)
    (hlimits : ∀ event ∈ events, ∀ text ∈ event.payload,
      JsonReader.loads e.limits text = (value text).elim (.error .decode) .ok) :
    collect e (((events.map (List.filterMap (taken e))).filter (· ≠ [])).map (readData e)) =
      .ok (events.filterMap Event.value) := by
  induction events with
  | nil => rfl
  | cons event events ih =>
      have hrest := ih (fun event' h => hblanks event' (List.mem_cons_of_mem _ h))
        fun event' h => hlimits event' (List.mem_cons_of_mem _ h)
      have hblank := hblanks event List.mem_cons_self
      have hlimit := hlimits event List.mem_cons_self
      rw [List.map_cons]
      by_cases htaken : event.filterMap (taken e) = []
      · rw [List.filter_cons_of_neg (by simpa using htaken),
          List.filterMap_cons_none (value_of_untaken hblank hlimit htaken)]
        exact hrest
      · rw [List.filter_cons_of_pos (by simpa using htaken), List.map_cons,
          readData_payload hblank hlimit (payload_of_taken htaken)]
        cases hvalue : event.value with
        | none =>
            rw [List.filterMap_cons_none hvalue]
            exact hrest
        | some v =>
            rw [List.filterMap_cons_some hvalue]
            change (collect e _).map (v :: ·) = _
            rw [hrest]
            rfl

/-- A framed stream is decoded from its payloads. -/
theorem decode_events (h : Framed e s) (n : ℤ) : Faithful e (.events s) n ↔ LastIsRequest n s.values := by
  have hcollect : collect e ((s.data e).map (readData e)) = .ok s.values := collect_events h.blanks h.limits
  have hcandidates : eventCandidates e (e.unicode.strip s.text) = .ok s.values := by
    rw [← hcollect, ← eventLoads_strip h]
    rfl
  have hrefused (failure : Failure) (hvalues : s.values = [])
      (herror : decodeRpcBody e s.text n = .error failure) : Faithful e (.events s) n ↔ LastIsRequest n s.values := by
    refine iff_of_true ((faithful_of_error failure herror).mpr fun v hv => ?_) ?_
    · change v ∈ s.values at hv
      rw [hvalues] at hv
      exact absurd hv List.not_mem_nil
    · rw [hvalues]
      exact fun v hv => (nomatch hv)
  by_cases hempty : e.unicode.strip s.text = []
  · refine hrefused _ ?_ (by rw [decodeRpcBody, if_pos hempty])
    rw [hempty] at hcandidates
    exact (Except.ok.inj hcandidates).symm
  · cases hstream : isEventStream (e.unicode.strip s.text) with
    | true =>
        refine faithful_of_candidates ?_
        rw [Body.text, decodeRpcBody, if_neg hempty, if_pos hstream, hcandidates]
        rfl
    | false =>
        have hnone : s.data e = [] := by
          by_contra hdata
          exact Bool.false_ne_true (hstream.symm.trans (isEventStream_strip hdata))
        have hfields : ∀ event ∈ s.events, event.any SseLine.isData = false := by
          intro event hevent
          have hnot := List.filter_eq_nil_iff.mp hnone _ (List.mem_map_of_mem hevent)
          exact taken_eq_nil_iff.mp (by simpa using hnot)
        have hvalues : s.values = [] := by
          rw [hnone] at hcollect
          exact (Except.ok.inj hcollect).symm
        cases hloads : JsonReader.loads e.limits (e.unicode.strip s.text) with
        | ok v => exact absurd hloads (h.fields hfields v)
        | error error =>
            refine hrefused
              ((limitError e error).getD (responseError "page-user MCP returned malformed JSON")) hvalues ?_
            rw [decodeRpcBody, if_neg hempty, hstream, if_neg Bool.false_ne_true, hloads]

end

/-! ### Decoded replies -/

/-- **A framed reply is decoded to the payload for its request exactly if the last match has the integer itself.** -/
theorem faithful_iff (body : Body) (requestId : ℤ) (h : body.Framed e) :
    Faithful e body requestId ↔ body.Identified e requestId := by
  cases body with
  | events stream => exact decode_events h requestId
  | plain text value decodes message => exact decode_plain decodes requestId message

/-- A text that is read under the limits is read as what it stands for. -/
theorem loads_of_isOk {limits : Limits} {text : Text} (h : (JsonReader.loads limits text).isOk = true) :
    JsonReader.loads limits text = (value text).elim (.error .decode) .ok := by
  cases hloads : JsonReader.loads limits text with
  | error error =>
      rw [hloads] at h
      exact nomatch h
  | ok v => rw [value_of_loads hloads, Option.elim_some]

/-- A property of characters is checked one by one. -/
theorem forall_of_all {text : Text} {P : Char → Prop} [DecidablePred P] (h : text.all (fun c => decide (P c)) = true) :
    ∀ c ∈ text, P c := fun c hc => of_decide_eq_true (List.all_eq_true.mp h c hc)

/-- Surroundings of a text that is plain ASCII. -/
def asciiSurroundings : Surroundings where
  unicode := Unicode.ascii
  unquote text := text
  render _ := []
  nesting := 900
  explain _ := "limit".toList
  arrange texts := texts
  arrange_perm texts := List.Perm.refl texts

/-- Two events: the response to request 1, and an empty object. -/
def twoEvents (crlf : Bool) : EventStream where
  crlf
  events := [[.data true "\x7b\"id\": 1, \"result\": \x7b\x7d\x7d".toList], [.data true "\x7b\x7d".toList]]
  valid := by
    intro event hevent line hline
    rcases List.mem_pair.mp hevent with rfl | rfl
    all_goals
      obtain rfl := List.mem_singleton.mp hline
      exact ⟨by decide +kernel, by decide +kernel, fun h => absurd h (by decide)⟩

theorem faithful_newlines : Faithful asciiSurroundings (.events (twoEvents false)) 1 := by
  refine (faithful_iff (.events (twoEvents false)) 1 ⟨fun h => absurd h (by decide), ?_, ?_, ?_, ?_, ?_, ?_⟩).mpr ?_
  · intro event hevent line hline
    rcases List.mem_pair.mp hevent with rfl | rfl
    all_goals
      obtain rfl := List.mem_singleton.mp hline
      exact forall_of_all (by decide +kernel)
  · intro event hevent line hline space value hdata
    rcases List.mem_pair.mp hevent with rfl | rfl
    all_goals
      obtain ⟨rfl, rfl⟩ := SseLine.data.inj (hdata.symm.trans (List.mem_singleton.mp hline))
      exact forall_of_all (by decide +kernel)
  · intro event hevent text htext
    rcases List.mem_pair.mp hevent with rfl | rfl
    all_goals
      obtain rfl := Option.some.inj htext
      exact loads_of_isOk (by decide +kernel)
  · exact .inl (by decide +kernel)
  · exact .inl (forall_of_all (by decide +kernel))
  · exact fun h => absurd (h _ List.mem_cons_self) (by decide)
  · change LastIsRequest 1 (twoEvents false).values
    decide +kernel

/-- With line ends of two characters both events are one: the response is not found. -/
theorem crlf_response_lost : ¬ Faithful asciiSurroundings (.events (twoEvents true)) 1 := by
  intro h
  have hsome : ∃ v ∈ (twoEvents true).values, HasId 1 v := by decide +kernel
  obtain ⟨v, hv⟩ := h.found hsome
  have herror : (decodeRpcBody asciiSurroundings (twoEvents true).text 1).toOption = none := by decide +kernel
  change decodeRpcBody asciiSurroundings (twoEvents true).text 1 = .ok v at hv
  rw [hv] at herror
  exact absurd herror (Option.some_ne_none v)

end KernelGym.PageUser
