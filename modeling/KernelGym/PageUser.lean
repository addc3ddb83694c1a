import KernelGym.Library.JsonReader
import Mathlib.Data.List.Sort

/-! The client of the `page_user` tool: the redaction of error texts, the decoding of a reply, and the outcome of one
notification. -/

namespace KernelGym.PageUser

open Library

abbrev Text := List Char

/-! ### Texts -/

/-- `old in text` -/
def occurs (old text : Text) : Bool := old <:+: text

/-- `text.replace(old, new)` for a text `old` that is not empty. -/
def replaceFrom (old new : Text) : ℕ → Text → Text
  | 0, text => text
  | _ + 1, [] => []
  | fuel + 1, c :: rest =>
    if old.isPrefixOf (c :: rest) then new ++ replaceFrom old new fuel ((c :: rest).drop old.length)
    else c :: replaceFrom old new fuel rest

def replace (old new text : Text) : Text := replaceFrom old new text.length text

/-- `text.partition(c)` without the separator; the second part is missing if `c` does not occur. -/
def partition (c : Char) (text : Text) : Text × Option Text :=
  match text.dropWhile (· ≠ c) with
  | [] => (text, none)
  | _ :: rest => (text.takeWhile (· ≠ c), some rest)

/-- `text.rpartition(c)`, the other way round: what follows the last `c`, and what precedes it if there is one. -/
def rpartition (c : Char) (text : Text) : Text × Option Text :=
  let (after, before) := partition c text.reverse
  (after.reverse, before.map List.reverse)

/-- `text.split(c)` -/
def splitAt (c : Char) : Text → List Text
  | [] => [[]]
  | x :: rest =>
    if x = c then [] :: splitAt c rest
    else
      match splitAt c rest with
      | [] => [[x]]
      | part :: parts => (x :: part) :: parts

/-! ### URLs -/

structure SplitUrl where
  scheme : Text
  netloc : Text
  path : Text
  query : Text
  fragment : Text

def schemeChars : Text := "abcdefghijklmnopqrstuvwxyzABCDEFGHIJKLMNOPQRSTUVWXYZ0123456789+-.".toList

/-- The scheme of a URL and what follows it. -/
def splitScheme (url : Text) : Text × Text :=
  match partition ':' url with
  | (scheme, some rest) =>
    if scheme.head?.any Char.isAlpha && scheme.all (· ∈ schemeChars) then (scheme.map Char.toLower, rest) else ([], url)
  | (_, none) => ([], url)

/-- `urlsplit`, for a URL that it accepts. -/
def urlsplit (url : Text) : SplitUrl :=
  let url := (url.dropWhile fun c => c.toNat ≤ 32).filter fun c => c ∉ ['\t', '\r', '\n']
  let (scheme, rest) := splitScheme url
  let (netloc, rest) :=
    match rest with
    | '/' :: '/' :: rest =>
      (rest.takeWhile fun c => c ∉ ['/', '?', '#'], rest.dropWhile fun c => c ∉ ['/', '?', '#'])
    | rest => ([], rest)
  let (rest, fragment) := partition '#' rest
  let (path, query) := partition '?' rest
  { scheme, netloc, path, query := query.getD [], fragment := fragment.getD [] }

/-- `urlunsplit` without a fragment. -/
def urlunsplit (scheme netloc path query : Text) : Text :=
  let path := if path ≠ [] ∧ path.head? ≠ some '/' then '/' :: path else path
  (if scheme = [] then [] else scheme ++ [':']) ++ ['/', '/'] ++ netloc ++ path ++
    if query = [] then [] else '?' :: query

namespace SplitUrl

/-- What stands before the last `@`. -/
def userinfo (s : SplitUrl) : Option Text := (rpartition '@' s.netloc).2

def username (s : SplitUrl) : Text := s.userinfo.elim [] fun info => (partition ':' info).1

def password (s : SplitUrl) : Text := (s.userinfo.bind fun info => (partition ':' info).2).getD []

def hostname (u : Unicode) (s : SplitUrl) : Text :=
  let hostinfo := (rpartition '@' s.netloc).1
  let host :=
    match partition '[' hostinfo with
    | (_, some bracketed) => (partition ']' bracketed).1
    | (_, none) => (partition ':' hostinfo).1
  match partition '%' host with
  | (name, some zone) => u.lower name ++ '%' :: zone
  | (name, none) => u.lower name

end SplitUrl

/-- The values of `parse_qsl(query, keep_blank_values=True)`. -/
def queryValues (unquote : Text → Text) (query : Text) : List Text :=
  ((splitAt '&' query).filter (· ≠ [])).map fun field =>
    unquote (((partition '=' field).2.getD []).map fun c => if c = '+' then ' ' else c)

/-! ### Redaction -/

structure PageUserConfig where
  url : Text
  authorization : Text
  proxy : Option Text

/-- What the client takes from its surroundings: the Unicode tables, percent decoding, the text of a decoded value,
how much deeper calls may be nested, the texts of the errors of `json.loads`, and the order in which a set gives its
elements. -/
structure Surroundings where
  unicode : Unicode
  unquote : Text → Text
  render : JsonValue → Text
  nesting : ℕ
  explain : JsonReader.LoadsError → Text
  arrange : List Text → List Text
  arrange_perm : ∀ texts, (arrange texts).Perm texts

variable (e : Surroundings)

def Surroundings.limits : JsonReader.Limits where
  digits := some Unicode.maxStrDigits
  nesting := some e.nesting

/-- What is taken from one URL. -/
def urlSecrets (url : Text) : List Text :=
  let parsed := urlsplit url
  [url, urlunsplit parsed.scheme parsed.netloc parsed.path parsed.query,
      urlunsplit parsed.scheme parsed.netloc parsed.path [], parsed.netloc, parsed.hostname e.unicode, parsed.username,
      e.unquote parsed.username, parsed.password, e.unquote parsed.password,
      if 1 < parsed.path.length then parsed.path else [], parsed.query, parsed.fragment] ++
    (queryValues e.unquote parsed.query).flatMap fun value => [value, e.unquote value]

/-- The URLs of a configuration. -/
def PageUserConfig.urls (config : PageUserConfig) : List Text := (config.url :: config.proxy.toList).filter (· ≠ [])

/-- The part of the authorization behind its first blank. -/
def PageUserConfig.token (config : PageUserConfig) : Option Text := (partition ' ' config.authorization).2

def secrets (config : PageUserConfig) : List Text :=
  ((config.authorization :: config.urls.flatMap (urlSecrets e)) ++ config.token.toList).dedup.filter (· ≠ [])

def redacted : Text := "[REDACTED]".toList

/-- The secrets in the order in which they are replaced: the longest first. -/
def replacementOrder (config : PageUserConfig) : List Text :=
  (e.arrange (secrets e config)).insertionSort fun a b => b.length ≤ a.length

/-- `_redact`, on the text of the message. -/
def redact (config : PageUserConfig) (message : Text) : Text :=
  ((replacementOrder e config).foldl (fun text secret => replace secret redacted text) message).take 500

/-! ### Replies -/

structure HttpReply where
  status : ℤ
  sessionId : Option Text
  body : Text

/-- `_NotificationError`, and any other exception by the name of its class. -/
inductive Failure
  | notification (kind : String) (message : Text) (legacyFallback : Bool)
  | timeout
  | transport (className text : Text)
  | other (className text : Text)

def responseError (message : String) : Failure := .notification "response_error" message.toList false

/-- `text.split("\n\n")` -/
def splitEvents : Text → List Text
  | [] => [[]]
  | '\n' :: '\n' :: rest => [] :: splitEvents rest
  | c :: rest =>
    match splitEvents rest with
    | [] => [[c]]
    | part :: parts => (c :: part) :: parts

def dataField : Text := "data:".toList

/-- The data of an event: what stands behind `data:` in its lines. -/
def dataLines (event : Text) : List Text :=
  ((splitLines event).filter fun line => dataField.isPrefixOf line).map fun line =>
    e.unicode.lstrip (line.drop dataField.length)

/-- What the data of an event are read as, if it has some. -/
def dataLoads (event : Text) : Option (Except JsonReader.LoadsError JsonValue) :=
  if dataLines e event = [] then none
  else some (JsonReader.loads e.limits (List.intercalate ['\n'] (dataLines e event)))

/-- The exception of a text that is JSON, but beyond a limit. -/
def limitError : JsonReader.LoadsError → Option Failure
  | .decode => none
  | .digits n => some (.other "ValueError".toList (e.explain (.digits n)))
  | .nesting object => some (.other "RecursionError".toList (e.explain (.nesting object)))

/-- The values among what is read; what is no JSON is left out. -/
def collect : List (Except JsonReader.LoadsError JsonValue) → Except Failure (List JsonValue)
  | [] => .ok []
  | .ok v :: rest => (collect rest).map (v :: ·)
  | .error error :: rest => (limitError e error).elim (collect rest) .error

/-- The candidates of a stream of events. -/
def eventCandidates (text : Text) : Except Failure (List JsonValue) :=
  collect e ((splitEvents text).filterMap (dataLoads e))

def isEventStream (text : Text) : Bool := dataField.isPrefixOf text || occurs ('\n' :: dataField) text

/-- `value.get(key)` of a dictionary. -/
def getKey (key : String) : JsonValue → Option JsonValue
  | .object fields => fields.lookup key.toList
  | _ => none

def isDict : JsonValue → Bool
  | .object _ => true
  | _ => false

/-- `value == n`; a truth value is an integer. -/
def equalsInteger (n : ℤ) : JsonValue → Bool
  | .integer m => m = n
  | .bool b => (if b then 1 else 0) = n
  | .number (.finite q) => q = n
  | _ => false

/-- `isinstance(candidate, dict) and candidate.get("id") == request_id` -/
def matchesRequest (requestId : ℤ) (candidate : JsonValue) : Bool :=
  isDict candidate && (getKey "id" candidate).any (equalsInteger requestId)

/-- The last candidate for the request. -/
def chooseCandidate (requestId : ℤ) (candidates : List JsonValue) : Except Failure JsonValue :=
  match candidates.reverse.find? (matchesRequest requestId) with
  | some candidate => .ok candidate
  | none => .error (responseError "page-user MCP response did not match the request")

/-- `_decode_rpc_body` -/
def decodeRpcBody (body : Text) (requestId : ℤ) : Except Failure JsonValue :=
  let stripped := e.unicode.strip body
  if stripped = [] then .error (responseError "page-user MCP returned an empty response")
  else if isEventStream stripped then (eventCandidates e stripped).bind (chooseCandidate requestId)
  else
    match JsonReader.loads e.limits stripped with
    | .error error =>
      .error ((limitError e error).getD (responseError "page-user MCP returned malformed JSON"))
    | .ok (.array items) => chooseCandidate requestId items
    | .ok value => chooseCandidate requestId [value]

/-! ### Results -/

/-- `str(value)` -/
def strOf : JsonValue → Text
  | .text s => s
  | value => e.render value

def intText (n : ℤ) : Text := (toString n).toList

def succeeded (status : ℤ) : Bool := 200 ≤ status && status < 300

def fallbackStatuses : List ℤ := [400, 404, 405, 406, 415]

def fallbackTexts : List String :=
  ["unsupported protocol", "not initialized", "initialize first", "session required", "missing session"]

/-- Whether `code in {-32022, -32002}`; a list or a dictionary cannot be looked up. -/
def fallbackCode : Option JsonValue → Except Failure Bool
  | some (.array _) | some (.object _) => .error (.other "TypeError".toList "unhashable type".toList)
  | some code => .ok (equalsInteger (-32022) code || equalsInteger (-32002) code)
  | none => .ok false

/-- The error that an HTTP status stands for. -/
def httpError (status : ℤ) (detail : Text) (modernAttempt : Bool) : Failure :=
  .notification "http_error" ("page-user MCP returned HTTP ".toList ++ intText status ++ detail)
    (modernAttempt && status ∈ fallbackStatuses)

/-- `_rpc_result` -/
def rpcResult (config : PageUserConfig) (reply : HttpReply) (requestId : ℤ) (modernAttempt : Bool) :
    Except Failure JsonValue :=
  match decodeRpcBody e reply.body requestId with
  | .error (.notification kind message fallback) =>
    .error (if succeeded reply.status then .notification kind message fallback
      else httpError reply.status [] modernAttempt)
  | .error failure => .error failure
  | .ok response =>
    if !succeeded reply.status then
      let detail :=
        match getKey "error" response with
        | some (.object fields) => (fields.lookup "message".toList).elim "None".toList (strOf e)
        | _ => "HTTP ".toList ++ intText reply.status
      .error (httpError reply.status (": ".toList ++ redact e config detail) modernAttempt)
    else
      match getKey "error" response with
      | some (.object fields) =>
        let code := fields.lookup "code".toList
        let message := redact e config ((fields.lookup "message".toList).elim "JSON-RPC error".toList (strOf e))
        let known := fallbackTexts.any fun text => occurs text.toList (e.unicode.lower message)
        match if modernAttempt then fallbackCode code else .ok false with
        | .error failure => .error failure
        | .ok byCode =>
          .error (.notification "rpc_error"
            ("page-user MCP JSON-RPC error ".toList ++ code.elim "None".toList (strOf e) ++ ": ".toList ++ message)
            (modernAttempt && (byCode || known)))
      | _ =>
        match getKey "result" response with
        | some (.object fields) => .ok (.object fields)
        | _ => .error (responseError "page-user MCP response has no result object")

/-- `bool(value)` -/
def isTrue : JsonValue → Bool
  | .null => false
  | .bool b => b
  | .integer n => n ≠ 0
  | .number x => x ≠ .finite 0
  | .text s => s ≠ []
  | .array items => !items.isEmpty
  | .object fields => !fields.isEmpty

/-- The texts of the content of a tool's result. -/
def textParts : Option JsonValue → List Text
  | some (.array items) =>
    (items.filter fun item =>
      match getKey "type" item with
      | some (.text s) => s = "text".toList
      | _ => false).map fun item => (getKey "text" item).elim "None".toList (strOf e)
  | _ => []

/-- `_check_tool_result` -/
def checkToolResult (config : PageUserConfig) (result : JsonValue) : Except Failure Unit :=
  if !(getKey "isError" result).any isTrue then .ok ()
  else
    let parts := textParts e (getKey "content" result)
    let detail := if parts = [] then "page-user tool reported an error".toList else List.intercalate [' '] parts
    .error (.notification "tool_error" (redact e config detail) false)

/-! ### One notification -/

/-- What an attempt to post comes to: a reply, or an exception. -/
abbrev Exchange := Except Failure HttpReply

def modernProtocolVersion : Text := "2026-07-28".toList

def legacyProtocolVersion : Text := "2025-06-18".toList

/-- `_PROTOCOL_VERSION_PATTERN.fullmatch` -/
def isProtocolVersion : Text → Bool
  | [y₁, y₂, y₃, y₄, '-', m₁, m₂, '-', d₁, d₂] => [y₁, y₂, y₃, y₄, m₁, m₂, d₁, d₂].all Char.isDigit
  | _ => false

/-- `_send_modern` -/
def sendModern (config : PageUserConfig) (call : Exchange) : Except Failure Unit := do
  let reply ← call
  let result ← rpcResult e config reply 1 true
  checkToolResult e config result

/-- The version that a legacy server names. -/
def negotiatedVersion (result : JsonValue) : Text :=
  match getKey "protocolVersion" result with
  | some version => if isTrue version then strOf e version else legacyProtocolVersion
  | none => legacyProtocolVersion

/-- `_send_legacy`: the session is opened, which is confirmed, and then called. -/
def sendLegacy (config : PageUserConfig) (opening opened call : Exchange) : Except Failure Text := do
  let openingReply ← opening
  let openingResult ← rpcResult e config openingReply 10 false
  let version := negotiatedVersion e openingResult
  if !isProtocolVersion version then
    throw (responseError "page-user MCP returned an invalid protocol version")
  let openedReply ← opened
  if !succeeded openedReply.status then
    throw (.notification "http_error"
      ("page-user MCP initialized notification returned HTTP ".toList ++ intText openedReply.status) false)
  let callReply ← call
  let result ← rpcResult e config callReply 11 false
  checkToolResult e config result
  return version

structure PageUserNotificationOutcome where
  success : Bool
  protocolVersion : Option Text := none
  errorKind : Option String := none
  error : Option Text := none
  deriving DecidableEq

def timeoutText : Text := "page-user MCP request timed out".toList

/-- The outcome of an exception. -/
def failedOutcome (config : PageUserConfig) : Failure → PageUserNotificationOutcome
  | .timeout => { success := false, errorKind := some "timeout", error := some timeoutText }
  | .notification kind message _ =>
    { success := false, errorKind := some kind, error := some (redact e config message) }
  | .transport className text =>
    { success := false
      errorKind := some "transport_error"
      error := some (redact e config (className ++ ": ".toList ++ text)) }
  | .other className text =>
    { success := false
      errorKind := some "unexpected_error"
      error := some (redact e config (className ++ ": ".toList ++ text)) }

/-- What the posts of one notification come to. -/
structure Exchanges where
  modern : Exchange
  opening : Exchange
  opened : Exchange
  call : Exchange

/-- The legacy protocol is tried if the failure of the modern one asks for it. -/
def asksForLegacy : Failure → Bool
  | .notification _ _ legacyFallback => legacyFallback
  | _ => false

/-- `send_page_user_notification`, once the configuration is loaded. -/
def sendPageUserNotification (config : PageUserConfig) (x : Exchanges) : PageUserNotificationOutcome :=
  match sendModern e config x.modern with
  | .ok () => { success := true, protocolVersion := some modernProtocolVersion }
  | .error failure =>
    if asksForLegacy failure then
      match sendLegacy e config x.opening x.opened x.call with
      | .ok version => { success := true, protocolVersion := some version }
      | .error failure => failedOutcome e config failure
    else failedOutcome e config failure

end KernelGym.PageUser
