import KernelGym.ErrorSimplifier
import KernelGym.Library.Buckets
import KernelGym.Library.Regex

/-! The Compute Sanitizer: which runtime errors call for one of its tools and must not be swallowed by a probe, and
the reading of its reports, from the lines of the output to the aggregated issues. -/

namespace KernelGym

open Library

inductive SanitizerTool
  | memcheck
  | racecheck
  | synccheck
  | initcheck
  deriving DecidableEq, Repr

/-- `any(token in text for token in tokens)` -/
def containsAny (tokens : List String) (text : Text) : Bool := tokens.any fun token => token.toList <:+: text

def raceRe : String := r"\b(?:data\s+race|race(?:check)?|hazard)\b"

def initcheckTokens : List String := ["uninitialized", "uninitialised"]

def synccheckTokens : List String := ["barrier", "syncwarp", "syncthreads", "synchronization", "synchronisation"]

def memcheckTokens : List String :=
  ["illegal memory access", "illegal address", "misaligned address", "out of bounds", "out-of-bounds",
    "device-side assert", "device side assert", "cudaerrorillegaladdress", "cudaerrormisalignedaddress",
    "invalid __global__", "invalid __local__", "invalid __shared__"]

def executionFaultMarkers : List String :=
  ["illegal instruction", "invalid pc", "hardware stack error", "launch failure", "unspecified launch failure"]

/-- `classify_compute_sanitizer_error`, from the text of the error. -/
def classifyComputeSanitizerError (u : Unicode) (runtimeError : Text) : Option SanitizerTool :=
  let lowered := u.lower runtimeError
  if containsAny initcheckTokens lowered then some .initcheck
  else if (Regex.compile raceRe).search u false lowered then some .racecheck
  else if containsAny synccheckTokens lowered then some .synccheck
  else if containsAny memcheckTokens lowered then some .memcheck
  else none

/-- `is_actionable_cuda_execution_error` -/
def isActionableCudaExecutionError (u : Unicode) (runtimeError : Text) : Bool :=
  (classifyComputeSanitizerError u runtimeError).isSome || containsAny executionFaultMarkers (u.lower runtimeError)

theorem containsAny_append (tokens tokens' : List String) (text : Text) :
    containsAny (tokens ++ tokens') text = (containsAny tokens text || containsAny tokens' text) := List.any_append

theorem isActionableCudaExecutionError_iff {u : Unicode} {e : Text} :
    isActionableCudaExecutionError u e = true ↔
      (Regex.compile raceRe).search u false (u.lower e) = true ∨
        containsAny (initcheckTokens ++ synccheckTokens ++ memcheckTokens ++ executionFaultMarkers) (u.lower e) =
          true := by
  rw [isActionableCudaExecutionError, classifyComputeSanitizerError, containsAny_append, containsAny_append,
    containsAny_append]
  generalize (Regex.compile raceRe).search u false (u.lower e) = race
  cases containsAny initcheckTokens (u.lower e) <;> cases race <;>
    cases containsAny synccheckTokens (u.lower e) <;> cases containsAny memcheckTokens (u.lower e) <;> simp

/-- An error is actionable for a race only if it has a `c` or a `z`. -/
theorem race_needs : (Regex.compile raceRe).needs (fun c => c = 'c' || c = 'z') = true := by decide +kernel

/-! ### The lines of a report -/

def prefixRe : String := r"^=+\s?(.*)$"

def sourceRe : String := r"(?P<file>[^\s()]+\.(?:cu|cuh|cpp|cc|cxx)):(?P<line>\d+)"

def threadBlockRe : String := r"by thread \((?P<thread>[^)]+)\) in block \((?P<block>[^)]+)\)"

def raceThreadRe : String := r"(?:Read|Write) Thread \((?P<thread>[^)]+)\)"

def blockRe : String := r"in block \((?P<block>[^)]+)\)"

def addressRe : String := r"\b(?:Access at|Address(?: at)?)\s+(?P<address>0x[0-9a-f]+)\b"

def hexAddressRe : String := r"\b0x[0-9a-f]+\b"

def kernelAtRe : String := r"\bat\s+(?P<kernel>[A-Za-z_$][\w$]*(?:\([^)]*\))?)(?:\+0x[0-9a-f]+)?\s+in\s+"

def deviceFrameKernelRe : String :=
  r"Device Frame:\s*(?P<kernel>[A-Za-z_$][\w$]*(?:\([^)]*\))?)(?:\+0x[0-9a-f]+)?\s+in\s+"

def accessRe : String :=
  r"(?P<kind>Invalid|Uninitialized)\s+(?P<space>__\w+__)(?:\s+memory)?\s+(?P<access>read|write)\s+of\s+size\s+(?P<size>\d+)\s+bytes?"

def errorSummaryRe : String := r"ERROR SUMMARY:\s*(\d+)\s+errors?"

def raceSummaryRe : String := r"RACECHECK SUMMARY:\s*(\d+)\s+hazards?"

def diagnosticStarts : List String :=
  ["Error: Potential ", "Invalid ", "Uninitialized ", "Barrier error detected", "Barrier error: ", "Race reported",
    "Hazard at", "Program hit cudaError", "Leaked "]

def maxParsedIssueOccurrences : ℕ := 5000

def maxReturnedUniqueIssues : ℕ := 4

def representativeOccurrencesPerIssue : ℕ := 2

namespace Sanitizer

/-- The end of the first match of a pattern that ignores the case. -/
def searched (u : Unicode) (re : String) (text : Text) : Option Position := (Regex.compile re).find u true text

/-- A line without the marks of the tool. -/
def cleanLine (u : Unicode) (rawLine : Text) : Text :=
  match (Regex.compile prefixRe).matchAt u false ⟨none, u.strip rawLine, []⟩ with
  | some q => u.strip ((q.group "").getD [])
  | none => u.strip rawLine

/-- `_clean_output_lines` -/
def cleanOutputLines (u : Unicode) (output : Text) : List Text :=
  ((splitLines output).map (cleanLine u)).filter (· ≠ [])

def startsWith (line : Text) (start : String) : Bool := start.toList.isPrefixOf line

def isStart (line : Text) : Bool := diagnosticStarts.any (startsWith line)

def isSummary (u : Unicode) (line : Text) : Bool :=
  (searched u errorSummaryRe line).isSome || (searched u raceSummaryRe line).isSome

/-- The variables of the loop over the lines. -/
structure Grouping where
  groups : List (List Text) := []
  observedIssueCount : ℕ := 0
  current : List Text := []

/-- The current group is counted, and kept while there is room. -/
def Grouping.close (s : Grouping) : Grouping :=
  { s with
    observedIssueCount := s.observedIssueCount + 1
    groups := if s.groups.length < maxParsedIssueOccurrences then s.groups ++ [s.current] else s.groups }

/-- The body of the loop over the lines. -/
def Grouping.step (u : Unicode) (s : Grouping) (line : Text) : Grouping :=
  if startsWith line "Hazard at" && s.current.head?.any (startsWith · "Race reported") then
    { s with current := s.current ++ [line] }
  else if isStart line then
    { (if s.current = [] then s else s.close) with current := [line] }
  else if s.current ≠ [] then
    if isSummary u line then { s.close with current := [] } else { s with current := s.current ++ [line] }
  else s

/-- The groups of a report. -/
def groupLines (u : Unicode) (lines : List Text) : Grouping :=
  let s := lines.foldl (Grouping.step u) {}
  if s.current = [] then s else s.close

/-! ### Occurrences -/

structure Coordinates where
  x : Option ℤ
  y : Option ℤ
  z : Option ℤ
  deriving DecidableEq, Repr, Inhabited

/-- `value.split(",")` -/
def splitCommas : Text → List Text
  | [] => [[]]
  | c :: rest =>
    match splitCommas rest with
    | part :: parts => if c = ',' then [] :: part :: parts else (c :: part) :: parts
    | [] => [[c]]

/-- `_coordinates` -/
def coordinates (u : Unicode) (value : Text) : Coordinates :=
  let parsed := ((splitCommas value).take 3).map u.int
  ⟨(parsed[0]?).join, (parsed[1]?).join, (parsed[2]?).join⟩

structure Occurrence where
  tool : Text
  hazardType : Text
  message : Text
  kernel : Option Text
  source : Option (Text × ℤ)
  thread : Option Coordinates
  block : Option Coordinates
  address : Option Text
  accessType : Option Text
  memorySpace : Option Text
  accessSizeBytes : Option ℤ
  rawExcerpt : Option Text := none
  deriving DecidableEq, Repr

/-- `text.strip("_")` -/
def stripUnderscores (text : Text) : Text := (text.dropWhile (· = '_')).rdropWhile (· = '_')

/-- `_hazard_type` -/
def hazardType (u : Unicode) (tool message : Text) : Text :=
  let lowered := u.lower message
  let has (token : String) : Bool := token.toList <:+: lowered
  match searched u accessRe message with
  | some access =>
    let part (name : String) : Text := (access.group name).getD []
    u.lower (part "kind") ++ '_' :: u.lower (stripUnderscores (part "space")) ++ '_' :: u.lower (part "access")
  | none =>
    if has "race" || has "hazard" then "shared_memory_race".toList
    else if has "barrier" || has "sync" then "synchronization_error".toList
    else if has "cudaerror" then "cuda_api_error".toList
    else if has "leak" then "device_memory_leak".toList
    else if tool = "racecheck".toList then "shared_memory_race".toList
    else if tool = "synccheck".toList then "synchronization_error".toList
    else tool ++ "_error".toList

/-- `"\n".join(lines)` -/
def joinLines (lines : List Text) : Text := List.intercalate ['\n'] lines

/-- The digits of the line in the first source location. -/
def lineNumber (u : Unicode) (group : List Text) : Option Text :=
  ((Regex.compile sourceRe).find u false (joinLines group)).bind fun q => q.group "line"

/-- The digits of the size in the message. -/
def accessSize (u : Unicode) (group : List Text) : Option Text :=
  (searched u accessRe (group.headD [])).bind fun q => q.group "size"

/-- `int` of a number that may be missing. -/
def readNumber (u : Unicode) : Option Text → Option (Option ℤ)
  | none => some none
  | some digits => (u.int digits).map some

/-- `_parse_issue`, which has no value where `int` raises. -/
def parseIssue (u : Unicode) (tool : Text) (group : List Text) : Option Occurrence := do
  let message := group.headD []
  let text := joinLines group
  let field (re name : String) (text : Text) : Option Text := (searched u re text).bind fun q => q.group name
  let sourceMatch := (Regex.compile sourceRe).find u false text
  let line ← readNumber u (lineNumber u group)
  let trailing := sourceMatch.bind fun q =>
    let remainder := ((splitLines q.rest).headD []).dropWhile fun c => c = ':' || c = ' '
    if remainder = [] then none else some remainder
  let threadValue := (field threadBlockRe "thread" text).or (field raceThreadRe "thread" text)
  let blockValue := (field threadBlockRe "block" text).or (field blockRe "block" text)
  let accessSizeBytes ← readNumber u (accessSize u group)
  return {
    tool
    hazardType := hazardType u tool message
    message
    kernel := (field deviceFrameKernelRe "kernel" text).or ((field kernelAtRe "kernel" text).or trailing)
    source := line.map fun line => ((sourceMatch.bind fun q => q.group "file").getD [], line)
    thread := threadValue.map (coordinates u)
    block := blockValue.map (coordinates u)
    address := (field addressRe "address" text).map u.lower
    accessType := (field accessRe "access" message).map u.lower
    memorySpace := (field accessRe "space" message).map fun space => u.lower (stripUnderscores space)
    accessSizeBytes }

/-! ### Aggregation -/

/-- The ranges of one field, by axis. -/
structure Ranges where
  x : Option (ℤ × ℤ)
  y : Option (ℤ × ℤ)
  z : Option (ℤ × ℤ)
  deriving DecidableEq, Repr, Inhabited

/-- The values that some occurrences carry on an axis of a field. -/
def axisValues (field : Occurrence → Option Coordinates) (axis : Coordinates → Option ℤ) (occurrences : List Occurrence) :
    List ℤ := (occurrences.filterMap field).filterMap axis

/-- `_coordinate_ranges`, with no ranges for `None`. -/
def coordinateRanges (field : Occurrence → Option Coordinates) (occurrences : List Occurrence) : Ranges :=
  ⟨rangeBounds (axisValues field Coordinates.x occurrences), rangeBounds (axisValues field Coordinates.y occurrences),
    rangeBounds (axisValues field Coordinates.z occurrences)⟩

def hexDigit (c : Char) : ℕ := if c.isDigit then c.toNat - 48 else c.toNat - 87

/-- `int(address, 16)` -/
def hexValue (address : Text) : ℤ := Int.ofNat ((address.drop 2).foldl (fun value c => 16 * value + hexDigit c) 0)

def addressValues (occurrences : List Occurrence) : List ℤ := (occurrences.filterMap Occurrence.address).map hexValue

/-- `_address_ranges`, as numbers. -/
def addressRanges (occurrences : List Occurrence) : Option (ℤ × ℤ) := rangeBounds (addressValues occurrences)

/-- `_issue_signature` -/
structure Signature where
  tool : Text
  hazardType : Text
  message : Text
  kernel : Option Text
  source : Option (Text × ℤ)
  accessType : Option Text
  memorySpace : Option Text
  accessSizeBytes : Option ℤ
  deriving DecidableEq, Repr

def issueSignature (u : Unicode) (issue : Occurrence) : Signature where
  tool := issue.tool
  hazardType := issue.hazardType
  message := (Regex.compile hexAddressRe).sub u true "<address>".toList issue.message
  kernel := issue.kernel
  source := issue.source
  accessType := issue.accessType
  memorySpace := issue.memorySpace
  accessSizeBytes := issue.accessSizeBytes

/-- An issue of `aggregate_compute_sanitizer_issues` before the kernels are merged. -/
structure Issue where
  hazardType : Text
  message : Text
  kernel : Option Text
  source : Option (Text × ℤ)
  accessType : Option Text
  memorySpace : Option Text
  accessSizeBytes : Option ℤ
  rawExcerpt : Option Text
  occurrenceCount : ℕ
  threads : Ranges
  blocks : Ranges
  addresses : Option (ℤ × ℤ)
  representativeOccurrences : List (Option Coordinates × Option Coordinates × Option Text)
  deriving DecidableEq, Repr, Inhabited

/-- The issue of a bucket. -/
def aggregate (bucket : List Occurrence) (first : Occurrence) : Issue where
  hazardType := first.hazardType
  message := first.message
  kernel := first.kernel
  source := first.source
  accessType := first.accessType
  memorySpace := first.memorySpace
  accessSizeBytes := first.accessSizeBytes
  rawExcerpt := first.rawExcerpt
  occurrenceCount := bucket.length
  threads := coordinateRanges Occurrence.thread bucket
  blocks := coordinateRanges Occurrence.block bucket
  addresses := addressRanges bucket
  representativeOccurrences :=
    (bucket.take representativeOccurrencesPerIssue).map fun o => (o.thread, o.block, o.address)

/-- `_cross_kernel_issue_signature`: the issue without its place. -/
def crossKernelIssueSignature (issue : Issue) : Issue := { issue with kernel := none, source := none, rawExcerpt := none }

/-- `_kernel_info`: the name and the source of a place. -/
structure KernelInfo where
  name : Option Text
  source : Option (Text × ℤ)
  deriving DecidableEq, Repr

/-- An issue without its place, and the places. -/
structure MergedIssue where
  issue : Issue
  kernelInfo : List KernelInfo
  deriving DecidableEq, Repr

/-- The merged issue of a bucket. -/
def merge (bucket : List Issue) (first : Issue) : MergedIssue where
  issue := { first with
    kernel := none
    source := none
    rawExcerpt := if 1 < bucket.length then none else first.rawExcerpt
    occurrenceCount := (bucket.map Issue.occurrenceCount).sum }
  kernelInfo := bucket.map fun item => ⟨item.kernel, item.source⟩

/-- `_aggregate_equivalent_kernel_locations` -/
def aggregateEquivalentKernelLocations (issues : List Issue) : List MergedIssue :=
  (buckets crossKernelIssueSignature issues).filterMap fun bucket => bucket.2.head?.map (merge bucket.2)

/-- `aggregate_compute_sanitizer_issues` -/
def aggregateComputeSanitizerIssues (u : Unicode) (occurrences : List Occurrence) : List MergedIssue :=
  aggregateEquivalentKernelLocations
    ((buckets (issueSignature u) occurrences).filterMap fun bucket => bucket.2.head?.map (aggregate bucket.2))

/-! ### The report -/

/-- The excerpts of the first groups with different signatures. -/
structure Excerpts where
  signatures : List Signature := []
  occurrences : List Occurrence := []

def Excerpts.step (u : Unicode) (tool : Text) (issueGroupLimit : ℕ) (s : Excerpts) (group : List Text) :
    Option Excerpts := do
  let occurrence ← parseIssue u tool group
  let signature := issueSignature u occurrence
  if signature ∉ s.signatures ∧ s.signatures.length < issueGroupLimit then
    return {
      signatures := signature :: s.signatures
      occurrences := s.occurrences ++ [{ occurrence with rawExcerpt := some ((joinLines group).take 4000) }] }
  else return { s with occurrences := s.occurrences ++ [occurrence] }

structure Report where
  summaryErrorCount : ℕ
  observedIssueCount : ℕ
  parsedIssueCount : ℕ
  detectedIssueCount : ℕ
  uniqueIssueCount : ℕ
  returnedIssueCount : ℕ
  occurrencesTruncated : Bool
  issueGroupsTruncated : Bool
  issuesTruncated : Bool
  aggregationComplete : Bool
  issues : List MergedIssue
  deriving DecidableEq, Repr

/-- The digits of the counts in the summaries. -/
def summaryNumbers (u : Unicode) (output : Text) : List Text :=
  ((Regex.compile errorSummaryRe).finditer u true output ++
    (Regex.compile raceSummaryRe).finditer u true output).filterMap fun q => q.group ""

/-- `issue_group_limit` -/
def issueGroupLimit (maxIssues : ℤ) : ℕ := min maxReturnedUniqueIssues (max 1 maxIssues).toNat

/-- `occurrences` of a report -/
def occurrencesOf (u : Unicode) (output tool : Text) (maxIssues : ℤ) : Option (List Occurrence) :=
  ((groupLines u (cleanOutputLines u output)).groups.foldlM (Excerpts.step u tool (issueGroupLimit maxIssues)) {}).map
    Excerpts.occurrences

/-- `parse_compute_sanitizer_output`, which has no value where `int` raises. -/
def parseComputeSanitizerOutput (u : Unicode) (output tool : Text) (maxIssues : ℤ) : Option Report := do
  let observedIssueCount := (groupLines u (cleanOutputLines u output)).observedIssueCount
  let occurrences ← occurrencesOf u output tool maxIssues
  let aggregated := aggregateComputeSanitizerIssues u occurrences
  let returnedIssues := aggregated.take (issueGroupLimit maxIssues)
  let summaryCounts ← (summaryNumbers u output).mapM u.int
  let summaryCount := (summaryCounts.map Int.toNat).foldl max 0
  let detectedIssueCount := max summaryCount observedIssueCount
  let occurrencesTruncated : Bool := occurrences.length < detectedIssueCount
  let issueGroupsTruncated : Bool := returnedIssues.length < aggregated.length
  return {
    summaryErrorCount := summaryCount
    observedIssueCount
    parsedIssueCount := occurrences.length
    detectedIssueCount
    uniqueIssueCount := aggregated.length
    returnedIssueCount := returnedIssues.length
    occurrencesTruncated
    issueGroupsTruncated
    issuesTruncated := occurrencesTruncated || issueGroupsTruncated
    aggregationComplete := !occurrencesTruncated
    issues := returnedIssues }

end Sanitizer

end KernelGym
