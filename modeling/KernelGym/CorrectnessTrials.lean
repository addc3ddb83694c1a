import Mathlib.Data.List.Sort
import Mathlib.Data.Rat.Defs

/-! `run_and_check_correctness`: the loop over the trials of one kernel. What the models, the profiler, the
comparison and the clock do in a trial is given; the counters, the exits and the operator records are the
function's own. -/

namespace KernelGym.Correctness

/-! ### Operator records -/

structure AtenEvent where
  key : String
  count : ℤ
  cpuTimeUs : ℚ

structure AtenOp where
  name : String
  normalizedName : String
  count : ℤ
  cpuTimeUs : ℚ
  allowed : Bool

structure AtenMetrics where
  valid : Bool
  error : Option String := none
  ops : List AtenOp := []

/-- What the profiler of one forward leaves: nothing, an error when it is read, or its events. -/
inductive Profile
  | unavailable
  | failed (error : String)
  | events (events : List AtenEvent)

def isAten (name : String) : Bool := "aten::".toList.isPrefixOf name.toList

/-- `normalize_aten_operator_name`: an overload suffix is dropped. -/
def normalizeAtenOperatorName (name : String) : String :=
  if isAten name then "aten::" ++ String.ofList ((name.toList.drop 6).takeWhile (· ≠ '.')) else name

def isAllowedAtenOperator (allowlist : List String) (name : String) : Bool :=
  allowlist.contains name || allowlist.contains (normalizeAtenOperatorName name)

def AtenEvent.op (allowlist : List String) (e : AtenEvent) : AtenOp :=
  ⟨e.key, normalizeAtenOperatorName e.key, e.count, e.cpuTimeUs, isAllowedAtenOperator allowlist e.key⟩

def sortedByName (ops : List AtenOp) : List AtenOp := ops.insertionSort fun a b => a.name ≤ b.name

/-- `extract_aten_operator_metrics` -/
def extractAtenOperatorMetrics (allowlist : List String) : Profile → AtenMetrics
  | .unavailable => { valid := false, error := "ATen operator profiler unavailable" }
  | .failed error => { valid := false, error := error }
  | .events events =>
    { valid := true, ops := sortedByName ((events.filter fun e => isAten e.key).map (AtenEvent.op allowlist)) }

/-- The entry of a name is made by its first operator, and the later ones add to it. -/
def mergeOp (merged : List AtenOp) (item : AtenOp) : List AtenOp :=
  if merged.any (·.name = item.name) then
    merged.map fun m =>
      if m.name = item.name then
        { m with count := m.count + item.count, cpuTimeUs := m.cpuTimeUs + item.cpuTimeUs }
      else m
  else merged ++ [item]

/-! ### Settings and surroundings -/

inductive Perturbation
  | original
  | scaleUp
  | scaleDown
  | signChallenge
  deriving DecidableEq, Repr

/-- `CORRECTNESS_INPUT_PERTURBATIONS` -/
def correctnessInputPerturbations : List Perturbation := [.original, .scaleUp, .scaleDown, .signChallenge]

/-- The environment variables, as the function reads them. -/
structure Environment where
  earlyStop : Bool := true
  maxWallS : Option ℚ := none
  passOnBudget : Bool := false
  budgetMinPassTrials : Option ℤ := none

/-- The arguments of a call. -/
structure Settings where
  numCorrectTrials : ℤ
  stopOnFirstFailure : Option Bool := none
  maxWallTimeS : Option ℚ := none
  passOnTimeBudget : Option Bool := none
  budgetMinPassTrials : Option ℤ := none
  detectAtenFallback : Bool := false
  enableInputPerturbations : Bool := false
  environment : Environment := {}
  /-- `ALLOWED_ATEN_OPERATORS` -/
  allowlist : List String := []

namespace Settings

variable (c : Settings)

def totalCorrectTrials : ℤ :=
  if c.enableInputPerturbations && 0 < c.numCorrectTrials then
    max c.numCorrectTrials correctnessInputPerturbations.length
  else c.numCorrectTrials

def stop : Bool := c.stopOnFirstFailure.getD c.environment.earlyStop

def maxWall : Option ℚ := c.maxWallTimeS.or c.environment.maxWallS

def passOnBudget : Bool := c.passOnTimeBudget.getD c.environment.passOnBudget

def minPassTrials : ℤ :=
  max 1 (min (c.budgetMinPassTrials.getD (c.environment.budgetMinPassTrials.getD 1)) c.totalCorrectTrials)

def perturbation (trial : ℕ) : Perturbation :=
  if c.enableInputPerturbations then
    correctnessInputPerturbations.getD (trial % correctnessInputPerturbations.length) .original
  else .original

/-- The reference of the trial may fail without failing the candidate. -/
def skippable (trial : ℕ) : Bool := c.enableInputPerturbations && c.perturbation trial ≠ .original

end Settings

/-- How the comparison of the outputs goes. -/
inductive Verdict
  | raised (error : String)
  | structureMismatch
  | compared (outputsClose : Bool)

/-- What follows a reference output that is used. -/
inductive CandidateOutcome
  /-- An exception of the clone or the poison buffers, or one that the exception handler runs into. -/
  | escaped
  | raised (error : String)
  | ran (profile : Profile) (verdict : Verdict)

/-- What happens in one trial. -/
inductive Outcome
  | inputsRaised
  | referenceRaised (reason : String)
  | referenceRan (finite : Bool) (candidate : CandidateOutcome)

structure Surroundings where
  /-- Moving the models to the device raises. -/
  setupRaises : Bool := false
  /-- The elapsed time that is read before a trial. -/
  elapsed : ℕ → ℚ
  outcome : ℕ → Outcome

/-! ### The call -/

inductive IssueName
  | budgetPassedEarly
  | budgetExceeded
  | outputStructureMismatch
  | numericalMismatch
  deriving DecidableEq, Repr

/-- The entries of `metadata` that the exits write. -/
structure Metadata where
  atenDetectionTrials : List (ℕ × AtenMetrics) := []
  atenDetectionValid : Option Bool := none
  atenOps : List AtenOp := []
  policyViolation : Bool := false
  decoyReason : Option String := none
  candidateForwardCompletedTrials : List ℕ := []
  referenceSkippedPerturbations : List (ℕ × Perturbation × String) := []
  outputMismatch : Bool := false
  issueName : Option IssueName := none
  runtimeError : Option String := none
  failedTrial : Option ℕ := none
  failedInputPerturbation : Option Perturbation := none
  earlyStopped : Bool := false
  timeBudgetExceeded : Bool := false
  timeBudgetOverrunToMinPass : Bool := false
  budgetPassedEarly : Bool := false
  /-- `correctness_trials`, `correctness_trials_run` and the count of skipped perturbations -/
  trials : Option (ℤ × ℤ × ℕ × ℤ) := none

def Metadata.forbiddenAtenOps (m : Metadata) : List AtenOp := m.atenOps.filter fun op => !op.allowed

/-- `_record_aten_trial_metrics` -/
def Metadata.recordAtenTrialMetrics (m : Metadata) (metrics : AtenMetrics) (trial : ℕ) : Metadata :=
  let records := m.atenDetectionTrials ++ [(trial, metrics)]
  let m := { m with
    atenDetectionTrials := records
    atenDetectionValid := records.all fun r => r.2.valid
    atenOps := sortedByName ((records.flatMap fun r => r.2.ops).foldl mergeOp []) }
  if m.forbiddenAtenOps.isEmpty then m
  else { m with policyViolation := true, decoyReason := "DISALLOWED_ATEN_COMPUTE" }

structure State where
  passCount : ℤ := 0
  expectedPassCount : ℤ
  skippedReferencePerturbations : ℤ := 0
  trialsRun : ℕ := 0
  metadata : Metadata

/-- `_record_trial_metadata` -/
def State.recordTrialMetadata (s : State) : State :=
  { s with metadata := { s.metadata with
      trials := some (s.passCount, s.expectedPassCount, s.trialsRun, s.skippedReferencePerturbations) } }

/-- `_maybe_finish_on_time_budget`, with the correctness of the result that it returns. -/
def Settings.maybeFinishOnTimeBudget (c : Settings) (elapsed : ℚ) (s : State) : State × Option Bool :=
  match c.maxWall with
  | none => (s, none)
  | some limit =>
    if s.trialsRun = 0 ∨ elapsed < limit then (s, none)
    else
      let s := { s with metadata := { s.metadata with timeBudgetExceeded := true } }.recordTrialMetadata
      if c.passOnBudget ∧ s.passCount + s.skippedReferencePerturbations = (s.trialsRun : ℤ) then
        if c.minPassTrials ≤ s.passCount then
          ({ s with metadata := { s.metadata with budgetPassedEarly := true, issueName := some .budgetPassedEarly } },
            some true)
        else ({ s with metadata := { s.metadata with timeBudgetOverrunToMinPass := true } }, none)
      else ({ s with metadata := { s.metadata with issueName := some .budgetExceeded } }, some false)

/-- How a trial ends. -/
inductive TrialEnd
  | goesOn (s : State)
  | returned (s : State) (correctness : Bool)
  | raised (s : State)

/-- `_record_reference_perturbation_skip` -/
def Settings.recordReferencePerturbationSkip (c : Settings) (trial : ℕ) (reason : String) (s : State) : State :=
  State.recordTrialMetadata { s with
    expectedPassCount := s.expectedPassCount - 1
    skippedReferencePerturbations := s.skippedReferencePerturbations + 1
    trialsRun := trial + 1
    metadata := { s.metadata with
      referenceSkippedPerturbations :=
        s.metadata.referenceSkippedPerturbations ++ [(trial, c.perturbation trial, reason)] } }

/-- The trial that failed. -/
def Settings.markFailed (c : Settings) (trial : ℕ) (m : Metadata) : Metadata :=
  { m with
    failedTrial := some trial
    failedInputPerturbation :=
      if c.enableInputPerturbations then some (c.perturbation trial) else m.failedInputPerturbation }

/-- `_record_runtime_exception` -/
def Settings.recordRuntimeException (c : Settings) (trial : ℕ) (error : String) (s : State) : State :=
  State.recordTrialMetadata { s with
    trialsRun := trial + 1
    metadata := c.markFailed trial { s.metadata with runtimeError := some error } }

/-- The candidate's forward has returned. -/
def Settings.recordCandidate (c : Settings) (trial : ℕ) (profile : Profile) (s : State) : State :=
  let m := { s.metadata with
    candidateForwardCompletedTrials := s.metadata.candidateForwardCompletedTrials ++ [trial] }
  { s with
    trialsRun := trial + 1
    metadata :=
      if c.detectAtenFallback then
        m.recordAtenTrialMetrics (extractAtenOperatorMetrics c.allowlist profile) trial
      else m }

/-- The comparison of the outputs and the exits after it. -/
def Settings.judge (c : Settings) (trial : ℕ) (s : State) : Verdict → TrialEnd
  | .raised error => .returned (c.recordRuntimeException trial error s) false
  | .structureMismatch =>
    let m := c.markFailed trial
      { s.metadata with outputMismatch := true, issueName := some .outputStructureMismatch }
    .returned { s with metadata := m }.recordTrialMetadata false
  | .compared true => .goesOn { s with passCount := s.passCount + 1 }
  | .compared false =>
    let m := c.markFailed trial { s.metadata with outputMismatch := true, issueName := some .numericalMismatch }
    if c.stop then .returned { s with metadata := { m with earlyStopped := true } }.recordTrialMetadata false
    else .goesOn { s with metadata := m }

/-- One round of the loop, after the check of the time budget. -/
def Settings.runTrial (c : Settings) (trial : ℕ) (s : State) : Outcome → TrialEnd
  | .inputsRaised => .raised s
  | .referenceRaised reason =>
    if c.skippable trial then .goesOn (c.recordReferencePerturbationSkip trial reason s) else .raised s
  | .referenceRan finite candidate =>
    if c.skippable trial && !finite then
      .goesOn (c.recordReferencePerturbationSkip trial "reference output contains NaN or Inf" s)
    else
      match candidate with
      | .escaped => .raised s
      | .raised error => .returned (c.recordRuntimeException trial error s) false
      | .ran profile verdict => c.judge trial (c.recordCandidate trial profile s) verdict

/-- How a call ends. -/
inductive Ending
  | returned (correctness decoyKernel : Bool)
  | raised
  deriving DecidableEq, Repr

structure Finished where
  /-- The number of trials that were begun. -/
  executed : ℕ
  state : State
  ending : Ending

/-- `_result` -/
def State.result (s : State) (correctness : Bool) : Ending := .returned correctness s.metadata.policyViolation

/-- The loop from a trial on, with the number of trials that are left. -/
def Settings.runTrials (c : Settings) (w : Surroundings) : ℕ → ℕ → State → Finished
  | 0, trial, s =>
    let s := s.recordTrialMetadata
    ⟨trial, s, s.result (s.passCount = s.expectedPassCount ∧ 0 < s.expectedPassCount)⟩
  | left + 1, trial, s =>
    match if trial > 0 then c.maybeFinishOnTimeBudget (w.elapsed trial) s else (s, none) with
    | (s, some correctness) => ⟨trial, s, s.result correctness⟩
    | (s, none) =>
      match c.runTrial trial s (w.outcome trial) with
      | .goesOn s => c.runTrials w left (trial + 1) s
      | .returned s correctness => ⟨trial + 1, s, s.result correctness⟩
      | .raised s => ⟨trial + 1, s, .raised⟩

/-- `run_and_check_correctness` -/
def runAndCheckCorrectness (c : Settings) (w : Surroundings) (metadata : Metadata) : Finished :=
  let s : State :=
    { expectedPassCount := c.totalCorrectTrials
      metadata := { metadata with
        referenceSkippedPerturbations := []
        candidateForwardCompletedTrials := []
        outputMismatch := false } }
  if w.setupRaises then ⟨0, s, .raised⟩ else c.runTrials w c.totalCorrectTrials.toNat 0 s

end KernelGym.Correctness
