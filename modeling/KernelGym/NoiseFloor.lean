import KernelGym.Library.Statistics
import Mathlib.Algebra.Order.Field.Basic
import Mathlib.Algebra.Order.Floor.Ring
import Mathlib.Data.String.Basic

/-! The calibration of the noise floor of speedups: what is read from the result of a block, and the analysis of all
blocks. Numbers are those of an ordered field; `sqrt`, `exp`, `expm1` and `log` are not interpreted. -/

namespace KernelGym.NoiseFloor

open Library

variable {K : Type} [Field K] [LinearOrder K]

/-! ### Results of blocks -/

/-- A decoded value. -/
inductive Value (K : Type)
  | null
  | bool (b : Bool)
  | int (n : ℤ)
  | float (x : K)
  /-- A float that is infinite or no number. -/
  | nonFinite
  | text (s : String)
  | other (isEmpty : Bool)

/-- `bool(value)` -/
def Value.isTrue : Value K → Bool
  | .null => false
  | .bool b => b
  | .int n => n ≠ 0
  | .float x => x ≠ 0
  | .nonFinite => true
  | .text s => s ≠ ""
  | .other isEmpty => !isEmpty

/-- `value is True` -/
def Value.isExactlyTrue : Value K → Bool
  | .bool b => b
  | _ => false

/-- `_number` -/
def number : Value K → Option K
  | .int n => some n
  | .float x => some x
  | _ => none

/-- `_positive_int` -/
def positiveInt : Value K → Option ℕ
  | .int n => if n ≤ 0 then none else some n.toNat
  | _ => none

/-- `a or b` -/
def orNumber (a b : Option K) : Option K :=
  match a with
  | some x => if x ≠ 0 then some x else b
  | none => b

def orValue (a b : Value K) : Value K := if a.isTrue then a else b

structure Metadata (K : Type) where
  kgKernelPerfMeanMs : Value K := .null
  kgKernelPerfStdMs : Value K := .null
  kgKernelPerfNumTrials : Value K := .null
  kgReferencePerfMeanMs : Value K := .null
  kgReferencePerfStdMs : Value K := .null
  kgReferencePerfNumTrials : Value K := .null
  cached : Value K := .null
  kernelExecutionDevice : Value K := .null
  device : Value K := .null
  kernelExecutionDeviceId : Value K := .null
  kernelExecutionHostname : Value K := .null
  kernelExecutionPid : Value K := .null

structure TaskResult (K : Type) where
  compiled : Value K := .null
  correctness : Value K := .null
  speedup : Value K := .null
  kernelRuntime : Value K := .null
  runtime : Value K := .null
  referenceRuntime : Value K := .null
  /-- The metadata, if they are a dictionary. -/
  metadata : Option (Metadata K) := none

structure Block (K : Type) where
  kernelId : String
  blockIndex : ℤ
  scheduleIndex : ℤ
  taskId : String
  status : String
  passed : Bool
  speedup : Option K
  logSpeedup : Option K
  kernelMean : Option K
  kernelStd : Option K
  kernelTrials : Option ℕ
  kernelCv : Option K
  referenceMean : Option K
  referenceStd : Option K
  referenceTrials : Option ℕ
  referenceCv : Option K
  withinLogSpeedupVariance : Option K
  cached : Bool
  device : Value K
  deviceId : Value K
  kernelHostname : Value K
  kernelPid : Value K

structure NoiseFloorCase where
  caseId : String
  name : String
  runtimeClass : String
  deriving DecidableEq

/-- The functions of `math`. -/
structure MathFunctions (K : Type) [Field K] [LinearOrder K] where
  sqrt : K → K
  exp : K → K
  expm1 : K → K
  log : K → K
  sqrt_pos : ∀ x, 0 < x → 0 < sqrt x

variable (m : MathFunctions K)

/-- Whether a number is there and positive. -/
def isPositive (x : Option K) : Bool := x.any fun x => 0 < x

/-- `extract_block_result` -/
def extractBlockResult (case : NoiseFloorCase) (blockIndex scheduleIndex : ℤ) (taskId status : String)
    (result : TaskResult K) : Block K :=
  let metadata := result.metadata.getD {}
  let kernelMean :=
    orNumber (number metadata.kgKernelPerfMeanMs) (orNumber (number result.kernelRuntime) (number result.runtime))
  let kernelStd := number metadata.kgKernelPerfStdMs
  let kernelTrials := positiveInt metadata.kgKernelPerfNumTrials
  let referenceMean := orNumber (number metadata.kgReferencePerfMeanMs) (number result.referenceRuntime)
  let referenceStd := number metadata.kgReferencePerfStdMs
  let referenceTrials := positiveInt metadata.kgReferencePerfNumTrials
  let speedup := number result.speedup
  let cached := metadata.cached.isExactlyTrue
  let referenceStatsAvailable := isPositive referenceMean && referenceStd.isSome && referenceTrials.isSome
  let passed := status = "completed" && result.compiled.isExactlyTrue && result.correctness.isExactlyTrue &&
    isPositive speedup && isPositive kernelMean && kernelStd.isSome && kernelTrials.isSome &&
    (cached || referenceStatsAvailable)
  let kernelCv :=
    match kernelStd, kernelMean with
    | some std, some mean => if passed && mean ≠ 0 then some (std / mean) else none
    | _, _ => none
  let referenceCv :=
    match referenceStd, referenceMean with
    | some std, some mean => if 0 < mean then some (std / mean) else none
    | _, _ => none
  let withinVariance :=
    match kernelCv, kernelTrials with
    | some cv, some trials =>
      if passed then
        match referenceCv, referenceTrials with
        | some refCv, some refTrials =>
          some (cv * cv / trials + if cached then 0 else refCv * refCv / refTrials)
        | _, _ => some (cv * cv / trials)
      else none
    | _, _ => none
  { kernelId := case.caseId
    blockIndex, scheduleIndex, taskId, status, passed, speedup
    logSpeedup := if passed then speedup.map m.log else none
    kernelMean, kernelStd, kernelTrials, kernelCv, referenceMean, referenceStd, referenceTrials, referenceCv
    withinLogSpeedupVariance := withinVariance
    cached
    device := orValue metadata.kernelExecutionDevice (orValue metadata.device (.text "unknown"))
    deviceId := metadata.kernelExecutionDeviceId
    kernelHostname := metadata.kernelExecutionHostname
    kernelPid := metadata.kernelExecutionPid }

/-! ### Rows of a case -/

/-- `grouped.get(case_id, [])` -/
def caseRows (blocks : List (Block K)) (caseId : String) : List (Block K) := blocks.filter fun b => b.kernelId = caseId

def passedRows (rows : List (Block K)) : List (Block K) :=
  (rows.filter Block.passed).insertionSort fun a b => a.blockIndex ≤ b.blockIndex

def maxBlockIndex (rows : List (Block K)) : ℤ :=
  match rows.map Block.blockIndex with
  | [] => 0
  | index :: rest => rest.foldl max index

/-- The first index of the held-out window. -/
def heldoutStart (heldoutBlocks : ℤ) (rows : List (Block K)) : ℤ := maxBlockIndex rows - heldoutBlocks + 1

def calibrationRows (heldoutBlocks : ℤ) (rows : List (Block K)) : List (Block K) :=
  (passedRows rows).filter fun b => b.blockIndex < heldoutStart heldoutBlocks rows

def heldoutRows (heldoutBlocks : ℤ) (rows : List (Block K)) : List (Block K) :=
  (passedRows rows).filter fun b => heldoutStart heldoutBlocks rows ≤ b.blockIndex

/-! ### Estimates -/

/-- The exceptions of the analysis. -/
inductive AnalysisError
  | typeError
  | valueError
  | statisticsError
  | indexError
  | zeroDivisionError
  deriving DecidableEq, Repr

/-- `float(value)` of a number or `None`. -/
def toFloat : Option K → Except AnalysisError K
  | some x => .ok x
  | none => .error .typeError

def mathSqrt (x : K) : Except AnalysisError K := if x < 0 then .error .valueError else .ok (m.sqrt x)

def divide (x y : K) : Except AnalysisError K := if y = 0 then .error .zeroDivisionError else .ok (x / y)

def statisticsVariance (data : List K) : Except AnalysisError K :=
  if data.length < 2 then .error .statisticsError else .ok (variance data)

def statisticsFmean (data : List K) : Except AnalysisError K :=
  if data = [] then .error .statisticsError else .ok (mean data)

def statisticsMedian (data : List K) : Except AnalysisError K :=
  if data = [] then .error .statisticsError else .ok (median data)

inductive RuntimeBucket
  | lt01Ms
  | from01To1Ms
  | gt1Ms
  deriving DecidableEq, Repr

/-- `_runtime_bucket` -/
def runtimeBucket (runtimeMs : K) : RuntimeBucket :=
  if runtimeMs < 1 / 10 then .lt01Ms else if runtimeMs ≤ 1 then .from01To1Ms else .gt1Ms

structure Estimate (K : Type) where
  meanLogSpeedup : K
  geometricMeanSpeedup : K
  betweenLogSpeedupVariance : K
  meanWithinLogSpeedupVariance : K
  noiseFloor : K
  noiseFloorMultiplicativePercent : K
  medianKernelRuntimeMs : K
  runtimeBucket : RuntimeBucket
  deriving DecidableEq

/-- The estimate from calibration rows. -/
def estimate (rows : List (Block K)) : Except AnalysisError (Estimate K) := do
  let logSpeedups ← rows.mapM fun row => toFloat row.logSpeedup
  let withinVariances ← rows.mapM fun row => toFloat row.withinLogSpeedupVariance
  let betweenVariance ← statisticsVariance logSpeedups
  let explainedVariance ← statisticsFmean withinVariances
  let noiseFloor ← mathSqrt m (max (betweenVariance - explainedVariance) 0)
  let kernelRuntimes ← rows.mapM fun row => toFloat row.kernelMean
  let meanLogSpeedup ← statisticsFmean logSpeedups
  let medianRuntime ← statisticsMedian kernelRuntimes
  return {
    meanLogSpeedup
    geometricMeanSpeedup := m.exp meanLogSpeedup
    betweenLogSpeedupVariance := betweenVariance
    meanWithinLogSpeedupVariance := explainedVariance
    noiseFloor
    noiseFloorMultiplicativePercent := 100 * m.expm1 noiseFloor
    medianKernelRuntimeMs := medianRuntime
    runtimeBucket := runtimeBucket medianRuntime }

/-- An entry of `per_kernel`; without an estimate there are too few blocks. -/
structure KernelEntry (K : Type) where
  case : NoiseFloorCase
  passedBlocks : ℕ
  calibrationBlocks : ℕ
  heldoutBlocks : ℕ
  estimate : Option (Estimate K)

def analyzeCase (blocks : List (Block K)) (heldoutBlocks : ℤ) (case : NoiseFloorCase) :
    Except AnalysisError (KernelEntry K) := do
  let rows := caseRows blocks case.caseId
  let calibration := calibrationRows heldoutBlocks rows
  let found ← if calibration.length < 2 then pure none else some <$> estimate m calibration
  return {
    case
    passedBlocks := (passedRows rows).length
    calibrationBlocks := calibration.length
    heldoutBlocks := (heldoutRows heldoutBlocks rows).length
    estimate := found }

/-! ### Floors -/

/-- `values[index]`; a negative index counts from the end. -/
def getIndex (values : List K) (index : ℤ) : Except AnalysisError K :=
  let position := if index < 0 then index + values.length else index
  if position < 0 then .error .indexError
  else
    match values[position.toNat]? with
    | some x => .ok x
    | none => .error .indexError

/-- `percentile` -/
def percentile [FloorRing K] (values : List K) (percentileValue : K) : Except AnalysisError K :=
  if values = [] then .error .valueError
  else
    let sorted := ordered values
    if sorted.length = 1 then getIndex sorted 0
    else
      let rank := ((sorted.length : K) - 1) * percentileValue / 100
      let lower := ⌊rank⌋
      let upper := ⌈rank⌉
      if lower = upper then getIndex sorted lower
      else do
        let weight := rank - lower
        let low ← getIndex sorted lower
        let high ← getIndex sorted upper
        return low * (1 - weight) + high * weight

/-- The percentile, if there are values. -/
def percentileOf [FloorRing K] (values : List K) (percentileValue : K) : Except AnalysisError (Option K) :=
  if values = [] then .ok none else some <$> percentile values percentileValue

def buckets : List RuntimeBucket := [.lt01Ms, .from01To1Ms, .gt1Ms]

structure BucketFloor (K : Type) where
  bucket : RuntimeBucket
  kernelCount : ℕ
  p75NoiseFloor : Option K
  deriving DecidableEq

def bucketFloor [FloorRing K] (estimates : List (Estimate K)) (bucket : RuntimeBucket) :
    Except AnalysisError (BucketFloor K) := do
  let values := (estimates.filter fun item => item.runtimeBucket = bucket).map Estimate.noiseFloor
  let floor ← percentileOf values 75
  return { bucket, kernelCount := values.length, p75NoiseFloor := floor }

/-! ### Validation -/

structure CoverageRow (K : Type) where
  kernelId : String
  blockIndex : ℤ
  standardizedResidual : K
  aboveOneSidedLowerBound : Bool

def coverageRow (globalFloor zValue center : K) (caseId : String) (row : Block K) :
    Except AnalysisError (CoverageRow K) := do
  let within ← toFloat row.withinLogSpeedupVariance
  let variance := within + globalFloor * globalFloor
  let standardized ←
    if 0 < variance then do
      let logSpeedup ← toFloat row.logSpeedup
      let deviation ← mathSqrt m variance
      divide (logSpeedup - center) deviation
    else pure 0
  return { kernelId := caseId, blockIndex := row.blockIndex, standardizedResidual := standardized
           aboveOneSidedLowerBound := -zValue ≤ standardized }

/-- Whether a kernel is selected by its last calibration block, and whether the held-out blocks disagree. -/
def decision (globalFloor zValue : K) (calibration heldout : List (Block K)) : Except AnalysisError (Bool × Bool) :=
  match calibration.getLast? with
  | none => .ok (false, false)
  | some decisionRow =>
    if heldout = [] then .ok (false, false)
    else do
      let within ← toFloat decisionRow.withinLogSpeedupVariance
      let logSpeedup ← toFloat decisionRow.logSpeedup
      let deviation ← mathSqrt m (within + globalFloor * globalFloor)
      if 0 < logSpeedup - zValue * deviation then do
        let logSpeedups ← heldout.mapM fun row => toFloat row.logSpeedup
        let actual ← statisticsFmean logSpeedups
        return (true, actual ≤ 0)
      else return (false, false)

/-- The coverage and the decision for one valid kernel. -/
def validateKernel (blocks : List (Block K)) (heldoutBlocks : ℤ) (globalFloor zValue : K) (case : NoiseFloorCase)
    (item : Estimate K) : Except AnalysisError (List (CoverageRow K) × Bool × Bool) := do
  let rows := caseRows blocks case.caseId
  let coverage ← (heldoutRows heldoutBlocks rows).mapM
    (coverageRow m globalFloor zValue item.meanLogSpeedup case.caseId)
  let decided ← decision m globalFloor zValue (calibrationRows heldoutBlocks rows) (heldoutRows heldoutBlocks rows)
  return (coverage, decided)

/-- The validation of every valid kernel; there is none without a floor. -/
def validateKernels (blocks : List (Block K)) (heldoutBlocks : ℤ) (globalFloor : Option K) (zValue : K)
    (valid : List (NoiseFloorCase × Estimate K)) : Except AnalysisError (List (List (CoverageRow K) × Bool × Bool)) :=
  match globalFloor with
  | none => .ok []
  | some floor => valid.mapM fun item => validateKernel m blocks heldoutBlocks floor zValue item.1 item.2

structure Validation (K : Type) where
  coverageRows : List (CoverageRow K)
  lowerBoundCoverage : Option K
  lcbSelectedKernelCount : ℕ
  lcbFalsePositiveCount : ℕ
  lcbFalsePositiveRate : Option K

/-- `count / total`, if there is a total. -/
def rate (count total : ℕ) : Option K := if total = 0 then none else some ((count : K) / total)

def validation (validated : List (List (CoverageRow K) × Bool × Bool)) : Validation K :=
  let coverageRows := validated.flatMap Prod.fst
  let covered := (coverageRows.filter CoverageRow.aboveOneSidedLowerBound).length
  let selected := (validated.filter fun v => v.2.1).length
  let falsePositives := (validated.filter fun v => v.2.2).length
  { coverageRows
    lowerBoundCoverage := rate covered coverageRows.length
    lcbSelectedKernelCount := selected
    lcbFalsePositiveCount := falsePositives
    lcbFalsePositiveRate := rate falsePositives selected }

/-! ### The environment -/

structure ExecutionEnvironment where
  deviceTargets : List (String × String)
  singleTargetDevice : Bool
  observedBlockCount : ℕ
  observedKernelProcessCount : ℕ
  freshKernelProcessPerBlock : Option Bool

variable (render : Value K → String)

def hostnameOf (b : Block K) : String := render (orValue b.kernelHostname (.text "unknown"))

def deviceOf (b : Block K) : String :=
  match b.deviceId with
  | .null => render b.device
  | deviceId => render deviceId

/-- The process of a block, if its number is an integer. -/
def processOf (b : Block K) : Option (String × ℤ) :=
  match b.kernelPid with
  | .int pid => some (hostnameOf render b, pid)
  | .bool pid => some (hostnameOf render b, if pid then 1 else 0)
  | _ => none

def executionEnvironment (blocks : List (Block K)) : ExecutionEnvironment :=
  let targets := (blocks.map fun b => (hostnameOf render b, deviceOf render b)).dedup
  let processes := (blocks.filterMap (processOf render)).dedup
  { deviceTargets := targets.insertionSort fun a b => a.1 < b.1 ∨ (a.1 = b.1 ∧ a.2 ≤ b.2)
    singleTargetDevice := targets.length = 1
    observedBlockCount := blocks.length
    observedKernelProcessCount := processes.length
    freshKernelProcessPerBlock := if blocks = [] then none else some (processes.length = blocks.length) }

/-! ### The analysis -/

structure Analysis (K : Type) where
  perKernel : List (KernelEntry K)
  globalNoiseFloor : Option K
  globalNoiseFloorMultiplicativePercent : Option K
  validKernelCount : ℕ
  runtimeBuckets : List (BucketFloor K)
  validation : Validation K
  environment : ExecutionEnvironment

/-- The entries with an estimate. -/
def validKernels (perKernel : List (KernelEntry K)) : List (NoiseFloorCase × Estimate K) :=
  perKernel.filterMap fun entry => entry.estimate.map fun item => (entry.case, item)

/-- `analyze_calibration` -/
def analyzeCalibration [FloorRing K] (cases : List NoiseFloorCase) (blocks : List (Block K)) (heldoutBlocks : ℤ)
    (globalPercentile zValue : K) : Except AnalysisError (Analysis K) := do
  let perKernel ← cases.mapM (analyzeCase m blocks heldoutBlocks)
  let valid := validKernels perKernel
  let globalFloor ← percentileOf (valid.map fun item => item.2.noiseFloor) globalPercentile
  let bucketFloors ← buckets.mapM (bucketFloor (valid.map Prod.snd))
  let validated ← validateKernels m blocks heldoutBlocks globalFloor zValue valid
  return {
    perKernel
    globalNoiseFloor := globalFloor
    globalNoiseFloorMultiplicativePercent := globalFloor.map fun floor => 100 * m.expm1 floor
    validKernelCount := valid.length
    runtimeBuckets := bucketFloors
    validation := validation validated
    environment := executionEnvironment render blocks }

end KernelGym.NoiseFloor
