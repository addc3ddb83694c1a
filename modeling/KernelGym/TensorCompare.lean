import KernelGym.Library.Extended
import Mathlib.Data.List.Sort
import Mathlib.Data.Rat.Sqrt

/-! The comparison of two tensors with its diagnostics, on PyTorch's own operations. Floats are rationals with
the infinities and NaN, signed integers are bit vectors; buffers that are overwritten in place are values here. -/

namespace KernelGym.Correctness

open Library

/-! ### Elements -/

/-- A class of dtypes that one branch of the comparison serves; a signed integer has `w` bits and a sign. -/
inductive Kind
  | bool
  | uint8
  | signed (w : ℕ)
  | floating
  | complex
  deriving DecidableEq, Repr

inductive DType
  | float64
  | float32
  | float16
  | bfloat16
  | complex128
  | complex64
  | complex32
  | bool
  | uint8
  | int8
  | int16
  | int32
  | int64
  deriving DecidableEq, Repr

def DType.kind : DType → Kind
  | .float64 | .float32 | .float16 | .bfloat16 => .floating
  | .complex128 | .complex64 | .complex32 => .complex
  | .bool => .bool
  | .uint8 => .uint8
  | .int8 => .signed 7
  | .int16 => .signed 15
  | .int32 => .signed 31
  | .int64 => .signed 63

/-- `get_tolerance_for_dtype` -/
def DType.tolerance : DType → ℚ
  | .float64 | .complex128 => 1 / 10000
  | .float32 | .complex64 => 1 / 1000
  | .float16 | .bfloat16 | .complex32 => 1 / 100
  | .bool => 0
  | .uint8 | .int8 | .int16 | .int32 | .int64 => 1 / 10000

/-- `torch.finfo(dtype).max` of the dtype in which the normalised errors of a tensor are computed. -/
def DType.finfoMax : DType → ℚ
  | .float64 | .complex128 | .int8 | .int16 | .int32 | .int64 => (2 - 1 / 2 ^ 52) * 2 ^ 1023
  | .float32 | .complex64 | .bool | .uint8 => (2 - 1 / 2 ^ 23) * 2 ^ 127
  | .float16 | .complex32 => 65504
  | .bfloat16 => (2 - 1 / 2 ^ 7) * 2 ^ 127

structure Complex where
  re : Extended
  im : Extended
  deriving DecidableEq

namespace Complex

def sub (a b : Complex) : Complex := ⟨a.re.sub b.re, a.im.sub b.im⟩

def isNan (a : Complex) : Bool := a.re.isNan || a.im.isNan

def isInf (a : Complex) : Bool := a.re.isInf || a.im.isInf

/-- `abs`: an infinite part decides, then a NaN. -/
def abs (hypot : ℚ → ℚ → ℚ) (a : Complex) : Extended :=
  if a.isInf then .infinite false
  else
    match a.re, a.im with
    | .finite x, .finite y => .finite (hypot x y)
    | _, _ => .nan

end Complex

def Kind.Element : Kind → Type
  | .bool => Bool
  | .uint8 => BitVec 8
  | .signed w => BitVec (w + 1)
  | .floating => Extended
  | .complex => Complex

/-- Two tensors of one shape and one kind: the reference and the candidate elements in row-major order. -/
structure Pair (k : Kind) where
  shape : List ℕ
  elements : List (k.Element × k.Element)
  size : elements.length = shape.prod

/-! ### Coordinates and output-space localization -/

def elementCorrectnessCurveMultipliers : List ℕ := [1, 2, 4, 8, 16]

def mismatchCoordinateTopK : ℕ := 3

def tileSize : ℕ := 32

def maxMismatchUnits : ℕ := 8

/-- `_flat_index_to_coordinate`, from the last dimension to the first -/
def flatIndexToCoordinate (flatIndex : ℕ) (shape : List ℕ) : List ℕ :=
  (shape.foldr (fun dimension s => (s.1 / dimension, s.1 % dimension :: s.2)) (flatIndex, [])).2

structure Record where
  outputPath : String
  coordinate : List ℕ
  deriving DecidableEq, Repr

/-- `_unit_correctness_summary` -/
structure Summary (U : Type) where
  correct : ℕ
  total : ℕ
  mismatchCount : ℕ
  mismatches : List U
  mismatchesTruncated : Bool

def unitCorrectnessSummary {U : Type} (total mismatchCount : ℕ) (mismatches : List U) : Summary U :=
  ⟨total - mismatchCount, total, mismatchCount, mismatches, mismatches.length < mismatchCount⟩

structure RowUnit where
  batchIndex : List ℕ
  row : ℕ
  deriving DecidableEq, Repr

structure TileUnit where
  batchIndex : List ℕ
  m : ℕ × ℕ
  n : ℕ × ℕ
  deriving DecidableEq, Repr

structure Localization where
  outputPath : String
  shape : List ℕ
  /-- `positions[[0, -1]]` of every axis raises when the axis has no mismatch. -/
  mismatchBounds : List (String × Option (ℕ × ℕ))
  batch : Summary ℕ
  row : Summary RowUnit
  tile : Summary TileUnit

structure Coordinates where
  first : Option Record
  last : Option Record
  /-- Scores with their records. -/
  top : List (Extended × Record)
  localizations : List Localization

def ceilDiv (n : ℕ) : ℕ := (n + tileSize - 1) / tileSize

/-- `shape[-2:]` and the product of the dimensions before them -/
def lastTwo (shape : List ℕ) : ℕ × ℕ := ((shape.dropLast).getLastD 1, shape.getLastD 1)

def prefixShape (shape : List ℕ) : List ℕ := shape.dropLast.dropLast

def batchCount (shape : List ℕ) : ℕ := if 3 ≤ shape.length then shape.headD 1 else 1

/-- `_perfect_tensor_output_space_localization` -/
def perfectLocalization (shape : List ℕ) (outputPath : String) : Option Localization :=
  if shape.length < 2 then none
  else
    let (rows, columns) := lastTwo shape
    let prefixCount := (prefixShape shape).prod
    some
      { outputPath := outputPath
        shape := shape
        mismatchBounds := []
        batch := unitCorrectnessSummary (batchCount shape) 0 []
        row := unitCorrectnessSummary (prefixCount * rows) 0 []
        tile := unitCorrectnessSummary (prefixCount * ceilDiv rows * ceilDiv columns) 0 [] }

/-- `_empty_tensor_mismatch_diagnostics` -/
def emptyDiagnostics (shape : List ℕ) (outputPath : String) : Coordinates :=
  ⟨none, none, [], (perfectLocalization shape outputPath).toList⟩

/-- The flat indices of the true entries of a mask. -/
def trueIndices (count : ℕ) (mask : ℕ → Bool) : List ℕ := (List.range count).filter mask

/-- `_limited_nonzero_indices`, with flat indices -/
def limitedNonzeroIndices (count : ℕ) (mask : ℕ → Bool) : List ℕ × ℕ :=
  ((trueIndices count mask).take maxMismatchUnits, (trueIndices count mask).length)

/-- The entries of a mask over rows: a row is bad when one of its columns is. -/
def rowBad (columns : ℕ) (mask : ℕ → Bool) (row : ℕ) : Bool :=
  (List.range columns).any fun column => mask (row * columns + column)

/-- `row_bad.reshape(batch_count, -1).any(dim=1)` -/
def batchBad (rowsPerBatch : ℕ) (bad : ℕ → Bool) (batch : ℕ) : Bool :=
  (List.range rowsPerBatch).any fun row => bad (batch * rowsPerBatch + row)

/-- The mask as a stack of matrices, padded with `False`. -/
def padded (rows columns : ℕ) (mask : ℕ → Bool) (matrix row column : ℕ) : Bool :=
  row < rows && column < columns && mask ((matrix * rows + row) * columns + column)

/-- `.reshape(prefix_count, row_tile_count, 32, column_tile_count, 32).any(dim=(2, 4))` -/
def tileBad (rows columns : ℕ) (mask : ℕ → Bool) (matrix rowTile columnTile : ℕ) : Bool :=
  (List.range tileSize).any fun i => (List.range tileSize).any fun j =>
    padded rows columns mask matrix (rowTile * tileSize + i) (columnTile * tileSize + j)

/-- `any` over every dimension but one: the positions of the axis that have a true entry. -/
def occupied (shape : List ℕ) (mask : ℕ → Bool) (axis position : ℕ) : Bool :=
  (List.range shape.prod).any fun index =>
    mask index && (flatIndexToCoordinate index shape).getD axis 0 = position

def axisName (rank axis : ℕ) : String :=
  if rank = 3 then ["B", "M", "N"].getD axis ""
  else if rank = 2 then ["M", "N"].getD axis ""
  else "axis_" ++ toString axis

/-- `_mismatch_axis_bounds` -/
def mismatchAxisBounds (shape : List ℕ) (mask bad : ℕ → Bool) : List (String × Option (ℕ × ℕ)) :=
  (List.range shape.length).map fun axis =>
    let hit :=
      if axis + 1 < shape.length then occupied shape.dropLast bad axis else occupied shape mask axis
    let positions := trueIndices (shape.getD axis 0) hit
    (axisName shape.length axis, positions.head?.bind fun first => positions.getLast?.map fun last => (first, last))

/-- `row_units` with the number of bad rows -/
def rowSummary (rowShape : List ℕ) (bad : ℕ → Bool) : Summary RowUnit :=
  let (rowIndices, failedRows) := limitedNonzeroIndices rowShape.prod bad
  unitCorrectnessSummary rowShape.prod failedRows <| rowIndices.map fun index =>
    let coordinate := flatIndexToCoordinate index rowShape
    RowUnit.mk coordinate.dropLast (coordinate.getLastD 0)

/-- `batch_units` with the number of bad batches -/
def batchSummary (batches : ℕ) (rowShape : List ℕ) (bad : ℕ → Bool) : Summary ℕ :=
  let (batchUnits, failedBatches) := limitedNonzeroIndices batches (batchBad (rowShape.prod / batches) bad)
  unitCorrectnessSummary batches failedBatches batchUnits

/-- The three indices of an entry of the grid of tiles. -/
def gridPosition (grid : List ℕ) (index : ℕ) : ℕ × ℕ × ℕ :=
  match flatIndexToCoordinate index grid with
  | [matrix, rowTile, columnTile] => (matrix, rowTile, columnTile)
  | _ => (0, 0, 0)

/-- `tile_units` with the number of bad tiles -/
def tileSummary (shape grid : List ℕ) (rows columns : ℕ) (mask : ℕ → Bool) : Summary TileUnit :=
  let (tileIndices, failedTiles) := limitedNonzeroIndices grid.prod fun index =>
    let (matrix, rowTile, columnTile) := gridPosition grid index
    tileBad rows columns mask matrix rowTile columnTile
  unitCorrectnessSummary grid.prod failedTiles <| tileIndices.map fun index =>
    let (matrix, rowTile, columnTile) := gridPosition grid index
    let rowStart := rowTile * tileSize
    let columnStart := columnTile * tileSize
    TileUnit.mk (flatIndexToCoordinate matrix (prefixShape shape)) (rowStart, min (rowStart + tileSize) rows)
      (columnStart, min (columnStart + tileSize) columns)

/-- `_tensor_output_space_localization` -/
def tensorOutputSpaceLocalization (shape : List ℕ) (mask : ℕ → Bool) (outputPath : String) :
    Option Localization :=
  if shape.length < 2 then none
  else
    let (rows, columns) := lastTwo shape
    let rowShape := shape.dropLast
    let bad := rowBad columns mask
    let prefixCount := shape.prod / (rows * columns)
    some
      { outputPath := outputPath
        shape := shape
        mismatchBounds := mismatchAxisBounds shape mask bad
        batch := batchSummary (batchCount shape) rowShape bad
        row := rowSummary rowShape bad
        tile := tileSummary shape [prefixCount, ceilDiv rows, ceilDiv columns] rows columns mask }

/-! ### Scores -/

/-- `torch.topk` with the largest values first, whichever of equal values it takes. -/
structure TopK where
  indices : List ℚ → ℕ → List ℕ
  length : ∀ values k, k ≤ values.length → (indices values k).length = k
  nodup : ∀ values k, (indices values k).Nodup
  lt : ∀ values k, ∀ i ∈ indices values k, i < values.length
  largest : ∀ values k, ∀ i ∈ indices values k, ∀ j < values.length, j ∉ indices values k →
    values.getD j 0 ≤ values.getD i 0

/-- The indices in descending order of their values. -/
def descending (values : List ℚ) : List ℕ :=
  (List.range values.length).insertionSort fun i j => values.getD j 0 ≤ values.getD i 0

theorem mem_descending {values : List ℚ} {i : ℕ} : i ∈ descending values ↔ i < values.length := by
  rw [descending, List.mem_insertionSort, List.mem_range]

theorem descending_pairwise (values : List ℚ) :
    (descending values).Pairwise fun i j => values.getD j 0 ≤ values.getD i 0 := by
  have htotal : Std.Total fun i j => values.getD j 0 ≤ values.getD i 0 := ⟨fun i j => le_total _ _⟩
  have htrans : IsTrans ℕ fun i j => values.getD j 0 ≤ values.getD i 0 := ⟨fun i j k hij hjk => hjk.trans hij⟩
  exact List.pairwise_insertionSort _ _

/-- The selection that takes the earlier one of two equal values. -/
def TopK.stable : TopK where
  indices values k := (descending values).take k
  length values k hk := by
    rw [List.length_take, descending, List.length_insertionSort, List.length_range]
    exact min_eq_left hk
  nodup values k := by
    have hnodup : (descending values).Nodup := (List.perm_insertionSort _ _).nodup_iff.mpr List.nodup_range
    exact hnodup.sublist (List.take_sublist k _)
  lt values k i hi := mem_descending.mp (List.mem_of_mem_take hi)
  largest values k i hi j hj hnot := by
    have hpairs := descending_pairwise values
    rw [← List.take_append_drop k (descending values), List.pairwise_append] at hpairs
    have hmem : j ∈ (descending values).take k ++ (descending values).drop k := by
      rw [List.take_append_drop]
      exact mem_descending.mpr hj
    have hdrop : j ∈ (descending values).drop k := (List.mem_append.mp hmem).resolve_left hnot
    exact hpairs.2.2 i hi j hdrop

/-- The functions of PyTorch whose answer is not determined by exact arithmetic. -/
structure Torch where
  topk : TopK
  /-- The magnitude of a complex number with finite parts. -/
  hypot : ℚ → ℚ → ℚ
  hypot_nonneg : ∀ x y, 0 ≤ hypot x y

/-- One such choice, with magnitudes exact where they are rational. -/
def Torch.stable : Torch := ⟨.stable, fun x y => Rat.sqrt (x * x + y * y), fun _ _ => Rat.sqrt_nonneg _⟩

/-- `nan_to_num_` with the largest finite number for everything that is not finite -/
def nanToNum (finiteMax : ℚ) : Extended → ℚ
  | .finite x => x
  | _ => finiteMax

/-- `_normalize_difference_inplace` for one element -/
def normalizeDifference (finiteMax : ℚ) (toleranceCanBeZero : Bool) (m : Extended × Extended) : ℚ :=
  if toleranceCanBeZero && m.1 = .finite 0 && m.2 = .finite 0 then 0 else nanToNum finiteMax (m.1.div m.2)

/-- The index of the first true entry, as `torch.max` of a Boolean tensor gives it. -/
def firstTrue (mask : List Bool) : ℕ := if mask.any id then mask.findIdx id else 0

/-- `_tensor_mismatch_coordinate_diagnostics` -/
def mismatchCoordinateDiagnostics (torch : Torch) (shape : List ℕ) (scores : List ℚ) (mask : List Bool)
    (mismatchCount : ℕ) (outputPath : String) : Coordinates :=
  if mismatchCount = 0 then emptyDiagnostics shape outputPath
  else
    let record (index : ℕ) : Record := ⟨outputPath, flatIndexToCoordinate index shape⟩
    { first := record (firstTrue mask)
      last := record (mask.length - 1 - firstTrue mask.reverse)
      top := (torch.topk.indices scores (min mismatchCoordinateTopK mismatchCount)).map fun index =>
        (.finite (scores.getD index 0), record index)
      localizations :=
        (tensorOutputSpaceLocalization shape (fun index => mask.getD index false) outputPath).toList }

/-- `_count_correctness_curve_from_normalized_error`: the remaining points are filled up after one at 100%. -/
def countCurve (scores : List ℚ) : List ℕ → List (ℕ × ℕ)
  | [] => []
  | multiplier :: rest =>
    let count := scores.countP fun score : ℚ => score ≤ multiplier
    (multiplier, count) ::
      if count = scores.length then rest.map fun m => (m, scores.length) else countCurve scores rest

def fullCurve (count : ℕ) : List (ℕ × ℕ) := elementCorrectnessCurveMultipliers.map fun m => (m, count)

/-! ### Comparison of one pair -/

structure Comparison where
  close : Bool
  maxDiff : Extended
  avgDiff : Extended
  curve : List (ℕ × ℕ)
  total : ℕ
  nanCount : ℕ
  infCount : ℕ
  coordinates : Coordinates

def maximum : List Extended → Extended
  | [] => .finite 0
  | x :: rest => rest.foldl Extended.max x

def total (xs : List Extended) : Extended := xs.foldl Extended.add (.finite 0)

/-- The branches that compare a difference with a tolerance, after both have been computed. -/
def compareMeasured (torch : Torch) (finiteMax atol : ℚ) (shape : List ℕ) (measured : List (Extended × Extended))
    (nanCount infCount : ℕ) (outputPath : String) : Comparison :=
  let mask := measured.map fun m => !m.1.le m.2
  let mismatchCount := mask.count true
  let scores := measured.map (normalizeDifference finiteMax (atol = 0))
  { close := mismatchCount = 0
    maxDiff := maximum (measured.map Prod.fst)
    avgDiff := (total (measured.map Prod.fst)).div (.finite measured.length)
    curve :=
      if mismatchCount = 0 then fullCurve measured.length
      else (1, measured.length - mismatchCount) :: countCurve scores [2, 4, 8, 16]
    total := measured.length
    nanCount := nanCount
    infCount := infCount
    coordinates :=
      if mismatchCount = 0 then emptyDiagnostics shape outputPath
      else mismatchCoordinateDiagnostics torch shape scores mask mismatchCount outputPath }

/-- The branch of Boolean and unsigned tensors, which compares for equality. -/
def compareEqual (torch : Torch) (finiteMax : ℚ) (shape : List ℕ) (mask : List Bool) (outputPath : String) :
    Comparison :=
  let mismatchCount := mask.count true
  { close := mismatchCount = 0
    maxDiff := .finite (if mismatchCount = 0 then 0 else 1)
    avgDiff := .finite (mismatchCount / mask.length)
    curve := fullCurve (mask.length - mismatchCount)
    total := mask.length
    nanCount := 0
    infCount := 0
    coordinates :=
      if mismatchCount = 0 then emptyDiagnostics shape outputPath
      else
        mismatchCoordinateDiagnostics torch shape (mask.map fun bad => if bad then finiteMax else 0) mask
          mismatchCount outputPath }

/-- The absolute difference and the tolerance of a signed integer, in its own width. -/
def measureSigned {w : ℕ} (atol rtol : ℚ) (e : BitVec (w + 1) × BitVec (w + 1)) : Extended × Extended :=
  (.finite (e.1 - e.2).abs.toInt, .finite (e.1.abs.toInt * rtol + atol))

def measureFloating (atol rtol : ℚ) (e : Extended × Extended) : Extended × Extended :=
  ((e.2.sub e.1).abs, (e.1.abs.mul (.finite rtol)).add (.finite atol))

def measureComplex (hypot : ℚ → ℚ → ℚ) (atol rtol : ℚ) (e : Complex × Complex) : Extended × Extended :=
  ((e.1.sub e.2).abs hypot, ((e.1.abs hypot).mul (.finite rtol)).add (.finite atol))

/-- `_compare_tensors_inplace_with_diagnostics_torch` -/
def compareTensors (torch : Torch) (finiteMax atol rtol : ℚ) (outputPath : String) (k : Kind) (p : Pair k) :
    Comparison :=
  if p.elements.length = 0 then
    ⟨true, .finite 0, .finite 0, fullCurve 0, 0, 0, 0, emptyDiagnostics p.shape outputPath⟩
  else
    match k, p with
    | .bool, p =>
      compareEqual torch finiteMax p.shape (List.map (fun e : Bool × Bool => decide (e.1 ≠ e.2)) p.elements) outputPath
    | .uint8, p =>
      compareEqual torch finiteMax p.shape (List.map (fun e : BitVec 8 × BitVec 8 => decide (e.1 ≠ e.2)) p.elements)
        outputPath
    | .signed _, p =>
      compareMeasured torch finiteMax atol p.shape (p.elements.map (measureSigned atol rtol)) 0 0 outputPath
    | .floating, p =>
      compareMeasured torch finiteMax atol p.shape (p.elements.map (measureFloating atol rtol))
        (p.elements.countP fun e => e.2.isNan) (p.elements.countP fun e => e.2.isInf) outputPath
    | .complex, p =>
      compareMeasured torch finiteMax atol p.shape (p.elements.map (measureComplex torch.hypot atol rtol))
        (p.elements.countP fun e => e.2.isNan) (p.elements.countP fun e => e.2.isInf) outputPath

/-! ### Comparison of nested outputs -/

/-- How a child of an output is reached: a position, a key that is an identifier, or any other key. -/
inductive ChildKey
  | index (i : ℕ)
  | identifier (name : String)
  | other (repr : String)
  deriving DecidableEq, Repr

/-- `_child_output_path` -/
def childOutputPath (parent : String) : ChildKey → String
  | .index i => parent ++ "[" ++ toString i ++ "]"
  | .identifier name => parent ++ "." ++ name
  | .other repr => parent ++ "[" ++ repr ++ "]"

/-- Two outputs of one structure: tensors of one dtype and shape, lists, tuples or dictionaries with the same
keys, or other values with the answer of `==`. -/
inductive OutputPair
  | tensor (dtype : DType) (p : Pair dtype.kind)
  | nested (items : List (ChildKey × OutputPair))
  | other (equal : Bool)

/-- The count of a point of the curve. -/
def curveCount (curve : List (ℕ × ℕ)) (multiplier : ℕ) : ℕ := (curve.lookup multiplier).getD 0

/-- `max(a, b)` of Python, which keeps the first one unless the second one is greater. -/
def pythonMax (a b : Extended) : Extended := if a.lt b then b else a

/-- One round of the loop over the children. -/
def addChild (acc child : Comparison) : Comparison where
  close := acc.close && child.close
  maxDiff := pythonMax acc.maxDiff child.maxDiff
  avgDiff := acc.avgDiff.add child.avgDiff
  curve := elementCorrectnessCurveMultipliers.map fun m => (m, curveCount acc.curve m + curveCount child.curve m)
  total := acc.total + child.total
  nanCount := acc.nanCount + child.nanCount
  infCount := acc.infCount + child.infCount
  coordinates :=
    { first := acc.coordinates.first.or child.coordinates.first
      last := child.coordinates.last.or acc.coordinates.last
      top := acc.coordinates.top ++ child.coordinates.top
      localizations := acc.coordinates.localizations ++ child.coordinates.localizations }

/-- `sorted(..., key=score, reverse=True)`, which keeps the order of equal scores. -/
def sortedByScore (top : List (Extended × Record)) : List (Extended × Record) :=
  top.insertionSort fun a b => b.1.le a.1

def noChildren : Comparison :=
  ⟨true, .finite 0, .finite 0, fullCurve 0, 0, 0, 0, ⟨none, none, [], []⟩⟩

/-- The results of the children put together. -/
def aggregate (children : List Comparison) : Comparison :=
  let acc := children.foldl addChild noChildren
  { acc with
    avgDiff := if children.length = 0 then .finite 0 else acc.avgDiff.div (.finite children.length)
    coordinates := { acc.coordinates with
      top := (sortedByScore acc.coordinates.top).take mismatchCoordinateTopK } }

/-- The comparison of values that are no tensors. -/
def compareOther (equal : Bool) (outputPath : String) : Comparison :=
  let record : Record := ⟨outputPath, []⟩
  { close := equal
    maxDiff := .finite 0
    avgDiff := .finite 0
    curve := fullCurve (if equal then 1 else 0)
    total := 1
    nanCount := 0
    infCount := 0
    coordinates :=
      { first := if equal then none else some record
        last := if equal then none else some record
        top := if equal then [] else [(.infinite false, record)]
        localizations := [] } }

mutual

/-- `_compare_outputs_inplace_with_diagnostics`, for tensors that are not compared by the fused kernel -/
def compareOutputs (torch : Torch) (outputPath : String) : OutputPair → Comparison
  | .tensor dtype p =>
    compareTensors torch dtype.finfoMax dtype.tolerance dtype.tolerance outputPath dtype.kind p
  | .nested items => aggregate (compareChildren torch outputPath items)
  | .other equal => compareOther equal outputPath

def compareChildren (torch : Torch) (outputPath : String) : List (ChildKey × OutputPair) → List Comparison
  | [] => []
  | (key, item) :: rest =>
    compareOutputs torch (childOutputPath outputPath key) item :: compareChildren torch outputPath rest

end

end KernelGym.Correctness
