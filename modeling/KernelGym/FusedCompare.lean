import KernelGym.TensorCompare
import KernelGym.Library.ExtendedSums
import KernelGym.Library.Reductions

/-! The comparison of two tensors on the GPU. A block of 256 threads summarises one tile of 32 by 32 elements, each
thread the cells that it visits, and the host puts the summaries of all tiles together. -/

namespace KernelGym.Correctness.Fused

open Library

/-! ### The kernel -/

/-- A score with the index of its element. -/
abbrev Entry := ℚ × ℤ

structure Stats where
  sum : Extended
  maximum : Extended
  /-- `score` and `index`, in one array of length 3 -/
  top : List Entry
  first : ℤ
  last : ℤ
  bad : ℕ
  nan : ℕ
  inf : ℕ
  buckets : Fin 4 → ℕ
  rows : BitVec 32
  columns : BitVec 32

def int64Max : ℤ := 2 ^ 63 - 1

/-- What the array holds where there is no element. -/
def vacant : Entry := (-1, int64Max)

def emptyStats : Stats where
  sum := .finite 0
  maximum := .finite 0
  top := List.replicate 3 vacant
  first := int64Max
  last := -1
  bad := 0
  nan := 0
  inf := 0
  buckets := fun _ => 0
  rows := 0
  columns := 0

/-- `insert` -/
def insert (e : Entry) : List Entry → List Entry
  | [] => []
  | x :: rest =>
    if e.1 > x.1 || (e.1 = x.1 && e.2 < x.2) then e :: (x :: rest).dropLast else x :: insert e rest

/-- `Merge` -/
def merge (a b : Stats) : Stats where
  sum := a.sum + b.sum
  maximum := a.maximum.max b.maximum
  top := b.top.foldl (fun top e => insert e top) a.top
  first := min a.first b.first
  last := max a.last b.last
  bad := a.bad + b.bad
  nan := a.nan + b.nan
  inf := a.inf + b.inf
  buckets := fun k => a.buckets k + b.buckets k
  rows := a.rows ||| b.rows
  columns := a.columns ||| b.columns

/-- The two tensors, and the numbers that the kernel is launched with. -/
structure Launch where
  elements : List (Extended × Extended)
  finiteMax : ℚ
  atol : ℚ
  rtol : ℚ
  rows : ℕ
  columns : ℕ

/-- One cell of a tile: its row and column in the tile, and its element. -/
structure Cell where
  row : ℕ
  column : ℕ
  index : ℕ
  deriving DecidableEq

/-- The interval of a score, which no bucket counts above 16. -/
def bucketOf (e : ℚ) : Option (Fin 4) :=
  if e ≤ 2 then some 0 else if e ≤ 4 then some 1 else if e ≤ 8 then some 2 else if e ≤ 16 then some 3 else none

namespace Launch

variable (l : Launch)

def element (i : ℕ) : Extended × Extended := l.elements.getD i (.nan, .nan)

/-- The difference and the tolerance of an element. -/
def measured (i : ℕ) : Extended × Extended := measureFloating l.atol l.rtol (l.element i)

def isBad (i : ℕ) : Bool := !(l.measured i).1.le (l.measured i).2

def score (i : ℕ) : ℚ := normalizeDifference l.finiteMax (l.atol = 0) (l.measured i)

/-- The body of the loop over the cells of a thread. -/
def addCell (s : Stats) (c : Cell) : Stats where
  sum := s.sum + (l.measured c.index).1
  maximum := s.maximum.max (l.measured c.index).1
  top := insert (l.score c.index, c.index) s.top
  first := if l.isBad c.index then min s.first c.index else s.first
  last := if l.isBad c.index then max s.last c.index else s.last
  bad := s.bad + if l.isBad c.index then 1 else 0
  nan := s.nan + if (l.element c.index).2.isNan then 1 else 0
  inf := s.inf + if (l.element c.index).2.isInf then 1 else 0
  buckets := fun k => s.buckets k + if bucketOf (l.score c.index) = some k then 1 else 0
  rows := if l.isBad c.index then s.rows ||| 1#32 <<< c.row else s.rows
  columns := if l.isBad c.index then s.columns ||| 1#32 <<< c.column else s.columns

def tileRows : ℕ := ceilDiv l.rows

def tileColumns : ℕ := ceilDiv l.columns

/-- The cell of a tile with a number, if it lies in the matrix. -/
def cellAt (tile cell : ℕ) : Option Cell :=
  let row := tile / l.tileColumns % l.tileRows * 32 + cell / 32
  let column := tile % l.tileColumns * 32 + cell % 32
  if l.rows ≤ row || l.columns ≤ column then none
  else some ⟨cell / 32, cell % 32, (tile / (l.tileRows * l.tileColumns) * l.rows + row) * l.columns + column⟩

/-- The cells that one of the 256 threads visits. -/
def threadCells (tile thread : ℕ) : List Cell := (List.range 4).filterMap fun k => l.cellAt tile (thread + 256 * k)

def threadStats (tile thread : ℕ) : Stats := (l.threadCells tile thread).foldl l.addCell emptyStats

end Launch

/-- `cub::BlockReduce`, which joins the values of all threads in a grouping of its own. -/
structure BlockReduce where
  reduce : (Stats → Stats → Stats) → List Stats → Stats
  reduces : ∀ join bs, bs ≠ [] → Reduces join bs (reduce join bs)

/-- A reduction from the first thread to the last. -/
def BlockReduce.sequential : BlockReduce where
  reduce join bs := bs.tail.foldl join (bs.headD emptyStats)
  reduces join bs h := by
    obtain ⟨b, rest, rfl⟩ := List.exists_cons_of_ne_nil h
    exact reduces_foldl b rest

/-- `summarize` for one tile -/
def Launch.summarize (cub : BlockReduce) (l : Launch) (tile : ℕ) : Stats :=
  cub.reduce merge ((List.range 256).map (l.threadStats tile))

/-! ### The host -/

/-- The loop over the buckets: the remaining points are filled up after one at 100%. -/
def cumulativeCurve (total : ℕ) : ℕ → List (ℕ × ℕ) → List (ℕ × ℕ)
  | _, [] => []
  | cumulative, (multiplier, count) :: rest =>
    (multiplier, cumulative + count) ::
      if cumulative + count = total then rest.map fun m => (m.1, total)
      else cumulativeCurve total (cumulative + count) rest

/-- The order of `np.lexsort((indices, -scores))`. -/
def Before (a b : Entry) : Prop := b.1 < a.1 ∨ b.1 = a.1 ∧ a.2 ≤ b.2

instance : DecidableRel Before := fun _ _ => inferInstanceAs (Decidable (_ ∨ _))

/-- The summaries of all tiles, with the shape that they belong to. -/
structure Data where
  shape : List ℕ
  rows : ℕ
  columns : ℕ
  prefixCount : ℕ
  stats : List Stats

namespace Data

variable (d : Data)

def tileRows : ℕ := ceilDiv d.rows

def tileColumns : ℕ := ceilDiv d.columns

def stat (matrix rowTile columnTile : ℕ) : Stats :=
  d.stats.getD ((matrix * d.tileRows + rowTile) * d.tileColumns + columnTile) emptyStats

/-- `row_bad`, by the position of a row among the rows of all matrices -/
def rowBad (index : ℕ) : Bool :=
  let row := index % d.rows
  ((List.range d.tileColumns).foldl
    (fun bits columnTile => bits ||| (d.stat (index / d.rows) (row / 32) columnTile).rows) 0#32).getLsbD (row % 32)

def columnBad (column : ℕ) : Bool :=
  ((List.range d.prefixCount).foldl (fun bits matrix => (List.range d.tileRows).foldl
    (fun bits rowTile => bits ||| (d.stat matrix rowTile (column / 32)).columns) bits) 0#32).getLsbD (column % 32)

def tileBad (index : ℕ) : Bool := 0 < (d.stats.getD index emptyStats).bad

/-- `bounds` -/
def bounds : List (String × Option (ℕ × ℕ)) :=
  (List.range d.shape.length).map fun axis =>
    let hit := if axis + 1 < d.shape.length then occupied d.shape.dropLast d.rowBad axis else d.columnBad
    let positions := trueIndices (d.shape.getD axis 0) hit
    (axisName d.shape.length axis, positions.head?.bind fun first => positions.getLast?.map fun last => (first, last))

/-- `summary(tile_bad, tile_record)` -/
def tileSummary : Summary TileUnit :=
  let grid := [d.prefixCount, d.tileRows, d.tileColumns]
  let (tileIndices, failedTiles) := limitedNonzeroIndices grid.prod d.tileBad
  unitCorrectnessSummary grid.prod failedTiles <| tileIndices.map fun index =>
    let (matrix, rowTile, columnTile) := gridPosition grid index
    TileUnit.mk (flatIndexToCoordinate matrix (prefixShape d.shape))
      (rowTile * 32, min ((rowTile + 1) * 32) d.rows) (columnTile * 32, min ((columnTile + 1) * 32) d.columns)

def localization (outputPath : String) : Option Localization :=
  if d.shape.length < 2 then none
  else
    some
      { outputPath := outputPath
        shape := d.shape
        mismatchBounds := d.bounds
        batch := batchSummary (batchCount d.shape) d.shape.dropLast d.rowBad
        row := rowSummary d.shape.dropLast d.rowBad
        tile := d.tileSummary }

/-- `_assemble` -/
def assemble (outputPath : String) : Comparison :=
  let count := d.shape.prod
  let bad := (d.stats.map Stats.bad).sum
  let record (index : ℤ) : Record := ⟨outputPath, flatIndexToCoordinate index.toNat d.shape⟩
  { close := bad = 0
    maxDiff := Correctness.maximum (d.stats.map Stats.maximum)
    avgDiff := (Correctness.total (d.stats.map Stats.sum)).div (.finite count)
    curve :=
      if bad = 0 then fullCurve count
      else
        (1, count - bad) :: cumulativeCurve count 0
          ([2, 4, 8, 16].zip ((List.finRange 4).map fun k => (d.stats.map fun s => s.buckets k).sum))
    total := count
    nanCount := (d.stats.map Stats.nan).sum
    infCount := (d.stats.map Stats.inf).sum
    coordinates :=
      if bad = 0 then emptyDiagnostics d.shape outputPath
      else
        { first := record ((d.stats.map Stats.first).foldl min int64Max)
          last := record ((d.stats.map Stats.last).foldl max (-1))
          top := (((d.stats.flatMap Stats.top).insertionSort Before).take (min 3 bad)).map fun e =>
            (.finite e.1, record e.2)
          localizations := (d.localization outputPath).toList } }

end Data

/-- `shape[-2:]`, or one row for a tensor of lower rank -/
def matrixShape (shape : List ℕ) : ℕ × ℕ := if 2 ≤ shape.length then lastTwo shape else (1, shape.prod)

def tileCount (shape : List ℕ) : ℕ :=
  let (rows, columns) := matrixShape shape
  shape.prod / (rows * columns) * ceilDiv rows * ceilDiv columns

/-- `compare`; `none` selects the comparison by PyTorch. -/
def compare (cub : BlockReduce) (finiteMax atol rtol : ℚ) (outputPath : String) (p : Pair .floating) :
    Option Comparison :=
  let count := p.shape.prod
  let (rows, columns) := matrixShape p.shape
  if count = 0 || atol < 0 || rtol < 0 then none
  else if 65536 < tileCount p.shape || 2 ^ 53 ≤ count then none
  else
    let launch : Launch := ⟨p.elements, finiteMax, atol, rtol, rows, columns⟩
    let data : Data :=
      ⟨p.shape, rows, columns, count / (rows * columns), (List.range (tileCount p.shape)).map (launch.summarize cub)⟩
    some (data.assemble outputPath)

/-! ### Where the kernel is used -/

/-- `_compare_tensors_inplace_with_diagnostics`; a block reduction is given where the kernel can be launched. -/
def compareTensorsWithDiagnostics (fused : Option BlockReduce) (torch : Torch) (finiteMax atol rtol : ℚ)
    (outputPath : String) (k : Kind) (p : Pair k) : Comparison :=
  let result : Option Comparison :=
    match k, p with
    | .floating, p => fused.bind fun cub => compare cub finiteMax atol rtol outputPath p
    | _, _ => none
  result.getD (compareTensors torch finiteMax atol rtol outputPath k p)

mutual

/-- `_compare_outputs_inplace_with_diagnostics`, where any of the tensors may be compared by the kernel -/
def compareOutputs (fused : String → Option BlockReduce) (torch : Torch) (outputPath : String) : OutputPair → Comparison
  | .tensor dtype p =>
    compareTensorsWithDiagnostics (fused outputPath) torch dtype.finfoMax dtype.tolerance dtype.tolerance outputPath
      dtype.kind p
  | .nested items => aggregate (compareChildren fused torch outputPath items)
  | .other equal => compareOther equal outputPath

def compareChildren (fused : String → Option BlockReduce) (torch : Torch) (outputPath : String) :
    List (ChildKey × OutputPair) → List Comparison
  | [] => []
  | (key, item) :: rest =>
    compareOutputs fused torch (childOutputPath outputPath key) item :: compareChildren fused torch outputPath rest

end

end KernelGym.Correctness.Fused
