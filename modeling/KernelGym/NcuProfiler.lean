import KernelGym.Library.Csv
import KernelGym.Library.Numerals
import Mathlib.Logic.Function.Basic

/-! The reading of Nsight Compute's CSV: metric values, and kernels with their metrics from the long form, a row for
each metric, or from the wide form, a row for each kernel below a row of units. -/

namespace KernelGym.NcuProfiler

open Library

abbrev Text := List Char

abbrev Row := List Text

inductive MetricValue
  | none
  | text (value : Text)
  | integer (value : ℤ)
  | number (value : Extended)
  deriving DecidableEq

def MetricValue.isText : MetricValue → Bool
  | .text _ => true
  | _ => false

structure MetricReading where
  value : MetricValue
  unit : Text
  deriving DecidableEq

/-- One kernel of the result; its dictionary of metrics is the function that looks a name up. -/
structure KernelResult where
  id : Text
  kernelName : Text
  device : Text
  context : Text
  stream : Text
  blockSize : Text
  gridSize : Text
  metrics : Text → Option MetricReading

/-- `grouped[key]["metrics"][name] = reading` -/
def KernelResult.record (kernel : KernelResult) (name : Text) (reading : MetricReading) : KernelResult :=
  { kernel with metrics := Function.update kernel.metrics name (some reading) }

/-- `int(parsed)` where `parsed.is_integer()`. -/
def wholeNumber : Extended → Option ℤ
  | .finite q => if q.den = 1 then some q.num else none
  | _ => none

def withoutCommas (value : Text) : Text := value.filter (· ≠ ',')

section

variable (u : Unicode)

/-- `_parse_metric_value` -/
def parseMetricValue (raw : Text) : MetricValue :=
  let value := u.strip raw
  if value = [] then .none
  else
    match u.float (withoutCommas value) with
    | none => .text value
    | some parsed =>
      match wholeNumber parsed with
      | some n =>
        if (u.lower (withoutCommas value)).any fun c => c = '.' || c = 'e' then .number parsed else .integer n
      | none => .number parsed

/-! ### Rows -/

/-- `column.strip().lstrip("\ufeff")` -/
def normalizeColumn (column : Text) : Text := (u.strip column).dropWhile (· = Char.ofNat 0xfeff)

/-- `dict(zip(header, row)).get(column, "")`; of equal columns the last one counts. -/
def cell (header row : Row) (column : Text) : Text := ((header.zip row).reverse.lookup column).getD []

/-- The cell of a column without the white space around it. -/
def field (header row : Row) (column : String) : Text := u.strip (cell header row column.toList)

abbrev Key := Text × Text × Text × Text

def keyOf (header row : Row) (kernelName : Text) : Key :=
  (field u header row "ID", kernelName, field u header row "Context", field u header row "Stream")

/-- `_new_kernel_result` -/
def newKernelResult (header row : Row) (kernelName : Text) : KernelResult where
  id := field u header row "ID"
  kernelName
  device := field u header row "Device"
  context := field u header row "Context"
  stream := field u header row "Stream"
  blockSize := field u header row "Block Size"
  gridSize := field u header row "Grid Size"
  metrics _ := none

/-- The kernels so far: `grouped` and `order`. -/
structure Grouped where
  grouped : Key → Option KernelResult := fun _ => none
  order : List Key := []

namespace Grouped

def put (g : Grouped) (key : Key) (kernel : KernelResult) : Grouped where
  grouped := Function.update g.grouped key (some kernel)
  order := g.order ++ [key]

/-- `[grouped[key] for key in order]` -/
def results (g : Grouped) : List KernelResult := g.order.filterMap g.grouped

end Grouped

/-! ### The long form -/

/-- What a row of the long form says. -/
structure Measurement where
  key : Key
  kernel : KernelResult
  name : Text
  reading : MetricReading

/-- One row of the long form; a row that is skipped has no measurement. -/
def readMeasurement (header row : Row) : Option Measurement :=
  if row.length ≠ header.length then none
  else
    let metricName := field u header row "Metric Name"
    let kernelName := field u header row "Kernel Name"
    if metricName = [] ∨ kernelName = [] then none
    else
      some
        { key := keyOf u header row kernelName
          kernel := newKernelResult u header row kernelName
          name := metricName
          reading :=
            { value := parseMetricValue u (cell header row "Metric Value".toList)
              unit := field u header row "Metric Unit" } }

/-- A measurement is added to its kernel; a new kernel is opened below the limit only. -/
def Grouped.add (limit : ℕ) (g : Grouped) (m : Measurement) : Grouped :=
  match g.grouped m.key with
  | some kernel => { g with grouped := Function.update g.grouped m.key (some (kernel.record m.name m.reading)) }
  | none => if limit ≤ g.order.length then g else g.put m.key (m.kernel.record m.name m.reading)

def longStep (limit : ℕ) (header : Row) (g : Grouped) (row : Row) : Grouped :=
  match readMeasurement u header row with
  | some m => g.add limit m
  | none => g

/-! ### The wide form -/

def launchColumns : List Text :=
  ["ID", "Process ID", "Process Name", "Host Name", "Kernel Name", "Context", "Stream", "Block Size", "Grid Size",
    "Device", "CC"].map String.toList

/-- `wide_metric_columns`; without requested metrics, every column but those of the launch and of the device. -/
def wideMetricColumns (header metricNames : Row) : Row :=
  let requested := (metricNames.map u.strip).filter (· ≠ [])
  if requested ≠ [] then header.filter (· ∈ requested)
  else
    header.filter fun column =>
      column ∉ launchColumns && !"c2clink__".toList.isPrefixOf column && !"device__attribute_".toList.isPrefixOf column

/-- `metric_units` after a row of units. -/
def readUnits (header row columns : Row) (units : Text → Option Text) (column : Text) : Option Text :=
  let unit := u.strip (cell header row column)
  if column ∈ columns ∧ unit ≠ [] ∧ (parseMetricValue u unit).isText = true then some unit else units column

/-- The metrics of one row of the wide form. -/
def wideMetrics (header row columns : Row) (units : Text → Option Text) (column : Text) : Option MetricReading :=
  if column ∈ columns ∧ u.strip (cell header row column) ≠ [] then
    some { value := parseMetricValue u (cell header row column), unit := (units column).getD [] }
  else none

/-- The rows of the wide form below the header. -/
def wideRows (limit : ℕ) (header columns : Row) : (Text → Option Text) → Grouped → List Row → Grouped
  | _, g, [] => g
  | units, g, row :: rest =>
    let kernelName := field u header row "Kernel Name"
    if row.length ≠ header.length then wideRows limit header columns units g rest
    else if kernelName = [] then wideRows limit header columns (readUnits u header row columns units) g rest
    else if limit ≤ g.order.length then g
    else if columns.all fun column => u.strip (cell header row column) = [] then
      wideRows limit header columns units g rest
    else
      let kernel :=
        { newKernelResult u header row kernelName with metrics := wideMetrics u header row columns units }
      wideRows limit header columns units (g.put (keyOf u header row kernelName) kernel) rest

/-! ### The whole text -/

/-- `max(1, max_kernels)` -/
def kernelLimit (maxKernels : ℤ) : ℕ := (max 1 maxKernels).toNat

/-- The rows of a report, by the form that its header tells. -/
def parseTable (header : Row) (rows : List Row) (maxKernels : ℤ) (metricNames : Row) : List KernelResult :=
  if "Metric Name".toList ∈ header ∧ "Metric Value".toList ∈ header then
    (rows.foldl (longStep u (kernelLimit maxKernels) header) {}).results
  else if wideMetricColumns u header metricNames = [] then []
  else
    (wideRows u (kernelLimit maxKernels) header (wideMetricColumns u header metricNames) (fun _ => none) {}
      rows).results

/-- `parse_ncu_csv`; the first row with a column for the kernel's name is the header. -/
def parseRows (rows : List Row) (maxKernels : ℤ) (metricNames : Row) : List KernelResult :=
  match rows.dropWhile fun row => "Kernel Name".toList ∉ row.map (normalizeColumn u) with
  | [] => []
  | header :: rest => parseTable u (header.map (normalizeColumn u)) rest maxKernels metricNames

/-- `parse_ncu_csv` on a text; none is the error of the CSV reader. -/
def parseNcuCsv (text : Text) (maxKernels : ℤ) (metricNames : Row) : Option (List KernelResult) :=
  (Csv.read text).map fun rows => parseRows u rows maxKernels metricNames

end

end KernelGym.NcuProfiler
