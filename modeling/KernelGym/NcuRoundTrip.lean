import KernelGym.NcuProfiler

/-! Kernel launches written as an Nsight Compute report, in the long or in the wide form, and what is read back. -/

namespace KernelGym.NcuProfiler

open Library

variable {u : Unicode}

/-! ### Reports -/

/-- The value of a metric: a text, or a numeral that may be written with separators. -/
inductive Value (u : Unicode)
  | textual (text : Text) (trimmed : u.strip text = text) (nonblank : text ≠ [])
  | numeric (text : Text) (numeral : Numeral) (separated : withoutCommas text = numeral.text)

/-- The value of a numeral without fraction. -/
def integerOf (n : Numeral) : ℤ := if n.negative then -(digitsValue 0 n.whole : ℤ) else digitsValue 0 n.whole

namespace Value

def text : Value u → Text
  | textual text _ _ => text
  | numeric text _ _ => text

/-- What a value is to be read as: an integer exactly, a decimal as the nearest double. -/
def reading : Value u → MetricValue
  | textual text _ _ => .text text
  | numeric _ n _ => if n.fraction = none then .integer (integerOf n) else .number (nearestDouble n.value)

/-- A text is no number without its commas, and an integer is a double. -/
def Readable : Value u → Prop
  | textual text _ _ => u.float (withoutCommas text) = none
  | numeric _ n _ => n.fraction = none → IsDouble (integerOf n)

end Value

/-- A kernel launch with its metrics; `other` is what stands in the columns that are not read. -/
structure Launch (u : Unicode) where
  id : Text
  kernelName : Text
  device : Text
  context : Text
  stream : Text
  blockSize : Text
  gridSize : Text
  other : Text → Text
  metrics : List (Text × Value u)
  trimmed : ∀ text ∈ [id, kernelName, device, context, stream, blockSize, gridSize], u.strip text = text
  named : kernelName ≠ []
  measured : metrics ≠ []
  distinct : (metrics.map Prod.fst).Nodup

/-- The names of the metrics of launches, each once. -/
def metricNames (launches : List (Launch u)) : List Text :=
  (launches.flatMap fun l => l.metrics.map Prod.fst).dedup

/-- The launches of a report and the units of their metrics. -/
structure Report (u : Unicode) where
  launches : List (Launch u)
  unit : Text → Text
  distinct : (launches.map Launch.id).Nodup
  names_trimmed : ∀ name ∈ metricNames launches, u.strip name = name ∧ name ≠ [] ∧ name.head? ≠ some (Char.ofNat 0xfeff)
  names_metrics : ∀ name ∈ metricNames launches, name ∉ launchColumns
  units_trimmed : ∀ name ∈ metricNames launches, u.strip (unit name) = unit name ∧ unit name ≠ []

namespace Launch

/-- What stands in a column of the launch. -/
def cell (l : Launch u) (column : Text) : Text :=
  if column = "ID".toList then l.id
  else if column = "Kernel Name".toList then l.kernelName
  else if column = "Device".toList then l.device
  else if column = "Context".toList then l.context
  else if column = "Stream".toList then l.stream
  else if column = "Block Size".toList then l.blockSize
  else if column = "Grid Size".toList then l.gridSize
  else l.other column

/-- The launch as a result, with what its values are read as and the units of its metrics. -/
def result (l : Launch u) (value : Value u → MetricValue) (unit : Text → Text) : KernelResult where
  id := l.id
  kernelName := l.kernelName
  device := l.device
  context := l.context
  stream := l.stream
  blockSize := l.blockSize
  gridSize := l.gridSize
  metrics name := (l.metrics.lookup name).map fun v => { value := value v, unit := unit name }

end Launch

namespace Report

variable (r : Report u)

def names : List Text := metricNames r.launches

/-- The first launches, as many as are asked for. -/
def kept (maxKernels : ℤ) : List (Launch u) := r.launches.take (kernelLimit maxKernels)

/-- What the report says of the kept launches. -/
def expected (maxKernels : ℤ) : List KernelResult := (r.kept maxKernels).map fun l => l.result Value.reading r.unit

/-! ### The long form -/

def longHeader : Row := launchColumns ++ ["Section Name", "Metric Name", "Metric Unit", "Metric Value"].map String.toList

def longCell (l : Launch u) (m : Text × Value u) (column : Text) : Text :=
  if column = "Metric Name".toList then m.1
  else if column = "Metric Unit".toList then r.unit m.1
  else if column = "Metric Value".toList then m.2.text
  else l.cell column

def longRows : List Row := r.launches.flatMap fun l => l.metrics.map fun m => longHeader.map (r.longCell l m)

/-! ### The wide form -/

def wideHeader : Row := launchColumns ++ r.names

def unitCell (column : Text) : Text := if column ∈ launchColumns then [] else r.unit column

def wideCell (l : Launch u) (column : Text) : Text :=
  if column ∈ launchColumns then l.cell column else (l.metrics.lookup column).elim [] Value.text

def wideTable : List Row :=
  r.wideHeader.map r.unitCell :: r.launches.map fun l => r.wideHeader.map (wideCell l)

end Report

/-- Rows that stand above the header. -/
structure Banner (u : Unicode) where
  rows : List Row
  no_header : ∀ row ∈ rows, "Kernel Name".toList ∉ row.map (normalizeColumn u)

namespace Report

variable (r : Report u) (writer : List Row → Text) (banner : Banner u)

def longForm : Text := writer (banner.rows ++ longHeader :: r.longRows)

def wideForm : Text := writer (banner.rows ++ r.wideHeader :: r.wideTable)

/-- Both forms are read as what the report says, and hence as the same. -/
def RoundTrips (maxKernels : ℤ) : Prop :=
  parseNcuCsv u (r.longForm writer banner) maxKernels r.names = some (r.expected maxKernels) ∧
    parseNcuCsv u (r.wideForm writer banner) maxKernels r.names = some (r.expected maxKernels)

/-- What the values and the units of the kept launches and the names of the metrics must be. -/
structure Readable (maxKernels : ℤ) : Prop where
  values : ∀ l ∈ r.kept maxKernels, ∀ m ∈ l.metrics, m.2.Readable
  units : ∀ l ∈ r.kept maxKernels, ∀ m ∈ l.metrics, u.float (withoutCommas (r.unit m.1)) = none
  header : ¬ ("Metric Name".toList ∈ r.names ∧ "Metric Value".toList ∈ r.names)

end Report

/-! ### Values -/

theorem wholeNumber_eq_some {x : Extended} {n : ℤ} : wholeNumber x = some n ↔ x = .finite n := by
  constructor
  · intro h
    cases x with
    | finite q =>
        simp only [wholeNumber, Option.ite_none_right_eq_some, Option.some.injEq] at h
        obtain ⟨hden, rfl⟩ := h
        exact congrArg Extended.finite (Rat.coe_int_num_of_den_eq_one hden).symm
    | infinite negative => exact absurd h (by simp [wholeNumber])
    | nan => exact absurd h (by simp [wholeNumber])
  · rintro rfl
    simp [wholeNumber]

/-- A whole number is its own nearest double if it is a double. -/
theorem nearestDouble_eq_finite {q : ℚ} : nearestDouble q = .finite q ↔ IsDouble q := by
  unfold nearestDouble
  constructor
  · intro h
    split_ifs at h with hbound
    have hround : binary64.round q = q := Extended.finite.inj h
    exact ⟨hround ▸ Format.round_inFormat binary64 q, hround ▸ hbound⟩
  · intro h
    rw [h.1.round_eq, if_pos h.2]

theorem value_of_whole {n : Numeral} (h : n.fraction = none) : n.value = integerOf n := by
  unfold Numeral.value Numeral.magnitude integerOf
  rw [h]
  cases n.negative <;> simp

/-- The text of a numeric value has no white space. -/
theorem strip_numeric {text : Text} {n : Numeral} (h : withoutCommas text = n.text) :
    u.strip text = text ∧ text ≠ [] := by
  refine ⟨Unicode.strip_of_forall fun c hc => ?_, ?_⟩
  · by_cases hcomma : c = ','
    · subst c
      exact u.isSpace_ascii ',' (by decide)
    · exact isSpace_text (n := n) c (h ▸ List.mem_filter.mpr ⟨hc, by simpa using hcomma⟩)
  · rintro rfl
    exact body_ne_nil n (List.append_eq_nil_iff.mp (h.symm.trans rfl)).2

theorem isAscii_text (n : Numeral) : isAscii n.text = true := by
  refine List.all_eq_true.mpr fun c hc => ?_
  rcases List.mem_append.mp hc with hc | hc
  · split_ifs at hc
    · rw [List.mem_singleton.mp hc]
      decide
    · exact absurd hc List.not_mem_nil
  · exact digit_or_point (f := fun c => decide (c.toNat < 128)) (by decide) (by decide) (mem_body hc)

/-- A numeral has a point or an exponent mark exactly if it has a fraction. -/
theorem lower_text_any (n : Numeral) :
    ((u.lower n.text).any fun c => c = '.' || c = 'e') = n.fraction.isSome := by
  rw [Unicode.lower_ascii (isAscii_text n)]
  cases hf : n.fraction with
  | none =>
      refine List.any_eq_false.mpr fun lowered hlowered => ?_
      obtain ⟨c, hc, rfl⟩ := List.mem_map.mp hlowered
      rcases List.mem_append.mp hc with hc | hc
      · split_ifs at hc
        · rw [List.mem_singleton.mp hc]
          decide
        · exact absurd hc List.not_mem_nil
      · simp only [Numeral.body, hf, Option.elim_none, List.append_nil] at hc
        obtain ⟨d, -, rfl⟩ := List.mem_map.mp hc
        exact (by decide : ∀ d, ¬ (decide ((digitChar d).toLower = '.') || decide ((digitChar d).toLower = 'e')) = true) d
  | some f =>
      refine List.any_eq_true.mpr ⟨'.', List.mem_map.mpr ⟨'.', ?_, by decide⟩, by decide⟩
      simp [Numeral.text, Numeral.body, hf]

/-- **A value is read back if and only if it is readable.** -/
theorem parseMetricValue_text (v : Value u) : parseMetricValue u v.text = v.reading ↔ v.Readable := by
  cases v with
  | textual text trimmed nonblank =>
      simp only [parseMetricValue, Value.text, trimmed, if_neg nonblank, Value.reading, Value.Readable]
      cases u.float (withoutCommas text) with
      | none => simp
      | some parsed =>
          refine iff_of_false (fun h => ?_) (by simp)
          dsimp only at h
          split at h
          · split_ifs at h
          · exact MetricValue.noConfusion h
  | numeric text n separated =>
      obtain ⟨hstrip, hne⟩ := strip_numeric (u := u) separated
      simp only [parseMetricValue, Value.text, hstrip, if_neg hne, separated, float_text, lower_text_any, Value.reading,
        Value.Readable]
      cases hf : n.fraction with
      | none =>
          rw [value_of_whole hf, ← nearestDouble_eq_finite, ← wholeNumber_eq_some]
          cases wholeNumber (nearestDouble (integerOf n)) <;> simp
      | some f => cases wholeNumber (nearestDouble n.value) <;> simp

/-- A trimmed unit is recorded as such if and only if it reads as no number. -/
theorem parseMetricValue_isText {unit : Text} (htrimmed : u.strip unit = unit) (hne : unit ≠ []) :
    (parseMetricValue u unit).isText = true ↔ u.float (withoutCommas unit) = none := by
  simp only [parseMetricValue, htrimmed, if_neg hne]
  cases u.float (withoutCommas unit) with
  | none => simp [MetricValue.isText]
  | some parsed =>
      refine iff_of_false (fun h => ?_) (by simp)
      dsimp only at h
      split at h
      · split_ifs at h <;> exact Bool.false_ne_true h
      · exact Bool.false_ne_true h

/-! ### Cells -/

theorem lookup_map {f : Text → Text} {columns : Row} {column : Text} :
    (columns.map fun c => (c, f c)).lookup column = if column ∈ columns then some (f column) else none := by
  induction columns with
  | nil => rfl
  | cons c rest ih =>
      rw [List.map_cons, List.lookup_cons]
      by_cases hc : column = c
      · subst c
        simp
      · rw [beq_false_of_ne hc, ih]
        simp [hc]

/-- A row that is a function of its columns. -/
theorem cell_map {f : Text → Text} {header : Row} {column : Text} :
    NcuProfiler.cell header (header.map f) column = if column ∈ header then f column else [] := by
  have hzip : (header.zip (header.map f)).reverse = header.reverse.map fun c => (c, f c) := by
    have hzip : header.zip (header.map f) = header.map fun c => (c, f c) := by
      simpa using List.zip_map' (f := id) (g := f) (l := header)
    rw [hzip, List.map_reverse]
  rw [NcuProfiler.cell, hzip, lookup_map]
  by_cases hcolumn : column ∈ header
  · rw [if_pos (List.mem_reverse.mpr hcolumn), if_pos hcolumn]
    rfl
  · rw [if_neg fun h => hcolumn (List.mem_reverse.mp h), if_neg hcolumn]
    rfl

/-- A column of the launch that is read. -/
theorem strip_launch_cell (l : Launch u) {column : String}
    (h : column ∈ ["ID", "Kernel Name", "Device", "Context", "Stream", "Block Size", "Grid Size"]) :
    u.strip (l.cell column.toList) = l.cell column.toList := by
  simp only [List.mem_cons, List.not_mem_nil, or_false] at h
  rcases h with rfl | rfl | rfl | rfl | rfl | rfl | rfl <;> exact l.trimmed _ (by simp [Launch.cell])

/-- The key of a launch. -/
def Launch.key (l : Launch u) : Key := (l.id, l.kernelName, l.context, l.stream)

/-- The result of a launch before its metrics. -/
def Launch.start (l : Launch u) : KernelResult where
  id := l.id
  kernelName := l.kernelName
  device := l.device
  context := l.context
  stream := l.stream
  blockSize := l.blockSize
  gridSize := l.gridSize
  metrics _ := none

/-- A row that repeats the launch in the launch columns. -/
theorem launch_of_row (l : Launch u) (header : Row) (f : Text → Text)
    (h : ∀ column ∈ launchColumns, column ∈ header ∧ f column = l.cell column) :
    field u header (header.map f) "Kernel Name" = l.kernelName ∧
      keyOf u header (header.map f) l.kernelName = l.key ∧
      newKernelResult u header (header.map f) l.kernelName = l.start := by
  have hfield (column : String) (hcolumn : column.toList ∈ launchColumns)
      (hread : column ∈ ["ID", "Kernel Name", "Device", "Context", "Stream", "Block Size", "Grid Size"]) :
      field u header (header.map f) column = l.cell column.toList := by
    rw [field, cell_map, if_pos (h _ hcolumn).1, (h _ hcolumn).2, strip_launch_cell l hread]
  have hid := hfield "ID" (by decide) (by decide)
  have hname := hfield "Kernel Name" (by decide) (by decide)
  have hdevice := hfield "Device" (by decide) (by decide)
  have hcontext := hfield "Context" (by decide) (by decide)
  have hstream := hfield "Stream" (by decide) (by decide)
  have hblock := hfield "Block Size" (by decide) (by decide)
  have hgrid := hfield "Grid Size" (by decide) (by decide)
  refine ⟨hname, ?_, ?_⟩
  · rw [keyOf, hid, hcontext, hstream]
    rfl
  · rw [newKernelResult, hid, hdevice, hcontext, hstream, hblock, hgrid]
    rfl

/-! ### Blocks of measurements -/

/-- Measurements of one kernel, one behind the other. -/
structure Block where
  key : Key
  kernel : KernelResult
  metrics : List (Text × MetricReading)
  nonempty : metrics ≠ []

namespace Block

def measurements (b : Block) : List Measurement :=
  b.metrics.map fun m => { key := b.key, kernel := b.kernel, name := m.1, reading := m.2 }

def recordAll (kernel : KernelResult) (metrics : List (Text × MetricReading)) : KernelResult :=
  metrics.foldl (fun kernel m => kernel.record m.1 m.2) kernel

def result (b : Block) : KernelResult := recordAll b.kernel b.metrics

end Block

section

variable {g : Grouped} {limit : ℕ} {key : Key} {kernel : KernelResult}

theorem results_put (h : key ∉ g.order) : (g.put key kernel).results = g.results ++ [kernel] := by
  have hold : g.order.filterMap (Function.update g.grouped key (some kernel)) = g.order.filterMap g.grouped :=
    List.filterMap_congr fun k hk => Function.update_of_ne (ne_of_mem_of_not_mem hk h) _ _
  rw [Grouped.results, Grouped.put, List.filterMap_append, hold]
  simp [Grouped.results]

theorem put_grouped_fresh (h : ∀ k, k ∉ g.order → g.grouped k = none) :
    ∀ k, k ∉ (g.put key kernel).order → (g.put key kernel).grouped k = none := by
  intro k hk
  obtain ⟨hg, hne⟩ := not_or.mp (fun hmem => hk (List.mem_append.mpr hmem))
  exact (Function.update_of_ne (fun heq => hne (List.mem_singleton.mpr heq)) _ _).trans (h k hg)

/-- Behind a kernel's first measurement the others are recorded in it. -/
theorem add_rest (metrics : List (Text × MetricReading)) (start : KernelResult) :
    (metrics.map fun m => Measurement.mk key start m.1 m.2).foldl (Grouped.add limit) (g.put key kernel) =
      g.put key (Block.recordAll kernel metrics) := by
  induction metrics generalizing kernel with
  | nil => rfl
  | cons m rest ih =>
      have hadd : Grouped.add limit (g.put key kernel) (Measurement.mk key start m.1 m.2) =
          g.put key (kernel.record m.1 m.2) := by
        simp [Grouped.add, Grouped.put]
      rw [List.map_cons, List.foldl_cons, hadd]
      exact ih

/-- A block of a new kernel. -/
theorem add_block {b : Block} (h : g.grouped b.key = none) :
    b.measurements.foldl (Grouped.add limit) g = if limit ≤ g.order.length then g else g.put b.key b.result := by
  split_ifs with hlimit
  · unfold Block.measurements
    generalize b.metrics = metrics
    induction metrics with
    | nil => rfl
    | cons m rest ih =>
        have hadd : Grouped.add limit g (Measurement.mk b.key b.kernel m.1 m.2) = g := by
          rw [Grouped.add, h]
          exact if_pos hlimit
        rw [List.map_cons, List.foldl_cons, hadd]
        exact ih
  · obtain ⟨m, rest, hmetrics⟩ := List.exists_cons_of_ne_nil b.nonempty
    have hadd : Grouped.add limit g (Measurement.mk b.key b.kernel m.1 m.2) = g.put b.key (b.kernel.record m.1 m.2) := by
      rw [Grouped.add, h]
      exact if_neg hlimit
    rw [Block.measurements, Block.result, hmetrics, List.map_cons, List.foldl_cons, hadd]
    exact add_rest rest b.kernel

/-- **Blocks of different kernels give the first kernels, as many as the limit leaves.** -/
theorem results_blocks (blocks : List Block) (hkeys : (blocks.map Block.key).Nodup)
    (hnew : ∀ b ∈ blocks, b.key ∉ g.order) (hfresh : ∀ k, k ∉ g.order → g.grouped k = none) :
    ((blocks.flatMap Block.measurements).foldl (Grouped.add limit) g).results =
      g.results ++ (blocks.take (limit - g.order.length)).map Block.result := by
  induction blocks generalizing g with
  | nil => simp
  | cons b rest ih =>
      obtain ⟨hb, hrest⟩ := List.nodup_cons.mp hkeys
      have hbnew := hnew b List.mem_cons_self
      rw [List.flatMap_cons, List.foldl_append, add_block (hfresh _ hbnew)]
      split_ifs with hlimit
      · rw [ih hrest (fun b' hb' => hnew b' (List.mem_cons_of_mem _ hb')) hfresh, Nat.sub_eq_zero_of_le hlimit]
        rfl
      · have hnext : limit - g.order.length = limit - (g.put b.key b.result).order.length + 1 := by
          simp only [Grouped.put, List.length_append, List.length_singleton]
          omega
        have hnew' : ∀ b' ∈ rest, b'.key ∉ (g.put b.key b.result).order := by
          intro b' hb' hmem
          rcases List.mem_append.mp hmem with hmem | hmem
          · exact hnew b' (List.mem_cons_of_mem _ hb') hmem
          · exact hb (List.mem_singleton.mp hmem ▸ List.mem_map_of_mem hb')
        rw [ih hrest hnew' (put_grouped_fresh hfresh), results_put hbnew, hnext, List.take_succ_cons]
        simp

end

/-- Recorded one by one, metrics of different names are looked up among them. -/
theorem recordAll_eq (metrics : List (Text × MetricReading)) (hnames : (metrics.map Prod.fst).Nodup)
    (kernel : KernelResult) :
    Block.recordAll kernel metrics =
      { kernel with metrics := fun name => (metrics.lookup name).or (kernel.metrics name) } := by
  induction metrics generalizing kernel with
  | nil => rfl
  | cons m rest ih =>
      obtain ⟨hm, hrest⟩ := List.nodup_cons.mp hnames
      rw [Block.recordAll, List.foldl_cons]
      refine (ih hrest (kernel.record m.1 m.2)).trans ?_
      unfold KernelResult.record
      congr 1
      funext name
      rw [List.lookup_cons]
      by_cases hname : name = m.1
      · subst hname
        have hnone : rest.lookup m.1 = none :=
          List.lookup_eq_none_iff.mpr fun entry hentry =>
            bne_iff_ne.mpr (ne_of_mem_of_not_mem (List.mem_map_of_mem hentry) hm).symm
        simp [hnone]
      · rw [beq_false_of_ne hname]
        simp [Function.update_of_ne hname]

/-! ### Headers -/

theorem strip_of_ends {text : Text} (hfirst : ∀ c ∈ text.head?, u.isSpace c = false)
    (hlast : ∀ c ∈ text.getLast?, u.isSpace c = false) : u.strip text = text := by
  have hleft : u.lstrip text = text := by
    cases text with
    | nil => rfl
    | cons c rest => exact List.dropWhile_cons_of_neg (Bool.eq_false_iff.mp (hfirst c rfl))
  rw [Unicode.strip, hleft]
  refine List.rdropWhile_eq_self_iff.mpr fun hne => ?_
  exact Bool.eq_false_iff.mp (hlast _ (List.getLast?_eq_getLast_of_ne_nil hne))

theorem normalizeColumn_eq {column : Text} (hstrip : u.strip column = column)
    (hhead : column.head? ≠ some (Char.ofNat 0xfeff)) : normalizeColumn u column = column := by
  rw [normalizeColumn, hstrip]
  cases column with
  | nil => rfl
  | cons c rest => exact List.dropWhile_cons_of_neg fun h => hhead (congrArg some (of_decide_eq_true h))

/-- Whether a text starts and ends with a character of ASCII that is no white space. -/
def isPlain (column : Text) : Bool :=
  let plain c := decide (c.toNat < 128) && !asciiSpace c
  column.head?.any plain && column.getLast?.any plain

theorem normalizeColumn_of_isPlain {column : Text} (h : isPlain column = true) : normalizeColumn u column = column := by
  have hspace {c : Char} (hc : (decide (c.toNat < 128) && !asciiSpace c) = true) : u.isSpace c = false := by
    simp only [Bool.and_eq_true, decide_eq_true_eq, Bool.not_eq_true'] at hc
    rw [u.isSpace_ascii c hc.1, hc.2]
  simp only [isPlain, Bool.and_eq_true, Option.any_eq_true_iff_get] at h
  obtain ⟨⟨hsome, hhead⟩, hsome', hlast⟩ := h
  refine normalizeColumn_eq (strip_of_ends ?_ ?_) ?_
  · intro c hc
    exact hspace (by simpa [Option.mem_def.mp hc] using hhead)
  · intro c hc
    exact hspace (by simpa [Option.mem_def.mp hc] using hlast)
  · intro hbom
    simp [hbom] at hhead

theorem plain_columns : (Report.longHeader.all isPlain && launchColumns.all isPlain) = true := by decide

theorem map_normalizeColumn {columns : Row} (h : ∀ column ∈ columns, normalizeColumn u column = column) :
    columns.map (normalizeColumn u) = columns := (List.map_congr_left h).trans (List.map_id columns)

/-- The table below the banner is found by its header. -/
theorem parseRows_table (banner : Banner u) {header : Row} (hplain : ∀ column ∈ header, normalizeColumn u column = column)
    (hname : "Kernel Name".toList ∈ header) (rows : List Row) (maxKernels : ℤ) (names : Row) :
    parseRows u (banner.rows ++ header :: rows) maxKernels names = parseTable u header rows maxKernels names := by
  have hskip : ∀ row ∈ banner.rows, decide ("Kernel Name".toList ∉ row.map (normalizeColumn u)) = true :=
    fun row hrow => decide_eq_true (banner.no_header row hrow)
  have hstop : ¬ decide ("Kernel Name".toList ∉ header.map (normalizeColumn u)) = true := by
    rw [map_normalizeColumn hplain]
    exact fun h => of_decide_eq_true h hname
  have hfound : (banner.rows ++ header :: rows).dropWhile
      (fun row => decide ("Kernel Name".toList ∉ row.map (normalizeColumn u))) = header :: rows := by
    rw [List.dropWhile_append_of_pos hskip]
    exact List.dropWhile_cons_of_neg hstop
  rw [parseRows, hfound]
  dsimp only
  rw [map_normalizeColumn hplain]

section

variable {r : Report u} {l : Launch u}

theorem mem_names (hl : l ∈ r.launches) {m : Text × Value u} (hm : m ∈ l.metrics) : m.1 ∈ r.names :=
  List.mem_dedup.mpr (List.mem_flatMap.mpr ⟨l, hl, List.mem_map_of_mem hm⟩)

theorem keys_nodup (r : Report u) : (r.launches.map Launch.key).Nodup :=
  List.Nodup.of_map Prod.fst (by rw [List.map_map]; exact r.distinct)

theorem lookup_map_value {α β : Type} (f : Text → α → β) (entries : List (Text × α)) (name : Text) :
    (entries.map fun e => (e.1, f e.1 e.2)).lookup name = (entries.lookup name).map (f name) := by
  induction entries with
  | nil => rfl
  | cons e rest ih =>
      rw [List.map_cons, List.lookup_cons, List.lookup_cons]
      by_cases hname : name = e.1
      · subst hname
        simp
      · rw [beq_false_of_ne hname]
        exact ih

theorem Value.strip_text (v : Value u) : u.strip v.text = v.text ∧ v.text ≠ [] := by
  cases v with
  | textual text trimmed nonblank => exact ⟨trimmed, nonblank⟩
  | numeric text n separated => exact strip_numeric separated

/-! ### The long form -/

/-- What a value's text is parsed to. -/
def parsed (v : Value u) : MetricValue := parseMetricValue u v.text

/-- The rows of one launch. -/
def longBlock (r : Report u) (l : Launch u) : Block where
  key := l.key
  kernel := l.start
  metrics := l.metrics.map fun m => (m.1, { value := parsed m.2, unit := r.unit m.1 })
  nonempty h := l.measured (List.map_eq_nil_iff.mp h)

theorem longBlock_result : (longBlock r l).result = l.result parsed r.unit := by
  have hnames : ((longBlock r l).metrics.map Prod.fst).Nodup := by
    rw [longBlock, List.map_map]
    exact l.distinct
  rw [Block.result, recordAll_eq _ hnames]
  unfold longBlock Launch.result Launch.start
  congr 1
  funext name
  rw [Option.or_none]
  exact lookup_map_value (fun name v => MetricReading.mk (parsed v) (r.unit name)) l.metrics name

theorem readMeasurement_longRow (hl : l ∈ r.launches) {m : Text × Value u} (hm : m ∈ l.metrics) :
    readMeasurement u Report.longHeader (Report.longHeader.map (r.longCell l m)) =
      some ⟨l.key, l.start, m.1, { value := parsed m.2, unit := r.unit m.1 }⟩ := by
  obtain ⟨hname, hkey, hkernel⟩ := launch_of_row l Report.longHeader (r.longCell l m) fun column hcolumn =>
    ⟨List.mem_append_left _ hcolumn, by
      have hother : column ≠ "Metric Name".toList ∧ column ≠ "Metric Unit".toList ∧ column ≠ "Metric Value".toList :=
        (by decide : ∀ column ∈ launchColumns,
          column ≠ "Metric Name".toList ∧ column ≠ "Metric Unit".toList ∧ column ≠ "Metric Value".toList) column hcolumn
      rw [Report.longCell, if_neg hother.1, if_neg hother.2.1, if_neg hother.2.2]⟩
  obtain ⟨htrimmed, hne, -⟩ := r.names_trimmed _ (mem_names hl hm)
  have hmetric : field u Report.longHeader (Report.longHeader.map (r.longCell l m)) "Metric Name" = m.1 := by
    rw [field, cell_map, if_pos (by decide)]
    exact htrimmed
  have hunit : field u Report.longHeader (Report.longHeader.map (r.longCell l m)) "Metric Unit" = r.unit m.1 := by
    rw [field, cell_map, if_pos (by decide)]
    exact (r.units_trimmed _ (mem_names hl hm)).1
  have hvalue : NcuProfiler.cell Report.longHeader (Report.longHeader.map (r.longCell l m)) "Metric Value".toList =
      m.2.text := by
    rw [cell_map, if_pos (by decide)]
    rfl
  rw [readMeasurement, if_neg (not_not_intro (List.length_map _))]
  simp only [hmetric, hname, hunit, hvalue, hkey, hkernel]
  rw [if_neg (not_or.mpr ⟨hne, l.named⟩)]
  rfl

theorem longRows_measurements (r : Report u) :
    r.longRows.filterMap (readMeasurement u Report.longHeader) =
      (r.launches.map (longBlock r)).flatMap Block.measurements := by
  rw [Report.longRows, List.filterMap_flatMap, List.flatMap_map]
  refine List.flatMap_congr fun l hl => ?_
  rw [List.filterMap_map, Block.measurements, longBlock, List.map_map, ← List.filterMap_eq_map]
  exact List.filterMap_congr fun m hm => readMeasurement_longRow hl hm

theorem foldl_longStep {limit : ℕ} {header : Row} (rows : List Row) (g : Grouped) :
    rows.foldl (longStep u limit header) g = (rows.filterMap (readMeasurement u header)).foldl (Grouped.add limit) g := by
  induction rows generalizing g with
  | nil => rfl
  | cons row rest ih =>
      rw [List.foldl_cons, ih, longStep]
      cases hread : readMeasurement u header row with
      | none => rw [List.filterMap_cons_none hread]
      | some m => rw [List.filterMap_cons_some hread, List.foldl_cons]

/-- **The long form gives the kept launches with their values as they are parsed.** -/
theorem parse_longForm (r : Report u) (banner : Banner u) (maxKernels : ℤ) (names : Row) :
    parseRows u (banner.rows ++ Report.longHeader :: r.longRows) maxKernels names =
      (r.kept maxKernels).map fun l => l.result parsed r.unit := by
  have hplain : ∀ column ∈ Report.longHeader, normalizeColumn u column = column := fun column hcolumn =>
    normalizeColumn_of_isPlain (List.all_eq_true.mp (Bool.and_eq_true_iff.mp plain_columns).1 column hcolumn)
  have hkeys : ((r.launches.map (longBlock r)).map Block.key).Nodup := by
    rw [List.map_map]
    exact keys_nodup r
  have hresult : Block.result ∘ longBlock r = fun l => l.result parsed r.unit := funext fun l => longBlock_result
  rw [parseRows_table banner hplain (by decide), parseTable, if_pos (by decide)]
  calc (r.longRows.foldl (longStep u (kernelLimit maxKernels) Report.longHeader) {}).results
      = ((r.longRows.filterMap (readMeasurement u Report.longHeader)).foldl (Grouped.add (kernelLimit maxKernels))
          {}).results := congrArg Grouped.results (foldl_longStep _ _)
    _ = ((r.launches.map (longBlock r)).take (kernelLimit maxKernels)).map Block.result := by
        rw [longRows_measurements]
        exact results_blocks _ hkeys (fun _ _ => List.not_mem_nil) fun _ _ => rfl
    _ = (r.kept maxKernels).map fun l => l.result parsed r.unit := by
        rw [← List.map_take, List.map_map, hresult, Report.kept]

/-! ### The wide form -/

theorem mem_wideHeader {column : Text} (h : column ∉ launchColumns) : column ∈ r.wideHeader ↔ column ∈ r.names := by
  rw [Report.wideHeader, List.mem_append]
  exact or_iff_right h

theorem wideHeader_normal : ∀ column ∈ r.wideHeader, normalizeColumn u column = column := by
  intro column hcolumn
  rcases List.mem_append.mp hcolumn with h | h
  · exact normalizeColumn_of_isPlain (List.all_eq_true.mp (Bool.and_eq_true_iff.mp plain_columns).2 column h)
  · exact normalizeColumn_eq (r.names_trimmed _ h).1 (r.names_trimmed _ h).2.2

/-- The columns of the metrics are found by their names. -/
theorem wideMetricColumns_names (r : Report u) : wideMetricColumns u r.wideHeader r.names = r.names := by
  have hrequested : (r.names.map u.strip).filter (· ≠ []) = r.names := by
    rw [(List.map_congr_left fun name h => (r.names_trimmed name h).1 : r.names.map u.strip = r.names.map id), List.map_id]
    exact List.filter_eq_self.mpr fun name h => decide_eq_true (r.names_trimmed name h).2.1
  rw [wideMetricColumns, hrequested]
  by_cases hnames : r.names = []
  · rw [if_neg (not_not_intro hnames), Report.wideHeader, hnames]
    decide
  · have hlaunch : launchColumns.filter (· ∈ r.names) = [] :=
      List.filter_eq_nil_iff.mpr fun column hcolumn h => r.names_metrics column (of_decide_eq_true h) hcolumn
    rw [if_pos hnames, Report.wideHeader, List.filter_append, hlaunch, List.nil_append]
    exact List.filter_eq_self.mpr fun name h => decide_eq_true h

/-- The unit that the wide form records for a metric. -/
def wideUnit (r : Report u) (name : Text) : Text :=
  if (parseMetricValue u (r.unit name)).isText = true then r.unit name else []

theorem mem_wideHeader_launch {column : Text} (h : column ∈ launchColumns) : column ∈ r.wideHeader :=
  List.mem_append_left _ h

theorem field_unitRow (r : Report u) : field u r.wideHeader (r.wideHeader.map r.unitCell) "Kernel Name" = [] := by
  rw [field, cell_map, if_pos (mem_wideHeader_launch (by decide)), Report.unitCell, if_pos (by decide)]
  exact Unicode.strip_of_forall fun _ h => absurd h List.not_mem_nil

theorem readUnits_unitRow {name : Text} (h : name ∈ r.names) :
    (readUnits u r.wideHeader (r.wideHeader.map r.unitCell) r.names (fun _ => none) name).getD [] = wideUnit r name := by
  have hlaunch := r.names_metrics name h
  obtain ⟨htrimmed, hne⟩ := r.units_trimmed name h
  have hcell : u.strip (NcuProfiler.cell r.wideHeader (r.wideHeader.map r.unitCell) name) = r.unit name := by
    rw [cell_map, if_pos ((mem_wideHeader hlaunch).mpr h), Report.unitCell, if_neg hlaunch, htrimmed]
  rw [readUnits, hcell, wideUnit]
  by_cases htext : (parseMetricValue u (r.unit name)).isText = true
  · rw [if_pos ⟨h, hne, htext⟩, if_pos htext]
    rfl
  · rw [if_neg fun hall => htext hall.2.2, if_neg htext]
    rfl

theorem launch_of_wideRow (r : Report u) (l : Launch u) :
    field u r.wideHeader (r.wideHeader.map (Report.wideCell l)) "Kernel Name" = l.kernelName ∧
      keyOf u r.wideHeader (r.wideHeader.map (Report.wideCell l)) l.kernelName = l.key ∧
      newKernelResult u r.wideHeader (r.wideHeader.map (Report.wideCell l)) l.kernelName = l.start :=
  launch_of_row l _ _ fun _ hcolumn => ⟨mem_wideHeader_launch hcolumn, if_pos hcolumn⟩

/-- What the row of a launch has in the column of a name. -/
theorem cell_wideRow (hl : l ∈ r.launches) {name : Text} (hname : name ∉ launchColumns) :
    NcuProfiler.cell r.wideHeader (r.wideHeader.map (Report.wideCell l)) name =
      (l.metrics.lookup name).elim [] Value.text := by
  rw [cell_map]
  by_cases hmem : name ∈ r.wideHeader
  · rw [if_pos hmem, Report.wideCell, if_neg hname]
  · have hnone : l.metrics.lookup name = none :=
      List.lookup_eq_none_iff.mpr fun entry hentry => bne_iff_ne.mpr fun heq =>
        hmem ((mem_wideHeader hname).mpr (heq ▸ mem_names hl hentry))
    rw [if_neg hmem, hnone]
    rfl

theorem mem_of_lookup {name : Text} {v : Value u} {metrics : List (Text × Value u)} (h : metrics.lookup name = some v) :
    (name, v) ∈ metrics := by
  obtain ⟨before, after, heq, -⟩ := List.lookup_eq_some_iff.mp h
  rw [heq]
  exact List.mem_append_right _ List.mem_cons_self

theorem lookup_of_mem (l : Launch u) {m : Text × Value u} (h : m ∈ l.metrics) : l.metrics.lookup m.1 = some m.2 := by
  have hnames := l.distinct
  generalize l.metrics = metrics at h hnames
  induction metrics with
  | nil => exact absurd h List.not_mem_nil
  | cons first rest ih =>
      obtain ⟨hfirst, hrest⟩ := List.nodup_cons.mp hnames
      rcases List.mem_cons.mp h with rfl | h
      · exact List.lookup_cons_self
      · rw [List.lookup_cons, beq_false_of_ne (ne_of_mem_of_not_mem (List.mem_map_of_mem h) hfirst)]
        exact ih h hrest

/-- The metrics of a row of the wide form. -/
theorem wideMetrics_wideRow (hl : l ∈ r.launches) {units : Text → Option Text}
    (hunits : ∀ name ∈ r.names, (units name).getD [] = wideUnit r name) :
    wideMetrics u r.wideHeader (r.wideHeader.map (Report.wideCell l)) r.names units =
      (l.result parsed (wideUnit r)).metrics := by
  funext name
  have hexpected : (l.result parsed (wideUnit r)).metrics name =
      (l.metrics.lookup name).map fun v => { value := parsed v, unit := wideUnit r name } := rfl
  rw [wideMetrics, hexpected]
  by_cases hname : name ∈ r.names
  · rw [cell_wideRow hl (r.names_metrics name hname)]
    cases hlookup : l.metrics.lookup name with
    | none => rw [if_neg fun h => h.2 (Unicode.strip_of_forall fun _ hc => absurd hc List.not_mem_nil), Option.map_none]
    | some v =>
        obtain ⟨hstrip, hne⟩ := v.strip_text
        have htext : u.strip ((some v).elim [] Value.text) ≠ [] := hstrip.symm ▸ hne
        rw [if_pos ⟨hname, htext⟩, hunits name hname]
        rfl
  · have hnone : l.metrics.lookup name = none := by
      rw [Option.eq_none_iff_forall_ne_some]
      exact fun v hv => hname (mem_names hl (mem_of_lookup hv))
    rw [if_neg fun h => hname h.1, hnone]
    rfl

/-- The rows of launches below the units. -/
theorem results_wideRows {units : Text → Option Text} (hunits : ∀ name ∈ r.names, (units name).getD [] = wideUnit r name)
    {limit : ℕ} (launches : List (Launch u)) (hlaunches : ∀ l ∈ launches, l ∈ r.launches)
    (hkeys : (launches.map Launch.key).Nodup) {g : Grouped} (hnew : ∀ l ∈ launches, l.key ∉ g.order) :
    (wideRows u limit r.wideHeader r.names units g
        (launches.map fun l => r.wideHeader.map (Report.wideCell l))).results =
      g.results ++ (launches.take (limit - g.order.length)).map fun l => l.result parsed (wideUnit r) := by
  induction launches generalizing g with
  | nil => simp [wideRows]
  | cons l rest ih =>
      obtain ⟨hl, hrest⟩ := List.nodup_cons.mp hkeys
      have hmem := hlaunches l List.mem_cons_self
      obtain ⟨hname, hkey, hkernel⟩ := launch_of_wideRow r l
      have hmetric : ¬ (r.names.all fun column =>
          decide (u.strip (NcuProfiler.cell r.wideHeader (r.wideHeader.map (Report.wideCell l)) column) = [])) = true := by
        obtain ⟨m, hm⟩ := List.exists_mem_of_ne_nil _ l.measured
        obtain ⟨hstrip, hne⟩ := m.2.strip_text
        intro hall
        have hblank := of_decide_eq_true (List.all_eq_true.mp hall m.1 (mem_names hmem hm))
        rw [cell_wideRow hmem (r.names_metrics _ (mem_names hmem hm)), lookup_of_mem l hm] at hblank
        exact hne (hstrip.symm.trans hblank)
      rw [List.map_cons, wideRows, hname, if_neg (not_not_intro (List.length_map _)), if_neg l.named]
      split_ifs with hlimit
      · rw [Nat.sub_eq_zero_of_le hlimit]
        simp
      · have hkernel' : { newKernelResult u r.wideHeader (r.wideHeader.map (Report.wideCell l)) l.kernelName with
            metrics := wideMetrics u r.wideHeader (r.wideHeader.map (Report.wideCell l)) r.names units } =
              l.result parsed (wideUnit r) := by
          rw [hkernel, wideMetrics_wideRow hmem hunits]
          rfl
        have hnext : limit - g.order.length = limit - (g.put l.key (l.result parsed (wideUnit r))).order.length + 1 := by
          simp only [Grouped.put, List.length_append, List.length_singleton]
          omega
        have hnew' : ∀ l' ∈ rest, l'.key ∉ (g.put l.key (l.result parsed (wideUnit r))).order := by
          intro l' hl' hput
          rcases List.mem_append.mp hput with hput | hput
          · exact hnew l' (List.mem_cons_of_mem _ hl') hput
          · exact hl (List.mem_singleton.mp hput ▸ List.mem_map_of_mem hl')
        dsimp only
        rw [hkernel', hkey, ih (fun l' hl' => hlaunches l' (List.mem_cons_of_mem _ hl')) hrest hnew',
          results_put (hnew l List.mem_cons_self), hnext, List.take_succ_cons]
        simp

/-- **The wide form gives the kept launches with their values as they are parsed, if it is not taken for the long
form.** -/
theorem parse_wideForm (r : Report u) (banner : Banner u) (maxKernels : ℤ)
    (hheader : ¬ ("Metric Name".toList ∈ r.names ∧ "Metric Value".toList ∈ r.names)) :
    parseRows u (banner.rows ++ r.wideHeader :: r.wideTable) maxKernels r.names =
      (r.kept maxKernels).map fun l => l.result parsed (wideUnit r) := by
  have hwide : ¬ ("Metric Name".toList ∈ r.wideHeader ∧ "Metric Value".toList ∈ r.wideHeader) := by
    rwa [mem_wideHeader (by decide), mem_wideHeader (by decide)]
  rw [parseRows_table banner wideHeader_normal (mem_wideHeader_launch (by decide)), parseTable, if_neg hwide,
    wideMetricColumns_names]
  by_cases hnames : r.names = []
  · rw [if_pos hnames]
    have hnone : r.launches = [] := by
      refine List.eq_nil_iff_forall_not_mem.mpr fun l hl => ?_
      obtain ⟨m, hm⟩ := List.exists_mem_of_ne_nil _ l.measured
      exact List.not_mem_nil (hnames ▸ mem_names hl hm)
    simp [Report.kept, hnone]
  · rw [if_neg hnames, Report.wideTable, wideRows, field_unitRow, if_neg (not_not_intro (List.length_map _)), if_pos rfl]
    exact results_wideRows (fun name h => readUnits_unitRow h) r.launches (fun _ h => h) (keys_nodup r)
      fun _ _ => List.not_mem_nil

/-! ### A wide form that is taken for the long form -/

theorem strip_nil : u.strip [] = [] := Unicode.strip_of_forall fun _ h => absurd h List.not_mem_nil

/-- What a row of the wide form has where the long form has a value and its unit. -/
def misreading (r : Report u) (l : Launch u) : MetricReading where
  value := parseMetricValue u ((l.metrics.lookup "Metric Value".toList).elim [] Value.text)
  unit := field u r.wideHeader (r.wideHeader.map (Report.wideCell l)) "Metric Unit"

/-- What is read of a launch in the wide form whose metric called "Metric Name" is `v`. -/
def misreadBlock (r : Report u) (l : Launch u) (v : Value u) : Block where
  key := l.key
  kernel := l.start
  metrics := [(v.text, misreading r l)]
  nonempty := List.cons_ne_nil _ _

theorem misread_wideRow (hl : l ∈ r.launches) :
    readMeasurement u r.wideHeader (r.wideHeader.map (Report.wideCell l)) =
      (l.metrics.lookup "Metric Name".toList).map fun v => ⟨l.key, l.start, v.text, misreading r l⟩ := by
  obtain ⟨hname, hkey, hkernel⟩ := launch_of_wideRow r l
  have hmetric : field u r.wideHeader (r.wideHeader.map (Report.wideCell l)) "Metric Name" =
      (l.metrics.lookup "Metric Name".toList).elim [] Value.text := by
    rw [field, cell_wideRow hl (by decide)]
    cases l.metrics.lookup "Metric Name".toList with
    | none => exact strip_nil
    | some v => exact v.strip_text.1
  rw [readMeasurement, if_neg (not_not_intro (List.length_map _))]
  dsimp only
  rw [hmetric, hname, hkey, hkernel, cell_wideRow hl (by decide)]
  cases l.metrics.lookup "Metric Name".toList with
  | none => exact if_pos (Or.inl rfl)
  | some v => exact if_neg (not_or.mpr ⟨v.strip_text.2, l.named⟩)

theorem misread_unitRow (r : Report u) : readMeasurement u r.wideHeader (r.wideHeader.map r.unitCell) = none := by
  rw [readMeasurement, if_neg (not_not_intro (List.length_map _))]
  exact if_pos (Or.inr (field_unitRow r))

theorem Value.reading_ne_none (v : Value u) : v.reading ≠ .none := by
  cases v with
  | textual text trimmed nonblank => exact MetricValue.noConfusion
  | numeric text n separated =>
      simp only [Value.reading]
      split_ifs <;> exact MetricValue.noConfusion

/-- What is read of a launch in the misread table is not what the report says of it. -/
theorem misreadBlock_ne {v : Value u} (hv : l.metrics.lookup "Metric Name".toList = some v) :
    (misreadBlock r l v).result ≠ l.result Value.reading r.unit := by
  intro heq
  have hmetrics (name : Text) : (misreadBlock r l v).result.metrics name =
      (l.metrics.lookup name).map fun v => { value := v.reading, unit := r.unit name } :=
    congrFun (congrArg KernelResult.metrics heq) name
  have honly {name : Text} (hname : name ≠ v.text) : (misreadBlock r l v).result.metrics name = none :=
    Function.update_of_ne hname _ _
  have htext : "Metric Name".toList = v.text := by
    by_contra hne
    have hnone := (hmetrics _).symm.trans (honly hne)
    rw [hv] at hnone
    exact Option.some_ne_none _ hnone
  have hself : (misreadBlock r l v).result.metrics v.text = some (misreading r l) := Function.update_self _ _ _
  have hreading : parseMetricValue u ((l.metrics.lookup "Metric Value".toList).elim [] Value.text) = v.reading := by
    have hboth := hself.symm.trans (hmetrics v.text)
    rw [← htext, hv] at hboth
    exact congrArg MetricReading.value (Option.some.inj hboth)
  cases hvalue : l.metrics.lookup "Metric Value".toList with
  | none =>
      rw [hvalue] at hreading
      refine v.reading_ne_none (hreading.symm.trans ?_)
      rw [parseMetricValue]
      exact if_pos strip_nil
  | some w =>
      have hnone : (misreadBlock r l v).result.metrics "Metric Value".toList = none :=
        honly fun h => absurd (h.trans htext.symm) (by decide)
      have hsome := hmetrics "Metric Value".toList
      rw [hnone, hvalue] at hsome
      exact Option.some_ne_none _ hsome.symm

/-- What is read of launches in the misread table. -/
def misreadBlocks (r : Report u) (launches : List (Launch u)) : List Block :=
  launches.filterMap fun l => (l.metrics.lookup "Metric Name".toList).map (misreadBlock r l)

theorem misread_measurements (r : Report u) (launches : List (Launch u)) (h : ∀ l ∈ launches, l ∈ r.launches) :
    (launches.map fun l => r.wideHeader.map (Report.wideCell l)).filterMap (readMeasurement u r.wideHeader) =
      (misreadBlocks r launches).flatMap Block.measurements := by
  induction launches with
  | nil => rfl
  | cons l rest ih =>
      have hrow := misread_wideRow (h l List.mem_cons_self)
      have hrest := ih fun l' hl' => h l' (List.mem_cons_of_mem _ hl')
      rw [List.map_cons, misreadBlocks]
      cases hlookup : l.metrics.lookup "Metric Name".toList with
      | none =>
          rw [hlookup] at hrow
          rw [List.filterMap_cons_none hrow, List.filterMap_cons_none (by rw [hlookup]; rfl)]
          exact hrest
      | some v =>
          rw [hlookup] at hrow
          rw [List.filterMap_cons_some hrow, List.filterMap_cons_some (b := misreadBlock r l v) (by rw [hlookup]; rfl),
            List.flatMap_cons, hrest]
          rfl

theorem misreadBlocks_nodup (r : Report u) : ((misreadBlocks r r.launches).map Block.key).Nodup := by
  refine List.pairwise_map.mpr (List.Pairwise.filterMap _ ?_ (List.pairwise_map.mp (keys_nodup r)))
  intro l l' hne b hb b' hb'
  obtain ⟨v, -, rfl⟩ := Option.map_eq_some_iff.mp hb
  obtain ⟨v', -, rfl⟩ := Option.map_eq_some_iff.mp hb'
  exact hne

theorem kernelLimit_pos (maxKernels : ℤ) : 0 < kernelLimit maxKernels := by
  unfold kernelLimit
  omega

/-- **The wide form is misread if it has metrics called "Metric Name" and "Metric Value".** -/
theorem parse_misread (r : Report u) (banner : Banner u) (maxKernels : ℤ)
    (hheader : "Metric Name".toList ∈ r.names ∧ "Metric Value".toList ∈ r.names) :
    parseRows u (banner.rows ++ r.wideHeader :: r.wideTable) maxKernels r.names ≠ r.expected maxKernels := by
  have hwide : "Metric Name".toList ∈ r.wideHeader ∧ "Metric Value".toList ∈ r.wideHeader := by
    rwa [mem_wideHeader (by decide), mem_wideHeader (by decide)]
  have hresults : parseRows u (banner.rows ++ r.wideHeader :: r.wideTable) maxKernels r.names =
      ((misreadBlocks r r.launches).take (kernelLimit maxKernels)).map Block.result := by
    rw [parseRows_table banner wideHeader_normal (mem_wideHeader_launch (by decide)), parseTable, if_pos hwide,
      foldl_longStep, Report.wideTable, List.filterMap_cons_none (misread_unitRow r),
      misread_measurements r r.launches fun _ h => h]
    exact results_blocks _ (misreadBlocks_nodup r) (fun _ _ => List.not_mem_nil) fun _ _ => rfl
  intro heq
  rw [hresults] at heq
  obtain ⟨l₀, hl₀, -⟩ := List.mem_flatMap.mp (List.mem_dedup.mp hheader.1)
  obtain ⟨first, rest, hlaunches⟩ := List.exists_cons_of_ne_nil (List.ne_nil_of_mem hl₀)
  have hkept : first ∈ r.kept maxKernels := by
    obtain ⟨n, hn⟩ := Nat.exists_eq_succ_of_ne_zero (kernelLimit_pos maxKernels).ne'
    rw [Report.kept, hlaunches, hn, List.take_succ_cons]
    exact List.mem_cons_self
  have hfirst : first.result Value.reading r.unit ∈
      ((misreadBlocks r r.launches).take (kernelLimit maxKernels)).map Block.result :=
    heq ▸ List.mem_map_of_mem hkept
  obtain ⟨b, hb, hresult⟩ := List.mem_map.mp hfirst
  obtain ⟨l, hl, hblock⟩ := List.mem_filterMap.mp (List.mem_of_mem_take hb)
  obtain ⟨v, hv, rfl⟩ := Option.map_eq_some_iff.mp hblock
  have hsame : l = first :=
    List.inj_on_of_nodup_map r.distinct hl (List.mem_of_mem_take hkept) (congrArg KernelResult.id hresult)
  subst first
  exact misreadBlock_ne hv hresult

/-! ### The round trip -/

theorem result_eq_iff {value value' : Value u → MetricValue} {unit unit' : Text → Text} :
    l.result value unit = l.result value' unit' ↔ ∀ m ∈ l.metrics, value m.2 = value' m.2 ∧ unit m.1 = unit' m.1 := by
  constructor
  · intro h m hm
    have hmetric : (l.metrics.lookup m.1).map (fun v => MetricReading.mk (value v) (unit m.1)) =
        (l.metrics.lookup m.1).map fun v => MetricReading.mk (value' v) (unit' m.1) :=
      congrFun (congrArg KernelResult.metrics h) m.1
    rw [lookup_of_mem l hm] at hmetric
    exact MetricReading.mk.inj (Option.some.inj hmetric)
  · intro h
    unfold Launch.result
    congr 1
    funext name
    cases hlookup : l.metrics.lookup name with
    | none => rfl
    | some v =>
        obtain ⟨hvalue, hunit⟩ := h _ (mem_of_lookup hlookup)
        exact congrArg some (congrArg₂ MetricReading.mk hvalue hunit)

theorem wideUnit_eq {name : Text} (h : name ∈ r.names) :
    wideUnit r name = r.unit name ↔ u.float (withoutCommas (r.unit name)) = none := by
  obtain ⟨htrimmed, hne⟩ := r.units_trimmed name h
  rw [← parseMetricValue_isText htrimmed hne, wideUnit]
  split_ifs with htext
  · exact iff_of_true rfl htext
  · exact iff_of_false (fun h => hne h.symm) htext

/-- **Launches survive the round trip through both forms of a report exactly when the kept ones are readable.** -/
theorem roundTrips_iff (r : Report u) (writer : List Row → Text) (hcsv : ∀ rows, Csv.read (writer rows) = some rows)
    (banner : Banner u) (maxKernels : ℤ) : r.RoundTrips writer banner maxKernels ↔ r.Readable maxKernels := by
  have hlong : parseNcuCsv u (r.longForm writer banner) maxKernels r.names =
      some ((r.kept maxKernels).map fun l => l.result parsed r.unit) := by
    rw [parseNcuCsv, Report.longForm, hcsv]
    exact congrArg some (parse_longForm r banner maxKernels r.names)
  have hwide : parseNcuCsv u (r.wideForm writer banner) maxKernels r.names =
      some (parseRows u (banner.rows ++ r.wideHeader :: r.wideTable) maxKernels r.names) := by
    rw [parseNcuCsv, Report.wideForm, hcsv]
    rfl
  rw [Report.RoundTrips, hlong, hwide, Option.some.injEq, Option.some.injEq]
  by_cases hheader : "Metric Name".toList ∈ r.names ∧ "Metric Value".toList ∈ r.names
  · exact iff_of_false (fun h => parse_misread r banner maxKernels hheader h.2) fun h => h.header hheader
  rw [parse_wideForm r banner maxKernels hheader, Report.expected, List.map_inj_left, List.map_inj_left]
  have hmem {l : Launch u} (hl : l ∈ r.kept maxKernels) {m : Text × Value u} (hm : m ∈ l.metrics) : m.1 ∈ r.names :=
    mem_names (List.mem_of_mem_take hl) hm
  constructor
  · rintro ⟨hlong, hwide⟩
    refine ⟨fun l hl m hm => ?_, fun l hl m hm => ?_, hheader⟩
    · exact (parseMetricValue_text m.2).mp (result_eq_iff.mp (hlong l hl) m hm).1
    · exact (wideUnit_eq (hmem hl hm)).mp (result_eq_iff.mp (hwide l hl) m hm).2
  · intro h
    refine ⟨fun l hl => result_eq_iff.mpr fun m hm => ?_, fun l hl => result_eq_iff.mpr fun m hm => ?_⟩
    · exact ⟨(parseMetricValue_text m.2).mpr (h.values l hl m hm), rfl⟩
    · exact ⟨(parseMetricValue_text m.2).mpr (h.values l hl m hm), (wideUnit_eq (hmem hl hm)).mpr (h.units l hl m hm)⟩

end

/-! ### A small report, and a counter above 2^53 -/

/-- An integer of the given digits, without separators. -/
def counter (digits : List (Fin 10)) (h : digits ≠ []) : Value Unicode.ascii :=
  let numeral : Numeral := { negative := false, whole := digits, fraction := none, nonempty := by simpa using h }
  .numeric numeral.text numeral (List.filter_eq_self.mpr fun c hc => by
    have hne : (c ≠ ',') = true := by
      rcases List.mem_append.mp hc with hc | hc
      · exact absurd hc List.not_mem_nil
      · simpa using digit_or_point (f := fun c => c ≠ ',') (by decide) (by decide) (mem_body hc)
    simpa using hne)

/-- The first of two launches has a counter and a text, the second one a counter only. -/
def twoLaunches : Report Unicode.ascii where
  launches :=
    [{ id := "0".toList
       kernelName := "add".toList
       device := "0".toList
       context := "1".toList
       stream := "7".toList
       blockSize := "(256, 1, 1)".toList
       gridSize := "(16, 1, 1)".toList
       other := fun _ => []
       metrics :=
        [("inst".toList, counter [4, 2] (by decide)),
          ("cache".toList, .textual "prefer L1".toList (by decide) (by decide))]
       trimmed := by decide
       named := by decide
       measured := List.cons_ne_nil _ _
       distinct := by decide },
     { id := "1".toList
       kernelName := "mul".toList
       device := "0".toList
       context := "1".toList
       stream := "7".toList
       blockSize := "(128, 1, 1)".toList
       gridSize := "(8, 8, 1)".toList
       other := fun _ => []
       metrics := [("inst".toList, counter [1, 0, 2, 4] (by decide))]
       trimmed := by decide
       named := by decide
       measured := List.cons_ne_nil _ _
       distinct := by decide }]
  unit _ := "count".toList
  distinct := by decide
  names_trimmed := by decide
  names_metrics := by decide
  units_trimmed := by decide

def connectedBanner : Banner Unicode.ascii where
  rows := [["==PROF== Connected to process 12".toList], []]
  no_header := by decide

theorem roundTrips_small : twoLaunches.RoundTrips Csv.write connectedBanner 8 := by
  refine (roundTrips_iff twoLaunches Csv.write Csv.read_write connectedBanner 8).mpr
    ⟨fun l hl m hm => ?_, by decide, by decide⟩
  have hl : l ∈ twoLaunches.launches := List.mem_of_mem_take hl
  simp only [twoLaunches, List.mem_cons, List.not_mem_nil, or_false] at hl
  rcases hl with rfl | rfl <;> simp only [List.mem_cons, List.not_mem_nil, or_false] at hm
  · rcases hm with rfl | rfl
    · exact fun _ => isDouble_intCast (by decide)
    · exact (by decide : Unicode.ascii.float "prefer L1".toList = none)
  · subst hm
    exact fun _ => isDouble_intCast (by decide)

/-- A kernel with one counter. -/
def countedReport (digits : List (Fin 10)) (h : digits ≠ []) : Report Unicode.ascii where
  launches :=
    [{ id := "0".toList
       kernelName := "add".toList
       device := "0".toList
       context := "1".toList
       stream := "7".toList
       blockSize := "(256, 1, 1)".toList
       gridSize := "(16, 1, 1)".toList
       other := fun _ => []
       metrics := [("inst".toList, counter digits h)]
       trimmed := by decide
       named := by decide
       measured := List.cons_ne_nil _ _
       distinct := List.nodup_singleton _ }]
  unit _ := "count".toList
  distinct := List.nodup_singleton _
  names_trimmed := by simp [metricNames]; decide
  names_metrics := by simp [metricNames]; decide
  units_trimmed := by simp [metricNames]; decide

def noBanner : Banner Unicode.ascii where
  rows := []
  no_header := by simp

/-- The counter 9007199254740993 is read as 9007199254740992. -/
theorem large_counter_changed :
    ¬ (countedReport [9, 0, 0, 7, 1, 9, 9, 2, 5, 4, 7, 4, 0, 9, 9, 3] (by decide)).RoundTrips Csv.write noBanner 8 := by
  intro h
  have hmetric := congrArg (Option.map (List.map fun kernel => kernel.metrics "inst".toList)) h.1
  revert hmetric
  decide +kernel

end KernelGym.NcuProfiler
