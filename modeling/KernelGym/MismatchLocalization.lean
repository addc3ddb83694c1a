import KernelGym.TensorCompare
import KernelGym.Library.RowMajor
import Mathlib.Order.Bounds.Basic

/-! The localization of the mismatches of one tensor: the bounds of the axes and the batches, rows and tiles that
contain a mismatch are those of the mismatching coordinates. -/

namespace KernelGym.Correctness

open Library Library.RowMajor

/-! ### The specification -/

/-- The units in which something fails, in order. -/
noncomputable def failingUnits {U : Type} (units : List U) (failing : U → Prop) : List U :=
  open Classical in units.filter fun u => failing u

/-- The summary counts the failing units and lists the first eight. -/
structure Summary.Describes {U : Type} (units : List U) (failing : U → Prop) (s : Summary U) : Prop where
  total : s.total = units.length
  correct : s.correct = units.length - (failingUnits units failing).length
  mismatchCount : s.mismatchCount = (failingUnits units failing).length
  mismatches : s.mismatches = (failingUnits units failing).take maxMismatchUnits
  truncated : s.mismatchesTruncated = true ↔ s.mismatches.length < s.mismatchCount

def RowUnit.Contains (u : RowUnit) (c : List ℕ) : Prop := ∃ column, c = u.batchIndex ++ [u.row, column]

def TileUnit.Contains (u : TileUnit) (c : List ℕ) : Prop :=
  ∃ row column, c = u.batchIndex ++ [row, column] ∧ u.m.1 ≤ row ∧ row < u.m.2 ∧ u.n.1 ≤ column ∧ column < u.n.2

def rowUnits (shape : List ℕ) : List RowUnit :=
  (coordinates shape.dropLast).map fun c => ⟨c.dropLast, c.getLastD 0⟩

/-- The tile of a matrix at a position of the grid. -/
def tileUnit (shape batchIndex : List ℕ) (rowTile columnTile : ℕ) : TileUnit :=
  ⟨batchIndex, (rowTile * tileSize, min (rowTile * tileSize + tileSize) (lastTwo shape).1),
    (columnTile * tileSize, min (columnTile * tileSize + tileSize) (lastTwo shape).2)⟩

def tileUnits (shape : List ℕ) : List TileUnit :=
  (coordinates (prefixShape shape)).flatMap fun batchIndex =>
    (List.range (ceilDiv (lastTwo shape).1)).flatMap fun rowTile =>
      (List.range (ceilDiv (lastTwo shape).2)).map fun columnTile => tileUnit shape batchIndex rowTile columnTile

/-- The tile lies in the grid of its matrix and inside its bounds. -/
def TileUnit.InRange (shape : List ℕ) (u : TileUnit) : Prop :=
  Inside u.batchIndex (prefixShape shape) ∧ u.m.1 < u.m.2 ∧ u.m.2 ≤ (lastTwo shape).1 ∧ u.m.2 ≤ u.m.1 + tileSize ∧
    u.n.1 < u.n.2 ∧ u.n.2 ≤ (lastTwo shape).2 ∧ u.n.2 ≤ u.n.1 + tileSize

/-- The positions of an axis at which some coordinate is bad. -/
def axisPositions (bad : List ℕ → Prop) (axis : ℕ) : Set ℕ := {x | ∃ p, bad p ∧ p[axis]? = some x}

/-- The localization says where the bad coordinates of the shape are. -/
structure Localization.Exact (outputPath : String) (shape : List ℕ) (bad : List ℕ → Prop) (l : Localization) :
    Prop where
  outputPath_eq : l.outputPath = outputPath
  shape_eq : l.shape = shape
  bounds_none : (¬∃ c, bad c) → l.mismatchBounds = []
  bounds_length : (∃ c, bad c) → l.mismatchBounds.length = shape.length
  bounds : (∃ c, bad c) → ∀ axis < shape.length, ∃ first last,
    l.mismatchBounds[axis]? = some (axisName shape.length axis, some (first, last)) ∧
      IsLeast (axisPositions bad axis) first ∧ IsGreatest (axisPositions bad axis) last
  batch : l.batch.Describes (List.range (batchCount shape)) fun b =>
    ∃ c, bad c ∧ (3 ≤ shape.length → c.head? = some b)
  row : l.row.Describes (rowUnits shape) fun u => ∃ c, bad c ∧ u.Contains c
  tile : l.tile.Describes (tileUnits shape) fun u => ∃ c, bad c ∧ u.Contains c
  batch_range : ∀ b ∈ l.batch.mismatches, b < batchCount shape
  row_range : ∀ u ∈ l.row.mismatches, Inside (u.batchIndex ++ [u.row]) shape.dropLast
  tile_range : ∀ u ∈ l.tile.mismatches, u.InRange shape

/-! ### Units and their indices -/

variable {shape pre : List ℕ} {rows columns count n : ℕ} {mask : ℕ → Bool} {bad : List ℕ → Prop}

theorem flatIndexToCoordinate_eq (n : ℕ) (shape : List ℕ) : flatIndexToCoordinate n shape = coordinate shape n := by
  have hfold : shape.foldr (fun dimension s => (s.1 / dimension, s.1 % dimension :: s.2)) (n, []) =
      (n / shape.prod, coordinate shape n) := by
    induction shape with
    | nil => rw [List.foldr_nil, List.prod_nil, Nat.div_one, coordinate]
    | cons dimension rest ih =>
        rw [List.foldr_cons, ih, coordinate, List.prod_cons, mul_comm, Nat.div_div_eq_div_mul]
  rw [flatIndexToCoordinate, hfold]

theorem mem_trueIndices : n ∈ trueIndices count mask ↔ n < count ∧ mask n = true := by
  rw [trueIndices, List.mem_filter, List.mem_range]

theorem failingUnits_map {U : Type} {unit : ℕ → U} {failing : U → Prop}
    (h : ∀ i < count, mask i = true ↔ failing (unit i)) :
    failingUnits ((List.range count).map unit) failing = (trueIndices count mask).map unit := by
  classical
  rw [failingUnits, List.filter_map, trueIndices]
  congr 1
  refine List.filter_congr fun i hi => ?_
  rw [Function.comp_apply, Bool.eq_iff_iff, decide_eq_true_iff]
  exact (h i (List.mem_range.mp hi)).symm

/-- The summary made from a mask over the indices of the units. -/
theorem describes_indices {U : Type} {unit : ℕ → U} {failing : U → Prop}
    (h : ∀ i < count, mask i = true ↔ failing (unit i)) :
    (unitCorrectnessSummary count (limitedNonzeroIndices count mask).2
      ((limitedNonzeroIndices count mask).1.map unit)).Describes ((List.range count).map unit) failing where
  total := by rw [List.length_map, List.length_range]; rfl
  correct := by rw [failingUnits_map h, List.length_map, List.length_map, List.length_range]; rfl
  mismatchCount := by rw [failingUnits_map h, List.length_map]; rfl
  mismatches := by rw [failingUnits_map h, ← List.map_take]; rfl
  truncated := decide_eq_true_iff

theorem Summary.Describes.congr {U : Type} {units : List U} {failing failing' : U → Prop} {s : Summary U}
    (h : s.Describes units failing) (hsame : ∀ u ∈ units, failing u ↔ failing' u) : s.Describes units failing' := by
  have hunits : failingUnits units failing' = failingUnits units failing := by
    classical
    refine List.filter_congr fun u hu => ?_
    rw [Bool.eq_iff_iff, decide_eq_true_iff, decide_eq_true_iff]
    exact (hsame u hu).symm
  constructor
  · exact h.total
  · rw [hunits]; exact h.correct
  · rw [hunits]; exact h.mismatchCount
  · rw [hunits]; exact h.mismatches
  · exact h.truncated

theorem Summary.Describes.mem {U : Type} {units : List U} {failing : U → Prop} {s : Summary U}
    (h : s.Describes units failing) {u : U} (hu : u ∈ s.mismatches) : u ∈ units := by
  rw [h.mismatches] at hu
  exact List.mem_of_mem_filter (List.mem_of_mem_take hu)

/-- The summary of a tensor without mismatches. -/
theorem describes_none {U : Type} {units : List U} {failing : U → Prop} (hcount : count = units.length)
    (h : ∀ u, ¬failing u) : (unitCorrectnessSummary count 0 []).Describes units failing := by
  have hnone : failingUnits units failing = [] := by
    classical
    rw [failingUnits, List.filter_eq_nil_iff]
    exact fun u _ => by rw [decide_eq_true_iff]; exact h u
  subst hcount
  constructor
  · rfl
  · rw [hnone]; rfl
  · rw [hnone]; rfl
  · rw [hnone]; rfl
  · exact @decide_eq_true_iff (([] : List U).length < 0) _

theorem exists_last_two (h : 2 ≤ shape.length) : ∃ pre rows columns, shape = pre ++ [rows, columns] := by
  have hlast : shape ≠ [] := List.ne_nil_of_length_pos (by omega)
  have hrest : shape.dropLast ≠ [] := List.ne_nil_of_length_pos (by rw [List.length_dropLast]; omega)
  refine ⟨shape.dropLast.dropLast, shape.dropLast.getLast hrest, shape.getLast hlast, ?_⟩
  rw [List.append_cons, List.dropLast_concat_getLast, List.dropLast_concat_getLast]

@[simp] theorem lastTwo_append : lastTwo (pre ++ [rows, columns]) = (rows, columns) := by
  simp [lastTwo]

@[simp] theorem prefixShape_append : prefixShape (pre ++ [rows, columns]) = pre := by
  simp [prefixShape]

@[simp] theorem dropLast_append_pair : (pre ++ [rows, columns]).dropLast = pre ++ [rows] := by
  simp

/-! ### Rows, batches and tiles -/

/-- The rows that contain a bad coordinate. -/
def badRows (bad : List ℕ → Prop) (r : List ℕ) : Prop := ∃ column, bad (r ++ [column])

theorem marks_rows (h : Marks (pre ++ [rows, columns]) mask bad) :
    Marks (pre ++ [rows]) (rowBad columns mask) (badRows bad) := by
  rw [List.append_cons] at h
  have hrows := h.block
  rw [List.prod_singleton] at hrows
  have hsame (r : List ℕ) : (∃ x : List ℕ, x.length = [columns].length ∧ bad (r ++ x)) ↔ badRows bad r := by
    constructor
    · rintro ⟨x, hx, hbad⟩
      obtain ⟨column, rfl⟩ := List.length_eq_one_iff.mp hx
      exact ⟨column, hbad⟩
    · rintro ⟨column, hbad⟩
      exact ⟨[column], rfl, hbad⟩
  exact ⟨fun r hr => hrows.inside r ((hsame r).mpr hr), fun index hindex => (hrows.iff index hindex).trans (hsame _)⟩

theorem bad_split (h : Marks (pre ++ [rows, columns]) mask bad) {c : List ℕ} (hbad : bad c) :
    ∃ r column, c = r ++ [column] ∧ r.length = pre.length + 1 ∧ badRows bad r := by
  have hlength := (h.inside c hbad).length_eq
  rw [List.length_append] at hlength
  have hne : c ≠ [] := List.ne_nil_of_length_pos (by rw [hlength]; exact Nat.succ_pos _)
  have hsplit : c.dropLast ++ [c.getLast hne] = c := List.dropLast_concat_getLast hne
  refine ⟨c.dropLast, c.getLast hne, hsplit.symm, ?_, c.getLast hne, hsplit.symm ▸ hbad⟩
  rw [List.length_dropLast, hlength]
  rfl

theorem rowUnit_contains_iff {r c : List ℕ} (hr : r ≠ []) :
    (RowUnit.mk r.dropLast (r.getLastD 0)).Contains c ↔ ∃ column, c = r ++ [column] := by
  obtain ⟨init, x, rfl⟩ : ∃ init x, r = init ++ [x] := ⟨_, _, (List.dropLast_concat_getLast hr).symm⟩
  simp [RowUnit.Contains]

theorem row_describes (h : Marks (pre ++ [rows, columns]) mask bad) :
    (rowSummary (pre ++ [rows]) (rowBad columns mask)).Describes (rowUnits (pre ++ [rows, columns]))
      fun u => ∃ c, bad c ∧ u.Contains c := by
  have hunits : rowUnits (pre ++ [rows, columns]) = (List.range (pre ++ [rows]).prod).map fun index =>
      RowUnit.mk (flatIndexToCoordinate index (pre ++ [rows])).dropLast
        ((flatIndexToCoordinate index (pre ++ [rows])).getLastD 0) := by
    rw [rowUnits, dropLast_append_pair, ← map_coordinate_range, List.map_map]
    refine List.map_congr_left fun index _ => ?_
    rw [Function.comp_apply, flatIndexToCoordinate_eq]
  rw [hunits]
  refine describes_indices fun index hindex => ?_
  have hne : coordinate (pre ++ [rows]) index ≠ [] :=
    List.ne_nil_of_length_pos (by rw [length_coordinate, List.length_append]; exact Nat.succ_pos _)
  rw [(marks_rows h).iff index hindex, flatIndexToCoordinate_eq]
  constructor
  · rintro ⟨column, hbad⟩
    exact ⟨_, hbad, (rowUnit_contains_iff hne).mpr ⟨column, rfl⟩⟩
  · rintro ⟨c, hbad, hcontains⟩
    obtain ⟨column, rfl⟩ := (rowUnit_contains_iff hne).mp hcontains
    exact ⟨column, hbad⟩

/-- The batches: the entries of the first dimension `d`, for `s = [d]`, or the whole for `s = []`. -/
theorem batch_describes {s t : List ℕ} (h : Marks (s ++ t) mask bad) :
    (batchSummary s.prod (s ++ t) mask).Describes (List.range s.prod)
      fun b => ∃ c, bad c ∧ ∃ r, c = coordinate s b ++ r := by
  have hdescribes : (unitCorrectnessSummary s.prod
        (limitedNonzeroIndices s.prod (batchBad ((s ++ t).prod / s.prod) mask)).2
      ((limitedNonzeroIndices s.prod (batchBad ((s ++ t).prod / s.prod) mask)).1.map id)).Describes
        ((List.range s.prod).map id) fun b => ∃ c, bad c ∧ ∃ r, c = coordinate s b ++ r := by
    refine describes_indices fun b hb => ?_
    rw [List.prod_append, Nat.mul_div_cancel_left _ (Nat.zero_lt_of_lt hb)]
    refine (h.block.iff b hb).trans ?_
    constructor
    · rintro ⟨r, -, hbad⟩
      exact ⟨_, hbad, r, rfl⟩
    · rintro ⟨c, hbad, r, rfl⟩
      have hlength := (h.inside _ hbad).length_eq
      rw [List.length_append, List.length_append, length_coordinate] at hlength
      exact ⟨r, Nat.add_left_cancel hlength, hbad⟩
  rw [List.map_id, List.map_id] at hdescribes
  exact hdescribes

/-- The flat index of a position of a stack of matrices and its coordinate. -/
theorem index_in_matrix {a row column : ℕ} (ha : a < pre.prod) (hrow : row < rows) (hcolumn : column < columns) :
    (a * rows + row) * columns + column < (pre ++ [rows, columns]).prod ∧
      coordinate (pre ++ [rows, columns]) ((a * rows + row) * columns + column) =
        coordinate pre a ++ [row, column] := by
  have hcolumn' : column < [columns].prod := by rwa [List.prod_singleton]
  have hrow' : row < [rows].prod := by rwa [List.prod_singleton]
  have hflat : (a * rows + row) * columns + column =
      a * ([rows] ++ [columns]).prod + (row * [columns].prod + column) := by
    rw [List.prod_append, List.prod_singleton, List.prod_singleton, Nat.add_mul, mul_assoc, add_assoc]
  have hlt := index_lt_prod hrow' hcolumn'
  have hpair := coordinate_append [rows] (i := row) hcolumn'
  rw [coordinate_singleton hrow, coordinate_singleton hcolumn] at hpair
  rw [hflat]
  refine ⟨index_lt_prod ha hlt, ?_⟩
  exact (coordinate_append pre hlt).trans (congrArg _ hpair)

theorem padded_iff (h : Marks (pre ++ [rows, columns]) mask bad) {a row column : ℕ} (ha : a < pre.prod) :
    padded rows columns mask a row column = true ↔
      row < rows ∧ column < columns ∧ bad (coordinate pre a ++ [row, column]) := by
  rw [padded, Bool.and_eq_true, Bool.and_eq_true, decide_eq_true_iff, decide_eq_true_iff, and_assoc]
  refine and_congr_right fun hrow => and_congr_right fun hcolumn => ?_
  obtain ⟨hlt, hcoordinate⟩ := index_in_matrix ha hrow hcolumn
  rw [h.iff _ hlt, hcoordinate]

theorem tileBad_iff (h : Marks (pre ++ [rows, columns]) mask bad) {a i j : ℕ} (ha : a < pre.prod) :
    tileBad rows columns mask a i j = true ↔
      ∃ c, bad c ∧ (tileUnit (pre ++ [rows, columns]) (coordinate pre a) i j).Contains c := by
  rw [tileBad, List.any_eq_true]
  unfold TileUnit.Contains tileUnit
  rw [lastTwo_append]
  constructor
  · rintro ⟨x, hx, hrest⟩
    obtain ⟨y, hy, hpadded⟩ := List.any_eq_true.mp hrest
    rw [List.mem_range] at hx hy
    obtain ⟨hrow, hcolumn, hbad⟩ := (padded_iff h ha).mp hpadded
    exact ⟨_, hbad, _, _, rfl, Nat.le_add_right _ _, lt_min (Nat.add_lt_add_left hx _) hrow,
      Nat.le_add_right _ _, lt_min (Nat.add_lt_add_left hy _) hcolumn⟩
  · rintro ⟨c, hbad, row, column, rfl, hrow, hrow', hcolumn, hcolumn'⟩
    dsimp only at hrow hrow' hcolumn hcolumn'
    rw [lt_min_iff] at hrow' hcolumn'
    refine ⟨row - i * tileSize, List.mem_range.mpr (by omega), List.any_eq_true.mpr
      ⟨column - j * tileSize, List.mem_range.mpr (by omega), (padded_iff h ha).mpr ?_⟩⟩
    rw [Nat.add_sub_cancel' hrow, Nat.add_sub_cancel' hcolumn]
    exact ⟨hrow'.2, hcolumn'.2, hbad⟩

theorem tileUnits_eq (shape : List ℕ) :
    tileUnits shape =
      (coordinates [(prefixShape shape).prod, ceilDiv (lastTwo shape).1, ceilDiv (lastTwo shape).2]).map fun c =>
        tileUnit shape (coordinate (prefixShape shape) (c.getD 0 0)) (c.getD 1 0) (c.getD 2 0) := by
  simp [tileUnits, ← map_coordinate_range (prefixShape shape), coordinates, List.flatMap_map, List.map_flatMap,
    ← List.map_eq_flatMap, Function.comp_def]

theorem gridPosition_spec (a b c index : ℕ) :
    coordinate [a, b, c] index =
      [(gridPosition [a, b, c] index).1, (gridPosition [a, b, c] index).2.1, (gridPosition [a, b, c] index).2.2] := by
  rw [gridPosition, flatIndexToCoordinate_eq]
  rfl

/-- The tile of an entry of the grid. -/
def gridTile (shape grid : List ℕ) (index : ℕ) : TileUnit :=
  let position := gridPosition grid index
  tileUnit shape (coordinate (prefixShape shape) position.1) position.2.1 position.2.2

theorem tileSummary_eq (grid : List ℕ) :
    tileSummary (pre ++ [rows, columns]) grid rows columns mask =
      let tile (index : ℕ) : Bool :=
        let position := gridPosition grid index
        tileBad rows columns mask position.1 position.2.1 position.2.2
      unitCorrectnessSummary grid.prod (limitedNonzeroIndices grid.prod tile).2
        ((limitedNonzeroIndices grid.prod tile).1.map (gridTile (pre ++ [rows, columns]) grid)) := by
  unfold tileSummary gridTile tileUnit
  simp only [lastTwo_append, flatIndexToCoordinate_eq]

theorem tile_describes (h : Marks (pre ++ [rows, columns]) mask bad) {grid : List ℕ}
    (hgrid : grid = [pre.prod, ceilDiv rows, ceilDiv columns]) :
    (tileSummary (pre ++ [rows, columns]) grid rows columns mask).Describes (tileUnits (pre ++ [rows, columns]))
      fun u => ∃ c, bad c ∧ u.Contains c := by
  have hposition (index : ℕ) : coordinate grid index =
      [(gridPosition grid index).1, (gridPosition grid index).2.1, (gridPosition grid index).2.2] := by
    rw [hgrid]
    exact gridPosition_spec _ _ _ index
  have hunits : tileUnits (pre ++ [rows, columns]) =
      (List.range grid.prod).map (gridTile (pre ++ [rows, columns]) grid) := by
    rw [tileUnits_eq, lastTwo_append, prefixShape_append, ← hgrid, ← map_coordinate_range, List.map_map]
    refine List.map_congr_left fun index _ => ?_
    rw [Function.comp_apply, hposition, gridTile, prefixShape_append]
    rfl
  rw [hunits, tileSummary_eq]
  refine describes_indices fun index hindex => ?_
  have hinside := coordinate_inside hindex
  rw [hposition, hgrid] at hinside
  rw [gridTile, prefixShape_append]
  exact tileBad_iff h (hgrid ▸ (List.forall₂_cons.mp hinside).1)

/-! ### The bounds of an axis -/

/-- The first and the last of the true indices are the least and the greatest. -/
theorem trueIndices_ends {S : Set ℕ} (hS : ∀ x, x ∈ S ↔ x < count ∧ mask x = true) (hne : S.Nonempty) :
    ∃ first last, (trueIndices count mask).head? = some first ∧ (trueIndices count mask).getLast? = some last ∧
      IsLeast S first ∧ IsGreatest S last := by
  have hmem (x : ℕ) : x ∈ trueIndices count mask ↔ x ∈ S := mem_trueIndices.trans (hS x).symm
  have hsorted : (trueIndices count mask).Pairwise (· < ·) := List.Pairwise.filter _ List.pairwise_lt_range
  generalize trueIndices count mask = indices at hmem hsorted
  have hindices : indices ≠ [] := by
    obtain ⟨x, hx⟩ := hne
    exact List.ne_nil_of_mem ((hmem x).mpr hx)
  refine ⟨indices.head hindices, indices.getLast hindices, List.head?_eq_some_head hindices,
    List.getLast?_eq_some_getLast hindices, ⟨(hmem _).mp (List.head_mem hindices), fun x hx => ?_⟩,
    ⟨(hmem _).mp (List.getLast_mem hindices), fun x hx => ?_⟩⟩
  · obtain ⟨first, rest, rfl⟩ := List.exists_cons_of_ne_nil hindices
    rcases List.mem_cons.mp ((hmem x).mpr hx) with rfl | hrest
    · exact le_refl _
    · exact (List.rel_of_pairwise_cons hsorted hrest).le
  · rw [← List.dropLast_concat_getLast hindices, List.pairwise_append] at hsorted
    have hsplit : x ∈ indices.dropLast ++ [indices.getLast hindices] := by
      rw [List.dropLast_concat_getLast]
      exact (hmem x).mpr hx
    rcases List.mem_append.mp hsplit with hinit | hlast
    · exact (hsorted.2.2 x hinit _ (List.mem_singleton_self _)).le
    · exact (List.mem_singleton.mp hlast).le

theorem occupied_iff (h : Marks shape mask bad) {axis position : ℕ} (haxis : axis < shape.length) :
    occupied shape mask axis position = true ↔ position ∈ axisPositions bad axis := by
  rw [occupied, List.any_eq_true]
  constructor
  · rintro ⟨index, hindex, hboth⟩
    rw [List.mem_range] at hindex
    rw [Bool.and_eq_true, h.iff index hindex, decide_eq_true_iff, flatIndexToCoordinate_eq] at hboth
    refine ⟨_, hboth.1, ?_⟩
    rw [List.getD_eq_getElem?_getD] at hboth
    have hlt : axis < (coordinate shape index).length := by rwa [length_coordinate]
    rw [List.getElem?_eq_getElem hlt] at hboth ⊢
    exact congrArg some hboth.2
  · rintro ⟨c, hbad, hposition⟩
    obtain ⟨index, hindex, rfl⟩ := exists_index (h.inside c hbad)
    refine ⟨index, List.mem_range.mpr hindex, ?_⟩
    rw [Bool.and_eq_true, h.iff index hindex, decide_eq_true_iff, flatIndexToCoordinate_eq,
      List.getD_eq_getElem?_getD, hposition]
    exact ⟨hbad, rfl⟩

/-- The positions of an axis lie inside its dimension. -/
theorem axisPositions_lt (h : Marks shape mask bad) {axis x : ℕ} (hx : x ∈ axisPositions bad axis) :
    x < shape.getD axis 0 := by
  obtain ⟨c, hbad, hposition⟩ := hx
  have hinside := h.inside c hbad
  obtain ⟨hlt, rfl⟩ := List.getElem?_eq_some_iff.mp hposition
  have hlt' : axis < shape.length := hinside.length_eq ▸ hlt
  rw [List.getD_eq_getElem?_getD, List.getElem?_eq_getElem hlt']
  exact List.Forall₂.get hinside hlt hlt'

/-- The rows have the positions of the coordinates on every axis but the last. -/
theorem axisPositions_rows (h : Marks (pre ++ [rows, columns]) mask bad) {axis : ℕ} (haxis : axis < pre.length + 1) :
    axisPositions (badRows bad) axis = axisPositions bad axis := by
  ext x
  constructor
  · rintro ⟨r, ⟨column, hbad⟩, hposition⟩
    obtain ⟨hlt, -⟩ := List.getElem?_eq_some_iff.mp hposition
    exact ⟨_, hbad, (List.getElem?_append_left hlt).trans hposition⟩
  · rintro ⟨c, hbad, hposition⟩
    obtain ⟨r, column, rfl, hlength, hrow⟩ := bad_split h hbad
    rw [List.getElem?_append_left (by omega)] at hposition
    exact ⟨r, hrow, hposition⟩

theorem axisPositions_nonempty (h : Marks shape mask bad) (hne : ∃ c, bad c) {axis : ℕ} (haxis : axis < shape.length) :
    (axisPositions bad axis).Nonempty := by
  obtain ⟨c, hbad⟩ := hne
  have hlt : axis < c.length := (h.inside c hbad).length_eq ▸ haxis
  exact ⟨_, c, hbad, List.getElem?_eq_getElem hlt⟩

/-- The ends of the occupied positions of an axis. -/
theorem occupied_ends (h : Marks shape mask bad) (hne : ∃ c, bad c) {axis dimension : ℕ} (haxis : axis < shape.length)
    (hdimension : shape.getD axis 0 = dimension) :
    ∃ first last, (trueIndices dimension (occupied shape mask axis)).head? = some first ∧
      (trueIndices dimension (occupied shape mask axis)).getLast? = some last ∧
      IsLeast (axisPositions bad axis) first ∧ IsGreatest (axisPositions bad axis) last := by
  refine trueIndices_ends (fun x => ?_) (axisPositions_nonempty h hne haxis)
  rw [occupied_iff h haxis]
  exact ⟨fun hx => ⟨hdimension ▸ axisPositions_lt h hx, hx⟩, And.right⟩

theorem bounds_of_marks (h : Marks (pre ++ [rows, columns]) mask bad) (hne : ∃ c, bad c) {axis : ℕ}
    (haxis : axis < (pre ++ [rows, columns]).length) :
    ∃ first last,
      (mismatchAxisBounds (pre ++ [rows, columns]) mask (rowBad columns mask))[axis]? =
          some (axisName (pre ++ [rows, columns]).length axis, some (first, last)) ∧
        IsLeast (axisPositions bad axis) first ∧ IsGreatest (axisPositions bad axis) last := by
  unfold mismatchAxisBounds
  rw [List.getElem?_map, List.getElem?_range haxis]
  have hlength : (pre ++ [rows, columns]).length = pre.length + 2 := List.length_append
  dsimp only [Option.map_some]
  split_ifs with hinner
  · have hrow : axis < (pre ++ [rows]).length := by
      rw [List.length_append, List.length_singleton]
      omega
    have hdimension : (pre ++ [rows]).getD axis 0 = (pre ++ [rows, columns]).getD axis 0 := by
      rw [List.append_cons pre rows [columns], List.getD_eq_getElem?_getD, List.getD_eq_getElem?_getD,
        List.getElem?_append_left hrow]
    have hne' : ∃ r, badRows bad r := by
      have hsame : axisPositions (badRows bad) axis = axisPositions bad axis := axisPositions_rows h (by omega)
      obtain ⟨x, r, hbad, -⟩ := hsame ▸ axisPositions_nonempty h hne haxis
      exact ⟨r, hbad⟩
    obtain ⟨first, last, hhead, hlast, hleast, hgreatest⟩ := occupied_ends (marks_rows h) hne' hrow hdimension
    rw [axisPositions_rows h (by omega)] at hleast hgreatest
    refine ⟨first, last, ?_, hleast, hgreatest⟩
    rw [dropLast_append_pair, hhead, hlast]
    rfl
  · obtain ⟨first, last, hhead, hlast, hleast, hgreatest⟩ := occupied_ends h hne haxis rfl
    refine ⟨first, last, ?_, hleast, hgreatest⟩
    rw [hhead, hlast]
    rfl

/-! ### The localization -/

theorem batchSummary_describes (h : Marks (pre ++ [rows, columns]) mask bad) :
    (batchSummary (batchCount (pre ++ [rows, columns])) (pre ++ [rows]) (rowBad columns mask)).Describes
      (List.range (batchCount (pre ++ [rows, columns])))
      fun b => ∃ c, bad c ∧ (3 ≤ (pre ++ [rows, columns]).length → c.head? = some b) := by
  cases pre with
  | nil =>
      refine (batch_describes (s := []) (marks_rows h)).congr fun b _ => ?_
      constructor
      · rintro ⟨r, ⟨column, hbad⟩, -⟩
        exact ⟨_, hbad, fun hrank => absurd hrank (Nat.lt_irrefl 2)⟩
      · rintro ⟨c, hbad, -⟩
        obtain ⟨r, column, rfl, -, hrow⟩ := bad_split h hbad
        exact ⟨r, hrow, r, rfl⟩
  | cons d rest =>
      have hcount : batchCount (d :: rest ++ [rows, columns]) = [d].prod := by
        rw [List.prod_singleton, batchCount, if_pos (by rw [List.length_append]; exact Nat.le_add_left 3 _)]
        rfl
      rw [hcount]
      refine (batch_describes (s := [d]) (t := rest ++ [rows]) (marks_rows h)).congr fun b hb => ?_
      rw [List.mem_range, List.prod_singleton] at hb
      rw [coordinate_singleton hb]
      constructor
      · rintro ⟨r, ⟨column, hbad⟩, x, rfl⟩
        exact ⟨_, hbad, fun _ => rfl⟩
      · rintro ⟨c, hbad, hhead⟩
        obtain ⟨r, column, rfl, hlength, hrow⟩ := bad_split h hbad
        obtain ⟨x, r', rfl⟩ := List.exists_cons_of_length_eq_add_one hlength
        have hx : x = b := Option.some.inj (hhead (by rw [List.length_append]; exact Nat.le_add_left 3 _))
        exact ⟨_, hrow, r', by rw [hx]; rfl⟩

theorem mem_rowUnits {u : RowUnit} (hu : u ∈ rowUnits (pre ++ [rows, columns])) :
    Inside (u.batchIndex ++ [u.row]) (pre ++ [rows]) := by
  rw [rowUnits, dropLast_append_pair] at hu
  obtain ⟨c, hc, rfl⟩ := List.mem_map.mp hu
  have hinside := mem_coordinates.mp hc
  obtain ⟨a, b, rfl, -, hb⟩ := inside_append_iff.mp hinside
  obtain ⟨x, -, rfl⟩ := inside_singleton_iff.mp hb
  rw [List.dropLast_concat, List.getLastD_concat]
  exact hinside

theorem tile_bounds {dimension i : ℕ} (hi : i < ceilDiv dimension) :
    i * tileSize < min (i * tileSize + tileSize) dimension := by
  unfold ceilDiv tileSize at hi
  unfold tileSize
  omega

theorem mem_tileUnits {shape : List ℕ} {u : TileUnit} (hu : u ∈ tileUnits shape) : u.InRange shape := by
  rw [tileUnits, List.mem_flatMap] at hu
  obtain ⟨c, hc, hu⟩ := hu
  obtain ⟨i, hi, hu⟩ := List.mem_flatMap.mp hu
  obtain ⟨j, hj, rfl⟩ := List.mem_map.mp hu
  exact ⟨mem_coordinates.mp hc, tile_bounds (List.mem_range.mp hi), min_le_right _ _, min_le_left _ _,
    tile_bounds (List.mem_range.mp hj), min_le_right _ _, min_le_left _ _⟩

/-- The number of matrices in a tensor with an element. -/
theorem prefixCount_eq (h : 0 < (pre ++ [rows, columns]).prod) :
    (pre ++ [rows, columns]).prod / (rows * columns) = pre.prod := by
  rw [List.prod_append, List.prod_cons, List.prod_singleton] at h ⊢
  exact Nat.mul_div_cancel _ (Nat.pos_of_mul_pos_left h)

theorem prod_pos_of_marks (h : Marks shape mask bad) (hne : ∃ c, bad c) : 0 < shape.prod := by
  obtain ⟨c, hbad⟩ := hne
  obtain ⟨index, hindex, -⟩ := exists_index (h.inside c hbad)
  exact Nat.zero_lt_of_lt hindex

/-- **The localization of a tensor with a mismatch is exact.** -/
theorem tensorOutputSpaceLocalization_exact {outputPath : String} (hrank : 2 ≤ shape.length)
    (h : Marks shape mask bad) (hne : ∃ c, bad c) :
    ∃ l, tensorOutputSpaceLocalization shape mask outputPath = some l ∧ l.Exact outputPath shape bad := by
  obtain ⟨pre, rows, columns, rfl⟩ := exists_last_two hrank
  unfold tensorOutputSpaceLocalization
  rw [if_neg (not_lt.mpr hrank), lastTwo_append, dropLast_append_pair]
  have hgrid : [(pre ++ [rows, columns]).prod / (rows * columns), ceilDiv rows, ceilDiv columns] =
      [pre.prod, ceilDiv rows, ceilDiv columns] := by
    rw [prefixCount_eq (prod_pos_of_marks h hne)]
  have htile := tile_describes h hgrid
  refine ⟨_, rfl, ?_⟩
  constructor
  · rfl
  · rfl
  · exact fun hnone => absurd hne hnone
  · intro _
    unfold mismatchAxisBounds
    rw [List.length_map, List.length_range]
  · exact fun _ axis haxis => bounds_of_marks h hne haxis
  · exact batchSummary_describes h
  · exact row_describes h
  · exact htile
  · exact fun b hb => List.mem_range.mp ((batchSummary_describes h).mem hb)
  · exact fun u hu => dropLast_append_pair.symm ▸ mem_rowUnits ((row_describes h).mem hu)
  · exact fun u hu => mem_tileUnits (htile.mem hu)

theorem length_rowUnits : (rowUnits (pre ++ [rows, columns])).length = pre.prod * rows := by
  rw [rowUnits, List.length_map, length_coordinates, dropLast_append_pair, List.prod_append, List.prod_singleton]

theorem length_tileUnits :
    (tileUnits (pre ++ [rows, columns])).length = pre.prod * ceilDiv rows * ceilDiv columns := by
  rw [tileUnits_eq, List.length_map, length_coordinates, prefixShape_append, lastTwo_append, List.prod_cons,
    List.prod_cons, List.prod_singleton, mul_assoc]

/-- The localization of a tensor without mismatches is exact. -/
theorem perfectLocalization_exact {outputPath : String} (hrank : 2 ≤ shape.length) (hnone : ∀ c, ¬bad c) :
    ∃ l, perfectLocalization shape outputPath = some l ∧ l.Exact outputPath shape bad := by
  obtain ⟨pre, rows, columns, rfl⟩ := exists_last_two hrank
  unfold perfectLocalization
  rw [if_neg (not_lt.mpr hrank), lastTwo_append, prefixShape_append]
  refine ⟨_, rfl, ?_⟩
  constructor
  · rfl
  · rfl
  · exact fun _ => rfl
  · exact fun ⟨c, hbad⟩ => absurd hbad (hnone c)
  · exact fun ⟨c, hbad⟩ => absurd hbad (hnone c)
  · exact describes_none List.length_range.symm fun b ⟨c, hbad, _⟩ => hnone c hbad
  · exact describes_none length_rowUnits.symm fun u ⟨c, hbad, _⟩ => hnone c hbad
  · exact describes_none length_tileUnits.symm fun u ⟨c, hbad, _⟩ => hnone c hbad
  · exact fun b hb => absurd hb List.not_mem_nil
  · exact fun u hu => absurd hu List.not_mem_nil
  · exact fun u hu => absurd hu List.not_mem_nil

end KernelGym.Correctness
