import KernelGym.FusedCompare
import KernelGym.MismatchScores

/-! The statistics of a tile are those of its cells, in whatever order its threads visit them and however the block
groups the reduction; the tiles partition the tensor. -/

namespace KernelGym.Correctness.Fused

open Library

/-! ### The order of the scores -/

instance : Std.Total Before := ⟨fun a b => by unfold Before; grind⟩

instance : IsTrans Entry Before := ⟨fun a b c hab hbc => by unfold Before at *; grind⟩

instance : Std.Antisymm Before := ⟨fun a b hab hba => by
  unfold Before at *
  exact Prod.ext (by grind) (by grind)⟩

theorem insert_eq (e : Entry) (top : List Entry) : insert e top = insertWithin Before e top := by
  induction top with
  | nil => rfl
  | cons x rest ih =>
      have hcond : (e.1 > x.1 || (e.1 = x.1 && e.2 < x.2)) = true ↔ ¬Before x e := by
        rw [Bool.or_eq_true, Bool.and_eq_true, decide_eq_true_iff, decide_eq_true_iff, decide_eq_true_iff, Before]
        grind
      rw [insert, insertWithin, ih]
      exact if_congr hcond rfl rfl

/-! ### Summaries of cells -/

instance : Std.Commutative Extended.max := ⟨Extended.max_comm'⟩

instance : Std.Associative Extended.max := ⟨Extended.max_assoc'⟩

namespace Launch

variable (l : Launch) {cells cells' : List Cell}

def entry (i : ℕ) : Entry := (l.score i, i)

/-- The cells with an element that is out of tolerance. -/
def badCells (cells : List Cell) : List Cell := cells.filter fun c => l.isBad c.index

/-- What the statistics of some cells are, in whatever order they are visited. -/
def summary (cells : List Cell) : Stats where
  sum := (cells.map fun c => (l.measured c.index).1).sum
  maximum := joined Extended.max (.finite 0) (cells.map fun c => (l.measured c.index).1)
  top := leading Before 3 (cells.map (fun c => l.entry c.index) ++ List.replicate 3 vacant)
  first := joined min int64Max ((l.badCells cells).map fun c => (c.index : ℤ))
  last := joined max (-1) ((l.badCells cells).map fun c => (c.index : ℤ))
  bad := cells.countP fun c => l.isBad c.index
  nan := cells.countP fun c => (l.element c.index).2.isNan
  inf := cells.countP fun c => (l.element c.index).2.isInf
  buckets := fun k => cells.countP fun c => bucketOf (l.score c.index) = some k
  rows := joined (· ||| ·) 0 ((l.badCells cells).map fun c => 1#32 <<< c.row)
  columns := joined (· ||| ·) 0 ((l.badCells cells).map fun c => 1#32 <<< c.column)

theorem summary_perm (h : cells.Perm cells') : l.summary cells = l.summary cells' := by
  have hbad : (l.badCells cells).Perm (l.badCells cells') := h.filter _
  unfold summary
  congr 1
  · exact (h.map _).sum_eq
  · exact joined_perm (h.map _)
  · exact leading_perm ((h.map _).append_right _)
  · exact joined_perm (hbad.map _)
  · exact joined_perm (hbad.map _)
  · exact h.countP_eq _
  · exact h.countP_eq _
  · exact h.countP_eq _
  · funext k
    exact h.countP_eq _
  · exact joined_perm (hbad.map _)
  · exact joined_perm (hbad.map _)

theorem insert_leading (e : Entry) (entries : List Entry) :
    insert e (leading Before 3 (entries ++ List.replicate 3 vacant)) =
      leading Before 3 ((e :: entries) ++ List.replicate 3 vacant) := by
  have hlength : 3 ≤ (entries ++ List.replicate 3 vacant).length := by
    rw [List.length_append, List.length_replicate]
    exact Nat.le_add_left _ _
  rw [insert_eq, insertWithin_leading hlength, List.cons_append]

theorem badCells_cons (c : Cell) :
    l.badCells (c :: cells) = if l.isBad c.index then c :: l.badCells cells else l.badCells cells :=
  List.filter_cons

/-- What only the bad cells contribute to. -/
theorem joined_badCells {β : Type} {op : β → β → β} [Std.Commutative op] {z : β} {f : Cell → β} (c : Cell) :
    (if l.isBad c.index then op (joined op z ((l.badCells cells).map f)) (f c)
      else joined op z ((l.badCells cells).map f)) = joined op z ((l.badCells (c :: cells)).map f) := by
  rw [badCells_cons]
  split_ifs
  · exact Std.Commutative.comm _ _
  · rfl

theorem addCell_summary (c : Cell) : l.addCell (l.summary cells) c = l.summary (c :: cells) := by
  unfold addCell summary
  congr 1
  · rw [List.map_cons, List.sum_cons, add_comm]
  · rw [List.map_cons, joined_cons, Extended.max_comm']
  · exact insert_leading _ _
  · exact l.joined_badCells c
  · exact l.joined_badCells c
  · rw [List.countP_cons]
  · rw [List.countP_cons]
  · rw [List.countP_cons]
  · funext k
    rw [List.countP_cons]
    simp only [decide_eq_true_eq]
  · exact l.joined_badCells c
  · exact l.joined_badCells c

theorem emptyStats_eq : emptyStats = l.summary [] := by
  unfold emptyStats summary
  congr 1

/-- A thread computes the summary of the cells that it visits. -/
theorem foldl_addCell (cells : List Cell) : cells.foldl l.addCell emptyStats = l.summary cells := by
  have hfold : ∀ before : List Cell,
      cells.foldl l.addCell (l.summary before) = l.summary (cells.reverse ++ before) := by
    induction cells with
    | nil =>
        intro before
        rfl
    | cons c cells ih =>
        intro before
        rw [List.foldl_cons, addCell_summary, ih, List.reverse_cons, List.append_assoc, List.singleton_append]
  rw [l.emptyStats_eq, hfold, List.append_nil]
  exact l.summary_perm cells.reverse_perm

theorem insert_all (top entries : List Entry) :
    (leading Before 3 (top ++ List.replicate 3 vacant)).foldl (fun top e => insert e top)
      (leading Before 3 (entries ++ List.replicate 3 vacant)) =
        leading Before 3
          (leading Before 3 (top ++ List.replicate 3 vacant) ++ (entries ++ List.replicate 3 vacant)) := by
  generalize leading Before 3 (top ++ List.replicate 3 vacant) = new
  induction new generalizing entries with
  | nil => rfl
  | cons e new ih =>
      rw [List.foldl_cons, insert_leading, ih]
      refine leading_perm ?_
      rw [List.cons_append, List.cons_append]
      exact List.perm_middle

theorem merge_top (entries entries' : List Entry) (hentries : ∀ e ∈ entries ++ entries', Before e vacant) :
    (leading Before 3 (entries' ++ List.replicate 3 vacant)).foldl (fun top e => insert e top)
      (leading Before 3 (entries ++ List.replicate 3 vacant)) =
        leading Before 3 ((entries ++ entries') ++ List.replicate 3 vacant) := by
  have hperm : ((entries' ++ List.replicate 3 vacant) ++ (entries ++ List.replicate 3 vacant)).Perm
      ((entries ++ entries') ++ List.replicate 6 vacant) := by
    refine List.perm_append_comm.trans ?_
    rw [List.append_assoc, List.append_assoc]
    exact List.Perm.append_left entries (List.perm_append_comm_assoc _ _ _)
  rw [insert_all, leading_append_left, leading_perm hperm]
  exact leading_replicate hentries (by omega) le_rfl

theorem merge_summary (hcells : ∀ c ∈ cells ++ cells', Before (l.entry c.index) vacant) :
    merge (l.summary cells) (l.summary cells') = l.summary (cells ++ cells') := by
  have hbad : l.badCells (cells ++ cells') = l.badCells cells ++ l.badCells cells' := List.filter_append _ _
  unfold merge summary
  rw [hbad]
  simp only [List.map_append]
  congr 1
  · exact List.sum_append.symm
  · exact (joined_append rfl _ _).symm
  · refine merge_top _ _ fun e he => ?_
    rw [← List.map_append] at he
    obtain ⟨c, hc, rfl⟩ := List.mem_map.mp he
    exact hcells c hc
  · exact (joined_append (min_self _) _ _).symm
  · exact (joined_append (max_self _) _ _).symm
  · exact List.countP_append.symm
  · exact List.countP_append.symm
  · exact List.countP_append.symm
  · funext k
    exact List.countP_append.symm
  · exact (joined_append rfl _ _).symm
  · exact (joined_append rfl _ _).symm

/-! ### Scores are not negative -/

theorem diff_abs (e : Extended × Extended) (atol rtol : ℚ) :
    Extended.max (.finite 0) (measureFloating atol rtol e).1 = (measureFloating atol rtol e).1 := by
  obtain ⟨x, hx, h | h | h⟩ := abs_float_cases (e.2.sub e.1)
  · rw [measureFloating, h, Extended.max_finite, max_eq_right hx]
  · rw [measureFloating, h]
    rfl
  · rw [measureFloating, h]
    rfl

theorem tolerance_nonneg {atol rtol t : ℚ} (hatol : 0 ≤ atol) (hrtol : 0 ≤ rtol) {e : Extended × Extended}
    (h : (measureFloating atol rtol e).2 = .finite t) : 0 ≤ t := by
  rw [measureFloating] at h
  obtain ⟨x, hx, habs | habs | habs⟩ := abs_float_cases e.1
  · rw [habs] at h
    have hvalue : x * rtol + atol = t := Extended.finite.inj h
    exact hvalue ▸ add_nonneg (mul_nonneg hx hrtol) hatol
  · rw [habs, Extended.mul] at h
    split_ifs at h <;> exact Extended.noConfusion h
  · rw [habs] at h
    exact Extended.noConfusion h

theorem score_nonneg {l : Launch} (hmax : 0 ≤ l.finiteMax) (hatol : 0 ≤ l.atol) (hrtol : 0 ≤ l.rtol) (i : ℕ) :
    0 ≤ l.score i := by
  rw [score, normalizeDifference]
  split_ifs
  · exact le_rfl
  · have htolerance (t : ℚ) (ht : (l.measured i).2 = .finite t) : 0 ≤ t := tolerance_nonneg hatol hrtol ht
    obtain ⟨x, hx, hdiff | hdiff | hdiff⟩ := abs_float_cases ((l.element i).2.sub (l.element i).1)
    all_goals
      have hdiff' : (l.measured i).1 = _ := hdiff
      rw [hdiff']
      cases htol : (l.measured i).2 with
      | finite t =>
          first
          | exact hmax
          | rw [Extended.div]
            split_ifs
            · exact hmax
            · exact hmax
            · exact div_nonneg hx (htolerance t htol)
      | infinite negative => first | exact le_rfl | exact hmax
      | nan => exact hmax

theorem entry_before {l : Launch} (hmax : 0 ≤ l.finiteMax) (hatol : 0 ≤ l.atol) (hrtol : 0 ≤ l.rtol) (i : ℕ) :
    Before (l.entry i) vacant :=
  Or.inl (lt_of_lt_of_le (by norm_num [vacant]) (score_nonneg hmax hatol hrtol i))

/-! ### Tiles -/

/-- The cells of a tile in row-major order. -/
def tileCells (tile : ℕ) : List Cell := (List.range 1024).filterMap (l.cellAt tile)

theorem threadCells_perm (tile : ℕ) : ((List.range 256).flatMap (l.threadCells tile)).Perm (l.tileCells tile) := by
  have hthreads : (List.range 256).flatMap (l.threadCells tile) =
      ((List.range 256).flatMap fun t => (List.range 4).map fun k => t + 256 * k).filterMap (l.cellAt tile) := by
    rw [List.filterMap_flatMap]
    refine List.flatMap_congr fun thread _ => ?_
    rw [threadCells, List.filterMap_map]
    rfl
  rw [hthreads]
  exact (strided_perm 256 4).filterMap _

/-- Whatever the grouping of the threads, a block computes the summary of its tile. -/
theorem summarize_eq {l : Launch} (cub : BlockReduce) (hmax : 0 ≤ l.finiteMax) (hatol : 0 ≤ l.atol) (hrtol : 0 ≤ l.rtol)
    (tile : ℕ) : l.summarize cub tile = l.summary (l.tileCells tile) := by
  have hthreads : (List.range 256).map (l.threadStats tile) =
      ((List.range 256).map (l.threadCells tile)).map l.summary := by
    rw [List.map_map]
    exact List.map_congr_left fun thread _ => l.foldl_addCell _
  have hreduces := cub.reduces merge ((List.range 256).map (l.threadStats tile)) (by simp)
  rw [summarize]
  generalize cub.reduce merge ((List.range 256).map (l.threadStats tile)) = s at hreduces
  rw [hthreads] at hreduces
  have hjoin (cells cells' : List Cell) : merge (l.summary cells) (l.summary cells') = l.summary (cells ++ cells') :=
    l.merge_summary fun c _ => entry_before hmax hatol hrtol c.index
  rw [hreduces.eq_summary hjoin, ← List.flatMap_def]
  exact l.summary_perm (l.threadCells_perm tile)

theorem lt_ceilDiv {n i j : ℕ} (h : i * 32 + j < n) : i < ceilDiv n := by
  unfold ceilDiv tileSize
  omega

/-- The tile in a row and a column of tiles of a matrix. -/
def tileAt (matrix rowTile columnTile : ℕ) : ℕ := (matrix * l.tileRows + rowTile) * l.tileColumns + columnTile

/-- The index of an element of a matrix. -/
def indexAt (matrix row column : ℕ) : ℕ := (matrix * l.rows + row) * l.columns + column

variable {matrix rowTile columnTile : ℕ}

theorem tileAt_parts (matrix : ℕ) (hrow : rowTile < l.tileRows) (hcolumn : columnTile < l.tileColumns) :
    l.tileAt matrix rowTile columnTile % l.tileColumns = columnTile ∧
      l.tileAt matrix rowTile columnTile / l.tileColumns % l.tileRows = rowTile ∧
      l.tileAt matrix rowTile columnTile / (l.tileRows * l.tileColumns) = matrix := by
  obtain ⟨hp, hr, hk⟩ := position_parts (i := matrix) hrow hcolumn
  refine ⟨hk, hr, ?_⟩
  rw [mul_comm, ← Nat.div_div_eq_div_mul]
  exact hp

theorem mem_tileCells (hrow : rowTile < l.tileRows) (hcolumn : columnTile < l.tileColumns) {c : Cell} :
    c ∈ l.tileCells (l.tileAt matrix rowTile columnTile) ↔
      c.row < 32 ∧ c.column < 32 ∧ rowTile * 32 + c.row < l.rows ∧ columnTile * 32 + c.column < l.columns ∧
        c.index = l.indexAt matrix (rowTile * 32 + c.row) (columnTile * 32 + c.column) := by
  obtain ⟨hk, hr, hp⟩ := l.tileAt_parts matrix hrow hcolumn
  rw [tileCells, List.mem_filterMap]
  unfold cellAt
  rw [hk, hr, hp]
  constructor
  · rintro ⟨cell, hcell, h⟩
    rw [List.mem_range] at hcell
    dsimp only at h
    split_ifs at h with hout
    rw [Bool.or_eq_true, decide_eq_true_iff, decide_eq_true_iff, not_or, not_le, not_le] at hout
    obtain rfl := Option.some.inj h
    exact ⟨Nat.div_lt_of_lt_mul hcell, Nat.mod_lt _ (by norm_num), hout.1, hout.2, rfl⟩
  · rintro ⟨hr32, hc32, hrows, hcolumns, hindex⟩
    refine ⟨c.row * 32 + c.column, List.mem_range.mpr (by omega), ?_⟩
    have hdiv : (c.row * 32 + c.column) / 32 = c.row := by omega
    have hmod : (c.row * 32 + c.column) % 32 = c.column := by omega
    dsimp only
    rw [hdiv, hmod, if_neg]
    · exact congrArg some (congrArg (Cell.mk c.row c.column) hindex.symm)
    · rw [Bool.or_eq_true, decide_eq_true_iff, decide_eq_true_iff]
      omega

/-- The cell of an element in its tile. -/
theorem cell_mem_tileCells {row column : ℕ} (hrow : row < l.rows) (hcolumn : column < l.columns) :
    ⟨row % 32, column % 32, l.indexAt matrix row column⟩ ∈ l.tileCells (l.tileAt matrix (row / 32) (column / 32)) := by
  have hr : row / 32 < l.tileRows := lt_ceilDiv ((Nat.div_add_mod' row 32).trans_lt hrow)
  have hk : column / 32 < l.tileColumns := lt_ceilDiv ((Nat.div_add_mod' column 32).trans_lt hcolumn)
  refine (l.mem_tileCells hr hk).mpr ?_
  dsimp only
  rw [Nat.div_add_mod', Nat.div_add_mod']
  exact ⟨Nat.mod_lt _ (by norm_num), Nat.mod_lt _ (by norm_num), hrow, hcolumn, rfl⟩

/-- The number of the tile that an element lies in. -/
def tileOf (index : ℕ) : ℕ :=
  l.tileAt (index / l.columns / l.rows) (index / l.columns % l.rows / 32) (index % l.columns / 32)

theorem indexAt_parts (matrix : ℕ) {row column : ℕ} (hrow : row < l.rows) (hcolumn : column < l.columns) :
    l.indexAt matrix row column / l.columns / l.rows = matrix ∧
      l.indexAt matrix row column / l.columns % l.rows = row ∧ l.indexAt matrix row column % l.columns = column :=
  position_parts hrow hcolumn

theorem tileOf_indexAt {row column : ℕ} (hrow : row < l.rows) (hcolumn : column < l.columns) :
    l.tileOf (l.indexAt matrix row column) = l.tileAt matrix (row / 32) (column / 32) := by
  obtain ⟨hmatrix, hr, hc⟩ := l.indexAt_parts matrix hrow hcolumn
  rw [tileOf, hmatrix, hr, hc]

theorem exists_tileAt {prefixCount tile : ℕ} (h : tile < prefixCount * l.tileRows * l.tileColumns) :
    ∃ matrix < prefixCount, ∃ rowTile < l.tileRows, ∃ columnTile < l.tileColumns,
      tile = l.tileAt matrix rowTile columnTile := exists_position h

theorem exists_indexAt {prefixCount index : ℕ} (h : index < prefixCount * l.rows * l.columns) :
    ∃ matrix < prefixCount, ∃ row < l.rows, ∃ column < l.columns, index = l.indexAt matrix row column :=
  exists_position h

theorem tileAt_lt {prefixCount : ℕ} (hmatrix : matrix < prefixCount) (hrow : rowTile < l.tileRows)
    (hcolumn : columnTile < l.tileColumns) :
    l.tileAt matrix rowTile columnTile < prefixCount * l.tileRows * l.tileColumns :=
  position_lt (position_lt hmatrix hrow) hcolumn

/-- The cells of all tiles. -/
def allCells (prefixCount : ℕ) : List Cell :=
  (List.range (prefixCount * l.tileRows * l.tileColumns)).flatMap l.tileCells

theorem mem_allCells {prefixCount : ℕ} {c : Cell} (h : c ∈ l.allCells prefixCount) :
    ∃ matrix < prefixCount, ∃ row < l.rows, ∃ column < l.columns,
      c = ⟨row % 32, column % 32, l.indexAt matrix row column⟩ := by
  obtain ⟨tile, htile, hc⟩ := List.mem_flatMap.mp h
  obtain ⟨matrix, hmatrix, rowTile, hr, columnTile, hk, rfl⟩ := l.exists_tileAt (List.mem_range.mp htile)
  obtain ⟨hr32, hc32, hrow, hcolumn, hindex⟩ := (l.mem_tileCells hr hk).mp hc
  refine ⟨matrix, hmatrix, _, hrow, _, hcolumn, ?_⟩
  rw [Nat.mul_add_mod', Nat.mul_add_mod', Nat.mod_eq_of_lt hr32, Nat.mod_eq_of_lt hc32, ← hindex]

theorem nodup_tileCells (hrow : rowTile < l.tileRows) (hcolumn : columnTile < l.tileColumns) :
    ((l.tileCells (l.tileAt matrix rowTile columnTile)).map Cell.index).Nodup := by
  refine List.Nodup.map_on (fun c hc c' hc' h => ?_) ?_
  · obtain ⟨-, -, hr, hk, hindex⟩ := (l.mem_tileCells hrow hcolumn).mp hc
    obtain ⟨-, -, hr', hk', hindex'⟩ := (l.mem_tileCells hrow hcolumn).mp hc'
    obtain ⟨-, hsame, hsame'⟩ := l.indexAt_parts matrix hr hk
    rw [← hindex, h, hindex'] at hsame hsame'
    obtain ⟨-, hrow', hcolumn'⟩ := l.indexAt_parts matrix hr' hk'
    obtain ⟨row, column, index⟩ := c
    obtain ⟨row', column', index'⟩ := c'
    dsimp only at *
    obtain rfl : row = row' := by omega
    obtain rfl : column = column' := by omega
    rw [h]
  · refine List.Nodup.filterMap (fun cell cell' c hc hc' => ?_) List.nodup_range
    have hnumber (cell : ℕ) (hc : c ∈ l.cellAt (l.tileAt matrix rowTile columnTile) cell) :
        cell = c.row * 32 + c.column := by
      unfold cellAt at hc
      dsimp only at hc
      split_ifs at hc
      · exact absurd hc (Option.not_mem_none _)
      · obtain rfl := Option.some.inj hc
        exact (Nat.div_add_mod' cell 32).symm
    rw [hnumber cell hc, hnumber cell' hc']

/-- The tiles partition the tensor. -/
theorem allCells_indices (prefixCount : ℕ) :
    ((l.allCells prefixCount).map Cell.index).Perm (List.range (prefixCount * l.rows * l.columns)) := by
  rw [allCells, List.map_flatMap]
  refine (List.perm_ext_iff_of_nodup ?_ List.nodup_range).mpr fun index => ?_
  · refine nodup_flatMap_of_key l.tileOf List.nodup_range (fun tile htile => ?_) fun tile htile index hindex => ?_
    all_goals
      obtain ⟨matrix, -, rowTile, hr, columnTile, hk, rfl⟩ := l.exists_tileAt (List.mem_range.mp htile)
    · exact l.nodup_tileCells hr hk
    · obtain ⟨c, hc, rfl⟩ := List.mem_map.mp hindex
      obtain ⟨hr32, hc32, hrow, hcolumn, hindex⟩ := (l.mem_tileCells hr hk).mp hc
      rw [hindex, l.tileOf_indexAt hrow hcolumn]
      congr 1 <;> omega
  · rw [List.mem_range, List.mem_flatMap]
    constructor
    · rintro ⟨tile, htile, h⟩
      obtain ⟨c, hc, rfl⟩ := List.mem_map.mp h
      obtain ⟨matrix, hmatrix, row, hrow, column, hcolumn, rfl⟩ :=
        l.mem_allCells (List.mem_flatMap.mpr ⟨tile, htile, hc⟩)
      exact position_lt (position_lt hmatrix hrow) hcolumn
    · intro hindex
      obtain ⟨matrix, hmatrix, row, hrow, column, hcolumn, rfl⟩ := l.exists_indexAt hindex
      have hr : row / 32 < l.tileRows := lt_ceilDiv ((Nat.div_add_mod' row 32).trans_lt hrow)
      have hk : column / 32 < l.tileColumns := lt_ceilDiv ((Nat.div_add_mod' column 32).trans_lt hcolumn)
      exact ⟨_, List.mem_range.mpr (l.tileAt_lt hmatrix hr hk),
        List.mem_map.mpr ⟨_, l.cell_mem_tileCells hrow hcolumn, rfl⟩⟩

end Launch

end KernelGym.Correctness.Fused
