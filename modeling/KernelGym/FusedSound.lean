import KernelGym.FusedTiles
import KernelGym.MismatchDiagnostics

/-! The fused comparison is the comparison by PyTorch: what the host puts together from the statistics of the tiles are
the diagnostics of the whole tensor. -/

namespace KernelGym.Correctness.Fused

open Library

namespace Launch

variable (l : Launch)

/-! ### The statistics of the whole tensor -/

theorem summary_top (cells : List Cell) :
    (l.summary cells).top = leading Before 3 (cells.map (fun c => l.entry c.index) ++ List.replicate 3 vacant) := rfl

/-- What the kernel writes for all tiles. -/
def tileStats (prefixCount : ℕ) : List Stats :=
  (List.range (prefixCount * l.tileRows * l.tileColumns)).map fun tile => l.summary (l.tileCells tile)

variable {l} {prefixCount : ℕ}

/-- A field that `Merge` joins is, joined over all tiles, that of all cells. -/
theorem joined_tileStats {γ : Type} (field : Stats → γ) {op : γ → γ → γ} {z : γ} (hempty : field emptyStats = z)
    (hmerge : ∀ a b, field (merge a b) = op (field a) (field b)) (hentry : ∀ i, Before (l.entry i) vacant) :
    joined op z ((l.tileStats prefixCount).map field) = field (l.summary (l.allCells prefixCount)) := by
  rw [tileStats, allCells]
  induction List.range (prefixCount * l.tileRows * l.tileColumns) with
  | nil => rw [List.flatMap_nil, ← emptyStats_eq, hempty]; rfl
  | cons tile tiles ih =>
      rw [List.map_cons, List.map_cons, joined_cons, ih, ← hmerge, l.merge_summary fun c _ => hentry c.index,
        List.flatMap_cons]

variable (hcount : l.elements.length = prefixCount * l.rows * l.columns)
include hcount

theorem map_allCells {γ : Type} (f : ℕ → γ) :
    ((l.allCells prefixCount).map fun c => f c.index).Perm ((List.range l.elements.length).map f) := by
  have hindices := (l.allCells_indices prefixCount).map f
  rwa [List.map_map, ← hcount] at hindices

theorem countP_allCells (f : ℕ → Bool) :
    (l.allCells prefixCount).countP (fun c => f c.index) = (List.range l.elements.length).countP f := by
  have hindices := (l.allCells_indices prefixCount).countP_eq f
  rwa [List.countP_map, ← hcount] at hindices

theorem badCells_allCells :
    ((l.badCells (l.allCells prefixCount)).map Cell.index).Perm ((List.range l.elements.length).filter l.isBad) := by
  have hindices := (l.allCells_indices prefixCount).filter l.isBad
  rw [List.filter_map, ← hcount] at hindices
  exact hindices

omit hcount in
theorem measured_eq :
    l.elements.map (measureFloating l.atol l.rtol) = (List.range l.elements.length).map l.measured := by
  conv_lhs => rw [← map_getD_range l.elements (.nan, .nan), List.map_map]
  rfl

theorem bad_tileStats (hentry : ∀ i, Before (l.entry i) vacant) :
    ((l.tileStats prefixCount).map Stats.bad).sum = (List.range l.elements.length).countP l.isBad :=
  calc ((l.tileStats prefixCount).map Stats.bad).sum
      = (l.summary (l.allCells prefixCount)).bad := joined_tileStats Stats.bad rfl (fun _ _ => rfl) hentry
    _ = (List.range l.elements.length).countP l.isBad := countP_allCells hcount l.isBad

theorem nan_tileStats (hentry : ∀ i, Before (l.entry i) vacant) :
    ((l.tileStats prefixCount).map Stats.nan).sum = l.elements.countP fun e => e.2.isNan :=
  calc ((l.tileStats prefixCount).map Stats.nan).sum
      = (l.summary (l.allCells prefixCount)).nan := joined_tileStats Stats.nan rfl (fun _ _ => rfl) hentry
    _ = (List.range l.elements.length).countP fun i => (l.element i).2.isNan :=
      countP_allCells hcount fun i => (l.element i).2.isNan
    _ = l.elements.countP fun e => e.2.isNan := by
      conv_rhs => rw [← map_getD_range l.elements (.nan, .nan), List.countP_map]
      rfl

theorem inf_tileStats (hentry : ∀ i, Before (l.entry i) vacant) :
    ((l.tileStats prefixCount).map Stats.inf).sum = l.elements.countP fun e => e.2.isInf :=
  calc ((l.tileStats prefixCount).map Stats.inf).sum
      = (l.summary (l.allCells prefixCount)).inf := joined_tileStats Stats.inf rfl (fun _ _ => rfl) hentry
    _ = (List.range l.elements.length).countP fun i => (l.element i).2.isInf :=
      countP_allCells hcount fun i => (l.element i).2.isInf
    _ = l.elements.countP fun e => e.2.isInf := by
      conv_rhs => rw [← map_getD_range l.elements (.nan, .nan), List.countP_map]
      rfl

theorem buckets_tileStats (hentry : ∀ i, Before (l.entry i) vacant) (k : Fin 4) :
    ((l.tileStats prefixCount).map fun s => s.buckets k).sum =
      ((List.range l.elements.length).map l.score).countP fun e => bucketOf e = some k :=
  calc ((l.tileStats prefixCount).map fun s => s.buckets k).sum
      = (l.summary (l.allCells prefixCount)).buckets k :=
        joined_tileStats (fun s => s.buckets k) rfl (fun _ _ => rfl) hentry
    _ = (List.range l.elements.length).countP fun i => bucketOf (l.score i) = some k :=
      countP_allCells hcount fun i => bucketOf (l.score i) = some k
    _ = ((List.range l.elements.length).map l.score).countP fun e => bucketOf e = some k := by
      rw [List.countP_map]
      rfl

theorem total_tileStats (hentry : ∀ i, Before (l.entry i) vacant) :
    Correctness.total ((l.tileStats prefixCount).map Stats.sum) =
      Correctness.total ((List.range l.elements.length).map fun i => (l.measured i).1) := by
  have hadd (xs : List Extended) : Correctness.total xs = xs.sum := by
    have hfold : xs.foldl (· + ·) (.finite 0) = joined (· + ·) (.finite 0) xs := foldl_eq_joined xs
    exact hfold
  rw [hadd, hadd]
  calc ((l.tileStats prefixCount).map Stats.sum).sum
      = (l.summary (l.allCells prefixCount)).sum := joined_tileStats Stats.sum rfl (fun _ _ => rfl) hentry
    _ = ((List.range l.elements.length).map fun i => (l.measured i).1).sum :=
      (map_allCells hcount fun i => (l.measured i).1).sum_eq

omit hcount in
/-- The maximum of numbers that are not below zero may start at zero. -/
theorem maximum_eq {xs : List Extended} (h : ∀ x ∈ xs, Extended.max (.finite 0) x = x) :
    Correctness.maximum xs = joined Extended.max (.finite 0) xs := by
  rw [← foldl_eq_joined]
  cases xs with
  | nil => rfl
  | cons x xs => rw [Correctness.maximum, List.foldl_cons, h x List.mem_cons_self]

omit hcount in
theorem max_zero_joined (xs : List Extended) :
    Extended.max (.finite 0) (joined Extended.max (.finite 0) xs) = joined Extended.max (.finite 0) xs := by
  have hzero : Extended.max (.finite 0) (.finite 0) = .finite 0 := rfl
  exact (joined_append hzero [] xs).symm

theorem maximum_tileStats (hentry : ∀ i, Before (l.entry i) vacant) :
    Correctness.maximum ((l.tileStats prefixCount).map Stats.maximum) =
      Correctness.maximum ((List.range l.elements.length).map fun i => (l.measured i).1) := by
  rw [maximum_eq, maximum_eq]
  · calc joined Extended.max (.finite 0) ((l.tileStats prefixCount).map Stats.maximum)
        = (l.summary (l.allCells prefixCount)).maximum := joined_tileStats Stats.maximum rfl (fun _ _ => rfl) hentry
      _ = joined Extended.max (.finite 0) ((List.range l.elements.length).map fun i => (l.measured i).1) :=
        joined_perm (map_allCells hcount fun i => (l.measured i).1)
  · intro x hx
    obtain ⟨i, -, rfl⟩ := List.mem_map.mp hx
    exact diff_abs _ _ _
  · intro x hx
    obtain ⟨s, hs, rfl⟩ := List.mem_map.mp hx
    obtain ⟨tile, -, rfl⟩ := List.mem_map.mp hs
    have hcells (cells : List Cell) : Extended.max (.finite 0) (l.summary cells).maximum = (l.summary cells).maximum :=
      max_zero_joined _
    exact hcells _

theorem first_tileStats (hentry : ∀ i, Before (l.entry i) vacant) :
    ((l.tileStats prefixCount).map Stats.first).foldl min int64Max =
      joined min int64Max (((List.range l.elements.length).filter l.isBad).map Nat.cast) :=
  calc ((l.tileStats prefixCount).map Stats.first).foldl min int64Max
      = joined min int64Max ((l.tileStats prefixCount).map Stats.first) := foldl_eq_joined _
    _ = (l.summary (l.allCells prefixCount)).first := joined_tileStats Stats.first rfl (fun _ _ => rfl) hentry
    _ = joined min int64Max (((l.badCells (l.allCells prefixCount)).map Cell.index).map Nat.cast) := by
      rw [summary, List.map_map]
      rfl
    _ = joined min int64Max (((List.range l.elements.length).filter l.isBad).map Nat.cast) :=
      joined_perm ((badCells_allCells hcount).map _)

theorem last_tileStats (hentry : ∀ i, Before (l.entry i) vacant) :
    ((l.tileStats prefixCount).map Stats.last).foldl max (-1) =
      joined max (-1) (((List.range l.elements.length).filter l.isBad).map Nat.cast) :=
  calc ((l.tileStats prefixCount).map Stats.last).foldl max (-1)
      = joined max (-1) ((l.tileStats prefixCount).map Stats.last) := foldl_eq_joined _
    _ = (l.summary (l.allCells prefixCount)).last := joined_tileStats Stats.last rfl (fun _ _ => rfl) hentry
    _ = joined max (-1) (((l.badCells (l.allCells prefixCount)).map Cell.index).map Nat.cast) := by
      rw [summary, List.map_map]
      rfl
    _ = joined max (-1) (((List.range l.elements.length).filter l.isBad).map Nat.cast) :=
      joined_perm ((badCells_allCells hcount).map _)

theorem top_tileStats (hentry : ∀ i, Before (l.entry i) vacant) {k : ℕ} (h3 : k ≤ 3) (hk : k ≤ l.elements.length) :
    (((l.tileStats prefixCount).flatMap Stats.top).insertionSort Before).take k =
      leading Before k ((List.range l.elements.length).map l.entry) := by
  let tiles := List.range (prefixCount * l.tileRows * l.tileColumns)
  let entries (tile : ℕ) : List Entry := (l.tileCells tile).map fun c => l.entry c.index
  have htop : (l.tileStats prefixCount).flatMap Stats.top =
      tiles.flatMap fun tile => leading Before 3 (entries tile ++ List.replicate 3 vacant) := by
    rw [tileStats, List.flatMap_map]
    exact List.flatMap_congr fun tile _ => l.summary_top _
  have hvacant : tiles.flatMap (fun _ => List.replicate 3 vacant) = List.replicate (tiles.length * 3) vacant := by
    refine List.eq_replicate_iff.mpr ⟨?_, fun e he => ?_⟩
    · rw [List.length_flatMap, List.map_const', List.length_replicate, List.sum_replicate_nat]
    · obtain ⟨-, -, he⟩ := List.mem_flatMap.mp he
      exact List.eq_of_mem_replicate he
  have hentries : tiles.flatMap entries = (l.allCells prefixCount).map fun c => l.entry c.index :=
    (List.map_flatMap ..).symm
  have hperm : (tiles.flatMap fun tile => entries tile ++ List.replicate 3 vacant).Perm
      ((List.range l.elements.length).map l.entry ++ List.replicate (tiles.length * 3) vacant) := by
    refine (List.flatMap_append_perm _ _ _).symm.trans ?_
    rw [hentries, hvacant]
    exact (map_allCells hcount l.entry).append_right _
  have hbefore : ∀ e ∈ (List.range l.elements.length).map l.entry, Before e vacant := by
    intro e he
    obtain ⟨i, -, rfl⟩ := List.mem_map.mp he
    exact hentry i
  calc (((l.tileStats prefixCount).flatMap Stats.top).insertionSort Before).take k
      = (leading Before 3
          (tiles.flatMap fun tile => leading Before 3 (entries tile ++ List.replicate 3 vacant))).take k := by
        rw [htop, take_leading h3]
        rfl
    _ = (leading Before 3
          ((List.range l.elements.length).map l.entry ++ List.replicate (tiles.length * 3) vacant)).take k := by
        rw [leading_flatMap, leading_perm hperm]
    _ = leading Before k ((List.range l.elements.length).map l.entry) := by
        rw [take_leading h3, leading_append_replicate hbefore]
        rwa [List.length_map, List.length_range]

omit hcount in
/-- The stable selection of PyTorch takes the entries in the order of the kernel. -/
theorem leading_entries (n k : ℕ) :
    leading Before k ((List.range n).map l.entry) =
      ((descending ((List.range n).map l.score)).take k).map l.entry := by
  have hgetD {i : ℕ} (hi : i ∈ List.range n) : ((List.range n).map l.score).getD i 0 = l.score i := by
    rw [List.getD_eq_getElem?_getD, List.getElem?_map, List.getElem?_range (List.mem_range.mp hi)]
    rfl
  have hpairs : (List.range n).Pairwise fun i j =>
      ((List.range n).map l.score).getD j 0 ≤ ((List.range n).map l.score).getD i 0 ↔
        Before (l.entry i) (l.entry j) := by
    refine List.pairwise_lt_range.imp_of_mem fun {i j} hi hj hlt => ?_
    rw [hgetD hi, hgetD hj, le_iff_lt_or_eq]
    refine or_congr Iff.rfl (and_iff_left ?_).symm
    exact Int.ofNat_le.mpr hlt.le
  rw [descending, List.length_map, List.length_range, insertionSort_of_pairwise hpairs, List.map_take,
    leading,
    List.map_insertionSort _ Before l.entry _ fun i _ j _ => Iff.rfl]

end Launch

/-! ### The curve -/

/-- The number of scores in each interval between two multipliers. -/
def intervals (scores : List ℚ) : ℚ → List ℕ → List (ℕ × ℕ)
  | _, [] => []
  | low, multiplier :: rest =>
    (multiplier, scores.countP fun score => low < score ∧ score ≤ multiplier) :: intervals scores multiplier rest

theorem intervals_fill (scores : List ℚ) (total : ℕ) (low : ℚ) (multipliers : List ℕ) :
    ((intervals scores low multipliers).map fun m => (m.1, total)) = multipliers.map fun m => (m, total) := by
  induction multipliers generalizing low with
  | nil => rfl
  | cons multiplier rest ih => rw [intervals, List.map_cons, List.map_cons, ih]

theorem countP_interval (scores : List ℚ) {low high : ℚ} (h : low ≤ high) :
    scores.countP (fun score => score ≤ low) + scores.countP (fun score => low < score ∧ score ≤ high) =
      scores.countP fun score => score ≤ high := by
  induction scores with
  | nil => rfl
  | cons score scores ih =>
      simp only [List.countP_cons, decide_eq_true_eq]
      split_ifs <;> first | omega | grind

/-- The running sums of the intervals are the counts below each multiplier, also in where they stop. -/
theorem cumulativeCurve_eq (scores : List ℚ) {low : ℚ} {multipliers : List ℕ} (hlow : ∀ m ∈ multipliers, low ≤ (m : ℚ))
    (hsorted : multipliers.Pairwise (· ≤ ·)) :
    cumulativeCurve scores.length (scores.countP fun score => score ≤ low) (intervals scores low multipliers) =
      countCurve scores multipliers := by
  induction multipliers generalizing low with
  | nil => rfl
  | cons multiplier rest ih =>
      obtain ⟨hle, hrest⟩ := List.pairwise_cons.mp hsorted
      have hcount := countP_interval scores (hlow multiplier List.mem_cons_self)
      rw [intervals, cumulativeCurve, hcount, intervals_fill,
        ih (fun m hm => Nat.cast_le.mpr (hle m hm)) hrest]
      rfl

theorem countP_bucketOf {scores : List ℚ} (h : ∀ score ∈ scores, 0 ≤ score) :
    ([2, 4, 8, 16].zip ((List.finRange 4).map fun k => scores.countP fun e => bucketOf e = some k)) =
      intervals scores (-1) [2, 4, 8, 16] := by
  have hbucket {e : ℚ} (he : 0 ≤ e) : (bucketOf e = some 0 ↔ -1 < e ∧ e ≤ (2 : ℕ)) ∧
      (bucketOf e = some 1 ↔ (2 : ℕ) < e ∧ e ≤ (4 : ℕ)) ∧ (bucketOf e = some 2 ↔ (4 : ℕ) < e ∧ e ≤ (8 : ℕ)) ∧
      (bucketOf e = some 3 ↔ (8 : ℕ) < e ∧ e ≤ (16 : ℕ)) := by
    rw [bucketOf]
    push_cast
    split_ifs <;> grind
  have hcount {k : Fin 4} {p : ℚ → Prop} [DecidablePred p] (hp : ∀ e, 0 ≤ e → (bucketOf e = some k ↔ p e)) :
      scores.countP (fun e => bucketOf e = some k) = scores.countP p :=
    List.countP_congr fun e he => decide_eq_true_iff.trans ((hp e (h e he)).trans decide_eq_true_iff.symm)
  rw [show List.finRange 4 = [0, 1, 2, 3] from rfl]
  simp only [List.map_cons, List.map_nil, List.zip_cons_cons, List.zip_nil_right, intervals]
  rw [hcount fun e he => (hbucket he).1, hcount fun e he => (hbucket he).2.1, hcount fun e he => (hbucket he).2.2.1,
    hcount fun e he => (hbucket he).2.2.2]

/-! ### The localization -/

theorem getLsbD_joined (bits : List (BitVec 32)) (i : ℕ) :
    (joined (· ||| ·) 0#32 bits).getLsbD i = bits.any fun b => b.getLsbD i := by
  induction bits with
  | nil => exact BitVec.getLsbD_zero
  | cons b bits ih => rw [joined_cons, BitVec.getLsbD_or, ih, List.any_cons]

theorem getLsbD_foldl {A : Type} {step : BitVec 32 → A → BitVec 32} {p : A → Bool} {i : ℕ}
    (hstep : ∀ b x, (step b x).getLsbD i = (b.getLsbD i || p x)) (xs : List A) (b : BitVec 32) :
    (xs.foldl step b).getLsbD i = (b.getLsbD i || xs.any p) := by
  induction xs generalizing b with
  | nil => exact (Bool.or_false _).symm
  | cons x xs ih => rw [List.foldl_cons, ih, hstep, List.any_cons, Bool.or_assoc]

theorem Data.rowBad_iff (d : Data) (index : ℕ) :
    d.rowBad index = true ↔ ∃ columnTile < d.tileColumns,
      (d.stat (index / d.rows) (index % d.rows / 32) columnTile).rows.getLsbD (index % d.rows % 32) = true := by
  unfold Data.rowBad
  dsimp only
  rw [getLsbD_foldl fun b columnTile =>
      BitVec.getLsbD_or (y := (d.stat (index / d.rows) (index % d.rows / 32) columnTile).rows),
    BitVec.getLsbD_zero, Bool.false_or, List.any_eq_true]
  simp only [List.mem_range]

theorem Data.columnBad_iff (d : Data) (column : ℕ) :
    d.columnBad column = true ↔ ∃ matrix < d.prefixCount, ∃ rowTile < d.tileRows,
      (d.stat matrix rowTile (column / 32)).columns.getLsbD (column % 32) = true := by
  unfold Data.columnBad
  rw [getLsbD_foldl fun b matrix => getLsbD_foldl
      (fun b rowTile => BitVec.getLsbD_or (y := (d.stat matrix rowTile (column / 32)).columns))
      (List.range d.tileRows) b,
    BitVec.getLsbD_zero, Bool.false_or, List.any_eq_true]
  simp only [List.any_eq_true, List.mem_range]

theorem getLsbD_bit {i k : ℕ} (hi : i < 32) : (1#32 <<< k).getLsbD i = decide (k = i) := by
  rw [BitVec.getLsbD_shiftLeft, BitVec.getLsbD_one, Bool.eq_iff_iff]
  simp only [hi, Bool.and_eq_true, Bool.not_eq_true', decide_eq_true_eq, decide_eq_false_iff_not, true_and]
  omega

namespace Launch

variable {l : Launch} {cells : List Cell} {prefixCount matrix rowTile columnTile i : ℕ} {shape : List ℕ}

/-- A bit of a summary is set by a mismatch in that row or column. -/
theorem getLsbD_badCells (position : Cell → ℕ) (hi : i < 32) :
    (joined (· ||| ·) 0#32 ((l.badCells cells).map fun c => 1#32 <<< position c)).getLsbD i = true ↔
      ∃ c ∈ cells, l.isBad c.index = true ∧ position c = i := by
  rw [getLsbD_joined, List.any_map, List.any_eq_true, badCells]
  simp only [List.mem_filter, Function.comp_apply, getLsbD_bit hi, decide_eq_true_eq, and_assoc]

theorem summary_rows (hi : i < 32) :
    (l.summary cells).rows.getLsbD i = true ↔ ∃ c ∈ cells, l.isBad c.index = true ∧ c.row = i :=
  getLsbD_badCells Cell.row hi

theorem summary_columns (hi : i < 32) :
    (l.summary cells).columns.getLsbD i = true ↔ ∃ c ∈ cells, l.isBad c.index = true ∧ c.column = i :=
  getLsbD_badCells Cell.column hi

/-- What the host is given. -/
def data (l : Launch) (shape : List ℕ) (prefixCount : ℕ) : Data :=
  ⟨shape, l.rows, l.columns, prefixCount, l.tileStats prefixCount⟩

theorem getD_tileStats {tile : ℕ} (h : tile < prefixCount * l.tileRows * l.tileColumns) :
    (l.tileStats prefixCount).getD tile emptyStats = l.summary (l.tileCells tile) := by
  rw [tileStats, List.getD_eq_getElem?_getD, List.getElem?_map, List.getElem?_range h]
  rfl

theorem stat_eq (hmatrix : matrix < prefixCount) (hrow : rowTile < l.tileRows) (hcolumn : columnTile < l.tileColumns) :
    (l.data shape prefixCount).stat matrix rowTile columnTile =
      l.summary (l.tileCells (l.tileAt matrix rowTile columnTile)) :=
  getD_tileStats (l.tileAt_lt hmatrix hrow hcolumn)

theorem rowBad_iff {index : ℕ} (h : index < prefixCount * l.rows) :
    (l.data shape prefixCount).rowBad index = true ↔
      ∃ column < l.columns, l.isBad (index * l.columns + column) = true := by
  have hpos : 0 < l.rows := Nat.pos_of_mul_pos_left (Nat.zero_lt_of_lt h)
  have hmatrix : index / l.rows < prefixCount := Nat.div_lt_of_lt_mul (by rwa [mul_comm] at h)
  have hrow : index % l.rows < l.rows := Nat.mod_lt _ hpos
  have hr : index % l.rows / 32 < l.tileRows := lt_ceilDiv ((Nat.div_add_mod' _ 32).trans_lt hrow)
  have hindex (column : ℕ) : l.indexAt (index / l.rows) (index % l.rows) column = index * l.columns + column := by
    rw [indexAt, Nat.div_add_mod']
  rw [Data.rowBad_iff]
  show (∃ columnTile < l.tileColumns, ((l.data shape prefixCount).stat (index / l.rows) (index % l.rows / 32)
    columnTile).rows.getLsbD (index % l.rows % 32) = true) ↔ _
  constructor
  · rintro ⟨columnTile, hk, hbit⟩
    rw [stat_eq hmatrix hr hk, summary_rows (Nat.mod_lt _ (by norm_num))] at hbit
    obtain ⟨c, hc, hbad, hsame⟩ := hbit
    obtain ⟨-, -, -, hcolumn, hcell⟩ := (l.mem_tileCells hr hk).mp hc
    refine ⟨_, hcolumn, ?_⟩
    rwa [hcell, hsame, Nat.div_add_mod', hindex] at hbad
  · rintro ⟨column, hcolumn, hbad⟩
    have hk : column / 32 < l.tileColumns := lt_ceilDiv ((Nat.div_add_mod' _ 32).trans_lt hcolumn)
    refine ⟨column / 32, hk, ?_⟩
    rw [stat_eq hmatrix hr hk, summary_rows (Nat.mod_lt _ (by norm_num))]
    exact ⟨_, l.cell_mem_tileCells hrow hcolumn, (hindex column).symm ▸ hbad, rfl⟩

theorem columnBad_iff {column : ℕ} (hcolumn : column < l.columns) :
    (l.data shape prefixCount).columnBad column = true ↔
      ∃ matrix < prefixCount, ∃ row < l.rows, l.isBad (l.indexAt matrix row column) = true := by
  have hk : column / 32 < l.tileColumns := lt_ceilDiv ((Nat.div_add_mod' _ 32).trans_lt hcolumn)
  rw [Data.columnBad_iff]
  show (∃ matrix < prefixCount, ∃ rowTile < l.tileRows, ((l.data shape prefixCount).stat matrix rowTile
    (column / 32)).columns.getLsbD (column % 32) = true) ↔ _
  constructor
  · rintro ⟨matrix, hmatrix, rowTile, hr, hbit⟩
    rw [stat_eq hmatrix hr hk, summary_columns (Nat.mod_lt _ (by norm_num))] at hbit
    obtain ⟨c, hc, hbad, hsame⟩ := hbit
    obtain ⟨-, -, hrow, -, hcell⟩ := (l.mem_tileCells hr hk).mp hc
    refine ⟨matrix, hmatrix, _, hrow, ?_⟩
    rwa [hcell, hsame, Nat.div_add_mod'] at hbad
  · rintro ⟨matrix, hmatrix, row, hrow, hbad⟩
    have hr : row / 32 < l.tileRows := lt_ceilDiv ((Nat.div_add_mod' _ 32).trans_lt hrow)
    refine ⟨matrix, hmatrix, row / 32, hr, ?_⟩
    rw [stat_eq hmatrix hr hk, summary_columns (Nat.mod_lt _ (by norm_num))]
    exact ⟨_, l.cell_mem_tileCells hrow hcolumn, hbad, rfl⟩

theorem tileBad_iff (hmatrix : matrix < prefixCount) (hrow : rowTile < l.tileRows)
    (hcolumn : columnTile < l.tileColumns) :
    (l.data shape prefixCount).tileBad (l.tileAt matrix rowTile columnTile) = true ↔
      ∃ i < 32, ∃ j < 32, rowTile * 32 + i < l.rows ∧ columnTile * 32 + j < l.columns ∧
        l.isBad (l.indexAt matrix (rowTile * 32 + i) (columnTile * 32 + j)) = true := by
  have hbad : (l.data shape prefixCount).tileBad (l.tileAt matrix rowTile columnTile) = true ↔
      ∃ c ∈ l.tileCells (l.tileAt matrix rowTile columnTile), l.isBad c.index = true := by
    have hcount (cells : List Cell) : (l.summary cells).bad = cells.countP fun c => l.isBad c.index := rfl
    rw [Data.tileBad, decide_eq_true_iff, data, getD_tileStats (l.tileAt_lt hmatrix hrow hcolumn), hcount,
      List.countP_pos_iff]
  rw [hbad]
  constructor
  · rintro ⟨c, hc, hcbad⟩
    obtain ⟨hr32, hc32, hr, hk, hcell⟩ := (l.mem_tileCells hrow hcolumn).mp hc
    exact ⟨c.row, hr32, c.column, hc32, hr, hk, hcell ▸ hcbad⟩
  · rintro ⟨i, hi, j, hj, hr, hk, hcbad⟩
    exact ⟨⟨i, j, _⟩, (l.mem_tileCells hrow hcolumn).mpr ⟨hi, hj, hr, hk, rfl⟩, hcbad⟩

end Launch

/-! ### Summaries of masks that agree -/

theorem limitedNonzeroIndices_congr {n : ℕ} {mask mask' : ℕ → Bool} (h : ∀ i < n, mask i = mask' i) :
    limitedNonzeroIndices n mask = limitedNonzeroIndices n mask' := by
  have hsame : trueIndices n mask = trueIndices n mask' :=
    List.filter_congr fun i hi => h i (List.mem_range.mp hi)
  rw [limitedNonzeroIndices, hsame, limitedNonzeroIndices]

theorem any_congr_of_mem {A : Type} {xs : List A} {p q : A → Bool} (h : ∀ x ∈ xs, p x = q x) : xs.any p = xs.any q := by
  rw [Bool.eq_iff_iff, List.any_eq_true, List.any_eq_true]
  exact exists_congr fun x => and_congr_right fun hx => by rw [h x hx]

theorem rowSummary_congr {rowShape : List ℕ} {bad bad' : ℕ → Bool} (h : ∀ i < rowShape.prod, bad i = bad' i) :
    rowSummary rowShape bad = rowSummary rowShape bad' := by
  rw [rowSummary, limitedNonzeroIndices_congr h, rowSummary]

theorem batchSummary_congr {batches : ℕ} {rowShape : List ℕ} {bad bad' : ℕ → Bool}
    (h : ∀ i < rowShape.prod, bad i = bad' i) :
    batchSummary batches rowShape bad = batchSummary batches rowShape bad' := by
  have hbatch : ∀ batch < batches,
      batchBad (rowShape.prod / batches) bad batch = batchBad (rowShape.prod / batches) bad' batch := by
    intro batch hbatch
    have hrow : ∀ row ∈ List.range (rowShape.prod / batches),
        bad (batch * (rowShape.prod / batches) + row) = bad' (batch * (rowShape.prod / batches) + row) := by
      intro row hrow
      exact h _ ((position_lt hbatch (List.mem_range.mp hrow)).trans_le (Nat.mul_div_le _ _))
    exact any_congr_of_mem hrow
  rw [batchSummary, limitedNonzeroIndices_congr hbatch, batchSummary]

theorem occupied_congr {shape : List ℕ} {mask mask' : ℕ → Bool} (h : ∀ i < shape.prod, mask i = mask' i)
    (axis position : ℕ) : occupied shape mask axis position = occupied shape mask' axis position :=
  any_congr_of_mem fun i hi => by rw [h i (List.mem_range.mp hi)]

theorem trueIndices_congr {n : ℕ} {mask mask' : ℕ → Bool} (h : ∀ i < n, mask i = mask' i) :
    trueIndices n mask = trueIndices n mask' := List.filter_congr fun i hi => h i (List.mem_range.mp hi)

namespace Launch

variable {l : Launch} {pre : List ℕ} {mask : ℕ → Bool}

section

variable (hmask : ∀ i < pre.prod * l.rows * l.columns, mask i = l.isBad i)
include hmask

theorem rowBad_eq (shape : List ℕ) {index : ℕ} (h : index < pre.prod * l.rows) :
    (l.data shape pre.prod).rowBad index = Correctness.rowBad l.columns mask index := by
  rw [Bool.eq_iff_iff, rowBad_iff h, Correctness.rowBad, List.any_eq_true]
  refine exists_congr fun column => ?_
  rw [List.mem_range]
  refine and_congr_right fun hcolumn => ?_
  rw [hmask _ (position_lt h hcolumn)]

theorem columnBad_eq {column : ℕ} (hcolumn : column < l.columns) :
    (l.data (pre ++ [l.rows, l.columns]) pre.prod).columnBad column =
      occupied (pre ++ [l.rows, l.columns]) mask (pre.length + 1) column := by
  have hprod : (pre ++ [l.rows, l.columns]).prod = pre.prod * l.rows * l.columns := by
    rw [List.prod_append, List.prod_cons, List.prod_singleton, mul_assoc]
  have hlast {matrix row c : ℕ} (hmatrix : matrix < pre.prod) (hrow : row < l.rows) (hc : c < l.columns) :
      (flatIndexToCoordinate (l.indexAt matrix row c) (pre ++ [l.rows, l.columns])).getD (pre.length + 1) 0 = c := by
    rw [flatIndexToCoordinate_eq, indexAt, (index_in_matrix hmatrix hrow hc).2, List.getD_eq_getElem?_getD,
      List.getElem?_append_right (by rw [RowMajor.length_coordinate]; omega), RowMajor.length_coordinate,
      Nat.add_sub_cancel_left]
    rfl
  rw [Bool.eq_iff_iff, columnBad_iff hcolumn, occupied, List.any_eq_true]
  constructor
  · rintro ⟨matrix, hmatrix, row, hrow, hbad⟩
    have hindex := position_lt (position_lt hmatrix hrow) hcolumn
    refine ⟨l.indexAt matrix row column, List.mem_range.mpr (hprod ▸ hindex), ?_⟩
    rw [hlast hmatrix hrow hcolumn, hmask (l.indexAt matrix row column) hindex, hbad]
    exact decide_eq_true rfl
  · rintro ⟨index, hindex, hboth⟩
    rw [List.mem_range, hprod] at hindex
    rw [Bool.and_eq_true, hmask _ hindex, decide_eq_true_iff] at hboth
    obtain ⟨matrix, hmatrix, row, hrow, c, hc, rfl⟩ := l.exists_indexAt hindex
    rw [hlast hmatrix hrow hc] at hboth
    obtain ⟨hbad, rfl⟩ := hboth
    exact ⟨matrix, hmatrix, row, hrow, hbad⟩

omit hmask in
theorem gridPosition_tileAt {matrix rowTile columnTile : ℕ} (hmatrix : matrix < pre.prod) (hrow : rowTile < l.tileRows)
    (hcolumn : columnTile < l.tileColumns) :
    gridPosition [pre.prod, l.tileRows, l.tileColumns] (l.tileAt matrix rowTile columnTile) =
      (matrix, rowTile, columnTile) := by
  have hone : matrix < [pre.prod].prod := by rwa [List.prod_singleton]
  have hcoordinate := (index_in_matrix hone hrow hcolumn).2
  rw [RowMajor.coordinate_singleton hmatrix] at hcoordinate
  rw [gridPosition, flatIndexToCoordinate_eq]
  exact hcoordinate ▸ rfl

theorem tileBad_eq (shape : List ℕ) {index : ℕ} (h : index < pre.prod * l.tileRows * l.tileColumns) :
    (l.data shape pre.prod).tileBad index =
      let (matrix, rowTile, columnTile) := gridPosition [pre.prod, l.tileRows, l.tileColumns] index
      Correctness.tileBad l.rows l.columns mask matrix rowTile columnTile := by
  obtain ⟨matrix, hmatrix, rowTile, hrow, columnTile, hcolumn, rfl⟩ := l.exists_tileAt h
  rw [gridPosition_tileAt hmatrix hrow hcolumn, Bool.eq_iff_iff, tileBad_iff hmatrix hrow hcolumn]
  dsimp only
  unfold Correctness.tileBad padded tileSize
  simp only [List.any_eq_true, List.mem_range, Bool.and_eq_true, decide_eq_true_eq, and_assoc]
  refine exists_congr fun i => and_congr_right fun _ => exists_congr fun j => and_congr_right fun _ => ?_
  refine and_congr_right fun hr => and_congr_right fun hk => ?_
  rw [hmask _ (position_lt (position_lt hmatrix hr) hk), indexAt]

theorem bounds_eq :
    (l.data (pre ++ [l.rows, l.columns]) pre.prod).bounds =
      mismatchAxisBounds (pre ++ [l.rows, l.columns]) mask (Correctness.rowBad l.columns mask) := by
  unfold Data.bounds mismatchAxisBounds
  show (List.range (pre ++ [l.rows, l.columns]).length).map _ = _
  refine List.map_congr_left fun axis haxis => ?_
  have hlength : (pre ++ [l.rows, l.columns]).length = pre.length + 2 := List.length_append
  have hindices : trueIndices ((pre ++ [l.rows, l.columns]).getD axis 0)
      (if axis + 1 < (pre ++ [l.rows, l.columns]).length then
        occupied (pre ++ [l.rows, l.columns]).dropLast (l.data (pre ++ [l.rows, l.columns]) pre.prod).rowBad axis
      else (l.data (pre ++ [l.rows, l.columns]) pre.prod).columnBad) =
    trueIndices ((pre ++ [l.rows, l.columns]).getD axis 0)
      (if axis + 1 < (pre ++ [l.rows, l.columns]).length then
        occupied (pre ++ [l.rows, l.columns]).dropLast (Correctness.rowBad l.columns mask) axis
      else occupied (pre ++ [l.rows, l.columns]) mask axis) := by
    refine trueIndices_congr fun position hposition => ?_
    split_ifs with hinner
    · refine occupied_congr (fun i hi => rowBad_eq hmask _ ?_) axis position
      rwa [dropLast_append_pair, List.prod_append, List.prod_singleton] at hi
    · rw [List.mem_range] at haxis
      obtain rfl : axis = pre.length + 1 := by omega
      refine columnBad_eq hmask ?_
      rw [List.getD_eq_getElem?_getD, List.getElem?_append_right (by omega), Nat.add_sub_cancel_left] at hposition
      exact hposition
  dsimp only
  rw [← hindices]
  rfl

theorem tileSummary_eq :
    (l.data (pre ++ [l.rows, l.columns]) pre.prod).tileSummary =
      tileSummary (pre ++ [l.rows, l.columns]) [pre.prod, l.tileRows, l.tileColumns] l.rows l.columns mask := by
  have hgrid : [pre.prod, l.tileRows, l.tileColumns].prod = pre.prod * l.tileRows * l.tileColumns := by
    rw [List.prod_cons, List.prod_cons, List.prod_singleton, mul_assoc]
  have hindices := limitedNonzeroIndices_congr (n := [pre.prod, l.tileRows, l.tileColumns].prod) fun index hindex =>
    tileBad_eq hmask (pre ++ [l.rows, l.columns]) (hgrid ▸ hindex)
  have hunit (rowTile : ℕ) : (rowTile + 1) * 32 = rowTile * 32 + 32 := Nat.succ_mul rowTile 32
  unfold Data.tileSummary tileSummary tileSize
  dsimp only
  rw [← hindices]
  simp only [hunit]
  rfl

/-- The bits of the tiles give the localization of the mask. -/
theorem localization_eq (hpos : 0 < (pre ++ [l.rows, l.columns]).prod) (outputPath : String) :
    (l.data (pre ++ [l.rows, l.columns]) pre.prod).localization outputPath =
      tensorOutputSpaceLocalization (pre ++ [l.rows, l.columns]) mask outputPath := by
  have hrank : ¬(pre ++ [l.rows, l.columns]).length < 2 := by
    rw [List.length_append]
    exact not_lt.mpr (Nat.le_add_left 2 _)
  have hrows : ∀ i < (pre ++ [l.rows]).prod,
      (l.data (pre ++ [l.rows, l.columns]) pre.prod).rowBad i = Correctness.rowBad l.columns mask i := by
    intro i hi
    rw [List.prod_append, List.prod_singleton] at hi
    exact rowBad_eq hmask _ hi
  have hshape : (l.data (pre ++ [l.rows, l.columns]) pre.prod).shape = pre ++ [l.rows, l.columns] := rfl
  have htiles : tileSummary (pre ++ [l.rows, l.columns]) [pre.prod, ceilDiv l.rows, ceilDiv l.columns] l.rows l.columns
      mask = (l.data (pre ++ [l.rows, l.columns]) pre.prod).tileSummary := (tileSummary_eq hmask).symm
  unfold Data.localization tensorOutputSpaceLocalization
  rw [hshape, if_neg hrank, if_neg hrank, lastTwo_append]
  dsimp only
  rw [prefixCount_eq hpos, dropLast_append_pair, htiles, ← bounds_eq hmask, ← rowSummary_congr hrows,
    ← batchSummary_congr hrows]

end

end Launch

/-! ### The host's result -/

namespace Launch

variable {l : Launch} {shape : List ℕ} {prefixCount : ℕ}

/-- The mask of the comparison by PyTorch. -/
def mask (l : Launch) : List Bool := (List.range l.elements.length).map l.isBad

theorem count_mask : l.mask.count true = (List.range l.elements.length).countP l.isBad := by
  rw [mask, List.count, List.countP_map]
  refine List.countP_congr fun i _ => ?_
  rw [Function.comp_apply, beq_true]

theorem getD_mask {i : ℕ} (h : i < l.elements.length) : l.mask.getD i false = l.isBad i := by
  rw [mask, List.getD_eq_getElem?_getD, List.getElem?_map, List.getElem?_range h]
  rfl

theorem mem_badIndices {i : ℕ} :
    i ∈ (List.range l.elements.length).filter l.isBad ↔ l.mask.getD i false = true := by
  rw [List.mem_filter, List.mem_range]
  by_cases h : i < l.elements.length
  · rw [getD_mask h, and_iff_right h]
  · refine iff_of_false (fun hi => h hi.1) ?_
    rw [List.getD_eq_getElem?_getD, mask, List.getElem?_map, List.getElem?_eq_none]
    · exact Bool.false_ne_true
    · rw [List.length_range]
      exact not_lt.mp h

theorem first_eq (hcount : l.elements.length = prefixCount * l.rows * l.columns)
    (hentry : ∀ i, Before (l.entry i) vacant) (hlarge : l.elements.length < 2 ^ 53) (hbad : true ∈ l.mask) :
    ((l.tileStats prefixCount).map Stats.first).foldl min int64Max = firstTrue l.mask := by
  obtain ⟨hmem, hleast⟩ := firstTrue_isLeast hbad
  have hin : firstTrue l.mask ∈ (List.range l.elements.length).filter l.isBad := mem_badIndices.mpr hmem
  rw [first_tileStats hcount hentry]
  refine joined_min_eq ?_ ⟨List.mem_map.mpr ⟨_, hin, rfl⟩, ?_⟩
  · have hlt := List.mem_range.mp (List.mem_of_mem_filter hin)
    unfold int64Max
    omega
  · intro x hx
    obtain ⟨i, hi, rfl⟩ := List.mem_map.mp hx
    exact Int.ofNat_le.mpr (hleast (mem_badIndices.mp hi))

theorem last_eq (hcount : l.elements.length = prefixCount * l.rows * l.columns)
    (hentry : ∀ i, Before (l.entry i) vacant) (hbad : true ∈ l.mask) :
    ((l.tileStats prefixCount).map Stats.last).foldl max (-1) =
      (l.mask.length - 1 - firstTrue l.mask.reverse : ℕ) := by
  obtain ⟨hmem, hgreatest⟩ := lastTrue_isGreatest hbad
  rw [last_tileStats hcount hentry]
  refine joined_max_eq (by omega) ⟨List.mem_map.mpr ⟨_, mem_badIndices.mpr hmem, rfl⟩, ?_⟩
  intro x hx
  obtain ⟨i, hi, rfl⟩ := List.mem_map.mp hx
  exact Int.ofNat_le.mpr (hgreatest (mem_badIndices.mp hi))

theorem curve_eq (hcount : l.elements.length = prefixCount * l.rows * l.columns)
    (hentry : ∀ i, Before (l.entry i) vacant) (hscore : ∀ i, 0 ≤ l.score i) :
    cumulativeCurve l.elements.length 0 ([2, 4, 8, 16].zip
      ((List.finRange 4).map fun k => ((l.tileStats prefixCount).map fun s => s.buckets k).sum)) =
        countCurve ((List.range l.elements.length).map l.score) [2, 4, 8, 16] := by
  have hnonneg : ∀ score ∈ (List.range l.elements.length).map l.score, 0 ≤ score := by
    intro score hmem
    obtain ⟨i, -, rfl⟩ := List.mem_map.mp hmem
    exact hscore i
  have hstart : ((List.range l.elements.length).map l.score).countP (fun score => score ≤ (-1 : ℚ)) = 0 := by
    refine List.countP_eq_zero.mpr fun score hmem hle => ?_
    linarith [hnonneg score hmem, of_decide_eq_true hle]
  have hlow : ∀ m ∈ [2, 4, 8, 16], (-1 : ℚ) ≤ (m : ℕ) := fun m _ => by linarith [Nat.cast_nonneg (α := ℚ) m]
  have hcurve := cumulativeCurve_eq ((List.range l.elements.length).map l.score) hlow (by decide)
  rw [hstart, List.length_map, List.length_range] at hcurve
  rw [← hcurve, ← countP_bucketOf hnonneg]
  simp only [buckets_tileStats hcount hentry]

theorem assemble_eq (torch : Torch) (hmax : 0 ≤ l.finiteMax) (hatol : 0 ≤ l.atol) (hrtol : 0 ≤ l.rtol)
    (hcount : l.elements.length = prefixCount * l.rows * l.columns) (hshape : l.elements.length = shape.prod)
    (hlarge : l.elements.length < 2 ^ 53) (outputPath : String)
    (hlocalization : (l.data shape prefixCount).localization outputPath =
      tensorOutputSpaceLocalization shape (fun index => l.mask.getD index false) outputPath) :
    (l.data shape prefixCount).assemble outputPath =
      compareMeasured { torch with topk := .stable } l.finiteMax l.atol shape
        (l.elements.map (measureFloating l.atol l.rtol)) (l.elements.countP fun e => e.2.isNan)
        (l.elements.countP fun e => e.2.isInf) outputPath := by
  have hentry (i : ℕ) : Before (l.entry i) vacant := entry_before hmax hatol hrtol i
  have hscore (i : ℕ) : 0 ≤ l.score i := score_nonneg hmax hatol hrtol i
  have hlength : (l.elements.map (measureFloating l.atol l.rtol)).length = shape.prod := by
    rw [List.length_map, hshape]
  have hmask : ((l.elements.map (measureFloating l.atol l.rtol)).map fun m => !m.1.le m.2) = l.mask := by
    rw [measured_eq, List.map_map]
    rfl
  have hscores : (l.elements.map (measureFloating l.atol l.rtol)).map (normalizeDifference l.finiteMax (l.atol = 0)) =
      (List.range l.elements.length).map l.score := by
    rw [measured_eq, List.map_map]
    rfl
  have hdiffs : (l.elements.map (measureFloating l.atol l.rtol)).map Prod.fst =
      (List.range l.elements.length).map fun i => (l.measured i).1 := by
    rw [measured_eq, List.map_map]
    rfl
  have hbad : ((l.tileStats prefixCount).map Stats.bad).sum = l.mask.count true := by
    rw [bad_tileStats hcount hentry, count_mask]
  have hle : l.mask.count true ≤ l.elements.length := by
    rw [count_mask]
    exact List.countP_le_length.trans_eq List.length_range
  unfold Data.assemble compareMeasured
  rw [hmask, hscores, hdiffs, hlength]
  show Comparison.mk _ _ _ _ _ _ _ _ = _
  have hstats : (l.data shape prefixCount).stats = l.tileStats prefixCount := rfl
  have hdata : (l.data shape prefixCount).shape = shape := rfl
  rw [hstats, hdata, hbad, maximum_tileStats hcount hentry, total_tileStats hcount hentry,
    nan_tileStats hcount hentry, inf_tileStats hcount hentry]
  by_cases hnone : l.mask.count true = 0
  · simp only [if_pos hnone]
  · simp only [if_neg hnone, mismatchCoordinateDiagnostics]
    have hin : true ∈ l.mask := List.count_pos_iff.mp (Nat.pos_of_ne_zero hnone)
    rw [← hshape, curve_eq hcount hentry hscore, first_eq hcount hentry hlarge hin, last_eq hcount hentry hin,
      top_tileStats hcount hentry (min_le_left _ _) ((min_le_right _ _).trans hle), leading_entries, hlocalization]
    have hchosen : ∀ index ∈ (descending ((List.range l.elements.length).map l.score)).take (min 3 (l.mask.count true)),
        l.score index = ((List.range l.elements.length).map l.score).getD index 0 := by
      intro index hindex
      have hlt := mem_descending.mp (List.mem_of_mem_take hindex)
      rw [List.length_map, List.length_range] at hlt
      rw [List.getD_eq_getElem?_getD, List.getElem?_map, List.getElem?_range hlt]
      rfl
    congr 2
    rw [List.map_map]
    refine List.map_congr_left fun index hindex => ?_
    rw [← hchosen index hindex]
    rfl

end Launch

/-! ### The comparison -/

variable {cub : BlockReduce} {torch : Torch} {finiteMax atol rtol : ℚ} {outputPath : String} {p : Pair .floating}

/-- The rows and columns of a launch, with the number of matrices. -/
theorem matrixShape_spec {shape : List ℕ} (hpos : 0 < shape.prod) :
    shape.prod = shape.prod / ((matrixShape shape).1 * (matrixShape shape).2) * (matrixShape shape).1 *
      (matrixShape shape).2 := by
  have hdvd : (matrixShape shape).1 * (matrixShape shape).2 ∣ shape.prod := by
    unfold matrixShape
    split_ifs with hrank
    · obtain ⟨pre, rows, columns, rfl⟩ := exists_last_two hrank
      rw [lastTwo_append, List.prod_append, List.prod_cons, List.prod_singleton]
      exact Dvd.intro_left _ rfl
    · rw [one_mul]
  rw [mul_assoc, Nat.div_mul_cancel hdvd]

theorem localization_data {l : Launch} {shape : List ℕ} (hpos : 0 < shape.prod)
    (hmatrix : matrixShape shape = (l.rows, l.columns)) (hsize : l.elements.length = shape.prod) (outputPath : String) :
    (l.data shape (shape.prod / (l.rows * l.columns))).localization outputPath =
      tensorOutputSpaceLocalization shape (fun index => l.mask.getD index false) outputPath := by
  by_cases hrank : 2 ≤ shape.length
  · obtain ⟨pre, rows, columns, rfl⟩ := exists_last_two hrank
    rw [matrixShape, if_pos hrank, lastTwo_append] at hmatrix
    obtain ⟨rfl, rfl⟩ := Prod.mk.inj hmatrix
    rw [prefixCount_eq hpos]
    refine Launch.localization_eq (fun i hi => Launch.getD_mask ?_) hpos outputPath
    rwa [hsize, List.prod_append, List.prod_cons, List.prod_singleton, ← mul_assoc]
  · unfold Data.localization tensorOutputSpaceLocalization
    rw [if_pos (not_le.mp hrank)]
    exact if_pos (not_le.mp hrank)

/-- The kernel's comparison of one pair of tensors is the comparison by PyTorch. -/
theorem compare_eq {c : Comparison} (hmax : 0 ≤ finiteMax) (h : compare cub finiteMax atol rtol outputPath p = some c) :
    compareTensors { torch with topk := .stable } finiteMax atol rtol outputPath .floating p = c := by
  obtain ⟨shape, elements, hsize⟩ := p
  unfold compare at h
  dsimp only at h
  split_ifs at h with hinput hbounds
  rw [Bool.or_eq_true, Bool.or_eq_true, decide_eq_true_iff, decide_eq_true_iff, decide_eq_true_iff, not_or, not_or,
    not_lt, not_lt] at hinput
  rw [Bool.or_eq_true, decide_eq_true_iff, decide_eq_true_iff, not_or, not_le] at hbounds
  obtain ⟨⟨hcount, hatol⟩, hrtol⟩ := hinput
  obtain rfl := Option.some.inj h
  let l : Launch := ⟨elements, finiteMax, atol, rtol, (matrixShape shape).1, (matrixShape shape).2⟩
  have hpos : 0 < shape.prod := Nat.pos_of_ne_zero hcount
  have hstats : (List.range (tileCount shape)).map (l.summarize cub) =
      l.tileStats (shape.prod / ((matrixShape shape).1 * (matrixShape shape).2)) :=
    List.map_congr_left fun tile _ => Launch.summarize_eq cub hmax hatol hrtol tile
  have hlocalization := localization_data (l := l) hpos rfl hsize outputPath
  have hassemble := Launch.assemble_eq (l := l) torch hmax hatol hrtol (hsize.trans (matrixShape_spec hpos)) hsize
    (hsize.trans_lt hbounds.2) outputPath hlocalization
  have hresult : compareTensors { torch with topk := .stable } finiteMax atol rtol outputPath .floating
      ⟨shape, elements, hsize⟩ = _ := if_neg (by rw [hsize]; exact hcount)
  rw [hresult, hstats]
  exact hassemble.symm

theorem tensor_eq (fused : Option BlockReduce) (hmax : 0 ≤ finiteMax) {k : Kind} (p : Pair k) :
    compareTensorsWithDiagnostics fused { torch with topk := .stable } finiteMax atol rtol outputPath k p =
      compareTensors { torch with topk := .stable } finiteMax atol rtol outputPath k p := by
  cases k with
  | floating =>
      cases fused with
      | none => rfl
      | some cub =>
          show (compare cub finiteMax atol rtol outputPath p).getD _ = _
          cases h : compare cub finiteMax atol rtol outputPath p with
          | none => rfl
          | some c => exact (compare_eq hmax h).symm
  | _ => rfl

mutual

theorem outputs_eq (fused : String → Option BlockReduce) (torch : Torch) (outputPath : String) : (o : OutputPair) →
    compareOutputs fused { torch with topk := .stable } outputPath o =
      Correctness.compareOutputs { torch with topk := .stable } outputPath o
  | .tensor dtype p =>
      tensor_eq (fused outputPath) ((by norm_num : (0 : ℚ) ≤ 16).trans (finfoMax_large dtype).le) p
  | .nested items => congrArg aggregate (children_eq fused torch outputPath items)
  | .other _ => rfl

theorem children_eq (fused : String → Option BlockReduce) (torch : Torch) (outputPath : String) :
    (items : List (ChildKey × OutputPair)) →
    compareChildren fused { torch with topk := .stable } outputPath items =
      Correctness.compareChildren { torch with topk := .stable } outputPath items
  | [] => rfl
  | (_, item) :: rest =>
      congrArg₂ List.cons (outputs_eq fused torch _ item) (children_eq fused torch outputPath rest)

end

/-- The comparison with the kernel is the comparison by PyTorch, as functions of the values. -/
theorem compareOutputs_eq (fused : String → Option BlockReduce) (torch : Torch) (outputPath : String) (o : OutputPair)
    (htopk : torch.topk = .stable) :
    compareOutputs fused torch outputPath o = Correctness.compareOutputs torch outputPath o := by
  obtain ⟨topk, hypot, hnonneg⟩ := torch
  obtain rfl : topk = .stable := htopk
  exact outputs_eq fused ⟨.stable, hypot, hnonneg⟩ outputPath o

end KernelGym.Correctness.Fused
