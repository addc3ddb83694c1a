import KernelGym.MismatchScores
import Mathlib.Algebra.Order.BigOperators.Group.List
import Mathlib.Data.List.Forall2

/-! The diagnostics of nested outputs are those of the mismatching elements, as long as no distorted element stands
beside a mismatch. -/

namespace KernelGym.Correctness

open Library Library.RowMajor

/-! ### The specification -/

/-- A leaf of an output: its path, its shape and what was measured at its elements, in row-major order. A value that
is no tensor has one element. -/
structure Leaf where
  outputPath : String
  shape : List ℕ
  measured : List (Extended × Extended)
  size : measured.length = shape.prod

/-- The coordinates of the elements beyond the tolerance. -/
def Leaf.badCoordinates (leaf : Leaf) : List (List ℕ) :=
  (((coordinates leaf.shape).zip leaf.measured).filter fun x => !passesAt 1 x.2).map Prod.fst

def Leaf.mismatches (leaf : Leaf) : List Record := leaf.badCoordinates.map (Record.mk leaf.outputPath)

def tensorLeaf (hypot : ℚ → ℚ → ℚ) (outputPath : String) (tolerance : ℚ) (k : Kind) (p : Pair k) : Leaf :=
  ⟨outputPath, p.shape, p.elements.map (measure hypot tolerance k), by rw [List.length_map, p.size]⟩

def otherLeaf (outputPath : String) (equal : Bool) : Leaf := ⟨outputPath, [], [measureEqual (equal, true)], rfl⟩

mutual

/-- The leaves of an output in traversal order. -/
def leaves (hypot : ℚ → ℚ → ℚ) (outputPath : String) : OutputPair → List Leaf
  | .tensor dtype p => [tensorLeaf hypot outputPath dtype.tolerance dtype.kind p]
  | .nested items => leavesOf hypot outputPath items
  | .other equal => [otherLeaf outputPath equal]

def leavesOf (hypot : ℚ → ℚ → ℚ) (outputPath : String) : List (ChildKey × OutputPair) → List Leaf
  | [] => []
  | (key, item) :: rest => leaves hypot (childOutputPath outputPath key) item ++ leavesOf hypot outputPath rest

end

def mismatches (leaves : List Leaf) : List Record := leaves.flatMap Leaf.mismatches

/-- The number of elements that pass at a multiple of the tolerance. -/
def passing (leaves : List Leaf) (multiplier : ℕ) : ℕ :=
  (leaves.map fun leaf => leaf.measured.countP (passesAt multiplier)).sum

def elementCount (leaves : List Leaf) : ℕ := (leaves.map fun leaf => leaf.measured.length).sum

/-- The localizations of the leaves with at least two dimensions, in order. -/
def Localizes (leaves : List Leaf) (localizations : List Localization) : Prop :=
  List.Forall₂ (fun leaf l => l.Exact leaf.outputPath leaf.shape (· ∈ leaf.badCoordinates))
    (leaves.filter fun leaf => 2 ≤ leaf.shape.length) localizations

/-- The diagnostics are those of the mismatching elements of the leaves. -/
structure Diagnoses (leaves : List Leaf) (c : Comparison) : Prop where
  first : c.coordinates.first = (mismatches leaves).head?
  last : c.coordinates.last = (mismatches leaves).getLast?
  /-- The records of the top are mismatches, each at most as often as it is one. -/
  top : (c.coordinates.top.map Prod.snd).Subperm (mismatches leaves)
  top_length : c.coordinates.top.length = min mismatchCoordinateTopK (mismatches leaves).length
  curve_keys : c.curve.map Prod.fst = elementCorrectnessCurveMultipliers
  curve_monotone : ∀ m ∈ elementCorrectnessCurveMultipliers, ∀ n ∈ elementCorrectnessCurveMultipliers, m ≤ n →
    curveCount c.curve m ≤ curveCount c.curve n
  curve_le : ∀ m ∈ elementCorrectnessCurveMultipliers, curveCount c.curve m ≤ c.total
  curve_full : ∀ m ∈ elementCorrectnessCurveMultipliers, curveCount c.curve m = c.total →
    ∀ leaf ∈ leaves, ∀ x ∈ leaf.measured, passesAt m x = true
  curve_one : curveCount c.curve 1 = c.total - (mismatches leaves).length
  total : c.total = elementCount leaves
  localizations : Localizes leaves c.coordinates.localizations

mutual

/-- In every tensor with a mismatch no element is distorted. -/
def Faithful (hypot : ℚ → ℚ → ℚ) : OutputPair → Prop
  | .tensor dtype p =>
    (∀ e ∈ p.elements, passesAt 1 (measure hypot dtype.tolerance dtype.kind e) = true) ∨
      ∀ e ∈ p.elements, ¬Distorted dtype.kind e
  | .nested items => FaithfulAll hypot items
  | .other _ => True

def FaithfulAll (hypot : ℚ → ℚ → ℚ) : List (ChildKey × OutputPair) → Prop
  | [] => True
  | (_, item) :: rest => Faithful hypot item ∧ FaithfulAll hypot rest

end

/-! ### What the comparison of part of an output has to keep -/

/-- The diagnostics with the exact curve, before the top is cut. -/
structure Tracks (leaves : List Leaf) (c : Comparison) : Prop where
  first : c.coordinates.first = (mismatches leaves).head?
  last : c.coordinates.last = (mismatches leaves).getLast?
  top : (c.coordinates.top.map Prod.snd).Subperm (mismatches leaves)
  top_length : min mismatchCoordinateTopK c.coordinates.top.length =
    min mismatchCoordinateTopK (mismatches leaves).length
  curve : c.curve = elementCorrectnessCurveMultipliers.map fun m => (m, passing leaves m)
  total : c.total = elementCount leaves
  localizations : Localizes leaves c.coordinates.localizations

variable {ls ls' : List Leaf} {acc child : Comparison}

theorem curveCount_map {m : ℕ} (f : ℕ → ℕ) (hm : m ∈ elementCorrectnessCurveMultipliers) :
    curveCount (elementCorrectnessCurveMultipliers.map fun m => (m, f m)) m = f m := by
  have hcases : m = 1 ∨ m = 2 ∨ m = 4 ∨ m = 8 ∨ m = 16 := by
    simpa [elementCorrectnessCurveMultipliers] using hm
  rcases hcases with rfl | rfl | rfl | rfl | rfl <;> rfl

theorem tracks_none : Tracks [] noChildren where
  first := rfl
  last := rfl
  top := List.nil_subperm
  top_length := rfl
  curve := rfl
  total := rfl
  localizations := List.Forall₂.nil

/-- One round of the loop over the children. -/
theorem Tracks.addChild (hacc : Tracks ls acc) (hchild : Tracks ls' child) : Tracks (ls ++ ls') (addChild acc child) := by
  have hmismatches : mismatches (ls ++ ls') = mismatches ls ++ mismatches ls' := List.flatMap_append
  constructor
  · rw [hmismatches, List.head?_append, ← hacc.first, ← hchild.first]
    rfl
  · rw [hmismatches, List.getLast?_append, ← hacc.last, ← hchild.last]
    rfl
  · rw [hmismatches]
    have happend : ((Correctness.addChild acc child).coordinates.top.map Prod.snd) =
        acc.coordinates.top.map Prod.snd ++ child.coordinates.top.map Prod.snd := List.map_append
    rw [happend]
    exact hacc.top.append hchild.top
  · have hlength : (Correctness.addChild acc child).coordinates.top.length =
        acc.coordinates.top.length + child.coordinates.top.length := List.length_append
    have h1 := hacc.top_length
    have h2 := hchild.top_length
    rw [hmismatches, hlength, List.length_append]
    omega
  · have hcurve : (Correctness.addChild acc child).curve = elementCorrectnessCurveMultipliers.map fun m =>
        (m, curveCount acc.curve m + curveCount child.curve m) := rfl
    rw [hcurve, hacc.curve, hchild.curve]
    refine List.map_congr_left fun m hm => ?_
    rw [curveCount_map _ hm, curveCount_map _ hm, passing, passing, passing, List.map_append, List.sum_append]
  · rw [elementCount, List.map_append, List.sum_append]
    exact congrArg₂ (· + ·) hacc.total hchild.total
  · rw [Localizes, List.filter_append]
    exact List.rel_append hacc.localizations hchild.localizations

theorem tracks_fold {children : List Comparison} {lss : List (List Leaf)} (h : List.Forall₂ Tracks lss children)
    (hacc : Tracks ls acc) : Tracks (ls ++ lss.flatten) (children.foldl addChild acc) := by
  induction h generalizing ls acc with
  | nil =>
      rw [List.flatten_nil, List.append_nil]
      exact hacc
  | cons hchild _ ih =>
      rw [List.flatten_cons, ← List.append_assoc]
      exact ih (hacc.addChild hchild)

theorem sortedByScore_perm (top : List (Extended × Record)) : (sortedByScore top).Perm top :=
  List.perm_insertionSort _ _

/-- Sorting and cutting the top leaves mismatches, and as many as there can be. -/
theorem tracks_aggregate {children : List Comparison} {lss : List (List Leaf)}
    (h : List.Forall₂ Tracks lss children) :
    Tracks lss.flatten (aggregate children) ∧ (aggregate children).coordinates.top.length ≤ mismatchCoordinateTopK := by
  have hfold := tracks_fold h tracks_none
  rw [List.nil_append] at hfold
  generalize hacc : children.foldl addChild noChildren = acc at hfold
  have hcoordinates : (aggregate children).coordinates =
      { acc.coordinates with top := (sortedByScore acc.coordinates.top).take mismatchCoordinateTopK } := by
    rw [← hacc]
    rfl
  have hlength : (sortedByScore acc.coordinates.top).length = acc.coordinates.top.length :=
    (sortedByScore_perm _).length_eq
  refine ⟨⟨?_, ?_, ?_, ?_, ?_, ?_, ?_⟩, ?_⟩
  · rw [hcoordinates]
    exact hfold.first
  · rw [hcoordinates]
    exact hfold.last
  · rw [hcoordinates]
    have hsub : (((sortedByScore acc.coordinates.top).take mismatchCoordinateTopK).map Prod.snd).Subperm
        (acc.coordinates.top.map Prod.snd) :=
      (((List.take_sublist _ _).map _).subperm).trans ((sortedByScore_perm _).map _).subperm
    exact hsub.trans hfold.top
  · rw [hcoordinates, List.length_take, hlength, ← min_assoc, min_self]
    exact hfold.top_length
  · rw [← hfold.curve, ← hacc]
    rfl
  · rw [← hfold.total, ← hacc]
    rfl
  · rw [hcoordinates]
    exact hfold.localizations
  · rw [hcoordinates, List.length_take]
    exact min_le_left _ _

/-! ### One leaf -/

/-- The mask of the elements beyond the tolerance. -/
def Leaf.mask (leaf : Leaf) : List Bool := leaf.measured.map fun x => !passesAt 1 x

variable {leaf : Leaf} {torch : Torch} {scores : List ℚ} {c : Comparison}

theorem Leaf.length_mask (leaf : Leaf) : leaf.mask.length = leaf.shape.prod := by
  rw [Leaf.mask, List.length_map, leaf.size]

theorem Leaf.badCoordinates_eq (leaf : Leaf) :
    leaf.badCoordinates = (maskIndices leaf.mask).map (coordinate leaf.shape) := by
  have hmeasured := map_getD_range leaf.measured (.nan, .nan)
  rw [Leaf.badCoordinates, ← map_coordinate_range, ← leaf.size]
  conv_lhs => rw [← hmeasured]
  rw [List.length_map, List.length_range, List.zip_map', List.filter_map, List.map_map, maskIndices, trueIndices, Leaf.mask,
    List.length_map]
  refine congrArg _ (List.filter_congr fun index hindex => ?_)
  have hlt : index < leaf.measured.length := List.mem_range.mp hindex
  rw [Function.comp_apply, List.getD_eq_getElem?_getD, List.getD_eq_getElem?_getD, List.getElem?_map,
    List.getElem?_eq_getElem hlt]
  rfl

theorem Leaf.mismatches_eq (leaf : Leaf) :
    leaf.mismatches =
      (maskIndices leaf.mask).map fun index => ⟨leaf.outputPath, flatIndexToCoordinate index leaf.shape⟩ := by
  rw [Leaf.mismatches, Leaf.badCoordinates_eq, List.map_map]
  refine List.map_congr_left fun index _ => ?_
  rw [Function.comp_apply, flatIndexToCoordinate_eq]

theorem mismatches_singleton : mismatches [leaf] = leaf.mismatches := List.flatMap_singleton _ _

theorem Leaf.length_mismatches (leaf : Leaf) : leaf.mismatches.length = leaf.mask.count true := by
  rw [Leaf.mismatches_eq, List.length_map, length_maskIndices]

/-- The mask over the flat indices marks the bad coordinates. -/
theorem Leaf.marks (leaf : Leaf) :
    Marks leaf.shape (fun index => leaf.mask.getD index false) (· ∈ leaf.badCoordinates) where
  inside c hc := by
    rw [Leaf.badCoordinates_eq] at hc
    obtain ⟨index, hindex, rfl⟩ := List.mem_map.mp hc
    exact coordinate_inside (leaf.length_mask ▸ (mem_trueIndices.mp hindex).1)
  iff n hn := by
    rw [Leaf.badCoordinates_eq, List.mem_map, ← mem_maskIndices]
    constructor
    · exact fun h => ⟨n, h, rfl⟩
    · rintro ⟨index, hindex, hsame⟩
      have hlt : index < leaf.shape.prod := leaf.length_mask ▸ (mem_trueIndices.mp hindex).1
      exact coordinate_injective hlt hn hsame ▸ hindex

theorem localizes_singleton {l? : Option Localization} (hnone : leaf.shape.length < 2 → l? = none)
    (hsome : 2 ≤ leaf.shape.length →
      ∃ l, l? = some l ∧ l.Exact leaf.outputPath leaf.shape (· ∈ leaf.badCoordinates)) :
    Localizes [leaf] l?.toList := by
  by_cases hrank : 2 ≤ leaf.shape.length
  · obtain ⟨l, rfl, hexact⟩ := hsome hrank
    rw [Localizes, List.filter_cons, if_pos (decide_eq_true hrank), List.filter_nil]
    exact List.Forall₂.cons hexact List.Forall₂.nil
  · rw [hnone (not_le.mp hrank), Localizes, List.filter_cons_of_neg (by rw [decide_eq_true_iff]; exact hrank)]
    exact List.Forall₂.nil

/-- A leaf without mismatches. -/
theorem tracks_perfect (hnone : leaf.mask.count true = 0) (htotal : c.total = leaf.measured.length)
    (hcurve : c.curve = elementCorrectnessCurveMultipliers.map fun m => (m, leaf.measured.countP (passesAt m)))
    (hcoordinates : c.coordinates = emptyDiagnostics leaf.shape leaf.outputPath) : Tracks [leaf] c := by
  have hmismatches : leaf.mismatches = [] := List.length_eq_zero_iff.mp (leaf.length_mismatches.trans hnone)
  have hbad : leaf.badCoordinates = [] := List.map_eq_nil_iff.mp hmismatches
  constructor
  · rw [mismatches_singleton, hmismatches, hcoordinates]
    rfl
  · rw [mismatches_singleton, hmismatches, hcoordinates]
    rfl
  · rw [hcoordinates]
    exact List.nil_subperm
  · rw [mismatches_singleton, hmismatches, hcoordinates]
    rfl
  · exact hcurve
  · exact htotal
  · rw [hcoordinates]
    refine localizes_singleton (fun hrank => if_pos hrank) fun hrank => perfectLocalization_exact hrank fun c hc => ?_
    rw [hbad] at hc
    exact List.not_mem_nil hc

/-- A leaf with a mismatch, whose scores are higher where its mask is set. -/
theorem tracks_mismatching (hsome : leaf.mask.count true ≠ 0) (hscores : scores.length = leaf.mask.length)
    (hseparate : ∀ i < leaf.mask.length, ∀ j < leaf.mask.length, leaf.mask.getD i false = true →
      leaf.mask.getD j false = false → scores.getD j 0 < scores.getD i 0)
    (htotal : c.total = leaf.measured.length)
    (hcurve : c.curve = elementCorrectnessCurveMultipliers.map fun m => (m, leaf.measured.countP (passesAt m)))
    (hcoordinates : c.coordinates =
      mismatchCoordinateDiagnostics torch leaf.shape scores leaf.mask (leaf.mask.count true) leaf.outputPath) :
    Tracks [leaf] c ∧ c.coordinates.top.length ≤ mismatchCoordinateTopK := by
  have htrue : true ∈ leaf.mask := List.count_pos_iff.mp (Nat.pos_of_ne_zero hsome)
  obtain ⟨hfirst, hlast⟩ := maskIndices_ends htrue
  rw [mismatchCoordinateDiagnostics, if_neg hsome] at hcoordinates
  have hk : min mismatchCoordinateTopK (leaf.mask.count true) ≤ scores.length := by
    rw [hscores]
    exact (min_le_right _ _).trans List.count_le_length
  have htop := topk_selected torch.topk hscores (min_le_right mismatchCoordinateTopK _) hseparate
  have hlength : c.coordinates.top.length = min mismatchCoordinateTopK (leaf.mask.count true) := by
    rw [hcoordinates, List.length_map, torch.topk.length _ _ hk]
  refine ⟨⟨?_, ?_, ?_, ?_, ?_, ?_, ?_⟩, ?_⟩
  · rw [mismatches_singleton, leaf.mismatches_eq, List.head?_map, hfirst, hcoordinates]
    rfl
  · rw [mismatches_singleton, leaf.mismatches_eq, List.getLast?_map, hlast, hcoordinates]
    rfl
  · rw [mismatches_singleton, leaf.mismatches_eq, hcoordinates, List.map_map]
    obtain ⟨indices, hperm, hsub⟩ := List.subperm_of_subset (torch.topk.nodup scores _) htop
    exact ⟨indices.map _, hperm.map _, hsub.map _⟩
  · rw [hlength, mismatches_singleton, leaf.length_mismatches, ← min_assoc, min_self]
  · exact hcurve
  · exact htotal
  · rw [hcoordinates]
    refine localizes_singleton (fun hrank => if_pos hrank) fun hrank =>
      tensorOutputSpaceLocalization_exact hrank leaf.marks ?_
    obtain ⟨index, hindex⟩ : ∃ index, index ∈ maskIndices leaf.mask := ⟨_, mem_maskIndices.mpr (firstTrue_isLeast htrue).1⟩
    exact ⟨_, leaf.badCoordinates_eq ▸ List.mem_map_of_mem hindex⟩
  · rw [hlength]
    exact min_le_left _ _

/-! ### Tensors -/

variable {finiteMax tolerance : ℚ} {shape : List ℕ} {measured : List (Extended × Extended)} {outputPath : String}

theorem passesAt_one (x : Extended × Extended) : passesAt 1 x = x.1.le x.2 := by
  have hone : x.2.mul (.finite ((1 : ℕ) : ℚ)) = x.2 := by
    rw [Nat.cast_one]
    cases x.2 with
    | finite t => rw [Extended.mul_finite, mul_one]
    | infinite negative => rw [Extended.infinite_mul_of_pos one_pos]
    | nan => rfl
  rw [passesAt, hone]

theorem Leaf.count_mask_eq (leaf : Leaf) : leaf.mask.count true = leaf.measured.countP fun x => !passesAt 1 x := by
  rw [Leaf.mask, List.count, List.countP_map]
  exact List.countP_congr fun x _ => by simp

/-- The elements beyond the tolerance and those within it make up the whole. -/
theorem Leaf.length_sub_count (leaf : Leaf) :
    leaf.measured.length - leaf.mask.count true = leaf.measured.countP (passesAt 1) := by
  have hsplit := List.length_eq_countP_add_countP (passesAt 1) (l := leaf.measured)
  have hsame : leaf.measured.countP (fun x => decide ¬passesAt 1 x = true) = leaf.mask.count true := by
    rw [Leaf.count_mask_eq]
    exact List.countP_congr fun x _ => by simp
  omega

theorem Leaf.count_mask_eq_zero : leaf.mask.count true = 0 ↔ ∀ x ∈ leaf.measured, passesAt 1 x = true := by
  rw [Leaf.count_mask_eq, List.countP_eq_zero]
  simp

/-- The curve of a tensor with a mismatch, from the scores of regular pairs. -/
theorem curve_of_scores (hmax : 16 < finiteMax) (hregular : ∀ x ∈ leaf.measured, Regular x) :
    (1, leaf.measured.length - leaf.mask.count true) ::
        countCurve (leaf.measured.map (normalizeDifference finiteMax false)) [2, 4, 8, 16] =
      elementCorrectnessCurveMultipliers.map fun m => (m, leaf.measured.countP (passesAt m)) := by
  have hcount (m : ℕ) (hpos : 1 ≤ m) (hle : m ≤ 16) :
      (leaf.measured.map (normalizeDifference finiteMax false)).countP (fun score : ℚ => score ≤ m) =
        leaf.measured.countP (passesAt m) := by
    have hbelow : (m : ℚ) < finiteMax := lt_of_le_of_lt (by exact_mod_cast hle) hmax
    rw [List.countP_map]
    refine List.countP_congr fun x hx => ?_
    rw [Function.comp_apply, decide_eq_true_iff]
    exact score_le_iff (hregular x hx) hpos hbelow
  have hsorted : [2, 4, 8, 16].Pairwise (· ≤ ·) := by decide
  rw [leaf.length_sub_count, countCurve_eq hsorted]
  refine congrArg (List.cons _) (List.map_congr_left fun m hm => ?_)
  have hcases : m = 2 ∨ m = 4 ∨ m = 8 ∨ m = 16 := by simpa using hm
  rw [hcount m (by omega) (by omega)]

/-- Among regular pairs the scores beyond the tolerance are the higher ones. -/
theorem scores_separate (hmax : 16 < finiteMax) (hregular : ∀ x ∈ leaf.measured, Regular x) {i j : ℕ}
    (hi : i < leaf.mask.length) (hj : j < leaf.mask.length) (hbad : leaf.mask.getD i false = true)
    (hgood : leaf.mask.getD j false = false) :
    (leaf.measured.map (normalizeDifference finiteMax false)).getD j 0 <
      (leaf.measured.map (normalizeDifference finiteMax false)).getD i 0 := by
  rw [Leaf.mask, List.length_map] at hi hj
  have hone : ((1 : ℕ) : ℚ) < finiteMax := lt_of_le_of_lt (by norm_num) hmax
  have hscore (n : ℕ) (hn : n < leaf.measured.length) :
      (leaf.measured.map (normalizeDifference finiteMax false)).getD n 0 ≤ (1 : ℕ) ↔
        leaf.mask.getD n false = false := by
    rw [List.getD_eq_getElem?_getD, List.getD_eq_getElem?_getD, Leaf.mask, List.getElem?_map, List.getElem?_map,
      List.getElem?_eq_getElem hn]
    refine (score_le_iff (hregular _ (List.getElem_mem hn)) le_rfl hone).trans ?_
    exact (Bool.not_eq_eq_eq_not (a := passesAt 1 leaf.measured[n]) (b := false)).symm
  have hlow := (hscore j hj).mpr hgood
  have hhigh : ¬(leaf.measured.map (normalizeDifference finiteMax false)).getD i 0 ≤ (1 : ℕ) := fun h =>
    Bool.noConfusion (hbad.symm.trans ((hscore i hi).mp h))
  exact lt_of_le_of_lt hlow (not_le.mp hhigh)

/-- The comparison of differences with tolerances. -/
theorem tracks_measured (hmax : 16 < finiteMax) (htolerance : tolerance ≠ 0) (nanCount infCount : ℕ)
    (hmono : ∀ x ∈ leaf.measured, ∀ m ∈ elementCorrectnessCurveMultipliers, passesAt 1 x = true → passesAt m x = true)
    (hfaithful : (∀ x ∈ leaf.measured, passesAt 1 x = true) ∨ ∀ x ∈ leaf.measured, Regular x) :
    Tracks [leaf] (compareMeasured torch finiteMax tolerance leaf.shape leaf.measured nanCount infCount leaf.outputPath) ∧
      (compareMeasured torch finiteMax tolerance leaf.shape leaf.measured nanCount infCount
        leaf.outputPath).coordinates.top.length ≤ mismatchCoordinateTopK := by
  have hmask : (leaf.measured.map fun m => !m.1.le m.2) = leaf.mask :=
    List.map_congr_left fun x _ => by rw [passesAt_one]
  unfold compareMeasured
  rw [hmask, decide_eq_false htolerance]
  dsimp only
  by_cases hnone : leaf.mask.count true = 0
  · have hpass := Leaf.count_mask_eq_zero.mp hnone
    rw [if_pos hnone, if_pos hnone]
    refine ⟨tracks_perfect hnone rfl (List.map_congr_left fun m hm => ?_) rfl, Nat.zero_le _⟩
    rw [List.countP_eq_length.mpr fun x hx => hmono x hx m hm (hpass x hx)]
  · have hregular := hfaithful.resolve_left fun hpass => hnone (Leaf.count_mask_eq_zero.mpr hpass)
    rw [if_neg hnone, if_neg hnone]
    refine tracks_mismatching hnone ?_ (fun i hi j hj => scores_separate hmax hregular hi hj) rfl
      (curve_of_scores hmax hregular) rfl
    rw [List.length_map, Leaf.mask, List.length_map]

/-- The comparison for equality. -/
theorem tracks_equal (hmax : 0 < finiteMax)
    (hequal : ∀ x ∈ leaf.measured, ∀ m : ℕ, passesAt m x = passesAt 1 x) :
    Tracks [leaf] (compareEqual torch finiteMax leaf.shape leaf.mask leaf.outputPath) ∧
      (compareEqual torch finiteMax leaf.shape leaf.mask leaf.outputPath).coordinates.top.length ≤
        mismatchCoordinateTopK := by
  have hlength : leaf.mask.length = leaf.measured.length := List.length_map _
  have hcurve : fullCurve (leaf.mask.length - leaf.mask.count true) =
      elementCorrectnessCurveMultipliers.map fun m => (m, leaf.measured.countP (passesAt m)) := by
    refine List.map_congr_left fun m _ => ?_
    rw [hlength, leaf.length_sub_count]
    exact congrArg _ (List.countP_congr fun x hx => by rw [hequal x hx m])
  unfold compareEqual
  dsimp only
  by_cases hnone : leaf.mask.count true = 0
  · rw [if_pos hnone, if_pos hnone]
    exact ⟨tracks_perfect hnone hlength hcurve rfl, Nat.zero_le _⟩
  · rw [if_neg hnone, if_neg hnone]
    refine tracks_mismatching hnone (List.length_map _) (fun i hi j hj hbad hgood => ?_) hlength hcurve rfl
    rw [getD_iff] at hbad
    have hgood' : leaf.mask[j]? = some false := by
      rw [List.getElem?_eq_getElem hj]
      rw [List.getD_eq_getElem?_getD, List.getElem?_eq_getElem hj] at hgood
      exact congrArg some hgood
    rw [List.getD_eq_getElem?_getD, List.getD_eq_getElem?_getD, List.getElem?_map, List.getElem?_map, hbad, hgood']
    exact hmax

/-! ### Nested outputs -/

theorem large_of_mantissa {mantissa : ℚ} {exponent : ℕ} (hm : 1 ≤ mantissa) (he : 5 ≤ exponent) :
    16 < mantissa * 2 ^ exponent := by
  have hpow : (2 : ℚ) ^ 5 ≤ 2 ^ exponent := pow_le_pow_right₀ one_le_two he
  calc (16 : ℚ) < 1 * 2 ^ 5 := by norm_num
    _ ≤ mantissa * 2 ^ exponent := mul_le_mul hm hpow (by positivity) (by linarith)

theorem finfoMax_large (dtype : DType) : 16 < dtype.finfoMax := by
  cases dtype with
  | float16 => norm_num [DType.finfoMax]
  | complex32 => norm_num [DType.finfoMax]
  | _ => exact large_of_mantissa (by norm_num) (by norm_num)

theorem tolerance_pos {dtype : DType} (h : dtype.kind ≠ .bool) : 0 < dtype.tolerance := by
  cases dtype with
  | bool => exact absurd rfl h
  | _ => norm_num [DType.tolerance]

theorem tolerance_le (dtype : DType) : dtype.tolerance ≤ 1 / 100 := by
  cases dtype <;> norm_num [DType.tolerance]

theorem multiplier_bounds {m : ℕ} (hm : m ∈ elementCorrectnessCurveMultipliers) : 1 ≤ m ∧ m ≤ 16 := by
  have hcases : m = 1 ∨ m = 2 ∨ m = 4 ∨ m = 8 ∨ m = 16 := by
    simpa [elementCorrectnessCurveMultipliers] using hm
  omega

theorem tolerance_mul_le (dtype : DType) {m : ℕ} (hm : m ∈ elementCorrectnessCurveMultipliers) :
    dtype.tolerance * m ≤ 1 := by
  have hle : (m : ℚ) ≤ 16 := by exact_mod_cast (multiplier_bounds hm).2
  calc dtype.tolerance * m ≤ 1 / 100 * 16 :=
        mul_le_mul (tolerance_le dtype) hle (Nat.cast_nonneg m) (by norm_num)
    _ ≤ 1 := by norm_num

/-- The mask of a comparison for equality. -/
theorem tracks_equal_elements {A : Type} [DecidableEq A] (hmax : 16 < finiteMax) (elements : List (A × A))
    (hsize : (elements.map measureEqual).length = shape.prod) :
    Tracks [⟨outputPath, shape, elements.map measureEqual, hsize⟩]
        (compareEqual torch finiteMax shape (elements.map fun e => decide (e.1 ≠ e.2)) outputPath) ∧
      (compareEqual torch finiteMax shape (elements.map fun e => decide (e.1 ≠ e.2))
        outputPath).coordinates.top.length ≤ mismatchCoordinateTopK := by
  have hmask : (Leaf.mk outputPath shape (elements.map measureEqual) hsize).mask =
      elements.map fun e => decide (e.1 ≠ e.2) := by
    rw [Leaf.mask, List.map_map]
    refine List.map_congr_left fun e _ => ?_
    rw [Function.comp_apply, passesAt_equal, decide_not]
  rw [← hmask]
  refine tracks_equal (by linarith) fun x hx m => ?_
  obtain ⟨e, -, rfl⟩ := List.mem_map.mp hx
  rw [passesAt_equal, passesAt_equal]

/-- The comparison of one tensor. -/
theorem tracks_tensor (hmax : 16 < finiteMax) {k : Kind} (hpos : k ≠ .bool → 0 < tolerance)
    (hsmall : ∀ m ∈ elementCorrectnessCurveMultipliers, tolerance * m ≤ 1) (p : Pair k)
    (h : (∀ e ∈ p.elements, passesAt 1 (measure torch.hypot tolerance k e) = true) ∨
      ∀ e ∈ p.elements, ¬Distorted k e) :
    Tracks [tensorLeaf torch.hypot outputPath tolerance k p]
        (compareTensors torch finiteMax tolerance tolerance outputPath k p) ∧
      (compareTensors torch finiteMax tolerance tolerance outputPath k p).coordinates.top.length ≤
        mismatchCoordinateTopK := by
  unfold compareTensors
  split_ifs with hempty
  · have hmeasured : (tensorLeaf torch.hypot outputPath tolerance k p).measured = [] :=
      List.map_eq_nil_iff.mpr (List.length_eq_zero_iff.mp hempty)
    have hnone : (tensorLeaf torch.hypot outputPath tolerance k p).mask.count true = 0 := by
      rw [Leaf.mask, hmeasured]
      rfl
    exact ⟨tracks_perfect hnone (by rw [hmeasured]; rfl) (by rw [hmeasured]; rfl) rfl, Nat.zero_le _⟩
  · have hmono (hk : k ≠ .bool) : ∀ x ∈ (tensorLeaf torch.hypot outputPath tolerance k p).measured,
        ∀ m ∈ elementCorrectnessCurveMultipliers, passesAt 1 x = true → passesAt m x = true := by
      intro x hx m hm hpass
      obtain ⟨e, -, rfl⟩ := List.mem_map.mp hx
      exact passesAt_mono torch (hpos hk) le_rfl (multiplier_bounds hm).1 (hsmall m hm) k e hpass
    have hfaithful (hk : k ≠ .bool) (hk' : k ≠ .uint8) :
        (∀ x ∈ (tensorLeaf torch.hypot outputPath tolerance k p).measured, passesAt 1 x = true) ∨
          ∀ x ∈ (tensorLeaf torch.hypot outputPath tolerance k p).measured, Regular x :=
      h.imp List.forall_mem_map.mpr fun hclean =>
        List.forall_mem_map.mpr fun e he => regular_measure torch (hpos hk) hk hk' (hclean e he)
    cases k with
    | bool => exact tracks_equal_elements (A := Bool) hmax p.elements ((List.length_map _).trans p.size)
    | uint8 => exact tracks_equal_elements (A := BitVec 8) hmax p.elements ((List.length_map _).trans p.size)
    | signed w =>
        exact tracks_measured hmax (hpos Kind.noConfusion).ne' 0 0 (hmono Kind.noConfusion)
          (hfaithful Kind.noConfusion Kind.noConfusion)
    | floating =>
        exact tracks_measured hmax (hpos Kind.noConfusion).ne' _ _ (hmono Kind.noConfusion)
          (hfaithful Kind.noConfusion Kind.noConfusion)
    | complex =>
        exact tracks_measured hmax (hpos Kind.noConfusion).ne' _ _ (hmono Kind.noConfusion)
          (hfaithful Kind.noConfusion Kind.noConfusion)

theorem tracks_other (outputPath : String) (equal : Bool) :
    Tracks [otherLeaf outputPath equal] (compareOther equal outputPath) := by
  have hcurve : (compareOther equal outputPath).curve = elementCorrectnessCurveMultipliers.map fun m =>
      (m, (otherLeaf outputPath equal).measured.countP (passesAt m)) := by
    refine List.map_congr_left fun m _ => ?_
    rw [otherLeaf, List.countP_singleton, passesAt_equal]
    cases equal <;> rfl
  cases equal with
  | true =>
      refine tracks_perfect ?_ rfl hcurve rfl
      exact Leaf.count_mask_eq_zero.mpr fun x hx => by rw [List.mem_singleton.mp hx, passesAt_equal]; rfl
  | false =>
      have hmismatches : mismatches [otherLeaf outputPath false] = [⟨outputPath, []⟩] := by
        rw [mismatches_singleton, Leaf.mismatches, Leaf.badCoordinates, otherLeaf]
        simp [coordinates, passesAt_equal]
      constructor
      · rw [hmismatches]; rfl
      · rw [hmismatches]; rfl
      · rw [hmismatches]; exact List.Subperm.refl _
      · rw [hmismatches]; rfl
      · exact hcurve
      · rfl
      · exact List.Forall₂.nil

mutual

theorem tracks_outputs (torch : Torch) (outputPath : String) : (o : OutputPair) → Faithful torch.hypot o →
    Tracks (leaves torch.hypot outputPath o) (compareOutputs torch outputPath o) ∧
      (compareOutputs torch outputPath o).coordinates.top.length ≤ mismatchCoordinateTopK
  | .tensor dtype p, h =>
      tracks_tensor (finfoMax_large dtype) tolerance_pos (fun _ hm => tolerance_mul_le dtype hm) p h
  | .nested items, h => by
      obtain ⟨lss, hflat, hall⟩ := tracks_children torch outputPath items h
      rw [leaves, ← hflat]
      exact tracks_aggregate hall
  | .other equal, _ => by
      refine ⟨tracks_other outputPath equal, ?_⟩
      cases equal with
      | true => exact Nat.zero_le 3
      | false => exact Nat.succ_le_succ (Nat.zero_le 2)

theorem tracks_children (torch : Torch) (outputPath : String) : (items : List (ChildKey × OutputPair)) →
    FaithfulAll torch.hypot items →
      ∃ lss, lss.flatten = leavesOf torch.hypot outputPath items ∧
        List.Forall₂ Tracks lss (compareChildren torch outputPath items)
  | [], _ => ⟨[], rfl, List.Forall₂.nil⟩
  | (key, item) :: rest, h => by
      obtain ⟨lss, hflat, hall⟩ := tracks_children torch outputPath rest h.2
      refine ⟨leaves torch.hypot (childOutputPath outputPath key) item :: lss, ?_, ?_⟩
      · rw [List.flatten_cons, hflat]
        rfl
      · exact List.Forall₂.cons (tracks_outputs torch _ item h.1).1 hall

end

/-! ### The curve of the whole output -/

/-- What passes at a multiplier passes at the larger ones. -/
def Leaf.Monotone (leaf : Leaf) : Prop :=
  ∀ x ∈ leaf.measured, ∀ m ∈ elementCorrectnessCurveMultipliers, ∀ n ∈ elementCorrectnessCurveMultipliers, m ≤ n →
    passesAt m x = true → passesAt n x = true

theorem tensorLeaf_monotone (torch : Torch) {k : Kind} (hpos : k ≠ .bool → 0 < tolerance)
    (hsmall : ∀ m ∈ elementCorrectnessCurveMultipliers, tolerance * m ≤ 1) (p : Pair k) :
    (tensorLeaf torch.hypot outputPath tolerance k p).Monotone := by
  intro x hx m hm n hn hle hpass
  obtain ⟨e, -, rfl⟩ := List.mem_map.mp hx
  by_cases hk : k = .bool
  · subst hk
    exact (passesAt_equal (A := Bool) e _).trans ((passesAt_equal (A := Bool) e _).symm.trans hpass)
  · exact passesAt_mono torch (hpos hk) (multiplier_bounds hm).1 hle (hsmall n hn) k e hpass

theorem otherLeaf_monotone (outputPath : String) (equal : Bool) : (otherLeaf outputPath equal).Monotone := by
  intro x hx m _ n _ _ hpass
  rw [List.mem_singleton.mp hx, passesAt_equal] at hpass ⊢
  exact hpass

mutual

theorem leaves_monotone (torch : Torch) (outputPath : String) :
    (o : OutputPair) → ∀ leaf ∈ leaves torch.hypot outputPath o, leaf.Monotone
  | .tensor dtype p => fun leaf hleaf => by
      rw [List.mem_singleton.mp hleaf]
      exact tensorLeaf_monotone torch tolerance_pos (fun _ hm => tolerance_mul_le dtype hm) p
  | .nested items => leavesOf_monotone torch outputPath items
  | .other equal => fun leaf hleaf => by
      rw [List.mem_singleton.mp hleaf]
      exact otherLeaf_monotone outputPath equal

theorem leavesOf_monotone (torch : Torch) (outputPath : String) :
    (items : List (ChildKey × OutputPair)) → ∀ leaf ∈ leavesOf torch.hypot outputPath items, leaf.Monotone
  | [] => fun _ hleaf => absurd hleaf List.not_mem_nil
  | (key, item) :: rest => fun leaf hleaf => by
      rcases List.mem_append.mp hleaf with hleaf | hleaf
      · exact leaves_monotone torch _ item leaf hleaf
      · exact leavesOf_monotone torch outputPath rest leaf hleaf

end

theorem passing_mono (hmono : ∀ leaf ∈ ls, leaf.Monotone) {m n : ℕ} (hm : m ∈ elementCorrectnessCurveMultipliers)
    (hn : n ∈ elementCorrectnessCurveMultipliers) (hle : m ≤ n) : passing ls m ≤ passing ls n :=
  List.sum_le_sum fun leaf hleaf => List.countP_mono_left fun x hx => hmono leaf hleaf x hx m hm n hn hle

theorem passing_le (ls : List Leaf) (m : ℕ) : passing ls m ≤ elementCount ls :=
  List.sum_le_sum fun _ _ => List.countP_le_length

/-- Where as many elements pass as there are, every one does. -/
theorem all_pass_of_full {m : ℕ} (h : passing ls m = elementCount ls) :
    ∀ leaf ∈ ls, ∀ x ∈ leaf.measured, passesAt m x = true := by
  induction ls with
  | nil => exact fun _ hleaf => absurd hleaf List.not_mem_nil
  | cons leaf rest ih =>
      have hhead : leaf.measured.countP (passesAt m) ≤ leaf.measured.length := List.countP_le_length
      have hrest := passing_le rest m
      rw [passing, elementCount, List.map_cons, List.map_cons, List.sum_cons, List.sum_cons] at h
      rw [passing, elementCount] at hrest
      intro other hother
      rcases List.mem_cons.mp hother with rfl | hother
      · exact List.countP_eq_length.mp (by omega)
      · exact ih (by rw [passing, elementCount]; omega) other hother

/-- The elements that pass and the mismatches make up the whole. -/
theorem passing_one_add (ls : List Leaf) : passing ls 1 + (mismatches ls).length = elementCount ls := by
  induction ls with
  | nil => rfl
  | cons leaf rest ih =>
      have hmismatches : mismatches (leaf :: rest) = leaf.mismatches ++ mismatches rest := List.flatMap_cons
      have hsub := leaf.length_sub_count
      have hcount : leaf.mask.count true ≤ leaf.measured.length := by
        rw [Leaf.count_mask_eq]
        exact List.countP_le_length
      rw [passing, elementCount] at ih ⊢
      rw [hmismatches, List.length_append, leaf.length_mismatches, List.map_cons, List.map_cons, List.sum_cons,
        List.sum_cons]
      omega

/-- **The diagnostics of an output without distorted elements beside a mismatch are those of its mismatches.** -/
theorem diagnostics_of_mismatches (torch : Torch) (outputPath : String) (o : OutputPair)
    (h : Faithful torch.hypot o) :
    Diagnoses (leaves torch.hypot outputPath o) (compareOutputs torch outputPath o) := by
  obtain ⟨htracks, htop⟩ := tracks_outputs torch outputPath o h
  have hcount {m : ℕ} (hm : m ∈ elementCorrectnessCurveMultipliers) :
      curveCount (compareOutputs torch outputPath o).curve m = passing (leaves torch.hypot outputPath o) m := by
    rw [htracks.curve, curveCount_map _ hm]
  have hone : 1 ∈ elementCorrectnessCurveMultipliers := List.mem_cons_self
  constructor
  · exact htracks.first
  · exact htracks.last
  · exact htracks.top
  · exact (min_eq_right htop).symm.trans htracks.top_length
  · rw [htracks.curve, List.map_map]
    rfl
  · intro m hm n hn hle
    rw [hcount hm, hcount hn]
    exact passing_mono (leaves_monotone torch outputPath o) hm hn hle
  · intro m hm
    rw [hcount hm, htracks.total]
    exact passing_le _ m
  · intro m hm hfull
    rw [hcount hm, htracks.total] at hfull
    exact all_pass_of_full hfull
  · rw [hcount hone, htracks.total, ← passing_one_add, Nat.add_sub_cancel]
  · exact htracks.total
  · exact htracks.localizations

/-- Two leaves of a list, one of them with a mismatch. -/
def mixedOutput : OutputPair :=
  .nested [(.index 0, .tensor .float32 ⟨[1, 2], [(.finite 1, .finite 1), (.finite 0, .nan)], rfl⟩), (.index 1, .other false)]

theorem diagnostics_of_mismatches_mixed :
    Diagnoses (leaves Torch.stable.hypot "output" mixedOutput) (compareOutputs .stable "output" mixedOutput) := by
  refine diagnostics_of_mismatches .stable "output" mixedOutput ⟨Or.inr fun e he hdistorted => ?_, trivial, trivial⟩
  rcases List.mem_cons.mp he with rfl | he
  · exact Bool.noConfusion hdistorted.1
  · rw [List.mem_singleton.mp he] at hdistorted
    exact Bool.noConfusion hdistorted.1

/-- An infinite reference beside a mismatch. -/
def distortedOutput : OutputPair :=
  .tensor .float32 ⟨[2], [(.infinite false, .finite 0), (.finite 0, .finite 1)], rfl⟩

/-- The top lists the element that was accepted, and fewer elements pass at twice the tolerance than at once. -/
theorem diagnostics_distorted :
    (compareOutputs .stable "output" distortedOutput).coordinates.top.map Prod.snd = [⟨"output", [0]⟩] ∧
      (compareOutputs .stable "output" distortedOutput).coordinates.first = some ⟨"output", [1]⟩ ∧
      curveCount (compareOutputs .stable "output" distortedOutput).curve 1 = 1 ∧
      curveCount (compareOutputs .stable "output" distortedOutput).curve 2 = 0 ∧
      ¬Diagnoses (leaves Torch.stable.hypot "output" distortedOutput)
        (compareOutputs .stable "output" distortedOutput) := by
  refine ⟨by decide +kernel, by decide +kernel, by decide +kernel, by decide +kernel, fun h => ?_⟩
  have hmono := h.curve_monotone 1 (by decide) 2 (by decide) (by decide)
  exact absurd hmono (by decide +kernel)

end KernelGym.Correctness
