import KernelGym.FusedSound
import Mathlib.Data.List.Nodup

/-! The comparison by PyTorch overwrites the tensors that it compares, the kernel leaves them as they are. Where every
tensor has a storage of its own, no comparison sees what an earlier one has left, and the two agree. -/

namespace KernelGym.Correctness.Fused

open Library

/-! ### Storages -/

/-- The elements of every storage, by the kind of the tensor that is stored there. -/
abbrev Memory := ℕ → (k : Kind) → ℕ → k.Element

/-- An in-place operation on the first `count` elements. -/
def Memory.write (m : Memory) (storage : ℕ) (k : Kind) (count : ℕ) (f : ℕ → k.Element) : Memory :=
  Function.update m storage (Function.update (m storage) k fun i => if i < count then f i else m storage k i)

/-- Two outputs of one structure, where the tensors are given by the storages of reference and candidate. -/
inductive StoredPair
  | tensor (dtype : DType) (shape : List ℕ) (reference candidate : ℕ)
  | nested (items : List (ChildKey × StoredPair))
  | other (equal : Bool)

/-- The values of two tensors. -/
def Memory.pair (m : Memory) (k : Kind) (shape : List ℕ) (reference candidate : ℕ) : Pair k where
  shape := shape
  elements := (List.range shape.prod).map fun i => (m reference k i, m candidate k i)
  size := by rw [List.length_map, List.length_range]

mutual

/-- The outputs as values. -/
def StoredPair.load (m : Memory) : StoredPair → OutputPair
  | .tensor dtype shape reference candidate => .tensor dtype (m.pair dtype.kind shape reference candidate)
  | .nested items => .nested (loadItems m items)
  | .other equal => .other equal

def loadItems (m : Memory) : List (ChildKey × StoredPair) → List (ChildKey × OutputPair)
  | [] => []
  | (key, item) :: rest => (key, item.load m) :: loadItems m rest

end

mutual

def StoredPair.storages : StoredPair → List ℕ
  | .tensor _ _ reference candidate => [reference, candidate]
  | .nested items => itemStorages items
  | .other _ => []

def itemStorages : List (ChildKey × StoredPair) → List ℕ
  | [] => []
  | (_, item) :: rest => item.storages ++ itemStorages rest

end

/-! ### Comparisons in place -/

/-- A float tensor. -/
def Memory.floats (m : Memory) (storage : ℕ) : ℕ → Extended := m storage .floating

/-- The branch of floats: the candidate becomes the difference and then the score, the reference the tolerance. -/
def compareFloatingInPlace (torch : Torch) (finiteMax atol rtol : ℚ) (outputPath : String) (shape : List ℕ)
    (reference candidate : ℕ) (m : Memory) : Comparison × Memory :=
  let count := shape.prod
  let indices := List.range count
  let nanCount := indices.countP fun i => (m.floats candidate i).isNan
  let infCount := indices.countP fun i => (m.floats candidate i).isInf
  let m := m.write candidate .floating count fun i => ((m.floats candidate i).sub (m.floats reference i)).abs
  let m := m.write reference .floating count fun i => ((m.floats reference i).abs.mul (.finite rtol)).add (.finite atol)
  let measured := indices.map fun i => (m.floats candidate i, m.floats reference i)
  let result := compareMeasured torch finiteMax atol shape measured nanCount infCount outputPath
  let scores i := normalizeDifference finiteMax (atol = 0) (m.floats candidate i, m.floats reference i)
  (result, if result.close then m else m.write candidate .floating count fun i => .finite (scores i))

/-- `_compare_tensors_inplace_with_diagnostics_torch` with its in-place operations, in their order -/
def compareTensorsInPlace (torch : Torch) (finiteMax atol rtol : ℚ) (outputPath : String) (k : Kind) (shape : List ℕ)
    (reference candidate : ℕ) (m : Memory) : Comparison × Memory :=
  let count := shape.prod
  let indices := List.range count
  if count = 0 then (⟨true, .finite 0, .finite 0, fullCurve 0, 0, 0, 0, emptyDiagnostics shape outputPath⟩, m)
  else
    match k with
    | .bool =>
      let expected : ℕ → Bool := m reference .bool
      let actual : ℕ → Bool := m candidate .bool
      let m := m.write reference .bool count fun i => decide (expected i ≠ actual i)
      (compareEqual torch finiteMax shape (indices.map (m reference .bool)) outputPath, m)
    | .uint8 =>
      let expected : ℕ → BitVec 8 := m reference .uint8
      let actual : ℕ → BitVec 8 := m candidate .uint8
      let m := m.write reference .uint8 count fun i => if expected i ≠ actual i then 1#8 else 0#8
      let different : ℕ → BitVec 8 := m reference .uint8
      (compareEqual torch finiteMax shape (indices.map fun i => decide (different i ≠ 0)) outputPath, m)
    | .signed w =>
      let expected : ℕ → BitVec (w + 1) := m reference (.signed w)
      let actual : ℕ → BitVec (w + 1) := m candidate (.signed w)
      let m := m.write reference (.signed w) count fun i => (expected i - actual i).abs
      let difference : ℕ → BitVec (w + 1) := m reference (.signed w)
      let measured := indices.map fun i =>
        (Extended.finite (difference i).toInt, Extended.finite ((expected i).abs.toInt * rtol + atol))
      (compareMeasured torch finiteMax atol shape measured 0 0 outputPath, m)
    | .floating => compareFloatingInPlace torch finiteMax atol rtol outputPath shape reference candidate m
    | .complex =>
      (compareTensors torch finiteMax atol rtol outputPath .complex (m.pair .complex shape reference candidate), m)

/-- `_compare_tensors_inplace_with_diagnostics`, where the kernel only reads -/
def compareTensorsStored (fused : Option BlockReduce) (torch : Torch) (finiteMax atol rtol : ℚ) (outputPath : String)
    (k : Kind) (shape : List ℕ) (reference candidate : ℕ) (m : Memory) : Comparison × Memory :=
  let result : Option Comparison :=
    match k with
    | .floating =>
      fused.bind fun cub => compare cub finiteMax atol rtol outputPath (m.pair .floating shape reference candidate)
    | _ => none
  match result with
  | some c => (c, m)
  | none => compareTensorsInPlace torch finiteMax atol rtol outputPath k shape reference candidate m

mutual

/-- `_compare_outputs_inplace_with_diagnostics`, from one tensor to the next -/
def compareStored (fused : String → Option BlockReduce) (torch : Torch) (outputPath : String) :
    StoredPair → Memory → Comparison × Memory
  | .tensor dtype shape reference candidate, m =>
    compareTensorsStored (fused outputPath) torch dtype.finfoMax dtype.tolerance dtype.tolerance outputPath dtype.kind
      shape reference candidate m
  | .nested items, m =>
    let (children, m) := compareStoredChildren fused torch outputPath items m
    (aggregate children, m)
  | .other equal, m => (compareOther equal outputPath, m)

def compareStoredChildren (fused : String → Option BlockReduce) (torch : Torch) (outputPath : String) :
    List (ChildKey × StoredPair) → Memory → List Comparison × Memory
  | [], m => ([], m)
  | (key, item) :: rest, m =>
    let (child, m) := compareStored fused torch (childOutputPath outputPath key) item m
    let (children, m) := compareStoredChildren fused torch outputPath rest m
    (child :: children, m)

end

/-! ### What one comparison reads and leaves -/

variable {m m' : Memory} {storage reference candidate : ℕ} {k : Kind} {shape : List ℕ} {torch : Torch}
  {finiteMax atol rtol : ℚ} {outputPath : String}

theorem write_other {count : ℕ} {f : ℕ → k.Element} {s : ℕ} (h : s ≠ storage) : m.write storage k count f s = m s :=
  Function.update_of_ne h _ _

theorem write_same {count : ℕ} {f : ℕ → k.Element} {i : ℕ} (h : i < count) :
    m.write storage k count f storage k i = f i := by
  rw [Memory.write, Function.update_self, Function.update_self]
  exact if_pos h

/-- Only the two storages of the tensors change. -/
theorem compareTensorsInPlace_other {s : ℕ} (hreference : s ≠ reference) (hcandidate : s ≠ candidate) :
    (compareTensorsInPlace torch finiteMax atol rtol outputPath k shape reference candidate m).2 s = m s := by
  unfold compareTensorsInPlace
  dsimp only
  by_cases hcount : shape.prod = 0
  · rw [if_pos hcount]
  rw [if_neg hcount]
  cases k with
  | bool | uint8 | signed w => exact write_other hreference
  | complex => rfl
  | floating =>
      have hwritten {f g : ℕ → Extended} :
          (m.write candidate .floating shape.prod f).write reference .floating shape.prod g s = m s :=
        (write_other hreference).trans (write_other hcandidate)
      rw [compareFloatingInPlace]
      dsimp only
      split
      · exact hwritten
      · exact (write_other hcandidate).trans hwritten

/-- What is read after both tensors were overwritten. -/
theorem measured_written (hne : reference ≠ candidate) {count i : ℕ} (hi : i < count) (f g : ℕ → Extended) :
    let written := (m.write candidate .floating count f).write reference .floating count g
    (written.floats candidate i, written.floats reference i) = (f i, g i) :=
  Prod.ext ((congrFun (congrFun (write_other hne.symm) _) i).trans (write_same hi)) (write_same hi)

theorem compareFloatingInPlace_eq (hne : reference ≠ candidate) :
    (compareFloatingInPlace torch finiteMax atol rtol outputPath shape reference candidate m).1 =
      compareMeasured torch finiteMax atol shape
        ((List.range shape.prod).map fun i => measureFloating atol rtol (m.floats reference i, m.floats candidate i))
        ((List.range shape.prod).countP fun i => (m.floats candidate i).isNan)
        ((List.range shape.prod).countP fun i => (m.floats candidate i).isInf) outputPath := by
  rw [compareFloatingInPlace]
  refine congrArg (compareMeasured torch finiteMax atol shape · _ _ outputPath) ?_
  refine List.map_congr_left fun i hi => (measured_written hne (List.mem_range.mp hi) _ _).trans ?_
  refine Prod.ext rfl ?_
  have hkept : (m.write candidate .floating shape.prod fun i =>
      ((m.floats candidate i).sub (m.floats reference i)).abs).floats reference i = m.floats reference i :=
    congrFun (congrFun (write_other hne) _) i
  dsimp only
  rw [hkept]
  rfl

/-- Two tensors with storages of their own are compared as values. -/
theorem compareTensorsInPlace_eq (hne : reference ≠ candidate) :
    (compareTensorsInPlace torch finiteMax atol rtol outputPath k shape reference candidate m).1 =
      compareTensors torch finiteMax atol rtol outputPath k (m.pair k shape reference candidate) := by
  have hlength : (m.pair k shape reference candidate).elements.length = shape.prod :=
    (m.pair k shape reference candidate).size
  unfold compareTensorsInPlace compareTensors
  rw [hlength]
  by_cases hcount : shape.prod = 0
  · rw [if_pos hcount, if_pos hcount]
    rfl
  rw [if_neg hcount, if_neg hcount]
  cases k with
  | bool =>
      refine congrArg (compareEqual torch finiteMax shape · outputPath) (Eq.trans ?_ List.map_map.symm)
      exact List.map_congr_left fun i hi => write_same (List.mem_range.mp hi)
  | uint8 =>
      refine congrArg (compareEqual torch finiteMax shape · outputPath) (Eq.trans ?_ List.map_map.symm)
      refine List.map_congr_left fun i hi => ?_
      have hbit (a b : BitVec 8) : decide ((if a ≠ b then 1#8 else 0#8) ≠ 0) = decide (a ≠ b) := by
        by_cases hab : a = b
        · simp [hab]
        · simp [hab]
      exact (congrArg (fun x : BitVec 8 => decide (x ≠ 0)) (write_same (List.mem_range.mp hi))).trans (hbit _ _)
  | signed w =>
      refine congrArg (compareMeasured torch finiteMax atol shape · 0 0 outputPath) (Eq.trans ?_ List.map_map.symm)
      refine List.map_congr_left fun i hi => Prod.ext ?_ rfl
      exact congrArg (fun x : BitVec (w + 1) => Extended.finite x.toInt) (write_same (List.mem_range.mp hi))
  | floating =>
      refine (compareFloatingInPlace_eq hne).trans ?_
      have hnan : (m.pair .floating shape reference candidate).elements.countP (fun e => Extended.isNan e.2) =
          (List.range shape.prod).countP fun i => (m.floats candidate i).isNan := List.countP_map
      have hinf : (m.pair .floating shape reference candidate).elements.countP (fun e => Extended.isInf e.2) =
          (List.range shape.prod).countP fun i => (m.floats candidate i).isInf := List.countP_map
      have hmeasured : ((List.range shape.prod).map fun i => (m.floats reference i, m.floats candidate i)).map
          (measureFloating atol rtol) =
          (List.range shape.prod).map fun i => measureFloating atol rtol (m.floats reference i, m.floats candidate i) :=
        List.map_map
      dsimp only
      rw [hnan, hinf]
      exact congrArg (compareMeasured torch finiteMax atol shape · _ _ outputPath) hmeasured.symm
  | complex =>
      refine (if_neg ?_ : compareTensors torch finiteMax atol rtol outputPath .complex _ = _)
      rwa [hlength]

/-! ### Outputs whose tensors have storages of their own -/

theorem compareTensorsStored_other {fused : Option BlockReduce} {s : ℕ} (hreference : s ≠ reference)
    (hcandidate : s ≠ candidate) :
    (compareTensorsStored fused torch finiteMax atol rtol outputPath k shape reference candidate m).2 s = m s := by
  unfold compareTensorsStored
  dsimp only
  split
  · rfl
  · exact compareTensorsInPlace_other hreference hcandidate

theorem compareTensorsStored_eq {fused : Option BlockReduce} (hne : reference ≠ candidate) :
    (compareTensorsStored fused torch finiteMax atol rtol outputPath k shape reference candidate m).1 =
      compareTensorsWithDiagnostics fused torch finiteMax atol rtol outputPath k
        (m.pair k shape reference candidate) := by
  unfold compareTensorsStored compareTensorsWithDiagnostics
  cases k with
  | floating =>
      dsimp only
      cases fused.bind fun cub => compare cub finiteMax atol rtol outputPath (m.pair .floating shape reference candidate) with
      | none => exact compareTensorsInPlace_eq hne
      | some c => rfl
  | bool | uint8 | signed w | complex => exact compareTensorsInPlace_eq hne

/-- What the comparison needs to find in memory, it finds as at the start. -/
def Agree (m m' : Memory) (storages : List ℕ) : Prop := ∀ s ∈ storages, m' s = m s

mutual

theorem compareStored_other (fused : String → Option BlockReduce) (torch : Torch) (outputPath : String) :
    (o : StoredPair) → (m : Memory) → ∀ s ∉ o.storages, (compareStored fused torch outputPath o m).2 s = m s
  | .tensor dtype shape reference candidate, m => by
      intro s hs
      simp only [StoredPair.storages, List.mem_cons, List.not_mem_nil, or_false, not_or] at hs
      rw [compareStored]
      exact compareTensorsStored_other hs.1 hs.2
  | .nested items, m => by
      rw [compareStored]
      exact compareStoredChildren_other fused torch outputPath items m
  | .other equal, m => fun _ _ => rfl

theorem compareStoredChildren_other (fused : String → Option BlockReduce) (torch : Torch) (outputPath : String) :
    (items : List (ChildKey × StoredPair)) → (m : Memory) →
    ∀ s ∉ itemStorages items, (compareStoredChildren fused torch outputPath items m).2 s = m s
  | [], m => fun _ _ => rfl
  | (key, item) :: rest, m => by
      intro s hs
      rw [itemStorages, List.mem_append, not_or] at hs
      rw [compareStoredChildren]
      exact (compareStoredChildren_other fused torch outputPath rest _ s hs.2).trans
        (compareStored_other fused torch _ item m s hs.1)

end

mutual

theorem compareStored_eq (fused : String → Option BlockReduce) (torch : Torch) (outputPath : String) :
    (o : StoredPair) → (m m' : Memory) → o.storages.Nodup → Agree m m' o.storages →
    (compareStored fused torch outputPath o m').1 = compareOutputs fused torch outputPath (o.load m)
  | .tensor dtype shape reference candidate, m, m' => by
      intro hdistinct hagree
      have hne : reference ≠ candidate := by simpa [StoredPair.storages] using hdistinct
      have hpair : m'.pair dtype.kind shape reference candidate = m.pair dtype.kind shape reference candidate := by
        have hreference := hagree reference (by simp [StoredPair.storages])
        have hcandidate := hagree candidate (by simp [StoredPair.storages])
        simp only [Memory.pair, hreference, hcandidate]
      rw [compareStored, StoredPair.load, compareOutputs, compareTensorsStored_eq hne, hpair]
  | .nested items, m, m' => by
      intro hdistinct hagree
      rw [compareStored, StoredPair.load, compareOutputs]
      exact congrArg aggregate (compareStoredChildren_eq fused torch outputPath items m m' hdistinct hagree)
  | .other equal, m, m' => fun _ _ => rfl

theorem compareStoredChildren_eq (fused : String → Option BlockReduce) (torch : Torch) (outputPath : String) :
    (items : List (ChildKey × StoredPair)) → (m m' : Memory) → (itemStorages items).Nodup →
    Agree m m' (itemStorages items) →
    (compareStoredChildren fused torch outputPath items m').1 = compareChildren fused torch outputPath (loadItems m items)
  | [], m, m' => fun _ _ => rfl
  | (key, item) :: rest, m, m' => by
      intro hdistinct hagree
      rw [itemStorages, List.nodup_append] at hdistinct
      obtain ⟨hitem, hrest, hdisjoint⟩ := hdistinct
      rw [compareStoredChildren, loadItems, compareChildren]
      refine congrArg₂ List.cons (compareStored_eq fused torch _ item m m' hitem fun s hs => ?_)
        (compareStoredChildren_eq fused torch outputPath rest m _ hrest fun s hs => ?_)
      · exact hagree s (List.mem_append_left _ hs)
      · refine (compareStored_other fused torch _ item m' s fun hs' => hdisjoint s hs' s hs rfl).trans ?_
        exact hagree s (List.mem_append_right _ hs)

end

/-- **The fused comparison is the comparison by PyTorch** for outputs whose tensors have storages of their own,
whichever of the tensors the kernel takes and however its blocks group their reductions. -/
theorem fused_comparison (fused : String → Option BlockReduce) (torch : Torch) (outputPath : String) (o : StoredPair)
    (m : Memory) (hdistinct : o.storages.Nodup) (htopk : torch.topk = .stable) :
    (compareStored fused torch outputPath o m).1 = (compareStored (fun _ => none) torch outputPath o m).1 := by
  rw [compareStored_eq fused torch outputPath o m m hdistinct fun _ _ => rfl,
    compareStored_eq (fun _ => none) torch outputPath o m m hdistinct fun _ _ => rfl,
    compareOutputs_eq fused torch outputPath _ htopk, compareOutputs_eq (fun _ => none) torch outputPath _ htopk]

/-- Two tensors of one element, and a value that differs. -/
def storedOutput : StoredPair :=
  .nested [(.index 0, .tensor .float32 [1] 0 1), (.index 1, .tensor .float32 [1] 2 3), (.index 2, .other false)]

/-- Every element is 1. -/
def ones : Memory := fun _ k =>
  match k with
  | .bool => fun _ => true
  | .uint8 => fun _ => (1 : BitVec 8)
  | .signed w => fun _ => (1 : BitVec (w + 1))
  | .floating => fun _ => Extended.finite 1
  | .complex => fun _ => (⟨.finite 1, .finite 0⟩ : Complex)

theorem fused_comparison_stored :
    (compareStored (fun _ => some .sequential) .stable "output" storedOutput ones).1 =
      (compareStored (fun _ => none) .stable "output" storedOutput ones).1 :=
  fused_comparison _ .stable "output" storedOutput ones (by decide) rfl

/-- One tensor returned twice: PyTorch compares what its first comparison has left, the kernel does not. -/
def repeatedOutput : StoredPair :=
  .nested [(.index 0, .tensor .float32 [1] 0 1), (.index 1, .tensor .float32 [1] 0 1)]

example : (compareStored (fun _ => none) .stable "output" repeatedOutput ones).1.close = false ∧
    (compareStored (fun _ => some .sequential) .stable "output" repeatedOutput ones).1.close = true := by
  decide +kernel

end KernelGym.Correctness.Fused
