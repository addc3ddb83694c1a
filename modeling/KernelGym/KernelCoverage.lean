import KernelGym.ComputeSanitizer
import KernelGym.Library.Doubles
import KernelGym.Library.Generators
import Mathlib.Data.List.Sort
import Mathlib.Data.List.Dedup

/-! The share of a profile that the declared kernels take, and the probe that looks for a declared kernel in the
profile of a candidate whose output is wrong. -/

namespace KernelGym.DeclaredKernels

open Library

/-- An entry of `profilling_result["kernels"]`. -/
structure Launch where
  name : Text
  cudaTimeUs : Duration
  cpuTimeUs : Duration

/-- `_matches_profiler_name` -/
def matchesProfilerName (u : Unicode) (captured profilerName : Text) : Bool :=
  let cap := u.lower captured
  let prof := u.lower profilerName
  cap = prof || (cap <:+: prof || prof <:+: cap)

/-- `any(_matches_profiler_name(kernel_name, prof_name) for kernel_name in kernel_names)` -/
def matchesAny (u : Unicode) (kernelNames : List Text) (profilerName : Text) : Bool :=
  kernelNames.any fun kernelName => matchesProfilerName u kernelName profilerName

/-- The variables of the loop over the kernels of a profile. -/
structure Tally where
  numCustomKernels : ℕ := 0
  totalCudaTime : Duration := .zero
  totalCpuCudaTime : Duration := .zero
  matchedCudaTime : Duration := .zero
  kernelsInProfiling : List Text := []

/-- The body of the loop. -/
def Tally.step (u : Unicode) (kernelNames : List Text) (s : Tally) (launch : Launch) : Tally :=
  let totalCudaTime := s.totalCudaTime.add launch.cudaTimeUs
  let totalCpuCudaTime := s.totalCpuCudaTime.add (launch.cudaTimeUs.add launch.cpuTimeUs)
  if matchesAny u kernelNames launch.name then
    { numCustomKernels := s.numCustomKernels + 1
      totalCudaTime, totalCpuCudaTime
      matchedCudaTime := s.matchedCudaTime.add launch.cudaTimeUs
      kernelsInProfiling := s.kernelsInProfiling ++ [launch.name] }
  else { s with totalCudaTime, totalCpuCudaTime }

/-- The result of `_compute_named_kernel_coverage`. -/
structure Coverage where
  numCustomKernels : ℕ
  numTotalKernels : ℕ
  totalKernelCudaTimeInProfilingUs : Duration
  totalKernelRunTimeInProfilingUsCpuCuda : Duration
  customKernelCudaTimeInProfilingUs : Duration
  customKernelsNotInProfiling : List Text
  customKernelsInProfiling : List Text

/-- `compute_named_kernel_coverage` -/
def computeNamedKernelCoverage (u : Unicode) (kernelNames : List Text) (profile : List Launch) : Coverage :=
  let s := profile.foldl (Tally.step u kernelNames) {}
  { numCustomKernels := s.numCustomKernels
    numTotalKernels := profile.length
    totalKernelCudaTimeInProfilingUs := s.totalCudaTime
    totalKernelRunTimeInProfilingUsCpuCuda := s.totalCpuCudaTime
    customKernelCudaTimeInProfilingUs := s.matchedCudaTime
    customKernelsNotInProfiling := kernelNames.filter fun kernelName =>
      !s.kernelsInProfiling.any fun profName => matchesProfilerName u kernelName profName
    customKernelsInProfiling := s.kernelsInProfiling }

/-! ### The probe -/

inductive SkipReason
  | decoyDetectionDisabled
  | unsupportedBackend
  | correctnessPassed
  | runtimeError
  | candidateForwardNotCompleted
  | noOutputMismatch
  | noExpectedCustomKernelNames
  | emptyProfilerCapture
  deriving DecidableEq, Repr

/-- `profiling_metrics`: the error of the profiling, or the kernels of the profile. -/
structure ProfilingMetrics where
  profilingError : Text
  kernels : List Launch

/-- What the probe is called with, and what the run of the candidate under the profiler gives. -/
structure ProbeCall where
  detectDecoyKernel : Bool
  backend : String
  correctness : Bool
  runtimeError : Bool
  correctnessCandidateForwardCompleted : Bool
  correctnessOutputMismatch : Bool
  profiled : Except Thrown ProfilingMetrics

/-- The record of the probe in the metadata. -/
structure Probe where
  attempted : Bool := false
  skipReason : Option SkipReason := none
  expectedKernelNames : List Text := []
  valid : Option Bool := none
  error : Option Text := none
  coverage : Option Coverage := none
  customKernelObserved : Option Bool := none
  decoyDetected : Option Bool := none

def namedKernelProbeBackends : List String := ["cuda_agent", "tvm_ffi"]

/-- `custom_kernel_names`: a hint that is no string is `none`. -/
def customKernelNames (u : Unicode) (hints : List (Option Text)) : List Text :=
  (((hints.filterMap id).map u.strip).filter (· ≠ [])).dedup.insertionSort (· ≤ ·)

/-- The checks before the candidate is run. -/
def ProbeCall.skipReason (call : ProbeCall) : Option SkipReason :=
  if !call.detectDecoyKernel then some .decoyDetectionDisabled
  else if call.backend ∉ namedKernelProbeBackends then some .unsupportedBackend
  else if call.correctness then some .correctnessPassed
  else if call.runtimeError then some .runtimeError
  else if !call.correctnessCandidateForwardCompleted then some .candidateForwardNotCompleted
  else if !call.correctnessOutputMismatch then some .noOutputMismatch
  else none

/-- `_run_incorrect_backend_usage_probe`: the record and the verdict. -/
def runIncorrectBackendUsageProbe (u : Unicode) (call : ProbeCall) (hints : List (Option Text)) :
    Except Thrown (Probe × Bool) :=
  match call.skipReason with
  | some reason => .ok ({ skipReason := some reason }, false)
  | none =>
    let names := customKernelNames u hints
    if names = [] then .ok ({ skipReason := some .noExpectedCustomKernelNames }, false)
    else
      let probe : Probe := { attempted := true, expectedKernelNames := names }
      match call.profiled with
      | .error e =>
        if !e.isException || isActionableCudaExecutionError u e.text then .error e
        else .ok ({ probe with valid := some false, error := some e.text }, false)
      | .ok metrics =>
        if metrics.profilingError ≠ [] then
          .ok ({ probe with valid := some false, error := some metrics.profilingError }, false)
        else if metrics.kernels.isEmpty then
          .ok ({ probe with valid := some false, skipReason := some .emptyProfilerCapture }, false)
        else
          let coverage := computeNamedKernelCoverage u names metrics.kernels
          let observed := !coverage.customKernelsInProfiling.isEmpty
          .ok ({ probe with
            valid := some true
            coverage := some coverage
            customKernelObserved := some observed
            decoyDetected := some !observed }, !observed)

/-! ### The loop over the profile -/

section

variable {u : Unicode} {names names' : List Text} {profile : List Launch}

/-- The times of some launches, added in their order. -/
def timeOf (time : Launch → Duration) (launches : List Launch) (from_ : Duration) : Duration :=
  launches.foldl (fun total launch => total.add (time launch)) from_

def launchesMatched (u : Unicode) (names : List Text) (profile : List Launch) : List Launch :=
  profile.filter fun launch => matchesAny u names launch.name

/-- What the loop has gathered at its end. -/
theorem foldl_step (s : Tally) : profile.foldl (Tally.step u names) s =
    { numCustomKernels := s.numCustomKernels + (launchesMatched u names profile).length
      totalCudaTime := timeOf Launch.cudaTimeUs profile s.totalCudaTime
      totalCpuCudaTime := timeOf (fun l => l.cudaTimeUs.add l.cpuTimeUs) profile s.totalCpuCudaTime
      matchedCudaTime := timeOf Launch.cudaTimeUs (launchesMatched u names profile) s.matchedCudaTime
      kernelsInProfiling := s.kernelsInProfiling ++ (launchesMatched u names profile).map Launch.name } := by
  induction profile generalizing s with
  | nil => simp [launchesMatched, timeOf]
  | cons launch rest ih =>
      rw [List.foldl_cons, ih]
      by_cases h : matchesAny u names launch.name = true
      · simp [Tally.step, launchesMatched, timeOf, h]
        omega
      · simp [Tally.step, launchesMatched, timeOf, h]

theorem computeNamedKernelCoverage_observed :
    (computeNamedKernelCoverage u names profile).customKernelsInProfiling =
      (launchesMatched u names profile).map Launch.name := by
  simp [computeNamedKernelCoverage, foldl_step]

theorem computeNamedKernelCoverage_count :
    (computeNamedKernelCoverage u names profile).numCustomKernels = (launchesMatched u names profile).length := by
  simp [computeNamedKernelCoverage, foldl_step]

theorem computeNamedKernelCoverage_matchedTime :
    (computeNamedKernelCoverage u names profile).customKernelCudaTimeInProfilingUs =
      timeOf Launch.cudaTimeUs (launchesMatched u names profile) .zero := by
  simp [computeNamedKernelCoverage, foldl_step]

theorem computeNamedKernelCoverage_totalTime :
    (computeNamedKernelCoverage u names profile).totalKernelCudaTimeInProfilingUs =
      timeOf Launch.cudaTimeUs profile .zero := by
  simp [computeNamedKernelCoverage, foldl_step]

/-- The time of some of the launches is at most that of all. -/
theorem timeOf_filter_le (time : Launch → Duration) (keep : Launch → Bool) {a b : Duration} (h : a.value ≤ b.value) :
    (timeOf time (profile.filter keep) a).value ≤ (timeOf time profile b).value := by
  induction profile generalizing a b with
  | nil => exact h
  | cons launch rest ih =>
      rw [List.filter_cons]
      split_ifs
      · exact ih (Duration.add_mono h (time launch))
      · exact ih (h.trans (Duration.le_add b (time launch)))

/-! ### What further names change -/

theorem matchesAny_mono (h : names ⊆ names') {name : Text} (hname : matchesAny u names name = true) :
    matchesAny u names' name = true := by
  obtain ⟨n, hn, hmatch⟩ := List.any_eq_true.mp hname
  exact List.any_eq_true.mpr ⟨n, h hn, hmatch⟩

theorem launchesMatched_sublist (h : names ⊆ names') :
    (launchesMatched u names profile).Sublist (launchesMatched u names' profile) :=
  List.monotone_filter_right profile fun _ hname => matchesAny_mono h hname

/-- No launch of the profile is matched by one of `names'` only. -/
def NoFurtherMatch (u : Unicode) (names names' : List Text) (profile : List Launch) : Prop :=
  ∀ launch ∈ profile, ∀ name ∈ names', matchesProfilerName u name launch.name = true →
    ∃ name ∈ names, matchesProfilerName u name launch.name = true

theorem noFurtherMatch_iff (h : names ⊆ names') : NoFurtherMatch u names names' profile ↔
    launchesMatched u names profile = launchesMatched u names' profile := by
  constructor
  · intro hno
    refine List.filter_congr fun launch hlaunch => Bool.eq_iff_iff.mpr ⟨matchesAny_mono h, fun hname => ?_⟩
    obtain ⟨n, hn, hmatch⟩ := List.any_eq_true.mp hname
    exact List.any_eq_true.mpr (hno launch hlaunch n hn hmatch)
  · intro heq launch hlaunch n hn hmatch
    have hmem : launch ∈ launchesMatched u names' profile :=
      List.mem_filter.mpr ⟨hlaunch, List.any_eq_true.mpr ⟨n, hn, hmatch⟩⟩
    rw [← heq] at hmem
    exact List.any_eq_true.mp (List.mem_filter.mp hmem : launch ∈ profile ∧ matchesAny u names launch.name = true).2

end

/-! ### Declared names -/

/-- A name as the pattern for kernel declarations takes it: a letter or an underscore of ASCII and word characters. -/
structure KernelName (u : Unicode) where
  head : Char
  tail : Text
  head_ascii : head.toNat < 128
  head_word : asciiWord head = true
  tail_word : ∀ c ∈ tail, u.isWord c = true

def KernelName.text {u : Unicode} (n : KernelName u) : Text := n.head :: n.tail

/-- The identifiers of a demangled name before a parenthesis, an angle bracket or the end. -/
def identifiersFrom (u : Unicode) (current : Text) : Text → List Text
  | [] => if current = [] then [] else [current.reverse]
  | c :: rest =>
    if u.isWord c then identifiersFrom u (c :: current) rest
    else if current ≠ [] ∧ (c = '(' ∨ c = '<') then current.reverse :: identifiersFrom u [] rest
    else identifiersFrom u [] rest

/-- The identifiers that can be the function of a launch. -/
def functionIdentifiers (u : Unicode) (launchName : Text) : List Text := identifiersFrom u [] launchName

section

variable {u : Unicode} {names names' : List (KernelName u)} {profile : List Launch} {name : Text}

def texts (names : List (KernelName u)) : List Text := names.map KernelName.text

theorem mem_identifiersFrom {current text : Text} (h : name ∈ identifiersFrom u current text) :
    ∃ pre post, current.reverse ++ text = pre ++ name ++ post ∧ u.Ends post := by
  have hbracket {c : Char} (hc : c = '(' ∨ c = '<') (rest : Text) : u.Ends (c :: rest) := by
    rintro c' hc'
    rw [← Option.some.inj hc']
    rcases hc with rfl | rfl
    · exact ⟨u.isCaseIgnorable_ascii _ (by decide), u.isCased_ascii _ (by decide)⟩
    · exact ⟨u.isCaseIgnorable_ascii _ (by decide), u.isCased_ascii _ (by decide)⟩
  induction text generalizing current with
  | nil =>
      rw [identifiersFrom] at h
      split_ifs at h
      · exact absurd h List.not_mem_nil
      · rw [List.mem_singleton.mp h]
        exact ⟨[], [], by simp, fun c hc => by simp at hc⟩
  | cons c rest ih =>
      rw [identifiersFrom] at h
      -- What is found behind the identifier that ends here.
      have hlater (h : name ∈ identifiersFrom u [] rest) :
          ∃ pre post, current.reverse ++ c :: rest = pre ++ name ++ post ∧ u.Ends post := by
        obtain ⟨pre, post, heq, hends⟩ := ih h
        refine ⟨current.reverse ++ c :: pre, post, ?_, hends⟩
        rw [List.reverse_nil, List.nil_append] at heq
        simp [heq]
      split_ifs at h with hword hend
      · obtain ⟨pre, post, heq, hends⟩ := ih h
        exact ⟨pre, post, by rw [← heq]; simp, hends⟩
      · rcases List.mem_cons.mp h with rfl | h
        · exact ⟨[], c :: rest, by simp, hbracket hend.2 rest⟩
        · exact hlater h
      · exact hlater h

/-- **A declared name that is launched is matched.** -/
theorem matches_of_launched {n : KernelName u} {launchName : Text} (h : n.text ∈ functionIdentifiers u launchName) :
    matchesProfilerName u n.text launchName = true := by
  obtain ⟨pre, post, heq, hends⟩ := mem_identifiersFrom h
  have hinfix : u.lower n.text <:+: u.lower (pre ++ n.text ++ post) :=
    Unicode.lower_infix n.head_ascii n.head_word hends n.tail
  rw [List.reverse_nil, List.nil_append] at heq
  unfold matchesProfilerName
  rw [heq]
  simp only [Bool.or_eq_true, decide_eq_true_eq]
  exact Or.inr (Or.inl hinfix)

theorem KernelName.strip (n : KernelName u) : u.strip n.text = n.text := by
  refine Unicode.strip_of_forall fun c hc => ?_
  have hword : u.isWord c = true := by
    rcases List.mem_cons.mp hc with rfl | hc
    · rw [u.isWord_ascii _ n.head_ascii]
      exact n.head_word
    · exact n.tail_word c hc
  cases hspace : u.isSpace c with
  | false => rfl
  | true => exact absurd hword (by rw [u.isWord_of_isSpace c hspace]; exact Bool.false_ne_true)

/-- The declared names as the hints of the backend. -/
def hints (names : List (KernelName u)) : List (Option Text) := names.map fun n => some n.text

theorem mem_customKernelNames {text : Text} : text ∈ customKernelNames u (hints names) ↔ text ∈ texts names := by
  simp only [customKernelNames, List.mem_insertionSort, List.mem_dedup, List.mem_filter, List.mem_map,
    List.mem_filterMap, hints, texts, decide_eq_true_eq]
  constructor
  · rintro ⟨⟨_, ⟨_, ⟨n, hn, rfl⟩, hid⟩, rfl⟩, -⟩
    rw [← Option.some.inj hid, n.strip]
    exact ⟨n, hn, rfl⟩
  · rintro ⟨n, hn, rfl⟩
    exact ⟨⟨n.text, ⟨_, ⟨n, hn, rfl⟩, rfl⟩, n.strip⟩, List.cons_ne_nil _ _⟩

/-- The order and the repetitions of the names do not count for a match. -/
theorem matchesAny_customKernelNames (launchName : Text) :
    matchesAny u (customKernelNames u (hints names)) launchName = matchesAny u (texts names) launchName := by
  rw [Bool.eq_iff_iff, matchesAny, matchesAny, List.any_eq_true, List.any_eq_true]
  simp only [mem_customKernelNames]

theorem customKernelNames_eq_nil : customKernelNames u (hints names) = [] ↔ names = [] := by
  rw [List.eq_nil_iff_forall_not_mem]
  simp only [mem_customKernelNames]
  rw [← List.eq_nil_iff_forall_not_mem, texts, List.map_eq_nil_iff]

/-! ### The verdict -/

/-- The verdict of the probe on a profile that was taken. -/
theorem runIncorrectBackendUsageProbe_verdict {call : ProbeCall} (hcall : call.profiled = .ok ⟨[], profile⟩) :
    (runIncorrectBackendUsageProbe u call (hints names)).map Prod.snd =
      .ok (call.skipReason.isNone && !names.isEmpty && !profile.isEmpty &&
        (launchesMatched u (texts names) profile).isEmpty) := by
  unfold runIncorrectBackendUsageProbe
  cases hskip : call.skipReason with
  | some reason => rfl
  | none =>
      have hmatched : launchesMatched u (customKernelNames u (hints names)) profile =
          launchesMatched u (texts names) profile :=
        List.filter_congr fun launch _ => matchesAny_customKernelNames launch.name
      dsimp only
      by_cases hnil : names = []
      · rw [if_pos (customKernelNames_eq_nil.mpr hnil), hnil]
        simp [Except.map]
      · rw [if_neg (mt customKernelNames_eq_nil.mp hnil), hcall]
        dsimp only
        rw [if_neg (by simp), computeNamedKernelCoverage_observed, hmatched]
        cases hprofile : profile.isEmpty <;> simp [Except.map, hnil]

/-- What the claim on coverage asks of two lists of names and a profile: the same credit and the same verdict, a
matched time within the total, and every launched name counted. -/
structure NoCredit (u : Unicode) (call : ProbeCall) (profile : List Launch) (names names' : List (KernelName u)) :
    Prop where
  count : (computeNamedKernelCoverage u (texts names) profile).numCustomKernels =
    (computeNamedKernelCoverage u (texts names') profile).numCustomKernels
  time : (computeNamedKernelCoverage u (texts names) profile).customKernelCudaTimeInProfilingUs =
    (computeNamedKernelCoverage u (texts names') profile).customKernelCudaTimeInProfilingUs
  observed : (computeNamedKernelCoverage u (texts names) profile).customKernelsInProfiling =
    (computeNamedKernelCoverage u (texts names') profile).customKernelsInProfiling
  verdict : (runIncorrectBackendUsageProbe u call (hints names)).map Prod.snd =
    (runIncorrectBackendUsageProbe u call (hints names')).map Prod.snd
  nonneg : 0 ≤ (computeNamedKernelCoverage u (texts names') profile).customKernelCudaTimeInProfilingUs.value
  le_total : (computeNamedKernelCoverage u (texts names') profile).customKernelCudaTimeInProfilingUs.value ≤
    (computeNamedKernelCoverage u (texts names') profile).totalKernelCudaTimeInProfilingUs.value
  launched : ∀ n ∈ names', ∀ launch ∈ profile, n.text ∈ functionIdentifiers u launch.name →
    launch ∈ launchesMatched u (texts names') profile ∧
      n.text ∉ (computeNamedKernelCoverage u (texts names') profile).customKernelsNotInProfiling

theorem mem_launchesMatched {n : KernelName u} {launch : Launch} (hn : n ∈ names) (hlaunch : launch ∈ profile)
    (h : n.text ∈ functionIdentifiers u launch.name) : launch ∈ launchesMatched u (texts names) profile :=
  List.mem_filter.mpr ⟨hlaunch, List.any_eq_true.mpr ⟨n.text, List.mem_map_of_mem hn, matches_of_launched h⟩⟩

theorem not_mem_notInProfiling {n : KernelName u} {launch : Launch} (hn : n ∈ names) (hlaunch : launch ∈ profile)
    (h : n.text ∈ functionIdentifiers u launch.name) :
    n.text ∉ (computeNamedKernelCoverage u (texts names) profile).customKernelsNotInProfiling := by
  intro hmem
  have hnone := (List.mem_filter.mp hmem).2
  have hseen : launch.name ∈ (computeNamedKernelCoverage u (texts names) profile).customKernelsInProfiling := by
    rw [computeNamedKernelCoverage_observed]
    exact List.mem_map_of_mem (mem_launchesMatched hn hlaunch h)
  rw [Bool.not_eq_true', List.any_eq_false] at hnone
  exact hnone launch.name hseen (matches_of_launched h)

/-- **Further names change nothing exactly when they match no further launch**, and the first list is empty only
where the second one is or the probe does not come to a verdict. -/
theorem noCredit_iff {call : ProbeCall} (hsub : names ⊆ names') (hcall : call.profiled = .ok ⟨[], profile⟩) :
    NoCredit u call profile names names' ↔
      NoFurtherMatch u (texts names) (texts names') profile ∧
        (names = [] → names' = [] ∨ call.skipReason.isSome = true ∨ profile = []) := by
  have htexts : texts names ⊆ texts names' := List.map_subset _ hsub
  rw [noFurtherMatch_iff htexts]
  constructor
  · intro h
    have hcount := h.count
    rw [computeNamedKernelCoverage_count, computeNamedKernelCoverage_count] at hcount
    have heq : launchesMatched u (texts names) profile = launchesMatched u (texts names') profile :=
      (launchesMatched_sublist htexts).eq_of_length hcount
    refine ⟨heq, fun hnil => ?_⟩
    have hverdict := h.verdict
    have hnone : launchesMatched u (texts names') profile = [] := by
      rw [← heq, hnil]
      exact List.filter_eq_nil_iff.mpr fun _ _ => Bool.false_ne_true
    rw [runIncorrectBackendUsageProbe_verdict hcall, runIncorrectBackendUsageProbe_verdict hcall, hnone, hnil] at hverdict
    simp only [Except.ok.injEq] at hverdict
    cases hskip : call.skipReason with
    | some reason => exact Or.inr (Or.inl rfl)
    | none =>
        rw [hskip] at hverdict
        cases names' with
        | nil => exact Or.inl rfl
        | cons n rest =>
            cases profile with
            | nil => exact Or.inr (Or.inr rfl)
            | cons launch launches => exact absurd hverdict (by simp)
  · rintro ⟨heq, hnil⟩
    refine ⟨?_, ?_, ?_, ?_, Duration.nonneg _, ?_, fun n hn launch hlaunch h => ?_⟩
    · rw [computeNamedKernelCoverage_count, computeNamedKernelCoverage_count, heq]
    · rw [computeNamedKernelCoverage_matchedTime, computeNamedKernelCoverage_matchedTime, heq]
    · rw [computeNamedKernelCoverage_observed, computeNamedKernelCoverage_observed, heq]
    · rw [runIncorrectBackendUsageProbe_verdict hcall, runIncorrectBackendUsageProbe_verdict hcall, heq]
      cases hnames : names with
      | nil =>
          rcases hnil hnames with h | h | h
          · rw [h]
          · simp [Option.isNone_eq_false_iff.mpr h]
          · simp [h]
      | cons n rest =>
          have hne : names' ≠ [] := List.ne_nil_of_mem (hsub (hnames ▸ List.mem_cons_self : n ∈ names))
          simp [List.isEmpty_eq_false_iff.mpr hne]
    · rw [computeNamedKernelCoverage_matchedTime, computeNamedKernelCoverage_totalTime]
      exact timeOf_filter_le _ _ le_rfl
    · exact ⟨mem_launchesMatched hn hlaunch h, not_mem_notInProfiling hn hlaunch h⟩

end

/-! ### A short name -/

def gemmKernel : KernelName .ascii where
  head := 'g'
  tail := "emm_kernel".toList
  head_ascii := by decide
  head_word := by decide
  tail_word := List.all_eq_true.mp (by decide +kernel)

/-- The name of a kernel that nothing launches. -/
def deadKernel : KernelName .ascii where
  head := 'k'
  tail := []
  head_ascii := by decide
  head_word := by decide
  tail_word := List.all_eq_true.mp (by decide +kernel)

def libraryLaunch : Launch := ⟨"void at::native::reduce_kernel<512>(float*)".toList, .zero, .zero⟩

def mismatchCall : ProbeCall where
  detectDecoyKernel := true
  backend := "cuda_agent"
  correctness := false
  runtimeError := false
  correctnessCandidateForwardCompleted := true
  correctnessOutputMismatch := true
  profiled := .ok ⟨[], [libraryLaunch]⟩

theorem deadKernel_credited :
    deadKernel.text ∉ functionIdentifiers .ascii libraryLaunch.name ∧
      ¬ NoCredit .ascii mismatchCall [libraryLaunch] [gemmKernel] [gemmKernel, deadKernel] := by
  refine ⟨by decide +kernel, fun h => ?_⟩
  have hcount := h.count
  rw [computeNamedKernelCoverage_count, computeNamedKernelCoverage_count] at hcount
  have hone : (launchesMatched .ascii (texts [gemmKernel]) [libraryLaunch]).length = 0 := by decide +kernel
  have htwo : (launchesMatched .ascii (texts [gemmKernel, deadKernel]) [libraryLaunch]).length = 1 := by
    decide +kernel
  omega

theorem noCredit_iff_deadKernel :
    NoCredit .ascii mismatchCall [libraryLaunch] [gemmKernel] [gemmKernel, deadKernel] ↔
      NoFurtherMatch .ascii (texts [gemmKernel]) (texts [gemmKernel, deadKernel]) [libraryLaunch] ∧
        ([gemmKernel] = [] → [gemmKernel, deadKernel] = [] ∨ mismatchCall.skipReason.isSome = true ∨
          [libraryLaunch] = []) :=
  noCredit_iff (List.cons_subset_cons gemmKernel (List.nil_subset _)) rfl

end KernelGym.DeclaredKernels
