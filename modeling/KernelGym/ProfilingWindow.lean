import KernelGym.ComputeSanitizer
import KernelGym.Library.Dicts
import KernelGym.Library.Generators

/-! The profiling window of a candidate: the context manager around the profiler, the two functions that run the
candidate inside it, and what becomes of an exception that the candidate raises there. -/

namespace KernelGym.Profiling

open Library

/-! ### Context managers -/

inductive Activity
  | cpu
  | cuda
  deriving DecidableEq, Repr

/-- What the steps of one profiler raise, in the order in which they are taken, and what is configured. -/
structure Profiler where
  importing : Option Thrown
  profilingActivities : List String
  cudaAvailable : Except Thrown Bool
  device : Option Thrown
  preflight : Option Thrown
  construct : Option Thrown
  enter : Option Thrown
  exit : Option Thrown

/-- `activities` -/
def Profiler.activities (p : Profiler) : List Activity :=
  (if "cpu" ∈ p.profilingActivities then [.cpu] else []) ++ if "cuda" ∈ p.profilingActivities then [.cuda] else []

/-- The look at the device, whose exceptions are logged. -/
def Profiler.lookAtDevice (p : Profiler) : Option Thrown :=
  match p.cudaAvailable with
  | .error e => some e
  | .ok false => none
  | .ok true => firstRaised [swallow p.device, swallow p.preflight]

/-- `profiling_context`; what it yields is the profiler that runs, if any. -/
def profilingContext (p : Profiler) (enabled : Bool) : Generator (Option Profiler) :=
  if !enabled then .emit none
  else
    Generator.guarded (fun _ => .emit none) <| .perform p.importing <|
      if p.activities = [] then .emit none
      else
        .perform p.lookAtDevice <| .perform p.construct <| .perform p.enter <|
          .ensured (swallow p.exit) (.emit (some p))

/-- A value of the metrics that a run returns. -/
inductive Metric (β : Type)
  | text (t : Text)
  | flag (b : Bool)
  | data (value : β)

abbrev Metrics (β : Type) : Type := Dict Text (Metric β)

/-- The state that the TF32 context forces: what it found and set, and what the steps that restore it raise. The
setters raise no exceptions but those of `Exception`. -/
structure Tf32 (β : Type) where
  stateBefore : β
  stateForced : β
  restoring : List (Option { e : Thrown // e.isException = true })

/-- The failure of the steps that restore the state; each one is swallowed. -/
def Tf32.restored {β : Type} (t : Tf32 β) : Option Thrown :=
  firstRaised (t.restoring.map fun step => swallow (step.map Subtype.val))

/-- `tf32_execution_context` -/
def tf32ExecutionContext {β : Type} (t : Tf32 β) (enabled : Bool) : Generator Unit :=
  if !enabled then .emit () else .ensured t.restored (.emit ())

/-- `tf32_metadata` of a stage -/
def Tf32.metadata {β : Type} (t : Tf32 β) (stage : String) : Metrics β :=
  ⟨[((stage ++ "_tf32_enabled").toList, .flag true), ((stage ++ "_tf32_state_before").toList, .data t.stateBefore),
    ((stage ++ "_tf32_state_forced").toList, .data t.stateForced)]⟩

/-! ### The functions that profile -/

/-- What the candidate's forwards and the synchronization raise inside the window. -/
structure Window where
  forwards : List (Option Thrown)
  synchronize : Option Thrown

def Window.raised (w : Window) : Option Thrown := firstRaised (w.forwards ++ [w.synchronize])

def raising (step : Option Thrown) : Except Thrown Unit := step.elim (.ok ()) .error

/-- A run under the profiler: the synchronization before the window, the window, and the metrics that are read from
the profiler. -/
structure ProfiledRun (β : Type) where
  synchronize : Option Thrown
  window : Window
  extractProfilingMetrics : Option Profiler → Except Thrown (Metrics β)

/-- A timed run: the elapsed times of its trials come before the run under the profiler. -/
structure TimedRun (τ β : Type) extends ProfiledRun β where
  enableTf32 : Bool
  enableProfiling : Bool
  measured : Except Thrown τ

variable {τ β : Type}

/-- `with profiling_context(True) as prof` around the window -/
def ProfiledRun.profiled (run : ProfiledRun β) (p : Profiler) : Except Thrown (Option Profiler × Option Unit) := do
  raising run.synchronize
  withBlock (profilingContext p true) fun _ => raising run.window.raised

/-- `{"profiling_error": str(e)}` -/
def failureMetrics (e : Thrown) : Metrics β := ⟨[("profiling_error".toList, .text e.text)]⟩

/-- The handler that swallows what is not actionable. -/
def failOpen (u : Unicode) : Except Thrown (Metrics β) → Except Thrown (Metrics β)
  | .ok metrics => .ok metrics
  | .error e =>
    if e.isException && !isActionableCudaExecutionError u e.text then .ok (failureMetrics e) else .error e

/-- A name that the block would have bound. -/
def unbound {α : Type} (name : String) : Option α → Except Thrown α
  | some a => .ok a
  | none => .error ⟨.exception,
      ("cannot access local variable '" ++ name ++ "' where it is not associated with a value").toList⟩

/-- `time_execution_with_cuda_event`: the elapsed times and the profiling metrics. -/
def timeExecutionWithCudaEvent (u : Unicode) (t : Tf32 β) (p : Profiler) (run : TimedRun τ β) :
    Except Thrown (τ × Metrics β) := do
  let (_, result) ← withBlock (tf32ExecutionContext t run.enableTf32) fun _ => do
    let elapsed ← run.measured
    if run.enableProfiling then
      let metrics ← failOpen u do
        let (prof, _) ← run.profiled p
        run.extractProfilingMetrics prof
      return (elapsed, metrics)
    else return (elapsed, {})
  unbound "warmup_wall_s" result

/-- `run_profiling_only` -/
def runProfilingOnly (u : Unicode) (t : Tf32 β) (p : Profiler) (run : ProfiledRun β) :
    Except Thrown (Metrics β) := do
  let metrics ← failOpen u do
    let (_, result) ← withBlock (tf32ExecutionContext t true) fun _ => run.profiled p
    let (prof, _) ← unbound "prof" result
    run.extractProfilingMetrics prof
  return metrics.update (t.metadata "profiling")

/-- The entry under `profiling_error`. -/
def profilingError (metrics : Metrics β) : Option (Metric β) := metrics.get "profiling_error".toList

/-! ### The window -/

section Window

variable {u : Unicode} {t : Tf32 β} {p : Profiler} {e x : Thrown}

/-- What the profiler raises before the window. -/
def Profiler.startError (p : Profiler) : Option Thrown :=
  p.importing.or (if p.activities = [] then none else p.lookAtDevice.or (p.construct.or p.enter))

/-- What the profiler raises after the window and `profiling_context` does not catch. -/
def Profiler.stopError (p : Profiler) : Option Thrown := if p.activities = [] then none else swallow p.exit

/-- The exception of the window as it leaves `profiling_context`. -/
def Profiler.surfacing (p : Profiler) (e : Thrown) : Thrown :=
  if p.startError.isSome then e
  else
    match p.stopError with
    | some x => x
    | none => if e.isException then didNotStopAfterThrow else e

theorem restored_eq_none (t : Tf32 β) : t.restored = none := by
  simp only [Tf32.restored, firstRaised, List.findSome?_eq_none_iff, List.mem_map]
  rintro - ⟨step, -, rfl⟩
  cases step with
  | none => rfl
  | some e => simp [swallow, e.2]

/-- The TF32 context lets everything through. -/
theorem withBlock_tf32 {α : Type} (t : Tf32 β) (enabled : Bool) (block : Unit → Except Thrown α) :
    withBlock (tf32ExecutionContext t enabled) block = (block ()).map fun a => ((), some a) := by
  unfold tf32ExecutionContext
  split_ifs
  · exact withBlock_emit ()
  · rw [restored_eq_none]
    exact withBlock_ensured_emit ()

/-- The generator before its handler. -/
theorem profilingContext_eq (p : Profiler) : profilingContext p true =
    Generator.guarded (fun _ => .emit none) (.perform p.startError
      (if p.activities = [] then .emit none else .ensured (swallow p.exit) (.emit (some p)))) := by
  unfold profilingContext Profiler.startError
  by_cases ha : p.activities = []
  · simp only [ha, if_true, Bool.not_true, Bool.false_eq_true, if_false, Option.or_none]
  · simp only [ha, if_false, Bool.not_true, Bool.false_eq_true, Generator.perform_perform]

/-- **What becomes of an exception inside `profiling_context`** whose profiler lets the window run. -/
theorem withBlock_profilingContext {α : Type} (hstart : ∀ x, p.startError = some x → x.isException = true) (e : Thrown) :
    withBlock (profilingContext p true) (fun _ => (.error e : Except Thrown α)) = .error (p.surfacing e) := by
  rw [profilingContext_eq, Profiler.surfacing]
  cases hs : p.startError with
  | some x =>
      rw [Generator.perform_some, Generator.guarded, if_pos (hstart x hs), withBlock_emit]
      rfl
  | none =>
      rw [Generator.perform_none, Option.isSome_none, if_neg Bool.false_ne_true, Profiler.stopError]
      split_ifs with ha hx hx
      · exact withBlock_handler_yields rfl rfl hx
      · exact withBlock_handler_passes rfl rfl (Bool.eq_false_iff.mpr hx)
      · rw [Generator.ensured_emit]
        cases hstop : swallow p.exit with
        | some x => exact withBlock_handler_passes rfl rfl (swallow_eq_some.mp hstop).2
        | none => exact withBlock_handler_yields rfl rfl hx
      · rw [Generator.ensured_emit]
        cases hstop : swallow p.exit with
        | some x => exact withBlock_handler_passes rfl rfl (swallow_eq_some.mp hstop).2
        | none => exact withBlock_handler_passes rfl rfl (Bool.eq_false_iff.mpr hx)

/-! ### What a caller sees -/

/-- The candidate raises `e` inside the window: the steps before it pass, and the profiler starts or fails with an
exception that is caught. -/
structure ProfiledRun.Raises (run : ProfiledRun β) (p : Profiler) (e : Thrown) : Prop where
  synchronize : run.synchronize = none
  start : ∀ x, p.startError = some x → x.isException = true
  window : run.window.raised = some e

structure TimedRun.Raises (run : TimedRun τ β) (p : Profiler) (e : Thrown) : Prop
    extends ProfiledRun.Raises run.toProfiledRun p e where
  enabled : run.enableProfiling = true
  measured : ∃ elapsed, run.measured = .ok elapsed

/-- What is due to the caller: an actionable exception with the message of `e`, or the text of `e` under
`profiling_error`. -/
def Surfaces (u : Unicode) (e : Thrown) (outcome : Except Thrown (Metrics β)) : Prop :=
  if isActionableCudaExecutionError u e.text then
    ∃ x, outcome = .error x ∧ isActionableCudaExecutionError u x.text = true ∧ e.text <:+: x.text
  else ∃ metrics, outcome = .ok metrics ∧ profilingError metrics = some (.text e.text)

/-- When the caller gets what is due: the profiler did not start, or its failure to stop is itself such an
exception, or the exception is one that the handlers do not catch. -/
def Profiler.Keeps (u : Unicode) (p : Profiler) (e : Thrown) : Prop :=
  if p.startError.isSome then e.isException = true ∨ isActionableCudaExecutionError u e.text = true
  else
    match p.stopError with
    | some x =>
      isActionableCudaExecutionError u e.text = true ∧ isActionableCudaExecutionError u x.text = true ∧
        e.text <:+: x.text
    | none =>
      if e.isException then
        isActionableCudaExecutionError u e.text = false ∧ e.text = "generator didn't stop after throw()".toList
      else isActionableCudaExecutionError u e.text = true

theorem didNotStopAfterThrow_lower (u : Unicode) : u.lower didNotStopAfterThrow.text = didNotStopAfterThrow.text := by
  rw [Unicode.lower_ascii (by decide +kernel)]
  decide +kernel

/-- The message of a generator that yields again is no fault. -/
theorem didNotStopAfterThrow_not_actionable (u : Unicode) :
    isActionableCudaExecutionError u didNotStopAfterThrow.text = false := by
  rw [Bool.eq_false_iff, Ne, isActionableCudaExecutionError_iff, didNotStopAfterThrow_lower]
  rintro (hrace | htoken)
  · obtain ⟨c, hc, hcz⟩ := Regex.search_needs race_needs hrace
    have hnone : didNotStopAfterThrow.text.all (fun c => !(c = 'c' || c = 'z')) = true := by decide +kernel
    have hc := List.all_eq_true.mp hnone c hc
    rw [hcz] at hc
    exact Bool.false_ne_true hc
  · exact absurd htoken (by decide +kernel)

theorem failOpen_swallows (hx : x.isException = true) (hact : isActionableCudaExecutionError u x.text = false) :
    failOpen u (.error x) = .ok (failureMetrics x : Metrics β) := if_pos (by simp [hx, hact])

theorem failOpen_raises (h : x.isException = true → isActionableCudaExecutionError u x.text = true) :
    failOpen u (.error x : Except Thrown (Metrics β)) = .error x := if_neg (by simpa using h)

/-- The handler on the exception `x` that has come of `e`. -/
theorem surfaces_failOpen {rest : Metrics β → Metrics β}
    (hkeep : profilingError (rest (failureMetrics x)) = some (.text x.text)) :
    Surfaces u e ((failOpen u (.error x)).map rest) ↔
      if isActionableCudaExecutionError u e.text then
        isActionableCudaExecutionError u x.text = true ∧ e.text <:+: x.text
      else x.isException = true ∧ isActionableCudaExecutionError u x.text = false ∧ x.text = e.text := by
  unfold Surfaces
  by_cases hx : x.isException = true ∧ isActionableCudaExecutionError u x.text = false
  · rw [failOpen_swallows hx.1 hx.2]
    simp [Except.map, hkeep, hx]
  · have hraise : x.isException = true → isActionableCudaExecutionError u x.text = true :=
      fun h => (Bool.not_eq_false _).mp fun hact => hx ⟨h, hact⟩
    rw [failOpen_raises hraise]
    split_ifs
    · simp [Except.map]
    · simp only [Except.map, reduceCtorEq, false_and, exists_false, false_iff]
      exact fun h => hx ⟨h.1, h.2.1⟩

/-- What the handler makes of the exception that surfaces. -/
theorem surfaces_iff_keeps {rest : Metrics β → Metrics β}
    (hkeep : ∀ x, profilingError (rest (failureMetrics x)) = some (.text x.text)) :
    Surfaces u e ((failOpen u (.error (p.surfacing e))).map rest) ↔ p.Keeps u e := by
  rw [surfaces_failOpen (hkeep _), Profiler.surfacing, Profiler.Keeps]
  cases hstart : p.startError.isSome with
  | true => cases hact : isActionableCudaExecutionError u e.text <;> simp [hact]
  | false =>
      cases hstop : p.stopError with
      | some x =>
          have hx : x.isException = false := by
            unfold Profiler.stopError at hstop
            split_ifs at hstop
            exact (swallow_eq_some.mp hstop).2
          cases hact : isActionableCudaExecutionError u e.text <;> simp [hx]
      | none =>
          cases hexc : e.isException with
          | true =>
              have hstopped := didNotStopAfterThrow_not_actionable u
              cases hact : isActionableCudaExecutionError u e.text with
              | true => simp [hstopped]
              | false =>
                  simp only [hstopped, Bool.false_eq_true, if_true, if_false, true_and]
                  exact ⟨fun h => h.2.symm, fun h => ⟨rfl, h.symm⟩⟩
          | false => cases hact : isActionableCudaExecutionError u e.text <;> simp [hact, hexc]

/-! ### Both functions -/

/-- The exception of the window as the window's `with` statement leaves it. -/
theorem ProfiledRun.Raises.profiled {run : ProfiledRun β} (h : run.Raises p e) :
    run.profiled p = .error (p.surfacing e) := by
  unfold ProfiledRun.profiled raising
  rw [h.synchronize, h.window]
  exact withBlock_profilingContext h.start e

theorem profilingError_update (t : Tf32 β) (metrics : Metrics β) :
    profilingError (metrics.update (t.metadata "profiling")) = profilingError metrics := by
  rw [profilingError, Dict.get_update]
  rfl

/-- `run_profiling_only` on an exception of the window. -/
theorem runProfilingOnly_eq {run : ProfiledRun β} (h : run.Raises p e) : runProfilingOnly u t p run =
    (failOpen u (.error (p.surfacing e))).map fun metrics => metrics.update (t.metadata "profiling") := by
  unfold runProfilingOnly
  rw [withBlock_tf32, h.profiled]
  rfl

/-- `time_execution_with_cuda_event` on an exception of the window: its metrics. -/
theorem timeExecutionWithCudaEvent_eq {run : TimedRun τ β} (h : run.Raises p e) :
    (timeExecutionWithCudaEvent u t p run).map Prod.snd = failOpen u (.error (p.surfacing e)) := by
  obtain ⟨elapsed, helapsed⟩ := h.measured
  unfold timeExecutionWithCudaEvent
  rw [withBlock_tf32, helapsed, h.enabled, h.toRaises.profiled]
  cases h : failOpen u (.error (p.surfacing e) : Except Thrown (Metrics β)) with
  | ok metrics => simp [Except.map, bind, Except.bind, pure, Except.pure, unbound, h]
  | error x => simp [Except.map, bind, Except.bind, h]

theorem surfaces_timeExecution {run : TimedRun τ β} (h : run.Raises p e) :
    Surfaces u e ((timeExecutionWithCudaEvent u t p run).map Prod.snd) ↔ p.Keeps u e := by
  rw [timeExecutionWithCudaEvent_eq h, ← id_map (failOpen u _)]
  exact surfaces_iff_keeps fun x => rfl

theorem surfaces_runProfilingOnly {run : ProfiledRun β} (h : run.Raises p e) :
    Surfaces u e (runProfilingOnly u t p run) ↔ p.Keeps u e := by
  rw [runProfilingOnly_eq h]
  exact surfaces_iff_keeps fun x => profilingError_update t (failureMetrics x)

/-- **An exception of the candidate inside the profiling window reaches the caller as is due exactly when the
profiler keeps it.** -/
theorem window_exception_surfaces {timed : TimedRun τ β} {probe : ProfiledRun β} (htimed : timed.Raises p e)
    (hprobe : probe.Raises p e) :
    (Surfaces u e ((timeExecutionWithCudaEvent u t p timed).map Prod.snd) ↔ p.Keeps u e) ∧
      (Surfaces u e (runProfilingOnly u t p probe) ↔ p.Keeps u e) :=
  ⟨surfaces_timeExecution htimed, surfaces_runProfilingOnly hprobe⟩

end Window

/-! ### A fault under a profiler that works -/

def workingProfiler : Profiler :=
  ⟨none, ["cpu", "cuda"], .ok true, none, none, none, none, none⟩

def quietTf32 : Tf32 Unit := ⟨(), (), [none, none]⟩

def illegalAccess : Thrown := ⟨.exception, "CUDA error: an illegal memory access was encountered".toList⟩

/-- The second forward of the window raises. -/
def faultyRun : TimedRun Unit Unit where
  synchronize := none
  window := ⟨[none, some illegalAccess], none⟩
  extractProfilingMetrics _ := .ok {}
  enableTf32 := true
  enableProfiling := true
  measured := .ok ()

theorem faultyRun_raises : faultyRun.Raises workingProfiler illegalAccess where
  synchronize := rfl
  start _ h := absurd h (by simp [Profiler.startError, workingProfiler, Profiler.lookAtDevice, firstRaised, swallow])
  window := rfl
  enabled := rfl
  measured := ⟨(), rfl⟩

theorem illegalAccess_not_kept : ¬ workingProfiler.Keeps .ascii illegalAccess := by
  have hact : isActionableCudaExecutionError .ascii illegalAccess.text = true := by decide +kernel
  have hstart : workingProfiler.startError = none := by decide +kernel
  have hstop : workingProfiler.stopError = none := by decide +kernel
  intro h
  simp only [Profiler.Keeps, hstart, hstop, hact, Option.isSome_none, Bool.false_eq_true, if_false] at h
  exact absurd h (by simp [illegalAccess, Thrown.isException])

/-- The fault is a mere profiling error to both functions. -/
theorem illegalAccess_swallowed :
    isActionableCudaExecutionError .ascii illegalAccess.text = true ∧ faultyRun.Raises workingProfiler illegalAccess ∧
      ¬ Surfaces .ascii illegalAccess
        ((timeExecutionWithCudaEvent .ascii quietTf32 workingProfiler faultyRun).map Prod.snd) ∧
      ¬ Surfaces .ascii illegalAccess
        (runProfilingOnly .ascii quietTf32 workingProfiler faultyRun.toProfiledRun) := by
  refine ⟨by decide +kernel, faultyRun_raises, ?_, ?_⟩
  · rw [surfaces_timeExecution faultyRun_raises]
    exact illegalAccess_not_kept
  · rw [surfaces_runProfilingOnly faultyRun_raises.toRaises]
    exact illegalAccess_not_kept

theorem window_exception_surfaces_faultyRun :
    (Surfaces .ascii illegalAccess
        ((timeExecutionWithCudaEvent .ascii quietTf32 workingProfiler faultyRun).map Prod.snd) ↔
      workingProfiler.Keeps .ascii illegalAccess) ∧
    (Surfaces .ascii illegalAccess (runProfilingOnly .ascii quietTf32 workingProfiler faultyRun.toProfiledRun) ↔
      workingProfiler.Keeps .ascii illegalAccess) :=
  window_exception_surfaces faultyRun_raises faultyRun_raises.toRaises

end KernelGym.Profiling
