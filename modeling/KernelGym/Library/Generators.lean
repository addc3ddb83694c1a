import Mathlib.Data.List.Basic

/-! Python's generator functions as trees of resumptions, and the `with` statement over the context managers that
`contextlib` makes of them. -/

namespace KernelGym.Library

/-- The classes of exceptions that the statements tell apart. -/
inductive ExceptionClass
  | stopIteration
  | exception
  | baseException
  deriving DecidableEq, Repr

/-- An exception with its `str`. -/
structure Thrown where
  kind : ExceptionClass
  text : List Char
  deriving DecidableEq, Repr

/-- Whether `except Exception` catches it. -/
def Thrown.isException (e : Thrown) : Bool := e.kind ≠ .baseException

/-- What a generator function does until it yields, and what it does when it is resumed: with nothing, or with an
exception that is thrown in. -/
inductive Generator (ν : Type)
  | returned
  | raised (e : Thrown)
  | yielded (value : ν) (resume : Option Thrown → Generator ν)

/-- The first exception of several steps. -/
def firstRaised (steps : List (Option Thrown)) : Option Thrown := steps.findSome? id

/-- `try: step` with `except Exception: pass`: what is left of the exception. -/
def swallow (step : Option Thrown) : Option Thrown := step.filter fun e => !e.isException

namespace Generator

variable {ν : Type}

/-- A last `yield value`. -/
def emit (value : ν) : Generator ν := .yielded value fun
  | none => .returned
  | some e => .raised e

/-- A statement that may raise, and what follows. -/
def perform (step : Option Thrown) (rest : Generator ν) : Generator ν :=
  match step with
  | none => rest
  | some e => .raised e

/-- `try: body` with `except Exception as e: handler`. -/
def guarded (handler : Thrown → Generator ν) : Generator ν → Generator ν
  | .returned => .returned
  | .raised e => if e.isException then handler e else .raised e
  | .yielded value resume => .yielded value fun r => (resume r).guarded handler

/-- `try: body` with `finally: cleanup`; an exception of the cleanup takes the place of what was under way. -/
def ensured (cleanup : Option Thrown) : Generator ν → Generator ν
  | .returned => cleanup.elim .returned .raised
  | .raised e => .raised (cleanup.getD e)
  | .yielded value resume => .yielded value fun r => (resume r).ensured cleanup

end Generator

/-- An exception as it leaves a generator's frame. -/
def Thrown.leaving (e : Thrown) : Thrown :=
  if e.kind = .stopIteration then ⟨.exception, "generator raised StopIteration".toList⟩ else e

def didNotYield : Thrown := ⟨.exception, "generator didn't yield".toList⟩

def didNotStop : Thrown := ⟨.exception, "generator didn't stop".toList⟩

def didNotStopAfterThrow : Thrown := ⟨.exception, "generator didn't stop after throw()".toList⟩

/-- `with manager as value: block`, for a generator behind `contextmanager`: the value, and what the block left
unless its exception was swallowed. An exception is identified with its class and text. -/
def withBlock {ν α : Type} (manager : Generator ν) (block : ν → Except Thrown α) : Except Thrown (ν × Option α) :=
  match manager with
  | .returned => .error didNotYield
  | .raised e => .error e.leaving
  | .yielded value resume =>
    match block value with
    | .ok a =>
      match resume none with
      | .returned => .ok (value, some a)
      | .raised x => .error x.leaving
      | .yielded _ _ => .error didNotStop
    | .error e =>
      match resume (some e) with
      | .returned => .ok (value, none)
      | .raised x => .error (if x = e then e else x.leaving)
      | .yielded _ _ => .error didNotStopAfterThrow

section Rules

variable {ν α : Type} {block : ν → Except Thrown α} {e x : Thrown}

theorem swallow_eq_some {step : Option Thrown} : swallow step = some e ↔ step = some e ∧ e.isException = false := by
  simp [swallow, Option.filter_eq_some_iff]

theorem Thrown.leaving_of_base (h : e.isException = false) : e.leaving = e := by
  have hkind : e.kind = .baseException := by simpa [Thrown.isException] using h
  rw [Thrown.leaving, if_neg (by simp [hkind])]

namespace Generator

@[simp] theorem perform_none (rest : Generator ν) : perform none rest = rest := rfl

@[simp] theorem perform_some (rest : Generator ν) : perform (some e) rest = .raised e := rfl

/-- Steps one after the other raise the first exception. -/
theorem perform_perform (a b : Option Thrown) (rest : Generator ν) :
    perform a (perform b rest) = perform (a.or b) rest := by
  cases a <;> rfl

@[simp] theorem guarded_emit (handler : Thrown → Generator ν) (value : ν) :
    (emit value).guarded handler = .yielded value fun
      | none => .returned
      | some e => if e.isException then handler e else .raised e := by
  unfold emit guarded
  congr 1
  funext r
  cases r <;> rfl

@[simp] theorem ensured_emit (cleanup : Option Thrown) (value : ν) :
    (emit value).ensured cleanup = .yielded value fun
      | none => cleanup.elim .returned .raised
      | some e => .raised (cleanup.getD e) := by
  unfold emit ensured
  congr 1
  funext r
  cases r <;> rfl

end Generator

/-- **A manager that only yields lets the block's exception through.** -/
theorem withBlock_emit (value : ν) : withBlock (Generator.emit value) block =
    (block value).map fun a => (value, some a) := by
  cases h : block value with
  | ok a => simp only [withBlock, Generator.emit, h, Except.map]
  | error e => simp only [withBlock, Generator.emit, h, Except.map, if_true]

/-- A manager with a clean-up that never raises lets the block's exception through. -/
theorem withBlock_ensured_emit (value : ν) : withBlock ((Generator.emit value).ensured none) block =
    (block value).map fun a => (value, some a) := by
  rw [Generator.ensured_emit]
  exact withBlock_emit value

/-- **A second `yield` in a handler costs the block its exception.** -/
theorem withBlock_handler_yields {value again : ν} {resume : Option Thrown → Generator ν}
    (he : block value = .error e) (hraise : resume (some e) = .raised x) (hx : x.isException = true) :
    withBlock ((Generator.yielded value resume).guarded fun _ => .emit again) block = .error didNotStopAfterThrow := by
  simp only [withBlock, he, hraise, Generator.guarded, hx, if_true, Generator.emit]

/-- Past a handler of `Exception`, another exception leaves as it is. -/
theorem withBlock_handler_passes {value again : ν} {resume : Option Thrown → Generator ν}
    (he : block value = .error e) (hraise : resume (some e) = .raised x) (hx : x.isException = false) :
    withBlock ((Generator.yielded value resume).guarded fun _ => .emit again) block = .error x := by
  simp only [withBlock, he, hraise, Generator.guarded, hx, if_false,
    Bool.false_eq_true, Thrown.leaving_of_base hx]
  split_ifs with h
  · rw [h]
  · rfl

end Rules

end KernelGym.Library
