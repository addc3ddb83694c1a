import Mathlib.Data.List.DropRight
import Mathlib.Logic.Function.Basic
import KernelGym.Library.Runs

/-! The restarts of the worker monitor: its two loops share a queue of requests and the set of workers whose restart is
in progress, and every restart of a GPU worker is paid for from a budget that survives the monitor in a file. -/

namespace KernelGym.WorkerMonitor

open Library

/-! ### The file of a worker -/

/-- The characters of the class `[A-Za-z0-9_.-]`. -/
def isSafeChar (c : Char) : Bool := c.isAlphanum || c = '_' || c = '.' || c = '-'

/-- `re.sub(r"[^A-Za-z0-9_.-]+", "_", value)` -/
def replaceUnsafe : List Char → List Char
  | [] => []
  | c :: rest =>
    if isSafeChar c then c :: replaceUnsafe rest
    else
      match rest with
      | [] => ['_']
      | d :: _ => if isSafeChar d then '_' :: replaceUnsafe rest else replaceUnsafe rest

def isTrimmed (c : Char) : Bool := c = '.' || c = '_'

/-- `_safe_path_component` -/
def safePathComponent (value : String) : String :=
  let trimmed := ((replaceUnsafe value.toList).dropWhile isTrimmed).rdropWhile isTrimmed
  if trimmed = [] then "unknown" else String.ofList trimmed

/-- A worker whose id is the name of its file, as `worker_gpu_0` is. -/
structure Worker where
  id : String
  /-- `device.startswith("cuda:")` -/
  cuda : Bool
  safe : safePathComponent id = id

instance : DecidableEq Worker := fun a b =>
  decidable_of_iff (a.id = b.id ∧ a.cuda = b.cuda) (by cases a; cases b; simp)

/-- `_restart_budget_path`, below the directory of the latches. -/
def restartBudgetPath (hostname workerId : String) : List String :=
  ["restart_attempts", safePathComponent hostname, safePathComponent workerId ++ ".json"]

/-- What is in the file; `invalid` is no record with an integer. -/
inductive BudgetFile
  | absent
  | invalid
  | attempts (n : ℤ)
  deriving DecidableEq

/-- Which operations on the storage succeed while the lock of the budget is held. -/
structure Storage where
  read : Bool := true
  write : Bool := true
  remove : Bool := true
  /-- `write_gpu_quarantine` -/
  quarantine : Bool := true

/-! ### The budget of a worker -/

/-- `max_restart_attempts` -/
def maxRestartAttempts : ℕ := 3

/-- The entry of `restart_attempts`, where a missing one counts as zero, and the file. -/
structure Budget where
  memory : ℕ := 0
  file : BudgetFile := .absent
  deriving DecidableEq

inductive Reply
  | granted
  /-- The attempts are used up; `cleared` when the quarantine has been written and the counter removed. -/
  | refused (cleared : Bool)
  | raised
  deriving DecidableEq

namespace Budget

variable (b : Budget) (st : Storage)

/-- `_restart_budget_value` -/
def value : Option ℕ :=
  if st.read then
    match b.file with
    | .absent => some b.memory
    | .invalid => none
    | .attempts n => some (max b.memory n.toNat)
  else none

/-- `_set_restart_budget`: whether it returned, and what it left. -/
def set (attempts : ℕ) : Bool × Budget :=
  if attempts = 0 then (st.remove, { memory := 0, file := if st.remove then .absent else b.file })
  else if st.write then (true, ⟨attempts, .attempts attempts⟩)
  else (false, b)

/-- `_reserve_gpu_restart_attempt`, as far as the budget goes. -/
def reserve : Reply × Budget :=
  match b.value st with
  | none => (.raised, b)
  | some attempts =>
    if attempts < maxRestartAttempts then
      let (returned, b') := ({ b with memory := attempts } : Budget).set st (attempts + 1)
      (if returned then .granted else .raised, b')
    else if st.quarantine then
      let (returned, b') := ({ b with memory := attempts } : Budget).set st 0
      (.refused returned, b')
    else (.refused false, { b with memory := attempts })

/-- `_release_gpu_restart_attempt` -/
def release : Bool × Budget :=
  match b.value st with
  | none => (false, b)
  | some attempts => ({ b with memory := attempts } : Budget).set st (attempts - 1)

/-- `_clear_gpu_restart_attempts` -/
def clear : Bool × Budget := b.set st 0

end Budget

/-! ### The loops -/

/-- Where `_restart_loop` stands. -/
inductive Loop
  | idle
  | dequeued (w : Worker)
  | reserved (w : Worker)
  /-- A process was started by `_restart_worker`. -/
  | spawned (w : Worker)
  | watching (w : Worker)
  deriving DecidableEq

def Loop.request : Loop → Option Worker
  | .idle => none
  | .dequeued w | .reserved w | .spawned w | .watching w => some w

structure State where
  restartAttempts : Worker → ℕ := fun _ => 0
  restartInProgress : Worker → Bool := fun _ => false
  restartQueue : List Worker := []
  loop : Loop := .idle
  files : List String → BudgetFile := fun _ => .absent
  /-- History: the reservations since the last reset that no obsolete request has given back. -/
  charged : Worker → ℕ := fun _ => 0
  /-- History: all reservations, all that were given back, and all processes that were started. -/
  granted : Worker → ℕ := fun _ => 0
  returned : Worker → ℕ := fun _ => 0
  spawns : Worker → ℕ := fun _ => 0

inductive Action
  /-- The monitor loop finds a worker that needs a restart. -/
  | enqueue (w : Worker)
  /-- The monitor loop finds a worker in quarantine. -/
  | discard (w : Worker)
  /-- The monitor loop finds a worker healthy. -/
  | healthy (w : Worker) (st : Storage)
  | dequeue
  /-- The request is for a worker in quarantine, or for an older generation of it. -/
  | drop
  | reserve (st : Storage)
  /-- An exception, after which the request is queued again. -/
  | requeue
  | spawn
  /-- `_restart_worker` returns `None`. -/
  | obsolete (st : Storage)
  | succeed
  /-- `_restart_worker` returns `False`, or raises. -/
  | fail
  /-- The watch sees the worker accept tasks, which clears its budget. -/
  | admitted (st : Storage)
  | endWatch
  /-- The monitor ends, perhaps just after the file was written, and another one starts. -/
  | restartMonitor (written : Bool)

variable (hostname : String)

namespace State

variable (s : State)

def budget (w : Worker) : Budget := ⟨s.restartAttempts w, s.files (restartBudgetPath hostname w.id)⟩

def setBudget (w : Worker) (b : Budget) : State :=
  { s with
    restartAttempts := Function.update s.restartAttempts w b.memory
    files := Function.update s.files (restartBudgetPath hostname w.id) b.file }

def setCharged (w : Worker) (n : ℕ) : State := { s with charged := Function.update s.charged w n }

/-- `restart_in_progress.discard`, and on to the next request. -/
def finish (w : Worker) : State :=
  { s with restartInProgress := Function.update s.restartInProgress w false, loop := .idle }

/-- `restart_queue.put`; the request stays in progress. -/
def putBack (w : Worker) : State := { s with restartQueue := s.restartQueue ++ [w], loop := .idle }

/-- The counter goes when both its parts have gone. -/
def clearBudget (w : Worker) (st : Storage) : State :=
  if w.cuda then
    let (done, b) := (s.budget hostname w).clear st
    let s' := s.setBudget hostname w b
    if done then s'.setCharged w 0 else s'
  else s

def reserve (w : Worker) (st : Storage) : State :=
  if w.cuda then
    let (reply, b) := (s.budget hostname w).reserve st
    let s' := s.setBudget hostname w b
    match reply with
    | .granted =>
      { s'.setCharged w (s.charged w + 1) with
        granted := Function.update s.granted w (s.granted w + 1), loop := .reserved w }
    | .refused cleared => (if cleared then s'.setCharged w 0 else s').finish w
    | .raised => s'.putBack w
  else { s with granted := Function.update s.granted w (s.granted w + 1), loop := .reserved w }

/-- The request gives its reservation back, and is dropped unless the storage fails. -/
def release (w : Worker) (st : Storage) : State :=
  let s' := { s with returned := Function.update s.returned w (s.returned w + 1) }
  if w.cuda then
    let (done, b) := (s.budget hostname w).release st
    let s'' := (s'.setBudget hostname w b).setCharged w (s.charged w - 1)
    if done then s''.finish w else s''.putBack w
  else s'.finish w

/-- The files when the monitor ends; one may have been written for a reservation that was not answered. -/
def lastFiles (written : Bool) : List String → BudgetFile :=
  match s.loop with
  | .dequeued w =>
    if written && w.cuda && ((s.budget hostname w).reserve {}).1 = .granted then
      Function.update s.files (restartBudgetPath hostname w.id) ((s.budget hostname w).reserve {}).2.file
    else s.files
  | _ => s.files

/-- Nothing in memory is left. -/
def restarted (written : Bool) : State :=
  { s with
    restartAttempts := fun _ => 0, restartInProgress := fun _ => false, restartQueue := [], loop := .idle
    files := s.lastFiles hostname written }

end State

/-- One step of the monitor. -/
def step (s : State) (a : Action) : Option State :=
  match a, s.loop with
  | .enqueue w, _ =>
    if s.restartInProgress w then none
    else some { s with
      restartQueue := s.restartQueue ++ [w], restartInProgress := Function.update s.restartInProgress w true }
  | .discard w, _ => some { s with restartInProgress := Function.update s.restartInProgress w false }
  | .healthy w st, _ => if s.restartInProgress w then none else some (s.clearBudget hostname w st)
  | .dequeue, .idle =>
    match s.restartQueue with
    | w :: rest => some { s with restartQueue := rest, loop := .dequeued w }
    | [] => none
  | .drop, .dequeued w => some (s.finish w)
  | .reserve st, .dequeued w => some (s.reserve hostname w st)
  | .requeue, .dequeued w => some (s.putBack w)
  | .spawn, .reserved w =>
    some { s with spawns := Function.update s.spawns w (s.spawns w + 1), loop := .spawned w }
  | .obsolete st, .reserved w => some (s.release hostname w st)
  | .succeed, .spawned w => some { s with loop := .watching w }
  | .fail, .reserved w => some (s.putBack w)
  | .fail, .spawned w => some (s.putBack w)
  | .admitted st, .watching w => some ((s.clearBudget hostname w st).finish w)
  | .endWatch, .watching w => some (s.finish w)
  | .restartMonitor written, _ => some (s.restarted hostname written)
  | _, _ => none

/-- The steps of the monitor. -/
inductive Steps (s : State) : Action → State → Prop
  | enqueue {w} : Steps s (.enqueue w)
      { s with
        restartQueue := s.restartQueue ++ [w], restartInProgress := Function.update s.restartInProgress w true }
  | discard {w} : Steps s (.discard w) { s with restartInProgress := Function.update s.restartInProgress w false }
  | healthy {w st} : Steps s (.healthy w st) (s.clearBudget hostname w st)
  | dequeue {w rest} (hloop : s.loop = .idle) (hqueue : s.restartQueue = w :: rest) :
      Steps s .dequeue { s with restartQueue := rest, loop := .dequeued w }
  | drop {w} (hloop : s.loop = .dequeued w) : Steps s .drop (s.finish w)
  | reserve {w st} (hloop : s.loop = .dequeued w) : Steps s (.reserve st) (s.reserve hostname w st)
  | requeue {w} (hloop : s.loop = .dequeued w) : Steps s .requeue (s.putBack w)
  | spawn {w} (hloop : s.loop = .reserved w) :
      Steps s .spawn { s with spawns := Function.update s.spawns w (s.spawns w + 1), loop := .spawned w }
  | obsolete {w st} (hloop : s.loop = .reserved w) : Steps s (.obsolete st) (s.release hostname w st)
  | succeed {w} (hloop : s.loop = .spawned w) : Steps s .succeed { s with loop := .watching w }
  | fail {w} (hloop : s.loop = .reserved w ∨ s.loop = .spawned w) : Steps s .fail (s.putBack w)
  | admitted {w st} (hloop : s.loop = .watching w) : Steps s (.admitted st) ((s.clearBudget hostname w st).finish w)
  | endWatch {w} (hloop : s.loop = .watching w) : Steps s .endWatch (s.finish w)
  | restartMonitor {written} : Steps s (.restartMonitor written) (s.restarted hostname written)

theorem step_cases {hostname : String} {s s' : State} {a : Action} (h : step hostname s a = some s') :
    Steps hostname s a s' := by
  unfold step at h
  split at h
  case h_1 | h_3 =>
    obtain ⟨-, heq⟩ := Option.ite_none_left_eq_some.mp h
    obtain rfl := Option.some.inj heq
    constructor
  case h_4 hloop =>
    split at h
    · obtain rfl := Option.some.inj h
      exact .dequeue hloop ‹_›
    · cases h
  case h_11 w hloop =>
    obtain rfl := Option.some.inj h
    exact .fail (.inl hloop)
  case h_12 w hloop =>
    obtain rfl := Option.some.inj h
    exact .fail (.inr hloop)
  case h_16 => cases h
  all_goals
    obtain rfl := Option.some.inj h
    constructor
    try assumption

/-! ### What the file of a worker covers -/

/-- The file still knows of so many restarts; one that cannot be read grants none. -/
def BudgetFile.Covers : BudgetFile → ℕ → Prop
  | .absent, n => n = 0
  | .invalid, _ => True
  | .attempts m, n => n ≤ m.toNat

namespace Budget

variable {b : Budget} {st : Storage} {n attempts : ℕ}

theorem value_covers (hvalue : b.value st = some attempts) (h : b.file.Covers n) : n ≤ attempts := by
  unfold value at hvalue
  cases hread : st.read with
  | false => simp [hread] at hvalue
  | true =>
      cases hfile : b.file with
      | absent =>
          rw [hfile] at h
          rw [show n = 0 from h]
          exact Nat.zero_le _
      | invalid => simp [hread, hfile] at hvalue
      | attempts m =>
          rw [hfile] at h
          have hmax : max b.memory m.toNat = attempts := by simpa [hread, hfile] using hvalue
          exact hmax ▸ (show n ≤ m.toNat from h).trans (le_max_right _ _)

theorem covers_of_le {f : BudgetFile} {m : ℕ} (h : f.Covers n) (hle : m ≤ n) : f.Covers m := by
  cases f with
  | absent => exact Nat.le_zero.mp ((show n = 0 from h) ▸ hle)
  | invalid => trivial
  | attempts k => exact hle.trans h

/-- `_set_restart_budget` leaves the number in the file, or the file as it was. -/
theorem set_file (b : Budget) (st : Storage) (attempts : ℕ) :
    ((b.set st attempts).1 = true ∧
        (b.set st attempts).2.file = (if attempts = 0 then .absent else .attempts attempts)) ∨
      (b.set st attempts).1 = false ∧ (b.set st attempts).2.file = b.file := by
  unfold set
  by_cases hzero : attempts = 0
  · cases hremove : st.remove <;> simp [hzero]
  · cases hwrite : st.write <;> simp [hzero]

theorem set_covers (h : b.file.Covers n) (hle : n ≤ attempts) : (b.set st attempts).2.file.Covers n := by
  rcases set_file b st attempts with ⟨-, hfile⟩ | ⟨-, hfile⟩
  · rw [hfile]
    split
    · rename_i hzero
      exact Nat.le_zero.mp (hzero ▸ hle)
    · exact (show n ≤ (attempts : ℤ).toNat by simpa using hle)
  · rwa [hfile]

/-- A reservation raises what the file covers by one, and is granted below the limit only. -/
theorem reserve_granted (h : b.file.Covers n) (hgranted : (b.reserve st).1 = .granted) :
    n + 1 ≤ maxRestartAttempts ∧ (b.reserve st).2.file.Covers (n + 1) := by
  unfold reserve at hgranted ⊢
  cases hvalue : b.value st with
  | none => simp [hvalue] at hgranted
  | some attempts =>
      have hle := value_covers hvalue h
      simp only [hvalue] at hgranted ⊢
      by_cases hlimit : attempts < maxRestartAttempts
      · simp only [hlimit, if_true] at hgranted ⊢
        refine ⟨Nat.lt_of_le_of_lt hle hlimit, ?_⟩
        rcases set_file { b with memory := attempts } st (attempts + 1) with ⟨-, hfile⟩ | ⟨hfails, -⟩
        · rw [hfile]
          exact (show n + 1 ≤ ((attempts + 1 : ℕ) : ℤ).toNat by simpa using hle)
        · simp [hfails] at hgranted
      · simp only [hlimit, if_false] at hgranted
        cases hquarantine : st.quarantine <;> simp [hquarantine] at hgranted

theorem reserve_refused (hrefused : (b.reserve st).1 = .refused true) : (b.reserve st).2.file = .absent := by
  unfold reserve at hrefused ⊢
  cases hvalue : b.value st with
  | none => simp [hvalue] at hrefused
  | some attempts =>
      simp only [hvalue] at hrefused ⊢
      by_cases hlimit : attempts < maxRestartAttempts
      · simp only [hlimit, if_true] at hrefused
        split at hrefused <;> cases hrefused
      · simp only [hlimit, if_false] at hrefused ⊢
        cases hquarantine : st.quarantine with
        | false => simp [hquarantine] at hrefused
        | true =>
            simp only [hquarantine, if_true, Reply.refused.injEq] at hrefused ⊢
            rcases set_file { b with memory := attempts } st 0 with ⟨-, hfile⟩ | ⟨hfails, -⟩
            · rw [hfile]
              rfl
            · rw [hfails] at hrefused
              cases hrefused

theorem reserve_covers (h : b.file.Covers n) (hcleared : (b.reserve st).1 ≠ .refused true) :
    (b.reserve st).2.file.Covers n := by
  unfold reserve at hcleared ⊢
  cases hvalue : b.value st with
  | none => simpa [hvalue] using h
  | some attempts =>
      have hle := value_covers hvalue h
      simp only [hvalue] at hcleared ⊢
      by_cases hlimit : attempts < maxRestartAttempts
      · simp only [hlimit, if_true] at hcleared ⊢
        exact set_covers (b := { b with memory := attempts }) h (hle.trans (Nat.le_succ _))
      · simp only [hlimit, if_false] at hcleared ⊢
        cases hquarantine : st.quarantine with
        | false => simpa using h
        | true =>
            simp only [hquarantine, if_true, ne_eq, Reply.refused.injEq] at hcleared ⊢
            rcases set_file { b with memory := attempts } st 0 with ⟨hdone, -⟩ | ⟨-, hfile⟩
            · exact absurd hdone hcleared
            · rwa [hfile]

theorem clear_file (b : Budget) (st : Storage) :
    ((b.clear st).1 = true ∧ (b.clear st).2.file = .absent) ∨ (b.clear st).1 = false ∧ (b.clear st).2.file = b.file :=
  set_file b st 0

theorem release_covers (h : b.file.Covers n) : (b.release st).2.file.Covers (n - 1) := by
  unfold release
  cases hvalue : b.value st with
  | none => exact covers_of_le h (Nat.sub_le _ _)
  | some attempts =>
      exact set_covers (b := { b with memory := attempts }) (covers_of_le h (Nat.sub_le _ _))
        (Nat.sub_le_sub_right (value_covers hvalue h) 1)

end Budget

/-! ### Every run of the monitor -/

variable {hostname} {s s' : State} {w w' : Worker} {b : Budget} {a : Action}

/-- Workers have files of their own. -/
theorem restartBudgetPath_inj (h : restartBudgetPath hostname w.id = restartBudgetPath hostname w'.id) :
    w.id = w'.id := by
  simp only [restartBudgetPath, List.cons.injEq, and_true, true_and, w.safe, w'.safe] at h
  have hlist : w.id.toList ++ ".json".toList = w'.id.toList ++ ".json".toList := by
    rw [← String.toList_append, ← String.toList_append, h]
  exact String.ext (List.append_cancel_right hlist)

structure Sound (hostname : String) (s : State) : Prop where
  limit : ∀ w, w.cuda = true → s.charged w ≤ maxRestartAttempts
  covers : ∀ w, w.cuda = true → (s.files (restartBudgetPath hostname w.id)).Covers (s.charged w)
  progress : ∀ w, s.restartInProgress w = true → w ∈ s.restartQueue ∨ s.loop.request = some w
  paid : ∀ w, s.spawns w + s.returned w + (if s.loop = .reserved w then 1 else 0) ≤ s.granted w

/-- What the steps of the budget keep of the rest of the state. -/
theorem Sound.of_budget (h : Sound hostname s) (hw : w.cuda = true) {n : ℕ} (hlimit : n ≤ maxRestartAttempts)
    (hcovers : b.file.Covers n) : Sound hostname ((s.setBudget hostname w b).setCharged w n) where
  limit v hv := by
    by_cases hvw : v = w
    · subst hvw
      simpa [State.setCharged, State.setBudget] using hlimit
    · simpa [State.setCharged, State.setBudget, hvw] using h.limit v hv
  covers v hv := by
    by_cases hvw : v = w
    · subst hvw
      simpa [State.setCharged, State.setBudget] using hcovers
    · have hpath : restartBudgetPath hostname v.id ≠ restartBudgetPath hostname w.id := by
        intro heq
        have hid := restartBudgetPath_inj heq
        cases v
        cases w
        simp_all
      simpa [State.setCharged, State.setBudget, hvw, hpath] using h.covers v hv
  progress := h.progress
  paid := h.paid

theorem setCharged_self (s : State) (w : Worker) : s.setCharged w (s.charged w) = s := by
  simp [State.setCharged]

theorem Sound.setBudget (h : Sound hostname s) (hw : w.cuda = true) (hcovers : b.file.Covers (s.charged w)) :
    Sound hostname (s.setBudget hostname w b) := by
  have hsound := h.of_budget hw (h.limit w hw) hcovers
  rwa [show (s.setBudget hostname w b).setCharged w (s.charged w) = s.setBudget hostname w b from
    setCharged_self (s.setBudget hostname w b) w] at hsound

/-- The request in hand is dropped. -/
theorem Sound.finish (h : Sound hostname s) (hloop : s.loop.request = some w) : Sound hostname (s.finish w) where
  limit := h.limit
  covers := h.covers
  progress v hv := by
    by_cases hvw : v = w
    · subst hvw
      simp [State.finish] at hv
    · have hold : s.restartInProgress v = true := by simpa [State.finish, hvw] using hv
      refine .inl ((h.progress v hold).resolve_right fun hrequest => hvw ?_)
      exact Option.some.inj (hrequest.symm.trans hloop)
  paid v := le_trans (Nat.add_le_add_left (Nat.zero_le _) _) (h.paid v)

/-- The request in hand is queued again. -/
theorem Sound.putBack (h : Sound hostname s) (hloop : s.loop.request = some w) : Sound hostname (s.putBack w) where
  limit := h.limit
  covers := h.covers
  progress v hv := by
    refine .inl (List.mem_append.mpr ?_)
    refine (h.progress v hv).imp_right fun hrequest => ?_
    rw [Option.some.inj (hrequest.symm.trans hloop)]
    exact List.mem_singleton_self _
  paid v := le_trans (Nat.add_le_add_left (Nat.zero_le _) _) (h.paid v)

theorem Sound.clearBudget (h : Sound hostname s) (w : Worker) (st : Storage) :
    Sound hostname (s.clearBudget hostname w st) := by
  unfold State.clearBudget
  cases hw : w.cuda with
  | false => exact h
  | true =>
      have hcovers := h.covers w hw
      have hfile := Budget.clear_file (s.budget hostname w) st
      generalize (s.budget hostname w).clear st = cleared at hfile ⊢
      obtain ⟨done, b⟩ := cleared
      rcases hfile with ⟨hdone, hfile⟩ | ⟨hfails, hfile⟩
      · obtain rfl : done = true := hdone
        exact h.of_budget hw (Nat.zero_le _) (by rw [hfile]; rfl)
      · obtain rfl : done = false := hfails
        exact h.setBudget hw (by rw [hfile]; exact hcovers)

/-- A request that has its reservation may start one process. -/
theorem Sound.grant (h : Sound hostname s) (hloop : s.loop.request = some w) (hreserved : ∀ v, s.loop ≠ .reserved v) :
    Sound hostname { s with granted := Function.update s.granted w (s.granted w + 1), loop := .reserved w } where
  limit := h.limit
  covers := h.covers
  progress v hv := by
    refine (h.progress v hv).imp_right fun hrequest => ?_
    rw [Option.some.inj (hrequest.symm.trans hloop)]
    rfl
  paid v := by
    have hpaid := h.paid v
    rw [if_neg (hreserved v)] at hpaid
    by_cases hvw : v = w
    · subst hvw
      simpa using hpaid
    · simpa [hvw, Ne.symm hvw] using hpaid

theorem loop_clearBudget (s : State) (w : Worker) (st : Storage) : (s.clearBudget hostname w st).loop = s.loop := by
  unfold State.clearBudget
  cases w.cuda with
  | false => rfl
  | true =>
      show State.loop (if ((s.budget hostname w).clear st).1 then _ else _) = s.loop
      split <;> rfl

theorem Sound.reserve (h : Sound hostname s) (hloop : s.loop = .dequeued w) (st : Storage) :
    Sound hostname (s.reserve hostname w st) := by
  have hrequest : s.loop.request = some w := by rw [hloop]; rfl
  have hfree : ∀ v, s.loop ≠ .reserved v := fun v => by rw [hloop]; exact nofun
  unfold State.reserve
  cases hw : w.cuda with
  | false => exact h.grant hrequest hfree
  | true =>
      have hcovers := h.covers w hw
      have hgranted : ((s.budget hostname w).reserve st).1 = .granted → _ := Budget.reserve_granted hcovers
      have hrefused : ((s.budget hostname w).reserve st).1 = .refused true → _ := Budget.reserve_refused
      have hother : ((s.budget hostname w).reserve st).1 ≠ .refused true → _ := Budget.reserve_covers hcovers
      generalize (s.budget hostname w).reserve st = answer at hgranted hrefused hother ⊢
      obtain ⟨reply, b⟩ := answer
      cases reply with
      | granted =>
          obtain ⟨hlimit, hfile⟩ := hgranted rfl
          exact Sound.grant (h.of_budget hw hlimit hfile) hrequest hfree
      | refused cleared =>
          cases cleared with
          | true =>
              have hfile : b.file = .absent := hrefused rfl
              exact Sound.finish (h.of_budget hw (Nat.zero_le _) (by rw [hfile]; rfl)) hrequest
          | false => exact Sound.finish (h.setBudget hw (hother nofun)) hrequest
      | raised => exact Sound.putBack (h.setBudget hw (hother nofun)) hrequest

theorem Sound.release (h : Sound hostname s) (hloop : s.loop = .reserved w) (st : Storage) :
    Sound hostname (s.release hostname w st) := by
  -- The reservation is given back in the place of the process that was not started.
  have hidle : Sound hostname
      { s with returned := Function.update s.returned w (s.returned w + 1), loop := .dequeued w } := by
    refine ⟨h.limit, h.covers, fun v hv => (h.progress v hv).imp_right fun hrequest => ?_, fun v => ?_⟩
    · rwa [hloop] at hrequest
    · have hpaid := h.paid v
      by_cases hvw : v = w
      · subst hvw
        rw [if_pos hloop] at hpaid
        simpa [Nat.add_assoc] using hpaid
      · rw [if_neg (by rw [hloop]; simpa using Ne.symm hvw)] at hpaid
        simpa [hvw] using hpaid
  unfold State.release
  cases hw : w.cuda with
  | false => exact hidle.finish rfl
  | true =>
      have hcovers : ((s.budget hostname w).release st).2.file.Covers (s.charged w - 1) :=
        Budget.release_covers (h.covers w hw)
      have hlimit : s.charged w - 1 ≤ maxRestartAttempts := (Nat.sub_le _ _).trans (h.limit w hw)
      generalize (s.budget hostname w).release st = answer at hcovers ⊢
      obtain ⟨done, b⟩ := answer
      cases done with
      | true => exact (hidle.of_budget hw hlimit hcovers).finish rfl
      | false => exact (hidle.of_budget hw hlimit hcovers).putBack rfl

/-- When the monitor ends, at most one file has been written in vain, for a reservation that was possible. -/
theorem lastFiles_cases (s : State) (written : Bool) : s.lastFiles hostname written = s.files ∨
    ∃ w, w.cuda = true ∧ ((s.budget hostname w).reserve {}).1 = .granted ∧
      s.lastFiles hostname written = (s.setBudget hostname w ((s.budget hostname w).reserve {}).2).files := by
  unfold State.lastFiles
  cases hloop : s.loop with
  | dequeued w =>
      by_cases hwritten : (written && w.cuda && ((s.budget hostname w).reserve {}).1 = .granted) = true
      · simp only [hwritten, if_true]
        simp only [Bool.and_eq_true, decide_eq_true_eq] at hwritten
        exact .inr ⟨w, hwritten.1.2, hwritten.2, rfl⟩
      · simp [hwritten]
  | _ => exact .inl rfl

theorem Sound.restarted (h : Sound hostname s) (written : Bool) : Sound hostname (s.restarted hostname written) := by
  refine ⟨h.limit, fun v hv => ?_, nofun, fun v => le_trans (Nat.add_le_add_left (Nat.zero_le _) _) (h.paid v)⟩
  show (s.lastFiles hostname written (restartBudgetPath hostname v.id)).Covers (s.charged v)
  have hfiles : s.lastFiles hostname written = s.files ∨ _ := lastFiles_cases s written
  rcases hfiles with hsame | ⟨w, hcuda, hgranted, hwritten⟩
  · rw [hsame]
    exact h.covers v hv
  · have hcovers := (Budget.reserve_granted (b := s.budget hostname w) (h.covers w hcuda) hgranted).2
    rw [hwritten]
    exact (h.setBudget hcuda (Budget.covers_of_le hcovers (Nat.le_succ _))).covers v hv

theorem Sound.step (h : Sound hostname s) (hstep : Steps hostname s a s') : Sound hostname s' := by
  have hunpaid : ∀ v, s.spawns v + s.returned v + 0 ≤ s.granted v := fun v =>
    le_trans (Nat.add_le_add_left (Nat.zero_le _) _) (h.paid v)
  cases hstep with
  | @enqueue w =>
      refine ⟨h.limit, h.covers, fun v hv => ?_, h.paid⟩
      by_cases hvw : v = w
      · subst hvw
        exact .inl (List.mem_append_right _ (List.mem_singleton_self _))
      · have hold : s.restartInProgress v = true := by simpa [hvw] using hv
        exact (h.progress v hold).imp_left (List.mem_append_left _)
  | @discard w =>
      refine ⟨h.limit, h.covers, fun v hv => h.progress v ?_, h.paid⟩
      by_cases hvw : v = w
      · subst hvw
        simp at hv
      · simpa [hvw] using hv
  | healthy => exact h.clearBudget _ _
  | dequeue hloop hqueue =>
      refine ⟨h.limit, h.covers, fun v hv => ?_, hunpaid⟩
      have hold := (h.progress v hv).resolve_right (by rw [hloop]; exact nofun)
      rw [hqueue] at hold
      exact (List.mem_cons.mp hold).symm.imp_right fun heq => by rw [heq]; rfl
  | drop hloop | endWatch hloop => exact h.finish (by rw [hloop]; rfl)
  | reserve hloop => exact h.reserve hloop _
  | requeue hloop => exact h.putBack (by rw [hloop]; rfl)
  | @spawn w hloop =>
      refine ⟨h.limit, h.covers, fun v hv => (h.progress v hv).imp_right fun hrequest => ?_, fun v => ?_⟩
      · rwa [hloop] at hrequest
      · have hpaid := h.paid v
        by_cases hvw : v = w
        · subst hvw
          rw [if_pos hloop] at hpaid
          simpa [Nat.add_right_comm] using hpaid
        · rw [if_neg (by rw [hloop]; simpa using Ne.symm hvw)] at hpaid
          simpa [hvw] using hpaid
  | obsolete hloop => exact h.release hloop _
  | succeed hloop =>
      refine ⟨h.limit, h.covers, fun v hv => (h.progress v hv).imp_right fun hrequest => ?_, hunpaid⟩
      rwa [hloop] at hrequest
  | fail hloop => exact h.putBack (by rcases hloop with hloop | hloop <;> rw [hloop] <;> rfl)
  | admitted hloop => exact (h.clearBudget _ _).finish (by rw [loop_clearBudget, hloop]; rfl)
  | restartMonitor => exact h.restarted _

/-- A monitor that has just started beside files of any content. -/
def initial (files : List String → BudgetFile) : State := { files := files }

theorem sound_run {files : List String → BudgetFile} (h : Run (WorkerMonitor.step hostname) (initial files) s) :
    Sound hostname s := by
  refine RunWhen.invariant (fun s a s' hs _ hstep => hs.step (step_cases hstep)) h ⟨?_, fun w _ => ?_, nofun, ?_⟩
  · exact fun w _ => Nat.zero_le _
  · cases hfile : files (restartBudgetPath hostname w.id) <;> simp [initial, hfile, BudgetFile.Covers]
  · simp [initial]

/-! ### Between two resets -/

/-- The step takes the counter of a worker away: the worker was seen healthy, or has been quarantined. -/
def State.resets (hostname : String) (s : State) (w : Worker) : Action → Bool
  | .healthy v st => v = w && ((s.budget hostname v).clear st).1
  | .admitted st =>
    match s.loop with
    | .watching v => v = w && ((s.budget hostname v).clear st).1
    | _ => false
  | .reserve st =>
    match s.loop with
    | .dequeued v => v = w && ((s.budget hostname v).reserve st).1 = .refused true
    | _ => false
  | _ => false

/-- A reservation for the worker is in hand, and its process not started yet. -/
def State.pending (s : State) (w : Worker) : ℕ := if s.loop = .reserved w then 1 else 0

/-- What a step without a reset of `w` does to the accounts of `w`: reservations are charged until they are given back,
and a process is started or a reservation given back only where one is pending. -/
structure Accounted (s s' : State) (w : Worker) : Prop where
  charges : s'.granted w + s.charged w + s.returned w ≤ s.granted w + s'.charged w + s'.returned w
  uses : s'.spawns w + s'.returned w + s'.pending w + s.granted w ≤
    s.spawns w + s.returned w + s.pending w + s'.granted w

theorem Accounted.of_same {s s' : State} (hcharged : s'.charged w = s.charged w) (hgranted : s'.granted w = s.granted w)
    (hreturned : s'.returned w = s.returned w) (hspawns : s'.spawns w = s.spawns w)
    (hpending : s'.pending w ≤ s.pending w) : Accounted s s' w := by
  constructor <;> omega

theorem charged_clearBudget {v : Worker} {st : Storage} (hno : (v = w && ((s.budget hostname v).clear st).1) = false) :
    (s.clearBudget hostname v st).charged w = s.charged w := by
  unfold State.clearBudget
  cases v.cuda with
  | false => rfl
  | true =>
      show State.charged (if ((s.budget hostname v).clear st).1 then _ else _) w = s.charged w
      cases hdone : ((s.budget hostname v).clear st).1 with
      | false => rfl
      | true =>
          have hvw : w ≠ v := by
            rintro rfl
            simp [hdone] at hno
          simp [State.setCharged, State.setBudget, hvw]

/-- Clearing a budget starts no process and answers no request. -/
theorem counts_clearBudget (s : State) (v w : Worker) (st : Storage) :
    (s.clearBudget hostname v st).granted w = s.granted w ∧ (s.clearBudget hostname v st).returned w = s.returned w ∧
      (s.clearBudget hostname v st).spawns w = s.spawns w := by
  unfold State.clearBudget
  cases v.cuda with
  | false => exact ⟨rfl, rfl, rfl⟩
  | true =>
      show State.granted (if ((s.budget hostname v).clear st).1 then _ else _) w = s.granted w ∧
        State.returned (if ((s.budget hostname v).clear st).1 then _ else _) w = s.returned w ∧
        State.spawns (if ((s.budget hostname v).clear st).1 then _ else _) w = s.spawns w
      split <;> exact ⟨rfl, rfl, rfl⟩

theorem accounted_reserve {v : Worker} {st : Storage} (hw : w.cuda = true) (hloop : s.loop = .dequeued v)
    (hno : (v = w && ((s.budget hostname v).reserve st).1 = .refused true) = false) :
    Accounted s (s.reserve hostname v st) w := by
  have hpending : s.pending w = 0 := by simp [State.pending, hloop]
  unfold State.reserve
  cases hv : v.cuda with
  | false =>
      have hvw : w ≠ v := by
        rintro rfl
        rw [hw] at hv
        cases hv
      constructor <;> simp [State.pending, hvw, Ne.symm hvw]
  | true =>
      generalize (s.budget hostname v).reserve st = answer at hno ⊢
      obtain ⟨reply, b⟩ := answer
      by_cases hvw : w = v
      · subst hvw
        cases reply with
        | granted => constructor <;> simp [State.pending, State.setCharged, State.setBudget, hloop] <;> omega
        | refused cleared =>
            obtain rfl : cleared = false := by simpa using hno
            exact .of_same rfl rfl rfl rfl (Nat.zero_le _)
        | raised => exact .of_same rfl rfl rfl rfl (Nat.zero_le _)
      · cases reply with
        | granted => constructor <;> simp [State.pending, State.setCharged, State.setBudget, hvw, Ne.symm hvw]
        | refused cleared =>
            cases cleared with
            | true =>
                exact .of_same (by simp [State.finish, State.setCharged, State.setBudget, hvw]) rfl rfl rfl (Nat.zero_le _)
            | false => exact .of_same rfl rfl rfl rfl (Nat.zero_le _)
        | raised => exact .of_same rfl rfl rfl rfl (Nat.zero_le _)

theorem accounted_release {v : Worker} {st : Storage} (hw : w.cuda = true) (hloop : s.loop = .reserved v) :
    Accounted s (s.release hostname v st) w := by
  unfold State.release
  cases hv : v.cuda with
  | false =>
      have hvw : w ≠ v := by
        rintro rfl
        rw [hw] at hv
        cases hv
      exact .of_same rfl rfl (by simp [State.finish, hvw]) rfl (Nat.zero_le _)
  | true =>
      generalize (s.budget hostname v).release st = answer
      obtain ⟨done, b⟩ := answer
      by_cases hvw : w = v
      · subst hvw
        cases done <;> constructor <;>
          (simp [State.finish, State.putBack, State.pending, State.setCharged, State.setBudget, hloop]; omega)
      · have hreserved : s.pending w = 0 := by simp [State.pending, hloop, Ne.symm hvw]
        cases done <;> constructor <;>
          simp [State.finish, State.putBack, State.pending, State.setCharged, State.setBudget, hvw]

theorem accounted_step (hw : w.cuda = true) (hstep : Steps hostname s a s') (hno : s.resets hostname w a = false) :
    Accounted s s' w := by
  cases hstep with
  | enqueue | discard => exact .of_same rfl rfl rfl rfl le_rfl
  | @healthy v st =>
      obtain ⟨hgranted, hreturned, hspawns⟩ : (s.clearBudget hostname v st).granted w = _ ∧ _ :=
        counts_clearBudget s v w st
      exact .of_same (charged_clearBudget hno) hgranted hreturned hspawns (by simp [State.pending, loop_clearBudget])
  | dequeue hloop _ => exact .of_same rfl rfl rfl rfl (by simp [State.pending])
  | drop _ | requeue _ | endWatch _ | fail _ => exact .of_same rfl rfl rfl rfl (Nat.zero_le _)
  | @reserve v st hloop =>
      refine accounted_reserve hw hloop ?_
      simpa only [State.resets, hloop] using hno
  | @spawn v hloop =>
      by_cases hvw : w = v
      · subst hvw
        constructor
        · simp
        · simp [State.pending, hloop]
          omega
      · constructor <;> simp [State.pending, hvw]
  | obsolete hloop => exact accounted_release hw hloop
  | succeed hloop => exact .of_same rfl rfl rfl rfl (by simp [State.pending])
  | @admitted v st hloop =>
      obtain ⟨hgranted, hreturned, hspawns⟩ : (s.clearBudget hostname v st).granted w = _ ∧ _ :=
        counts_clearBudget s v w st
      have hkept : (s.clearBudget hostname v st).charged w = s.charged w :=
        charged_clearBudget (by simpa only [State.resets, hloop] using hno)
      exact .of_same hkept hgranted hreturned hspawns (Nat.zero_le _)
  | restartMonitor => exact .of_same rfl rfl rfl rfl (Nat.zero_le _)

theorem Accounted.trans {s t u : State} (h : Accounted s t w) (h' : Accounted t u w) : Accounted s u w := by
  obtain ⟨hcharges, huses⟩ := h
  obtain ⟨hcharges', huses'⟩ := h'
  constructor <;> omega

/-- **The budget bounds the restarts**: in every run, with monitors that are stopped anywhere and started again, with
storage that fails at any operation, and with budget files of any content at the beginning, at most three processes of
a GPU worker are started between two resets of its counter, on top of one that had its reservation before. -/
theorem restart_budget {files : List String → BudgetFile} (hw : w.cuda = true)
    (h : Run (step hostname) (initial files) s)
    (h' : RunWhen (step hostname) (fun s a => s.resets hostname w a = false) s s') :
    s'.spawns w ≤ s.spawns w + s.pending w + maxRestartAttempts := by
  have haccounted : Accounted s s' w := by
    induction h' with
    | refl => exact .of_same rfl rfl rfl rfl le_rfl
    | tail _ hlast ih =>
        obtain ⟨a, hno, hstep⟩ := hlast
        exact ih.trans (accounted_step hw (step_cases hstep) hno)
  have hlimit := (sound_run (h.append (h'.mono fun _ _ _ => trivial))).limit w hw
  obtain ⟨hcharges, huses⟩ := haccounted
  omega

def gpu0 : Worker := ⟨"worker_gpu_0", true, by decide +kernel⟩

/-- A restart of `gpu0` that is not followed by a healthy worker. -/
def restartActions : List Action :=
  [.enqueue gpu0, .dequeue, .reserve {}, .spawn, .succeed, .endWatch]

def beginning : State := initial fun _ => .absent

/-- A step that does not reset the counter of `gpu0`. -/
def uncleared (s : State) (a : Action) : Option State :=
  if !s.resets "node" gpu0 a then step "node" s a else none

def afterThree : State :=
  (execute uncleared (restartActions ++ restartActions ++ restartActions) beginning).getD beginning

/-- The bound is reached, and a fourth request is refused with a quarantine. -/
example : afterThree.spawns gpu0 = 3 ∧
    ((afterThree.budget "node" gpu0).reserve {}).1 = .refused true := by decide +kernel

theorem restart_budget_three :
    afterThree.spawns gpu0 ≤ beginning.spawns gpu0 + beginning.pending gpu0 + maxRestartAttempts := by
  have hsome : (execute uncleared (restartActions ++ restartActions ++ restartActions) beginning).isSome := by
    decide +kernel
  obtain ⟨t, ht⟩ := Option.isSome_iff_exists.mp hsome
  have hafter : execute uncleared (restartActions ++ restartActions ++ restartActions) beginning = some afterThree := by
    rw [afterThree, ht]
    rfl
  have hrun : RunWhen (step "node") (fun s a => s.resets "node" gpu0 a = false) beginning afterThree :=
    execute_run_of_test (fun s a h => by simpa using h) hafter
  exact restart_budget rfl Relation.ReflTransGen.refl hrun

/-- **No request is lost**: in every run, a worker in `restart_in_progress` has a request in the queue or in the hands
of the loop, so that no later request is refused because of one that is finished. -/
theorem in_progress_has_request {files : List String → BudgetFile} (h : Run (step hostname) (initial files) s)
    (hw : s.restartInProgress w = true) : w ∈ s.restartQueue ∨ s.loop.request = some w :=
  (sound_run h).progress w hw

def gpu1 : Worker := ⟨"worker_gpu_1", true, by decide +kernel⟩

/-- The process of `gpu0` fails, the budget of `gpu1` cannot be written, and `gpu0` has its turn again. -/
def contendedActions : List Action :=
  [.enqueue gpu0, .enqueue gpu1, .dequeue, .reserve {}, .spawn, .fail, .dequeue, .reserve { write := false }, .dequeue]

def contended : State := (execute (step "node") contendedActions beginning).getD beginning

theorem in_progress_has_request_queued :
    contended.restartInProgress gpu0 = true ∧ contended.restartInProgress gpu1 = true ∧
      (gpu0 ∈ contended.restartQueue ∨ contended.loop.request = some gpu0) ∧
      (gpu1 ∈ contended.restartQueue ∨ contended.loop.request = some gpu1) := by
  have hrun : Run (step "node") beginning contended :=
    execute_run_getD (fun _ _ => trivial) (by decide +kernel)
  have hfirst : contended.restartInProgress gpu0 = true := by decide +kernel
  have hsecond : contended.restartInProgress gpu1 = true := by decide +kernel
  exact ⟨hfirst, hsecond, in_progress_has_request hrun hfirst, in_progress_has_request hrun hsecond⟩

/-- One of the two requests waits in the queue, the other one is in hand. -/
example : contended.restartQueue = [gpu1] ∧ contended.loop = .dequeued gpu0 := by decide +kernel

end KernelGym.WorkerMonitor
