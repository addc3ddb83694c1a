import Mathlib.Data.Finset.Basic
import KernelGym.Library.Sharing

/-! The cache of compiled extensions. Calls of `compile` for one submission share a directory. The library is built in
its work directory under a lock; `ready.json`, which announces the library, is written beside that after the lock has
been released. The names of the sources are taken as they are, and may lead out of the work directory. -/

namespace KernelGym.ArtifactCache

open Library

/-- A call of `compile` with the cache switched on. -/
abbrev Call := ℕ

/-- What the key is made of, apart from the versions of the tools on the host. -/
structure Submission where
  entryPoint : String
  modelCode : String
  cudaSources : Finset (String × String)
  deriving DecidableEq

/-- A file: the submission it was written for, and whether all of it is there. -/
structure File where
  submission : Submission
  whole : Bool
  deriving DecidableEq

/-! ### The names of the sources -/

/-- The parts of a path, without the empty ones and the dots that `Path` drops. -/
def pathParts (name : String) : List String :=
  ((name.toList.splitOn '/').map String.ofList).filter fun part => part ≠ "" && part ≠ "."

/-- Where a path leads below the directory that it starts in, with the parts gone through so far in `above`; nowhere,
once it has left the directory or ends there. -/
def descend : List String → List String → Option (List String)
  | [], [] => none
  | above, [] => some above.reverse
  | [], ".." :: _ => none
  | _ :: above, ".." :: rest => descend above rest
  | above, part :: rest => descend (part :: above) rest

/-- The file below the work directory that `_materialize_sources` writes a source to, if it is one. -/
def sourcePath (name : String) : Option String :=
  if name.toList.head? = some '/' then none
  else
    let parts := if (pathParts name).length ≤ 1 then "kernels" :: pathParts name else pathParts name
    (descend [] parts).map (String.intercalate "/")

/-! ### Calls and directories -/

/-- One directory of the cache. `files` are those below the work directory; `notes` are the texts of `ready.json` and
of its temporary file, which has one name for all calls. -/
structure Entry where
  lock : Option Call := none
  workDir : Bool := false
  files : String → Option File := fun _ => none
  notes : ℕ → Option File := fun _ => none
  temporary : Option ℕ := none
  ready : Option ℕ := none

structure Backend (Key : Type) where
  submission : Call → Submission
  /-- The names of a call's sources, in the order of its dictionary. -/
  names : Call → List String
  names_eq : ∀ p name, name ∈ names p ↔ ∃ content, (name, content) ∈ (submission p).cudaSources
  /-- `_artifact_cache_key` -/
  artifactCacheKey : Submission → Key
  /-- What `_write_runtime_scaffold` writes besides the model. -/
  scaffold : Submission → List String
  /-- The path of the library, whose name is made from the key. -/
  soPath : Key → String

def modelFile : String := "model_new.py"

inductive Result
  | failure
  | artifact (submission : Submission) (cacheHit : Bool)
  deriving DecidableEq

/-- Where a call stands. -/
inductive Stage
  | looking
  | waiting
  | lookingAgain
  | removing
  | making
  /-- The files that are still to be written; `none` stands for one outside the work directory. -/
  | writing (rest : List (Option String))
  | filling (path : String) (rest : List (Option String))
  | building
  | built (compiled : Bool)
  | announcing
  | noting (note : ℕ)
  | replacing
  | returned (result : Result)
  | raised
  deriving DecidableEq

inductive Event
  | load
  | acquire
  | removeFile (path : String)
  | removeTree
  | makeDir
  | openFile
  | fillFile
  | startBuild
  /-- The build creates, writes or removes a file. -/
  | produce (path : String) (content : Option Bool)
  | finish (compiled : Bool)
  | release
  | openNote (fresh : ℕ)
  | fillNote
  | rename
  /-- An exception, or the end of the process. -/
  | die
  deriving DecidableEq

def Entry.setFile (e : Entry) (path : String) (content : Option File) : Entry :=
  { e with files := Function.update e.files path content }

def Entry.setNote (e : Entry) (i : ℕ) (note : File) : Entry :=
  { e with notes := Function.update e.notes i (some note) }

/-- The kernel gives the lock back when the process ends. -/
def Entry.unlock (e : Entry) (p : Call) : Entry :=
  { e with lock := if e.lock = some p then none else e.lock }

variable {Key : Type}

namespace Backend

variable (b : Backend Key)

def key (p : Call) : Key := b.artifactCacheKey (b.submission p)

def writes (p : Call) : List (Option String) :=
  ("__init__.py" :: modelFile :: b.scaffold (b.submission p)).map some ++ (b.names p).map sourcePath

/-- The library of an entry is there, as far as the file system shows. -/
def HasLibrary (k : Key) (e : Entry) : Prop := ∃ f, e.files (b.soPath k) = some f ∧ f.whole

instance (k : Key) (e : Entry) : Decidable (b.HasLibrary k e) :=
  decidable_of_iff ((e.files (b.soPath k)).any fun f => f.whole)
    (by cases h : e.files (b.soPath k) <;> simp [HasLibrary, h])

/-- `_load_cached_artifact` -/
def loadCachedArtifact (k : Key) (e : Entry) : Option Submission := do
  let note ← e.ready.bind e.notes
  if note.whole && e.workDir && (e.files (b.soPath k)).isSome then some note.submission else none

/-- `compile`, one operation on the file system at a time. `rmtree` may remove the files in any order, and a build that
reports success has written the whole library. -/
def advance (p : Call) (e : Entry) (stage : Stage) (ev : Event) : Option (Entry × Stage) :=
  match ev, stage with
  | .load, .looking =>
    match b.loadCachedArtifact (b.key p) e with
    | some s => some (e, .returned (.artifact s true))
    | none => some (e, .waiting)
  | .acquire, .waiting => if e.lock = none then some ({ e with lock := some p }, .lookingAgain) else none
  | .load, .lookingAgain =>
    match b.loadCachedArtifact (b.key p) e with
    | some s => some (e.unlock p, .returned (.artifact s true))
    | none => some (e, .removing)
  | .removeFile path, .removing => some (e.setFile path none, .removing)
  | .removeTree, .removing => some ({ e with workDir := false, files := fun _ => none }, .making)
  | .makeDir, .making => some ({ e with workDir := true }, .writing (b.writes p))
  | .openFile, .writing (some path :: rest) =>
    some (e.setFile path (some ⟨b.submission p, false⟩), .filling path rest)
  | .fillFile, .filling path rest => some (e.setFile path (some ⟨b.submission p, true⟩), .writing rest)
  | .startBuild, .writing [] => some (e, .building)
  | .produce path content, .building =>
    if path = modelFile then none
    else some (e.setFile path (content.map fun whole => ⟨b.submission p, whole⟩), .building)
  | .finish compiled, .building =>
    if compiled = true → b.HasLibrary (b.key p) e then some (e, .built compiled) else none
  | .release, .built compiled =>
    some (e.unlock p, if compiled then .announcing else .returned .failure)
  -- The temporary file is truncated when a call before left it, or is writing it now.
  | .openNote fresh, .announcing =>
    match e.temporary with
    | some i => some (e.setNote i ⟨b.submission p, false⟩, .noting i)
    | none =>
      if e.notes fresh = none then
        some ({ e.setNote fresh ⟨b.submission p, false⟩ with temporary := some fresh }, .noting fresh)
      else none
  | .fillNote, .noting i => some (e.setNote i ⟨b.submission p, true⟩, .replacing)
  | .rename, .replacing =>
    match e.temporary with
    | some i =>
      some ({ e with ready := some i, temporary := none }, .returned (.artifact (b.submission p) false))
    | none => some (e, .raised)
  | .die, .returned _ => none
  | .die, .raised => none
  | .die, _ => some (e.unlock p, .raised)
  | _, _ => none

def cache : Sharing Call Key Entry Stage Event where
  key := b.key
  advance := b.advance

end Backend

/-- A step of a call in the directory of its key, or the writing of a source outside the work directory: that may be
anywhere in the cache, and change it in any way. -/
inductive Label (Key : Type)
  | call (p : Call) (ev : Event)
  | stray (p : Call) (entries : Key → Entry)

/-- Every source is written below the work directory of its submission. -/
def Backend.Contained (b : Backend Key) : Prop := ∀ p, ∀ name ∈ b.names p, (sourcePath name).isSome

def Backend.step [DecidableEq Key] (b : Backend Key) (w : Sharing.World Call Key Entry Stage) :
    Label Key → Option (Sharing.World Call Key Entry Stage)
  | .call p ev => b.cache.step w (p, ev)
  | .stray p entries =>
    match w.stage p with
    | .writing (none :: rest) => some ⟨entries, Function.update w.stage p (.writing rest)⟩
    | _ => none

/-! ### What a call can do -/

/-- The steps of a call. -/
inductive Advances (b : Backend Key) (p : Call) : Entry → Stage → Entry → Stage → Prop
  | found {e s} (hload : b.loadCachedArtifact (b.key p) e = some s) :
      Advances b p e .looking e (.returned (.artifact s true))
  | missed {e} : Advances b p e .looking e .waiting
  | locked {e} (hlock : e.lock = none) : Advances b p e .waiting { e with lock := some p } .lookingAgain
  | foundAgain {e s} (hload : b.loadCachedArtifact (b.key p) e = some s) :
      Advances b p e .lookingAgain (e.unlock p) (.returned (.artifact s true))
  | missedAgain {e} (hload : b.loadCachedArtifact (b.key p) e = none) : Advances b p e .lookingAgain e .removing
  | removed {e path} : Advances b p e .removing (e.setFile path none) .removing
  | removedTree {e} : Advances b p e .removing { e with workDir := false, files := fun _ => none } .making
  | made {e} : Advances b p e .making { e with workDir := true } (.writing (b.writes p))
  | opened {e path rest} :
      Advances b p e (.writing (some path :: rest)) (e.setFile path (some ⟨b.submission p, false⟩)) (.filling path rest)
  | filled {e path rest} :
      Advances b p e (.filling path rest) (e.setFile path (some ⟨b.submission p, true⟩)) (.writing rest)
  | started {e} : Advances b p e (.writing []) e .building
  | produced {e path} {content : Option Bool} (hpath : path ≠ modelFile) :
      Advances b p e .building (e.setFile path (content.map fun whole => ⟨b.submission p, whole⟩)) .building
  | finished {e compiled} (hlibrary : compiled = true → b.HasLibrary (b.key p) e) :
      Advances b p e .building e (.built compiled)
  | released {e compiled} :
      Advances b p e (.built compiled) (e.unlock p) (if compiled then .announcing else .returned .failure)
  | truncated {e i} (htemporary : e.temporary = some i) :
      Advances b p e .announcing (e.setNote i ⟨b.submission p, false⟩) (.noting i)
  | created {e i} (htemporary : e.temporary = none) (hfresh : e.notes i = none) :
      Advances b p e .announcing { e.setNote i ⟨b.submission p, false⟩ with temporary := some i } (.noting i)
  | noted {e i} : Advances b p e (.noting i) (e.setNote i ⟨b.submission p, true⟩) .replacing
  | renamed {e i} (htemporary : e.temporary = some i) :
      Advances b p e .replacing { e with ready := some i, temporary := none }
        (.returned (.artifact (b.submission p) false))
  | lost {e} (htemporary : e.temporary = none) : Advances b p e .replacing e .raised
  | died {e st} : Advances b p e st (e.unlock p) .raised

theorem advance_cases {b : Backend Key} {p : Call} {e e' : Entry} {st st' : Stage} {ev : Event}
    (h : b.advance p e st ev = some (e', st')) : Advances b p e st e' st' := by
  unfold Backend.advance at h
  split at h
  case h_1 | h_3 | h_15 =>
    split at h <;> obtain ⟨rfl, rfl⟩ := Prod.mk.inj (Option.some.inj h) <;> constructor <;> assumption
  case h_2 | h_11 =>
    obtain ⟨hguard, heq⟩ := Option.ite_none_right_eq_some.mp h
    obtain ⟨rfl, rfl⟩ := Prod.mk.inj (Option.some.inj heq)
    exact by constructor; exact hguard
  case h_10 =>
    obtain ⟨hpath, heq⟩ := Option.ite_none_left_eq_some.mp h
    obtain ⟨rfl, rfl⟩ := Prod.mk.inj (Option.some.inj heq)
    exact .produced hpath
  case h_13 =>
    split at h
    · obtain ⟨rfl, rfl⟩ := Prod.mk.inj (Option.some.inj h)
      exact .truncated ‹_›
    · obtain ⟨hfresh, heq⟩ := Option.ite_none_right_eq_some.mp h
      obtain ⟨rfl, rfl⟩ := Prod.mk.inj (Option.some.inj heq)
      exact .created ‹_› hfresh
  case h_16 | h_17 | h_19 => cases h
  all_goals
    obtain ⟨rfl, rfl⟩ := Prod.mk.inj (Option.some.inj h)
    constructor

/-- Only `flock` leads to the second look. -/
theorem acquire_of_lookingAgain {b : Backend Key} {p : Call} {e e' : Entry} {st : Stage} {ev : Event}
    (h : b.advance p e st ev = some (e', .lookingAgain)) : ev = .acquire := by
  unfold Backend.advance at h
  split at h
  case h_2 => rfl
  all_goals first | cases h | (split at h <;> simp at h)

namespace Stage

/-- Between `flock` and the release of the lock. -/
def inside : Stage → Bool
  | .lookingAgain | .removing | .making | .writing _ | .filling .. | .building | .built _ => true
  | _ => false

/-- `_compile_in_work_dir` -/
def rebuilding : Stage → Bool
  | .removing | .making | .writing _ | .filling .. | .building => true
  | _ => false

/-- The library is built and the lock released, but `ready.json` is not there yet. -/
def unpublished : Stage → Bool
  | .announcing | .noting _ | .replacing => true
  | _ => false

end Stage

/-- Nobody has called yet, and the cache is empty. -/
def initial : Sharing.World Call Key Entry Stage where
  entry _ := {}
  stage _ := .looking

/-! ### One builder at a time -/

variable {b : Backend Key} {k : Key} {p q : Call} {e e' : Entry} {st st' : Stage} {stage : Call → Stage}

/-- The lock belongs to the call that works under it. -/
abbrev Held (b : Backend Key) : Key → Entry → (Call → Stage) → Prop := b.cache.Held Entry.lock Stage.inside

theorem Advances.lock (h : Advances b p e st e' st') :
    e'.lock = e.lock ∧ st'.inside = st.inside ∨ e.lock = none ∧ e'.lock = some p ∧ st'.inside = true ∨
      e'.lock = (e.unlock p).lock ∧ st'.inside = false := by
  cases h with
  | locked hlock => exact .inr (.inl ⟨hlock, rfl, rfl⟩)
  | released => exact .inr (.inr ⟨rfl, by split <;> rfl⟩)
  | foundAgain _ | died => exact .inr (.inr ⟨rfl, rfl⟩)
  | _ => exact .inl ⟨rfl, rfl⟩

theorem lockRule (b : Backend Key) : b.cache.LockRule Entry.lock Stage.inside :=
  fun _ _ _ _ _ _ h => (advance_cases h).lock

/-! ### What is found was made for the submission that finds it -/

/-- Every file of the directory comes from a submission with its key, and so does every answer. -/
structure Own (b : Backend Key) (k : Key) (e : Entry) (stage : Call → Stage) : Prop where
  files : ∀ path f, e.files path = some f → b.artifactCacheKey f.submission = k
  notes : ∀ i f, e.notes i = some f → b.artifactCacheKey f.submission = k
  answers : ∀ p s hit, b.key p = k → stage p = .returned (.artifact s hit) → b.artifactCacheKey s = k

theorem load_note {s : Submission} (h : b.loadCachedArtifact k e = some s) :
    ∃ i note, e.ready = some i ∧ e.notes i = some note ∧ note.whole = true ∧ note.submission = s ∧
      e.workDir = true ∧ (e.files (b.soPath k)).isSome := by
  simp only [Backend.loadCachedArtifact, Option.bind_eq_bind, Option.bind_eq_some_iff] at h
  obtain ⟨note, ⟨i, hready, hnote⟩, hload⟩ := h
  rw [Option.ite_none_right_eq_some, Bool.and_eq_true, Bool.and_eq_true] at hload
  exact ⟨i, note, hready, hnote, hload.1.1.1, Option.some.inj hload.2, hload.1.1.2, hload.1.2⟩

theorem Own.setFile (h : Own b k e stage) {path : String} {content : Option File}
    (hcontent : ∀ f, content = some f → b.artifactCacheKey f.submission = k) :
    Own b k (e.setFile path content) stage where
  files path' f hf := by
    by_cases hpath : path' = path
    · subst hpath
      exact hcontent f (by simpa [Entry.setFile] using hf)
    · exact h.files path' f (by simpa [Entry.setFile, hpath] using hf)
  notes := h.notes
  answers := h.answers

theorem Own.setNote (h : Own b k e stage) {i : ℕ} {note : File} (hnote : b.artifactCacheKey note.submission = k) :
    Own b k (e.setNote i note) stage where
  files := h.files
  notes j f hf := by
    by_cases hj : j = i
    · subst hj
      obtain rfl : note = f := by simpa [Entry.setNote] using hf
      exact hnote
    · exact h.notes j f (by simpa [Entry.setNote, hj] using hf)
  answers := h.answers

/-- Where the files and notes stay and the call is not answered, nothing is to be shown. -/
theorem Own.of_same (h : Own b k e stage) (hfiles : e'.files = e.files) (hnotes : e'.notes = e.notes) :
    Own b k e' stage :=
  ⟨hfiles ▸ h.files, hnotes ▸ h.notes, h.answers⟩

theorem Own.advance (h : Own b (b.key p) e stage)
    (hanswer : ∀ s hit, st' = .returned (.artifact s hit) → b.artifactCacheKey s = b.key p) :
    Own b (b.key p) e (Function.update stage p st') where
  files := h.files
  notes := h.notes
  answers q s hit hq hs := by
    by_cases hqp : q = p
    · subst hqp
      exact hanswer s hit (by simpa using hs)
    · exact h.answers q s hit hq (by simpa [hqp] using hs)

theorem Own.step (h : Own b (b.key p) e stage) (hstep : Advances b p e (stage p) e' st') :
    Own b (b.key p) e' (Function.update stage p st') := by
  generalize hst : stage p = st at hstep
  have hfound : ∀ s, b.loadCachedArtifact (b.key p) e = some s → b.artifactCacheKey s = b.key p := by
    intro s hload
    obtain ⟨i, note, -, hnote, -, rfl, -⟩ := load_note hload
    exact h.notes i note hnote
  cases hstep with
  | found hload =>
      refine Own.advance h fun s hit hs => ?_
      obtain ⟨rfl, -⟩ : _ = s ∧ true = hit := by simpa using hs
      exact hfound _ hload
  | foundAgain hload =>
      refine Own.advance (h.of_same rfl rfl) fun s hit hs => ?_
      obtain ⟨rfl, -⟩ : _ = s ∧ true = hit := by simpa using hs
      exact hfound _ hload
  | removed | opened | filled => exact Own.advance (h.setFile (by simp [Backend.key])) (by simp)
  | produced _ =>
      refine Own.advance (h.setFile fun f hf => ?_) (by simp)
      obtain ⟨whole, -, rfl⟩ := Option.map_eq_some_iff.mp hf
      rfl
  | removedTree => exact Own.advance ⟨by simp, h.notes, h.answers⟩ (by simp)
  | truncated _ | noted => exact Own.advance (h.setNote rfl) (by simp)
  | created _ _ => exact Own.advance (Own.of_same (h.setNote rfl) rfl rfl) (by simp)
  | renamed _ =>
      refine Own.advance (h.of_same rfl rfl) fun s hit hs => ?_
      obtain ⟨rfl, -⟩ : b.submission p = s ∧ false = hit := by simpa using hs
      rfl
  | released => exact Own.advance (h.of_same rfl rfl) (by split <;> simp)
  | _ => exact Own.advance (h.of_same rfl rfl) (by simp)

/-! ### A library that was announced stays -/

def ModelWhole (e : Entry) : Prop := ∃ f, e.files modelFile = some f ∧ f.whole = true

/-- What `load` needs of an artifact. -/
structure Usable (b : Backend Key) (k : Key) (e : Entry) : Prop where
  workDir : e.workDir = true
  model : ModelWhole e
  library : b.HasLibrary k e

/-- The library counts on being left alone: it is announced, or about to be. -/
def Served (b : Backend Key) (k : Key) (e : Entry) (stage : Call → Stage) : Prop :=
  e.ready.isSome = true ∨ ∃ p, b.key p = k ∧ ((stage p).unpublished = true ∨ stage p = .built true)

def Progress (e : Entry) : Stage → Prop
  | .writing rest => e.workDir = true ∧ (some modelFile ∈ rest ∨ ModelWhole e)
  | .filling path rest => e.workDir = true ∧ (modelFile = path ∨ some modelFile ∈ rest ∨ ModelWhole e)
  | .building => e.workDir = true ∧ ModelWhole e
  | _ => True

structure Kept (b : Backend Key) (k : Key) (e : Entry) (stage : Call → Stage) : Prop where
  ready : ∀ i, e.ready = some i → (∃ f, e.notes i = some f ∧ f.whole = true) ∧ e.temporary ≠ some i
  noting : ∀ p i, b.key p = k → stage p = .noting i → e.temporary = some i
  replacing : ∀ p, b.key p = k → stage p = .replacing →
    ∃ i f, e.temporary = some i ∧ e.notes i = some f ∧ f.whole = true
  single : ∀ p q, b.key p = k → b.key q = k → (stage p).unpublished = true → (stage q).unpublished = true → p = q
  unlocked : ∀ p, b.key p = k → (stage p).unpublished = true → e.lock = none
  served : Served b k e stage → Usable b k e ∧ ∀ p, b.key p = k → (stage p).rebuilding = false
  answered : ∀ p s hit, b.key p = k → stage p = .returned (.artifact s hit) → e.ready.isSome = true
  progress : ∀ p, b.key p = k → Progress e (stage p)

/-- The lock is taken only when every library that was built is announced. -/
def AnnouncedFirst (b : Backend Key) (w : Sharing.World Call Key Entry Stage) : Label Key → Prop
  | .call p ev => ev = .acquire → ∀ q, b.key q = b.key p → (w.stage q).unpublished = false
  | .stray _ _ => True

theorem inside_of_rebuilding (h : st.rebuilding = true) : st.inside = true := by
  cases st <;> first | rfl | cases h

theorem progress_of_quiet (h : st.rebuilding = false) : Progress e st := by
  cases st <;> trivial

theorem served_update (hready : e'.ready = e.ready) (hunpublished : st'.unpublished = false)
    (hbuilt : st' ≠ .built true) (h : Served b k e' (Function.update stage p st')) : Served b k e stage := by
  rcases h with hsome | ⟨q, hq, hstage⟩
  · exact .inl (hready ▸ hsome)
  · by_cases hqp : q = p
    · subst hqp
      rw [Function.update_self, hunpublished] at hstage
      exact hstage.elim (fun hfalse => by cases hfalse) fun heq => absurd heq hbuilt
    · rw [Function.update_of_ne hqp] at hstage
      exact .inr ⟨q, hq, hstage⟩

/-- While nothing is announced or about to be, only the builder's progress counts. -/
theorem Kept.of_unserved (h : ¬Served b k e stage)
    (hanswered : ∀ p s hit, b.key p = k → stage p ≠ .returned (.artifact s hit))
    (hprogress : ∀ p, b.key p = k → Progress e (stage p)) : Kept b k e stage where
  ready i hi := absurd (.inl (by rw [hi]; rfl)) h
  noting p i hp hst := absurd (.inr ⟨p, hp, .inl (by rw [hst]; rfl)⟩) h
  replacing p hp hst := absurd (.inr ⟨p, hp, .inl (by rw [hst]; rfl)⟩) h
  single p q hp _ hunpublished _ := absurd (.inr ⟨p, hp, .inl hunpublished⟩) h
  unlocked p hp hunpublished := absurd (.inr ⟨p, hp, .inl hunpublished⟩) h
  served hserved := absurd hserved h
  answered p s hit hp hst := absurd hst (hanswered p s hit hp)
  progress := hprogress

/-- A step that changes nothing but the lock, into a stage that promises nothing. -/
theorem Kept.quiet (h : Kept b (b.key p) e stage) (lock : Option Call)
    (hlock : ∀ q, b.key q = b.key p → (stage q).unpublished = true → lock = none)
    (hunpublished : st'.unpublished = false) (hbuilt : st' ≠ .built true) (hrebuilding : st'.rebuilding = false)
    (hanswered : ∀ s hit, st' = .returned (.artifact s hit) → e.ready.isSome = true) :
    Kept b (b.key p) { e with lock := lock } (Function.update stage p st') where
  ready := h.ready
  noting q i hq hst := by
    by_cases hqp : q = p
    · subst hqp
      rw [Function.update_self] at hst
      exact absurd hunpublished (by rw [hst]; simp [Stage.unpublished])
    · rw [Function.update_of_ne hqp] at hst
      exact h.noting q i hq hst
  replacing q hq hst := by
    by_cases hqp : q = p
    · subst hqp
      rw [Function.update_self] at hst
      exact absurd hunpublished (by rw [hst]; simp [Stage.unpublished])
    · rw [Function.update_of_ne hqp] at hst
      exact h.replacing q hq hst
  single q r hq hr hqu hru := by
    by_cases hqp : q = p
    · subst hqp
      rw [Function.update_self, hunpublished] at hqu
      cases hqu
    · by_cases hrp : r = p
      · subst hrp
        rw [Function.update_self, hunpublished] at hru
        cases hru
      · rw [Function.update_of_ne hqp] at hqu
        rw [Function.update_of_ne hrp] at hru
        exact h.single q r hq hr hqu hru
  unlocked q hq hqu := by
    by_cases hqp : q = p
    · subst hqp
      rw [Function.update_self, hunpublished] at hqu
      cases hqu
    · rw [Function.update_of_ne hqp] at hqu
      exact hlock q hq hqu
  served hserved := by
    obtain ⟨husable, hquiet⟩ := h.served (served_update rfl hunpublished hbuilt hserved)
    refine ⟨⟨husable.workDir, husable.model, husable.library⟩, fun q hq => ?_⟩
    by_cases hqp : q = p
    · subst hqp
      rw [Function.update_self]
      exact hrebuilding
    · rw [Function.update_of_ne hqp]
      exact hquiet q hq
  answered q s hit hq hst := by
    by_cases hqp : q = p
    · subst hqp
      exact hanswered s hit (by simpa using hst)
    · rw [Function.update_of_ne hqp] at hst
      exact h.answered q s hit hq hst
  progress q hq := by
    by_cases hqp : q = p
    · subst hqp
      rw [Function.update_self]
      exact progress_of_quiet hrebuilding
    · rw [Function.update_of_ne hqp]
      have hprogress := h.progress q hq
      cases hst : stage q <;> rw [hst] at hprogress <;> exact hprogress

/-- A step of the call that is about to announce its library, while no other call of the entry is. -/
theorem Kept.of_publisher
    (hothers : ∀ q, b.key q = b.key p → q ≠ p → (stage q).unpublished = false ∧ (stage q).rebuilding = false)
    (husable : Usable b (b.key p) e') (hlock : st'.unpublished = true → e'.lock = none)
    (hrebuilding : st'.rebuilding = false)
    (hready : ∀ i, e'.ready = some i → (∃ f, e'.notes i = some f ∧ f.whole = true) ∧ e'.temporary ≠ some i)
    (hnoting : ∀ i, st' = .noting i → e'.temporary = some i)
    (hreplacing : st' = .replacing → ∃ i f, e'.temporary = some i ∧ e'.notes i = some f ∧ f.whole = true)
    (hanswered : ∀ q s hit, b.key q = b.key p → Function.update stage p st' q = .returned (.artifact s hit) →
      e'.ready.isSome = true) :
    Kept b (b.key p) e' (Function.update stage p st') := by
  have hpublisher : ∀ q, b.key q = b.key p → (Function.update stage p st' q).unpublished = true → q = p := by
    intro q hq hqu
    by_contra hqp
    rw [Function.update_of_ne hqp, (hothers q hq hqp).1] at hqu
    cases hqu
  have hquiet : ∀ q, b.key q = b.key p → (Function.update stage p st' q).rebuilding = false := by
    intro q hq
    by_cases hqp : q = p
    · subst hqp
      rw [Function.update_self]
      exact hrebuilding
    · rw [Function.update_of_ne hqp]
      exact (hothers q hq hqp).2
  refine ⟨hready, fun q i hq hst => ?_, fun q hq hst => ?_, fun q r hq hr hqu hru => ?_, fun q hq hqu => ?_,
    fun _ => ⟨husable, hquiet⟩, hanswered, fun q hq => progress_of_quiet (hquiet q hq)⟩
  · obtain rfl := hpublisher q hq (by rw [hst]; rfl)
    exact hnoting i (by simpa using hst)
  · obtain rfl := hpublisher q hq (by rw [hst]; rfl)
    exact hreplacing (by simpa using hst)
  · rw [hpublisher q hq hqu, hpublisher r hr hru]
  · obtain rfl := hpublisher q hq hqu
    exact hlock (by simpa using hqu)

/-- From the second look on, a call that finds nothing may clear the directory. -/
theorem Kept.unserved (h : Kept b (b.key p) e stage) (hheld : Held b (b.key p) e stage)
    (hst : stage p = .lookingAgain) (hload : b.loadCachedArtifact (b.key p) e = none) :
    ¬Served b (b.key p) e stage := by
  intro hserved
  have hown : e.lock = some p := (hheld p).mpr ⟨rfl, by rw [hst]; rfl⟩
  rcases hserved with hsome | ⟨q, hq, hunpublished | hbuilt⟩
  · obtain ⟨i, hi⟩ := Option.isSome_iff_exists.mp hsome
    obtain ⟨⟨note, hnote, hwhole⟩, -⟩ := h.ready i hi
    obtain ⟨husable, -⟩ := h.served (.inl hsome)
    obtain ⟨f, hf, -⟩ := husable.library
    simp [Backend.loadCachedArtifact, hi, hnote, hwhole, husable.workDir, hf] at hload
  · rw [h.unlocked q hq hunpublished] at hown
    cases hown
  · obtain rfl := hheld.only rfl hq (by rw [hst]; rfl) (by rw [hbuilt]; rfl)
    rw [hst] at hbuilt
    cases hbuilt

theorem Kept.unserved_of_rebuilding (h : Kept b (b.key p) e stage) (hst : (stage p).rebuilding = true) :
    ¬Served b (b.key p) e stage := by
  intro hserved
  rw [(h.served hserved).2 p rfl] at hst
  cases hst

/-- A step of the builder inside the lock, short of a library that is built. -/
theorem Kept.rebuild (h : Kept b (b.key p) e stage) (hheld : Held b (b.key p) e stage)
    (hunserved : ¬Served b (b.key p) e stage) (hinside : (stage p).inside = true) (hready : e'.ready = e.ready)
    (hunpublished : st'.unpublished = false) (hbuilt : st' ≠ .built true)
    (hreturned : ∀ s hit, st' ≠ .returned (.artifact s hit)) (hprogress : Progress e' st') :
    Kept b (b.key p) e' (Function.update stage p st') := by
  refine Kept.of_unserved (fun hserved => hunserved (served_update hready hunpublished hbuilt hserved))
    (fun q s hit hq hst => ?_) (fun q hq => ?_)
  · by_cases hqp : q = p
    · subst hqp
      exact hreturned s hit (by simpa using hst)
    · rw [Function.update_of_ne hqp] at hst
      exact hunserved (.inl (h.answered q s hit hq hst))
  · by_cases hqp : q = p
    · subst hqp
      rw [Function.update_self]
      exact hprogress
    · rw [Function.update_of_ne hqp]
      refine progress_of_quiet (Bool.eq_false_iff.mpr fun hrebuilding => hqp ?_)
      exact hheld.only hq rfl (inside_of_rebuilding hrebuilding) hinside

/-- A step of the builder after the directory has been cleared. -/
theorem Kept.rebuild_on (h : Kept b (b.key p) e stage) (hheld : Held b (b.key p) e stage)
    (hrebuilding : (stage p).rebuilding = true) (hready : e'.ready = e.ready) (hunpublished : st'.unpublished = false)
    (hbuilt : st' ≠ .built true) (hreturned : ∀ s hit, st' ≠ .returned (.artifact s hit))
    (hprogress : Progress e' st') :
    Kept b (b.key p) e' (Function.update stage p st') :=
  h.rebuild hheld (h.unserved_of_rebuilding hrebuilding) (inside_of_rebuilding hrebuilding) hready hunpublished hbuilt
    hreturned hprogress

/-- While a call is about to announce its library, no other one of the entry is, and none rebuilds. -/
theorem Kept.others (h : Kept b (b.key p) e stage) (hheld : Held b (b.key p) e stage)
    (hst : (stage p).unpublished = true ∨ stage p = .built true) :
    ∀ q, b.key q = b.key p → q ≠ p → (stage q).unpublished = false ∧ (stage q).rebuilding = false := by
  intro q hq hqp
  refine ⟨Bool.eq_false_iff.mpr fun hqu => ?_, (h.served (.inr ⟨p, rfl, hst⟩)).2 q hq⟩
  rcases hst with hpu | hbuilt
  · exact hqp (h.single q p hq rfl hqu hpu)
  · have hown : e.lock = some p := (hheld p).mpr ⟨rfl, by rw [hbuilt]; rfl⟩
    rw [h.unlocked q hq hqu] at hown
    cases hown

theorem Kept.answered_update (h : Kept b (b.key p) e stage) (hready : e.ready.isSome = true → e'.ready.isSome = true)
    (hanswered : ∀ s hit, st' = .returned (.artifact s hit) → e'.ready.isSome = true) :
    ∀ q s hit, b.key q = b.key p → Function.update stage p st' q = .returned (.artifact s hit) →
      e'.ready.isSome = true := by
  intro q s hit hq hst
  by_cases hqp : q = p
  · subst hqp
    exact hanswered s hit (by simpa using hst)
  · rw [Function.update_of_ne hqp] at hst
    exact hready (h.answered q s hit hq hst)

/-- A step of the announcement, which leaves the work directory alone. -/
theorem Kept.announce (h : Kept b (b.key p) e stage) (hheld : Held b (b.key p) e stage)
    (hpu : (stage p).unpublished = true) (hworkDir : e'.workDir = e.workDir) (hfiles : e'.files = e.files)
    (hlock : e'.lock = e.lock) (hrebuilding : st'.rebuilding = false)
    (hready : ∀ i, e'.ready = some i → (∃ f, e'.notes i = some f ∧ f.whole = true) ∧ e'.temporary ≠ some i)
    (hnoting : ∀ i, st' = .noting i → e'.temporary = some i)
    (hreplacing : st' = .replacing → ∃ i f, e'.temporary = some i ∧ e'.notes i = some f ∧ f.whole = true)
    (hkept : e.ready.isSome = true → e'.ready.isSome = true)
    (hanswered : ∀ s hit, st' = .returned (.artifact s hit) → e'.ready.isSome = true) :
    Kept b (b.key p) e' (Function.update stage p st') := by
  obtain ⟨husable, -⟩ := h.served (.inr ⟨p, rfl, .inl hpu⟩)
  refine Kept.of_publisher (h.others hheld (.inl hpu)) ⟨?_, ?_, ?_⟩ (fun _ => ?_) hrebuilding hready hnoting hreplacing
    (h.answered_update hkept hanswered)
  · exact hworkDir.trans husable.workDir
  · simpa only [ModelWhole, hfiles] using husable.model
  · simpa only [Backend.HasLibrary, hfiles] using husable.library
  · exact hlock.trans (h.unlocked p rfl hpu)

/-- The announced note is not the one that is being written. -/
theorem Kept.ready_setNote (h : Kept b (b.key p) e stage) {i : ℕ} (hi : e.ready ≠ some i) (note : File) :
    ∀ j, e.ready = some j →
      (∃ f, (e.setNote i note).notes j = some f ∧ f.whole = true) ∧ e.temporary ≠ some j := by
  intro j hj
  obtain ⟨⟨f, hf, hwhole⟩, hne⟩ := h.ready j hj
  have hji : j ≠ i := fun hji => hi (hji ▸ hj)
  exact ⟨⟨f, (Function.update_of_ne hji _ _).trans hf, hwhole⟩, hne⟩

theorem modelWhole_setFile {path : String} {content : Option File} (hpath : modelFile ≠ path) (h : ModelWhole e) :
    ModelWhole (e.setFile path content) := by
  obtain ⟨f, hf, hwhole⟩ := h
  exact ⟨f, (Function.update_of_ne hpath _ _).trans hf, hwhole⟩

/-- Writing the next file completely. -/
theorem progress_filled {path : String} {rest : List (Option String)} (h : Progress e (.filling path rest)) (s : Submission) :
    Progress (e.setFile path (some ⟨s, true⟩)) (.writing rest) := by
  refine ⟨h.1, ?_⟩
  by_cases hpath : modelFile = path
  · exact .inr ⟨⟨s, true⟩, by simp [Entry.setFile, hpath], rfl⟩
  · exact (h.2.resolve_left hpath).imp_right (modelWhole_setFile hpath)

theorem progress_opened {path : String} {rest : List (Option String)} (h : Progress e (.writing (some path :: rest)))
    (s : Submission) :
    Progress (e.setFile path (some ⟨s, false⟩)) (.filling path rest) := by
  refine ⟨h.1, ?_⟩
  by_cases hpath : modelFile = path
  · exact .inl hpath
  · refine .inr (h.2.imp (fun hmem => ?_) (modelWhole_setFile hpath))
    exact (List.mem_cons.mp hmem).resolve_left fun heq => hpath (Option.some.inj heq)

theorem Kept.step (h : Kept b (b.key p) e stage) (hheld : Held b (b.key p) e stage)
    (hstep : Advances b p e (stage p) e' st')
    (hok : st' = .lookingAgain → ∀ q, b.key q = b.key p → (stage q).unpublished = false) :
    Kept b (b.key p) e' (Function.update stage p st') := by
  have hprogress := h.progress p rfl
  have hunlock : ∀ q, b.key q = b.key p → (stage q).unpublished = true → (e.unlock p).lock = none := by
    intro q hq hqu
    simp [Entry.unlock, h.unlocked q hq hqu]
  have hfound : ∀ s, b.loadCachedArtifact (b.key p) e = some s → e.ready.isSome = true := by
    intro s hload
    obtain ⟨i, -, hi, -⟩ := load_note hload
    rw [hi]
    rfl
  have hown : (stage p).inside = true → (e.unlock p).lock = none := fun hinside => by
    simp [Entry.unlock, (hheld p).mpr ⟨rfl, hinside⟩]
  generalize hst : stage p = st at hstep hprogress hown
  cases hstep with
  | found hload => exact h.quiet e.lock h.unlocked rfl nofun rfl fun _ _ _ => hfound _ hload
  | missed => exact h.quiet e.lock h.unlocked rfl nofun rfl nofun
  | locked _ =>
      refine h.quiet (some p) (fun q hq hqu => ?_) rfl nofun rfl nofun
      rw [hok rfl q hq] at hqu
      cases hqu
  | foundAgain hload => exact h.quiet _ hunlock rfl nofun rfl fun _ _ _ => hfound _ hload
  | missedAgain hload =>
      exact h.rebuild hheld (h.unserved hheld hst hload) (by rw [hst]; rfl) rfl rfl nofun nofun trivial
  | removed | removedTree => exact h.rebuild_on hheld (by rw [hst]; rfl) rfl rfl nofun nofun trivial
  | made =>
      exact h.rebuild_on hheld (by rw [hst]; rfl) rfl rfl nofun nofun ⟨rfl, .inl (by simp [Backend.writes])⟩
  | opened => exact h.rebuild_on hheld (by rw [hst]; rfl) rfl rfl nofun nofun (progress_opened hprogress _)
  | filled => exact h.rebuild_on hheld (by rw [hst]; rfl) rfl rfl nofun nofun (progress_filled hprogress _)
  | started =>
      refine h.rebuild_on hheld (by rw [hst]; rfl) rfl rfl nofun nofun ?_
      exact ⟨hprogress.1, hprogress.2.resolve_left List.not_mem_nil⟩
  | produced hpath =>
      refine h.rebuild_on hheld (by rw [hst]; rfl) rfl rfl nofun nofun ?_
      exact ⟨hprogress.1, modelWhole_setFile hpath.symm hprogress.2⟩
  | @finished compiled hlibrary =>
      cases compiled with
      | false => exact h.rebuild_on hheld (by rw [hst]; rfl) rfl rfl nofun nofun trivial
      | true =>
          have hunserved := h.unserved_of_rebuilding (by rw [hst]; rfl)
          refine Kept.of_publisher (fun q hq hqp => ⟨?_, ?_⟩) ⟨hprogress.1, hprogress.2, hlibrary rfl⟩ nofun rfl h.ready
            nofun nofun (h.answered_update id nofun)
          · exact Bool.eq_false_iff.mpr fun hqu => hunserved (.inr ⟨q, hq, .inl hqu⟩)
          · exact Bool.eq_false_iff.mpr fun hrebuilding =>
              hqp (hheld.only hq rfl (inside_of_rebuilding hrebuilding) (by rw [hst]; rfl))
  | @released compiled =>
      cases compiled with
      | false => exact h.quiet _ hunlock rfl nofun rfl nofun
      | true =>
          obtain ⟨husable, -⟩ := h.served (.inr ⟨p, rfl, .inr hst⟩)
          exact Kept.of_publisher (h.others hheld (.inr hst)) ⟨husable.workDir, husable.model, husable.library⟩
            (fun _ => hown rfl) rfl h.ready nofun nofun (h.answered_update id nofun)
  | @truncated i htemporary =>
      refine h.announce hheld (by rw [hst]; rfl) rfl rfl rfl rfl (h.ready_setNote (fun hi => ?_) _) (fun j hj => ?_) nofun
        id nofun
      · exact (h.ready i hi).2 htemporary
      · rw [← Stage.noting.inj hj]
        exact htemporary
  | @created i htemporary hfresh =>
      have hi : e.ready ≠ some i := fun hi => by
        obtain ⟨⟨f, hf, -⟩, -⟩ := h.ready i hi
        rw [hfresh] at hf
        cases hf
      refine h.announce hheld (by rw [hst]; rfl) rfl rfl rfl rfl (fun j hj => ⟨(h.ready_setNote hi _ j hj).1, ?_⟩)
        (fun j hj => ?_) nofun id nofun
      · exact fun heq => hi (hj.trans heq.symm)
      · rw [← Stage.noting.inj hj]
  | @noted i =>
      have htemporary := h.noting p i rfl hst
      refine h.announce hheld (by rw [hst]; rfl) rfl rfl rfl rfl (h.ready_setNote (fun hi => ?_) _) nofun (fun _ => ?_)
        id nofun
      · exact (h.ready i hi).2 htemporary
      · exact ⟨i, _, htemporary, Function.update_self _ _ _, rfl⟩
  | @renamed i htemporary =>
      obtain ⟨j, f, hj, hf, hwhole⟩ := h.replacing p rfl hst
      obtain rfl : j = i := Option.some.inj (hj.symm.trans htemporary)
      refine h.announce hheld (by rw [hst]; rfl) rfl rfl rfl rfl (fun i hi => ?_) nofun nofun (fun _ => rfl) fun _ _ _ => rfl
      obtain rfl : j = i := Option.some.inj hi
      exact ⟨⟨f, hf, hwhole⟩, nofun⟩
  | lost _ => exact h.quiet e.lock h.unlocked rfl nofun rfl nofun
  | died => exact h.quiet _ hunlock rfl nofun rfl nofun

theorem Kept.congr {stage' : Call → Stage} (h : Kept b k e stage) (hsame : ∀ q, b.key q = k → stage' q = stage q) :
    Kept b k e stage' where
  ready := h.ready
  noting q i hq hst := h.noting q i hq (hsame q hq ▸ hst)
  replacing q hq hst := h.replacing q hq (hsame q hq ▸ hst)
  single q r hq hr hqu hru := h.single q r hq hr (hsame q hq ▸ hqu) (hsame r hr ▸ hru)
  unlocked q hq hqu := h.unlocked q hq (hsame q hq ▸ hqu)
  served hserved := by
    obtain ⟨husable, hquiet⟩ := h.served (hserved.imp_right fun ⟨q, hq, hst⟩ => ⟨q, hq, hsame q hq ▸ hst⟩)
    exact ⟨husable, fun q hq => by rw [hsame q hq, hquiet q hq]⟩
  answered q s hit hq hst := h.answered q s hit hq (hsame q hq ▸ hst)
  progress q hq := by
    rw [hsame q hq]
    exact h.progress q hq

/-! ### Names that stay in the work directory -/

/-- No source that is still to be written leads out of the work directory. -/
def Stage.contained : Stage → Prop
  | .writing rest | .filling _ rest => ∀ target ∈ rest, target.isSome
  | _ => True

theorem writes_contained (h : b.Contained) : ∀ target ∈ b.writes p, target.isSome := by
  intro target htarget
  rcases List.mem_append.mp htarget with hscaffold | hsource
  · obtain ⟨path, -, rfl⟩ := List.mem_map.mp hscaffold
    rfl
  · obtain ⟨name, hname, rfl⟩ := List.mem_map.mp hsource
    exact h p name hname

theorem Advances.contained (hcontained : b.Contained) (h : Advances b p e st e' st') (hst : st.contained) :
    st'.contained := by
  cases h with
  | made => exact writes_contained hcontained
  | opened => exact fun target htarget => hst target (List.mem_cons_of_mem _ htarget)
  | filled => exact hst
  | @released compiled => cases compiled <;> trivial
  | _ => trivial

theorem initial_contained (p : Call) : ((initial : Sharing.World Call Key Entry Stage).stage p).contained := trivial

/-! ### Runs of the cache -/

variable [DecidableEq Key] {w w' : Sharing.World Call Key Entry Stage} {s : Submission} {hit : Bool}

theorem kept_run (h : RunWhen b.cache.step (fun w a => AnnouncedFirst b w (.call a.1 a.2)) initial w) (k : Key) :
    Kept b k (w.entry k) w.stage := by
  have hboth := Sharing.invariant (S := b.cache) (I := fun k e stage => Held b k e stage ∧ Kept b k e stage)
    (fun k e stage stage' hsame he => ⟨Sharing.held_local k e stage stage' hsame he.1, he.2.congr hsame⟩)
    (fun w p ev e st hw hok hadvance => ?_) h
    (fun k => ⟨fun q => by simp [initial, Stage.inside], Kept.of_unserved ?_ nofun fun _ _ => trivial⟩) k
  · exact hboth.2
  · refine ⟨Sharing.Held.step (lockRule b) (hw _).1 hadvance, (hw _).2.step (hw _).1 (advance_cases hadvance) ?_⟩
    exact fun hst => hok (acquire_of_lookingAgain (hst ▸ hadvance))
  · rintro (hsome | ⟨q, -, hunpublished | hbuilt⟩)
    · cases hsome
    · cases hunpublished
    · cases hbuilt

/-- Without such a source, every step is one of a call in its own directory. -/
theorem step_contained {label : Label Key} (hst : ∀ p, (w.stage p).contained) (h : b.step w label = some w') :
    ∃ p ev, label = .call p ev ∧ b.cache.step w (p, ev) = some w' := by
  cases label with
  | call p ev => exact ⟨p, ev, rfl, h⟩
  | stray p entries =>
      rw [Backend.step] at h
      split at h
      · rename_i rest heq
        have hp := hst p
        rw [heq] at hp
        exact absurd (hp none List.mem_cons_self) (by simp)
      · cases h

theorem run_contained {ok : Sharing.World Call Key Entry Stage → Label Key → Prop} (hcontained : b.Contained)
    (hst : ∀ p, (w.stage p).contained) (h : RunWhen b.step ok w w') :
    (∀ p, (w'.stage p).contained) ∧ RunWhen b.cache.step (fun w a => ok w (.call a.1 a.2)) w w' := by
  induction h with
  | refl => exact ⟨hst, Relation.ReflTransGen.refl⟩
  | tail _ hlast ih =>
      obtain ⟨hmid, hrun⟩ := ih
      obtain ⟨label, hok, hstep⟩ := hlast
      obtain ⟨p, ev, rfl, hcache⟩ := step_contained hmid hstep
      refine ⟨fun q => ?_, hrun.snoc (a := (p, ev)) hok hcache⟩
      by_cases hq : q = p
      · subst hq
        obtain ⟨e, st, hadvance, hw⟩ := Sharing.step_cases hcache
        have hstage := congrArg (fun v => v.stage q) hw
        simp only [Function.update_self] at hstage
        rw [hstage]
        exact (advance_cases hadvance).contained hcontained (hmid q)
      · rw [Sharing.stage_of_step hcache hq]
        exact hmid q

/-! ### Results -/

/-- Only a call that rebuilds changes the work directory. -/
theorem rebuilding_of_step {ev : Event} (h : b.cache.step w (p, ev) = some w')
    (hchanged : (w'.entry k).files ≠ (w.entry k).files ∨ (w'.entry k).workDir ≠ (w.entry k).workDir) :
    b.key p = k ∧ (w.stage p).rebuilding = true := by
  by_cases hkey : b.key p = k
  · subst hkey
    obtain ⟨e, st, hadvance, rfl⟩ := Sharing.step_cases h
    have hentry : Function.update w.entry (b.key p) e (b.key p) = e := Function.update_self _ _ _
    have hsteps : Advances b p (w.entry (b.key p)) (w.stage p) e st := advance_cases hadvance
    refine ⟨rfl, ?_⟩
    have hfiles : e.files ≠ (w.entry (b.key p)).files ∨ e.workDir ≠ (w.entry (b.key p)).workDir := hentry ▸ hchanged
    generalize w.stage p = stage at hsteps ⊢
    cases hsteps <;> first | rfl | exact (hfiles.elim (fun h => h rfl) fun h => h rfl).elim
  · have hsame : w'.entry k = w.entry k := Sharing.entry_of_step h (Ne.symm hkey)
    rw [hsame] at hchanged
    exact (hchanged.elim (fun h => h rfl) fun h => h rfl).elim

/-- A call that has returned takes no more steps. -/
theorem returned_of_step {ev : Event} {r : Result} (h : b.cache.step w (q, ev) = some w')
    (hst : w.stage p = .returned r) : w'.stage p = .returned r := by
  have hqp : q ≠ p := by
    rintro rfl
    obtain ⟨e, st, hadvance, -⟩ := Sharing.step_cases h
    have hnone : b.advance q (w.entry (b.key q)) (.returned r) ev = some (e, st) := hst ▸ hadvance
    unfold Backend.advance at hnone
    cases ev <;> cases hnone
  rw [Sharing.stage_of_step h hqp.symm, hst]

/-- **An artifact stays usable**: in every run in which a built library is announced before the lock is taken again and
no submission names a source outside its work directory, with calls that fail or are killed anywhere, the library and
the model of an artifact that was returned are complete, and no later step changes a file of its work directory. -/
theorem returned_artifact_stays (hcontained : b.Contained) (h : RunWhen b.step (AnnouncedFirst b) initial w)
    (hst : w.stage p = .returned (.artifact s hit)) (h' : RunWhen b.step (AnnouncedFirst b) w w') :
    Usable b (b.key p) (w'.entry (b.key p)) ∧ (w'.entry (b.key p)).files = (w.entry (b.key p)).files := by
  obtain ⟨hstages, hrun⟩ := run_contained hcontained initial_contained h
  obtain ⟨-, hrun'⟩ := run_contained hcontained hstages h'
  clear h h'
  have hserved : ∀ v, RunWhen b.cache.step (fun w a => AnnouncedFirst b w (.call a.1 a.2)) initial v →
      v.stage p = .returned (.artifact s hit) →
      Usable b (b.key p) (v.entry (b.key p)) ∧ ∀ q, b.key q = b.key p → (v.stage q).rebuilding = false := by
    intro v hrun hv
    have hkept := kept_run hrun (b.key p)
    exact hkept.served (.inl (hkept.answered p s hit rfl hv))
  have hinv : w'.stage p = .returned (.artifact s hit) ∧
      (w'.entry (b.key p)).files = (w.entry (b.key p)).files ∧
      RunWhen b.cache.step (fun w a => AnnouncedFirst b w (.call a.1 a.2)) initial w' := by
    induction hrun' with
    | refl => exact ⟨hst, rfl, hrun⟩
    | tail _ hlast ih =>
        obtain ⟨hv, hfiles, hmid⟩ := ih
        obtain ⟨a, hok, hstep⟩ := hlast
        refine ⟨returned_of_step hstep hv, ?_, hmid.snoc hok hstep⟩
        by_contra hchanged
        obtain ⟨hq, hrebuilding⟩ := rebuilding_of_step (k := b.key p) hstep (.inl fun heq => hchanged (heq.trans hfiles))
        rw [(hserved _ hmid hv).2 _ hq] at hrebuilding
        cases hrebuilding
  exact ⟨(hserved w' hinv.2.2 hinv.1).1, hinv.2.1⟩

/-! ### A run with two calls -/

/-- Two calls for a model with one source of its own. -/
def twoCalls : Backend Submission where
  submission _ := ⟨"ModelNew", "class ModelNew: pass", {("scale.cu", "__global__ void scale() {}")}⟩
  names _ := ["scale.cu"]
  names_eq := by simp
  artifactCacheKey := id
  scaffold _ := ["binding.cpp"]
  soPath _ := "build/kernelgym_cuda_agent.so"

theorem twoCalls_contained : twoCalls.Contained := by
  intro p name hname
  rw [List.mem_singleton.mp hname]
  decide +kernel

/-- What a call does up to the end of its build. -/
def buildEvents : List Event :=
  [.load, .removeTree, .makeDir, .openFile, .fillFile, .openFile, .fillFile, .openFile, .fillFile, .openFile, .fillFile,
    .startBuild, .produce "build/kernelgym_cuda_agent.so" (some true), .finish true, .release]

def publishEvents : List Event := [.openNote 0, .fillNote, .rename]

def labels (p : Call) (events : List Event) : List (Label Submission) := events.map (.call p)

theorem announcedFirst_of_ne {b : Backend Submission} {w : Sharing.World Call Submission Entry Stage} (p : Call)
    (events : List Event) (hne : Event.acquire ∉ events) (h : (execute b.step (labels p events) w).isSome) :
    RunWhen b.step (AnnouncedFirst b) w ((execute b.step (labels p events) w).getD w) := by
  have hallowed : ∀ label ∈ labels p events, ∃ ev, label = .call p ev ∧ ev ≠ .acquire := by
    intro label hlabel
    obtain ⟨ev, hev, rfl⟩ := List.mem_map.mp hlabel
    exact ⟨ev, rfl, fun heq => hne (heq ▸ hev)⟩
  refine (execute_run_getD hallowed h).mono fun w label hlabel => ?_
  obtain ⟨ev, rfl, hev⟩ := hlabel
  exact fun hacquire => absurd hacquire hev

/-- The first call waits for the lock, and nobody else has begun. -/
def waiting : Sharing.World Call Submission Entry Stage :=
  (execute twoCalls.step (labels 0 [.load]) initial).getD initial

def locked : Sharing.World Call Submission Entry Stage := (twoCalls.step waiting (.call 0 .acquire)).getD waiting

def published : Sharing.World Call Submission Entry Stage :=
  (execute twoCalls.step (labels 0 (buildEvents ++ publishEvents)) locked).getD locked

/-- The second call has found the library of the first one. -/
def shared : Sharing.World Call Submission Entry Stage :=
  (execute twoCalls.step (labels 1 [.load]) published).getD published

theorem run_published : RunWhen twoCalls.step (AnnouncedFirst twoCalls) initial published := by
  have hwaiting := announcedFirst_of_ne (b := twoCalls) (w := initial) 0 [.load] (by decide) (by decide +kernel)
  have hlocked : RunWhen twoCalls.step (AnnouncedFirst twoCalls) waiting locked := by
    refine RunWhen.single (a := .call 0 .acquire) (fun _ q _ => ?_) (step_getD (by decide +kernel))
    have hstage : waiting.stage = Function.update (fun _ => Stage.looking) 0 .waiting := rfl
    rw [hstage]
    by_cases hq : q = 0
    · rw [hq]
      rfl
    · rw [Function.update_of_ne hq]
      rfl
  exact (hwaiting.append hlocked).append (announcedFirst_of_ne 0 _ (by decide) (by decide +kernel))

theorem returned_artifact_stays_shared :
    shared.stage 1 = .returned (.artifact (twoCalls.submission 1) true) ∧
      Usable twoCalls (twoCalls.key 0) (shared.entry (twoCalls.key 0)) ∧
      (shared.entry (twoCalls.key 0)).files = (published.entry (twoCalls.key 0)).files := by
  have hst : published.stage 0 = .returned (.artifact (twoCalls.submission 0) false) := by decide +kernel
  exact ⟨by decide +kernel, returned_artifact_stays twoCalls_contained run_published hst
    (announcedFirst_of_ne 1 _ (by decide) (by decide +kernel))⟩

/-- The condition is needed: a second call that takes the lock before the first one has announced its library clears
the directory, and the first one then returns an artifact whose library is gone. -/
example : (execute twoCalls.step (labels 0 buildEvents ++ labels 1 [.load, .acquire, .load, .removeTree] ++
      labels 0 publishEvents) locked).any
    (fun v => v.stage 0 = .returned (.artifact (twoCalls.submission 0) false) ∧
      (v.entry (twoCalls.key 0)).files "build/kernelgym_cuda_agent.so" = none) := by
  decide +kernel

/-- So are the names: one that climbs out of the work directory leads to the files of another submission. -/
example : sourcePath "scale.cu" = some "kernels/scale.cu" ∧ sourcePath "ops/../scale.cu" = some "scale.cu" ∧
    sourcePath "../../7f3a/work/model_new.py" = none ∧ sourcePath "/tmp/scale.cu" = none := by
  decide +kernel

end KernelGym.ArtifactCache
