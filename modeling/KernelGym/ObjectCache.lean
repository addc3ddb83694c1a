import Mathlib.Data.List.Basic
import KernelGym.Library.Sharing

/-! The cache of compiled objects. Every build looks up its compile steps before it starts and stores the objects that
it had to make itself: a copy under a temporary name, which is renamed while a lock is held. -/

namespace KernelGym.ObjectCache

open Library

abbrev Bytes := List UInt8

/-- One compile step of one build. -/
abbrev Use := ℕ

/-! ### Keys -/

/-- What `_manual_ninja_cache_key` digests. -/
structure CompileInputs where
  /-- `build.ninja` with placeholders for the names that change from build to build. -/
  buildText : Bytes
  objectName : Bytes
  rule : Bytes
  extName : Bytes
  headerDigest : Bytes
  torchVersion : Bytes
  torchCuda : Bytes
  pythonVersion : Bytes
  cudaArch : Bytes
  extraCflags : Bytes
  extraCudaCflags : Bytes
  source : Bytes
  deriving DecidableEq

namespace CompileInputs

variable (i : CompileInputs)

/-- The items in front of the source. -/
def items : List Bytes :=
  [i.buildText, i.objectName, i.rule, i.extName, i.headerDigest, i.torchVersion, i.torchCuda, i.pythonVersion,
    i.cudaArch, i.extraCflags, i.extraCudaCflags]

/-- No item contains the byte that separates them; the source may. -/
def NulFree : Prop := ∀ item ∈ i.items, (0 : UInt8) ∉ item

end CompileInputs

/-- Items with a zero byte behind each of them, and a last text. -/
def nulText : List Bytes → Bytes → Bytes
  | [], last => last
  | item :: items, last => item ++ 0 :: nulText items last

/-- The bytes that are digested, in the order of the calls of `update`. -/
def CompileInputs.digested (i : CompileInputs) : Bytes := nulText i.items i.source

theorem append_zero_inj {x y u v : Bytes} (hx : (0 : UInt8) ∉ x) (hy : (0 : UInt8) ∉ y)
    (h : x ++ 0 :: u = y ++ 0 :: v) : x = y ∧ u = v := by
  induction x generalizing y with
  | nil =>
      cases y with
      | nil => exact ⟨rfl, (List.cons.inj h).2⟩
      | cons c y => exact absurd (List.cons.inj h).1 (fun hc => hy (by simp [hc]))
  | cons c x ih =>
      cases y with
      | nil => exact absurd (List.cons.inj h).1 (fun hc => hx (by simp [hc]))
      | cons d y =>
          obtain ⟨rfl, htail⟩ := List.cons.inj h
          obtain ⟨rfl, rfl⟩ := ih (fun hmem => hx (by simp [hmem])) (fun hmem => hy (by simp [hmem])) htail
          exact ⟨rfl, rfl⟩

theorem nulText_inj {xs ys : List Bytes} {u v : Bytes} (hlength : xs.length = ys.length)
    (hxs : ∀ item ∈ xs, (0 : UInt8) ∉ item) (hys : ∀ item ∈ ys, (0 : UInt8) ∉ item) (h : nulText xs u = nulText ys v) :
    xs = ys ∧ u = v := by
  induction xs generalizing ys with
  | nil =>
      obtain rfl := List.length_eq_zero_iff.mp hlength.symm
      exact ⟨rfl, h⟩
  | cons x xs ih =>
      cases ys with
      | nil => cases hlength
      | cons y ys =>
          obtain ⟨rfl, htail⟩ := append_zero_inj (hxs x (by simp)) (hys y (by simp)) h
          obtain ⟨rfl, rfl⟩ := ih (Nat.succ.inj hlength) (fun item hitem => hxs item (by simp [hitem]))
            (fun item hitem => hys item (by simp [hitem])) htail
          exact ⟨rfl, rfl⟩

/-- Different inputs are digested differently. -/
theorem digested_inj {i j : CompileInputs} (hi : i.NulFree) (hj : j.NulFree) (h : i.digested = j.digested) : i = j := by
  have hlength : i.items.length = j.items.length := rfl
  obtain ⟨hitems, hsource⟩ := nulText_inj hlength hi hj h
  cases i
  cases j
  simp only [CompileInputs.items, List.cons.injEq, and_true] at hitems
  obtain ⟨rfl, rfl, rfl, rfl, rfl, rfl, rfl, rfl, rfl, rfl, rfl⟩ := hitems
  obtain rfl := hsource
  rfl

/-! ### The state -/

/-- A compiled object, with the compile step that it comes from. -/
structure ObjectFile where
  builder : Use
  bytes : Bytes
  deriving DecidableEq

/-- The entry of a key in Redis. -/
inductive IndexStatus
  | building
  | ready
  deriving DecidableEq

structure Entry where
  lock : Option Use := none
  object : Option ObjectFile := none
  temporary : Option ObjectFile := none
  index : Option IndexStatus := none
  /-- History: the objects that compilers have left in build directories. -/
  made : List ObjectFile := []

inductive Stage
  | looking
  | checking (indexed : Option IndexStatus)
  | hit (redisReady : Bool)
  | linked (object : ObjectFile)
  | registering
  | compiling
  | missNotBuilt
  /-- The object is to be stored; `again` says that the first call of `_store_manual_ninja_cached_objects` has failed. -/
  | built (bytes : Bytes) (again : Bool)
  | holding (bytes : Bytes) (again : Bool)
  | copying (bytes : Bytes) (again : Bool)
  | copied (bytes : Bytes) (again : Bool)
  | indexing (stored : Bool)
  | missStored
  | missLostRace
  | raised
  deriving DecidableEq

inductive Event
  /-- The reply of Redis, or none when it does not answer. -/
  | readIndex (reachable : Bool)
  | lookup
  | registerBuilding (reachable : Bool)
  /-- What the compiler leaves in the build directory. -/
  | compile (bytes : Option Bytes)
  | acquire
  | check
  | copySome (n : ℕ)
  | copyAll
  | rename
  /-- The file system fails while the object is stored. -/
  | storeFails
  | registerReady (reachable : Bool)
  | link
  /-- Redis drops an entry `building` after its time. -/
  | expire
  | die
  deriving DecidableEq

structure Builds (Key : Type) where
  inputs : Use → CompileInputs
  /-- SHA-256 -/
  digest : Bytes → Key
  /-- The index is in Redis, and Redis could be reached when the build began. -/
  redisIndex : Use → Bool

variable {Key : Type}

def Builds.key (b : Builds Key) (p : Use) : Key := b.digest (b.inputs p).digested

def Entry.unlock (e : Entry) (p : Use) : Entry :=
  { e with lock := if e.lock = some p then none else e.lock }

/-- The object that a first attempt is storing. -/
def Stage.firstStore : Stage → Option Bytes
  | .built bytes false | .holding bytes false | .copying bytes false | .copied bytes false => some bytes
  | _ => none

namespace Builds

variable (b : Builds Key)

/-- `_prepare_manual_ninja_cached_objects` and `_store_manual_ninja_cached_objects` for one compile step, one operation
on the file system or on Redis at a time. -/
def advance (p : Use) (e : Entry) (stage : Stage) (ev : Event) : Option (Entry × Stage) :=
  match ev, stage with
  | .readIndex reachable, .looking =>
    some (e, .checking (if b.redisIndex p && reachable then e.index else none))
  | .lookup, .checking indexed =>
    if e.object.isSome then some (e, .hit (indexed == some .ready))
    else some (e, if b.redisIndex p then .registering else .compiling)
  | .registerBuilding reachable, .registering =>
    -- `SET ... NX`
    some (if reachable && e.index.isNone then { e with index := some .building } else e, .compiling)
  | .compile none, .compiling => some (e, .missNotBuilt)
  | .compile (some bytes), .compiling => some ({ e with made := ⟨p, bytes⟩ :: e.made }, .built bytes false)
  | .acquire, .built bytes again =>
    if e.lock = none then some ({ e with lock := some p }, .holding bytes again) else none
  | .check, .holding bytes again =>
    if e.object.isSome then some (e, .indexing false)
    else some ({ e with temporary := some ⟨p, []⟩ }, .copying bytes again)
  | .copySome n, .copying bytes again =>
    some ({ e with temporary := some ⟨p, bytes.take n⟩ }, .copying bytes again)
  | .copyAll, .copying bytes again => some ({ e with temporary := some ⟨p, bytes⟩ }, .copied bytes again)
  | .rename, .copied bytes again =>
    match e.temporary with
    | some object => some ({ e with object := some object, temporary := none }, .indexing true)
    | none => some (e.unlock p, if again then .raised else .built bytes true)
  -- the handler of `compile` stores once more
  | .storeFails, stage => stage.firstStore.map fun bytes => (e.unlock p, .built bytes true)
  | .registerReady reachable, .indexing stored =>
    some ({ e.unlock p with
        index := if b.redisIndex p && e.object.isSome && reachable then some .ready else e.index },
      if stored then .missStored else .missLostRace)
  | .link, .hit _ =>
    match e.object with
    | some object => some (e, .linked object)
    | none => some (e.unlock p, .raised)
  | .expire, stage => some (if e.index = some .building then { e with index := none } else e, stage)
  | .die, _ => some (e.unlock p, .raised)
  | _, _ => none

def cache : Sharing Use Key Entry Stage Event where
  key := b.key
  advance := b.advance

end Builds

def initial : Sharing.World Use Key Entry Stage where
  entry _ := {}
  stage _ := .looking

namespace Stage

/-- Between `flock` and the release of the lock. -/
def inside : Stage → Bool
  | .holding _ _ | .copying _ _ | .copied _ _ | .indexing _ => true
  | _ => false

/-- The object that is to be stored. -/
def stores : Stage → Option Bytes
  | .built bytes _ | .holding bytes _ | .copying bytes _ | .copied bytes _ => some bytes
  | _ => none

theorem stores_of_firstStore {stage : Stage} {bytes : Bytes} (h : stage.firstStore = some bytes) :
    stage.stores = some bytes := by
  unfold firstStore at h
  split at h <;> first | exact h | cases h

end Stage

/-- The steps of a client. -/
inductive Advances (b : Builds Key) (p : Use) : Entry → Stage → Entry → Stage → Prop
  | readIndex {e indexed} : Advances b p e .looking e (.checking indexed)
  | found {e indexed} (hobject : e.object.isSome = true) :
      Advances b p e (.checking indexed) e (.hit (indexed == some .ready))
  | missed {e indexed} :
      Advances b p e (.checking indexed) e (if b.redisIndex p then .registering else .compiling)
  | registered {e} (index : Option IndexStatus) (hindex : index = e.index ∨ index = some .building) :
      Advances b p e .registering { e with index := index } .compiling
  | notBuilt {e} : Advances b p e .compiling e .missNotBuilt
  | compiled {e} (bytes : Bytes) :
      Advances b p e .compiling { e with made := ⟨p, bytes⟩ :: e.made } (.built bytes false)
  | locked {e bytes again} (hlock : e.lock = none) :
      Advances b p e (.built bytes again) { e with lock := some p } (.holding bytes again)
  | lostRace {e bytes again} (hobject : e.object.isSome = true) :
      Advances b p e (.holding bytes again) e (.indexing false)
  | began {e bytes again} (hobject : e.object = none) :
      Advances b p e (.holding bytes again) { e with temporary := some ⟨p, []⟩ } (.copying bytes again)
  | copied {e bytes again} (n : ℕ) :
      Advances b p e (.copying bytes again) { e with temporary := some ⟨p, bytes.take n⟩ } (.copying bytes again)
  | copiedAll {e bytes again} :
      Advances b p e (.copying bytes again) { e with temporary := some ⟨p, bytes⟩ } (.copied bytes again)
  | renamed {e object bytes again} (htemporary : e.temporary = some object) :
      Advances b p e (.copied bytes again) { e with object := some object, temporary := none } (.indexing true)
  | failed {e st bytes} (hstores : st.stores = some bytes) : Advances b p e st (e.unlock p) (.built bytes true)
  | indexed {e stored} (index : Option IndexStatus)
      (hindex : index = e.index ∨ e.object.isSome = true ∧ index = some .ready) :
      Advances b p e (.indexing stored) { e.unlock p with index := index }
        (if stored then .missStored else .missLostRace)
  | linked {e ready object} (hobject : e.object = some object) : Advances b p e (.hit ready) e (.linked object)
  | expired {e st} (index : Option IndexStatus) (hindex : index = e.index ∨ index = none) :
      Advances b p e st { e with index := index } st
  | died {e st} : Advances b p e st (e.unlock p) .raised

variable {b : Builds Key} {k : Key} {p q : Use} {e e' : Entry} {st st' : Stage} {stage : Use → Stage} {ev : Event}

theorem advance_cases (h : b.advance p e st ev = some (e', st')) : Advances b p e st e' st' := by
  unfold Builds.advance at h
  split at h
  case h_2 | h_7 =>
    split at h <;> obtain ⟨rfl, rfl⟩ := Prod.mk.inj (Option.some.inj h)
    · constructor
      assumption
    · first | exact .missed | exact .began (Option.not_isSome_iff_eq_none.mp ‹_›)
  case h_3 =>
    obtain ⟨rfl, rfl⟩ := Prod.mk.inj (Option.some.inj h)
    split
    · exact .registered _ (.inr rfl)
    · exact .registered e.index (.inl rfl)
  case h_6 =>
    obtain ⟨hlock, heq⟩ := Option.ite_none_right_eq_some.mp h
    obtain ⟨rfl, rfl⟩ := Prod.mk.inj (Option.some.inj heq)
    exact .locked hlock
  case h_10 =>
    split at h <;> obtain ⟨rfl, rfl⟩ := Prod.mk.inj (Option.some.inj h)
    · constructor
      assumption
    · split
      · exact .died
      · exact .failed rfl
  case h_11 =>
    obtain ⟨bytes, hfirst, heq⟩ := Option.map_eq_some_iff.mp h
    obtain ⟨rfl, rfl⟩ := Prod.mk.inj heq
    exact .failed (Stage.stores_of_firstStore hfirst)
  case h_12 =>
    obtain ⟨rfl, rfl⟩ := Prod.mk.inj (Option.some.inj h)
    refine .indexed _ ?_
    split
    · rename_i hready
      exact .inr ⟨by simp_all, rfl⟩
    · exact .inl rfl
  case h_13 =>
    split at h <;> obtain ⟨rfl, rfl⟩ := Prod.mk.inj (Option.some.inj h)
    · constructor
      assumption
    · exact .died
  case h_14 =>
    obtain ⟨rfl, rfl⟩ := Prod.mk.inj (Option.some.inj h)
    split
    · exact .expired none (.inr rfl)
    · exact .expired e.index (.inl rfl)
  case h_16 => cases h
  all_goals
    obtain ⟨rfl, rfl⟩ := Prod.mk.inj (Option.some.inj h)
    constructor

theorem lockRule (b : Builds Key) : b.cache.LockRule Entry.lock Stage.inside := by
  intro p e st ev e' st' h
  cases advance_cases h with
  | locked hlock => exact .inr (.inl ⟨hlock, rfl, rfl⟩)
  | indexed _ _ => exact .inr (.inr ⟨rfl, by split <;> rfl⟩)
  | failed _ | died => exact .inr (.inr ⟨rfl, rfl⟩)
  | missed => exact .inl ⟨rfl, by split <;> rfl⟩
  | _ => exact .inl ⟨rfl, rfl⟩

/-! ### What is in the cache -/

/-- What the stage of a client says about the entry. -/
def Fits (e : Entry) (p : Use) : Stage → Prop
  | .built bytes _ | .holding bytes _ => ⟨p, bytes⟩ ∈ e.made
  | .copying bytes _ => ⟨p, bytes⟩ ∈ e.made ∧ e.object = none
  | .copied bytes _ => ⟨p, bytes⟩ ∈ e.made ∧ e.object = none ∧ ∃ o ∈ e.made, e.temporary = some o
  | .hit _ | .indexing _ | .missStored | .missLostRace => e.object.isSome = true
  | .linked o => e.object = some o
  | _ => True

theorem Fits.made_of_stores {bytes : Bytes} (h : Fits e p st) (hstores : st.stores = some bytes) : ⟨p, bytes⟩ ∈ e.made := by
  cases st with
  | built | holding =>
      obtain rfl := Option.some.inj hstores
      exact h
  | copying | copied =>
      obtain rfl := Option.some.inj hstores
      exact h.1
  | _ => cases hstores

/-- An object in the cache is one that a compiler has made for the key, and Redis announces none that is not there. -/
structure Sound (b : Builds Key) (k : Key) (e : Entry) (stage : Use → Stage) : Prop where
  object : ∀ o, e.object = some o → o ∈ e.made
  made : ∀ o ∈ e.made, b.key o.builder = k
  index : e.index = some .ready → e.object.isSome = true
  fits : ∀ p, b.key p = k → Fits e p (stage p)

theorem Fits.of_kept (h : Fits e q st) (hmade : ∀ o ∈ e.made, o ∈ e'.made)
    (hobject : ∀ o, e.object = some o → e'.object = some o)
    (hinside : st.inside = true → e'.object = e.object ∧ e'.temporary = e.temporary) : Fits e' q st := by
  have hsome : e.object.isSome = true → e'.object.isSome = true := by
    intro h
    obtain ⟨o, ho⟩ := Option.isSome_iff_exists.mp h
    rw [hobject o ho]
    rfl
  cases st with
  | built bytes again | holding bytes again => exact hmade _ h
  | copying bytes again => exact ⟨hmade _ h.1, (hinside rfl).1.trans h.2⟩
  | copied bytes again =>
      obtain ⟨hbuilt, hnone, o, ho, htemporary⟩ := h
      exact ⟨hmade _ hbuilt, (hinside rfl).1.trans hnone, o, hmade o ho, (hinside rfl).2.trans htemporary⟩
  | hit _ | indexing _ | missStored | missLostRace => exact hsome h
  | linked o => exact hobject o h
  | _ => trivial

/-- **One step**: compiled objects stay recorded, an object in the cache is never replaced, and only the client inside
the lock puts one there. -/
theorem Advances.effect (h : Advances b p e st e' st') (hfits : Fits e p st) :
    (∀ o ∈ e.made, o ∈ e'.made) ∧ (∀ o, e.object = some o → e'.object = some o) ∧
      (st.inside = false → e'.object = e.object ∧ e'.temporary = e.temporary) ∧ Fits e' p st' := by
  cases h with
  | found hobject | lostRace hobject => exact ⟨fun _ h => h, fun _ h => h, fun _ => ⟨rfl, rfl⟩, hobject⟩
  | missed => exact ⟨fun _ h => h, fun _ h => h, fun _ => ⟨rfl, rfl⟩, by split <;> trivial⟩
  | compiled bytes =>
      exact ⟨fun _ h => List.mem_cons_of_mem _ h, fun _ h => h, fun _ => ⟨rfl, rfl⟩, List.mem_cons_self⟩
  | locked _ => exact ⟨fun _ h => h, fun _ h => h, fun _ => ⟨rfl, rfl⟩, hfits⟩
  | began hobject => exact ⟨fun _ h => h, fun _ h => h, nofun, hfits, hobject⟩
  | copied n => exact ⟨fun _ h => h, fun _ h => h, nofun, hfits⟩
  | copiedAll => exact ⟨fun _ h => h, fun _ h => h, nofun, hfits.1, hfits.2, _, hfits.1, rfl⟩
  | renamed htemporary =>
      refine ⟨fun _ h => h, fun o ho => ?_, nofun, rfl⟩
      rw [hfits.2.1] at ho
      cases ho
  | failed hstores => exact ⟨fun _ h => h, fun _ h => h, fun _ => ⟨rfl, rfl⟩, hfits.made_of_stores hstores⟩
  | indexed _ _ => exact ⟨fun _ h => h, fun _ h => h, nofun, by split <;> exact hfits⟩
  | linked hobject => exact ⟨fun _ h => h, fun _ h => h, fun _ => ⟨rfl, rfl⟩, hobject⟩
  | expired _ _ =>
      exact ⟨fun _ h => h, fun _ h => h, fun _ => ⟨rfl, rfl⟩,
        hfits.of_kept (fun _ h => h) (fun _ h => h) fun _ => ⟨rfl, rfl⟩⟩
  | _ => exact ⟨fun _ h => h, fun _ h => h, fun _ => ⟨rfl, rfl⟩, trivial⟩

theorem Sound.step (h : Sound b (b.key p) e stage) (hheld : b.cache.Held Entry.lock Stage.inside (b.key p) e stage)
    (hstep : Advances b p e (stage p) e' st') : Sound b (b.key p) e' (Function.update stage p st') := by
  obtain ⟨hmade, hobject, houtside, hfits⟩ := hstep.effect (h.fits p rfl)
  refine ⟨?_, ?_, ?_, fun q hq => ?_⟩
  · intro o ho
    have hp := h.fits p rfl
    generalize stage p = st at hstep hp
    cases hstep with
    | compiled bytes => exact List.mem_cons_of_mem _ (h.object o ho)
    | renamed htemporary =>
        obtain ⟨-, -, o', ho', htemporary'⟩ := hp
        obtain rfl : o' = o := Option.some.inj ((htemporary'.symm.trans htemporary).trans ho)
        exact ho'
    | _ => exact h.object o ho
  · generalize stage p = st at hstep
    cases hstep with
    | compiled bytes =>
        intro o ho
        rcases List.mem_cons.mp ho with rfl | ho
        · rfl
        · exact h.made o ho
    | _ => exact h.made
  · generalize stage p = st at hstep
    have hkept : e.object.isSome = true → e'.object.isSome = true := by
      intro hsome
      obtain ⟨o, ho⟩ := Option.isSome_iff_exists.mp hsome
      rw [hobject o ho]
      rfl
    cases hstep with
    | registered index hindex =>
        intro hready
        rcases hindex with rfl | rfl
        · exact h.index hready
        · cases hready
    | indexed index hindex =>
        intro hready
        rcases hindex with rfl | ⟨hsome, -⟩
        · exact h.index hready
        · exact hsome
    | expired index hindex =>
        intro hready
        rcases hindex with rfl | rfl
        · exact h.index hready
        · cases hready
    | _ => exact fun hready => hkept (h.index hready)
  · by_cases hqp : q = p
    · subst hqp
      rw [Function.update_self]
      exact hfits
    · rw [Function.update_of_ne hqp]
      refine (h.fits q hq).of_kept hmade hobject fun hinside => houtside (Bool.eq_false_iff.mpr fun hp => hqp ?_)
      exact hheld.only hq rfl hinside hp

variable [DecidableEq Key] {w w' : Sharing.World Use Key Entry Stage}

theorem sound_run (h : Run b.cache.step initial w) (k : Key) : Sound b k (w.entry k) w.stage := by
  have hboth := Sharing.invariant (S := b.cache)
    (I := fun k e stage => b.cache.Held Entry.lock Stage.inside k e stage ∧ Sound b k e stage)
    (fun k e stage stage' hsame he => ⟨Sharing.held_local k e stage stage' hsame he.1, he.2.object, he.2.made,
      he.2.index, fun q hq => by rw [hsame q hq]; exact he.2.fits q hq⟩)
    (fun w p ev e st hw _ hadvance => ⟨(hw _).1.step (lockRule b) hadvance,
      (hw _).2.step (hw _).1 (advance_cases hadvance)⟩) h
    (fun k => ⟨fun q => by simp [initial, Stage.inside], nofun, nofun, nofun, fun _ _ => trivial⟩) k
  exact hboth.2

/-- An object that is in the cache stays there as it is. -/
theorem object_stays (h : Run b.cache.step initial w) (h' : Run b.cache.step w w') {o : ObjectFile}
    (ho : (w.entry k).object = some o) : (w'.entry k).object = some o := by
  induction h' with
  | refl => exact ho
  | tail hfirst hlast ih =>
      obtain ⟨⟨p, ev⟩, -, hstep⟩ := hlast
      obtain ⟨e, st, hadvance, rfl⟩ := Sharing.step_cases hstep
      have hsound := sound_run (h.append hfirst) (b.key p)
      obtain ⟨-, hobject, -⟩ := (advance_cases hadvance).effect (hsound.fits p rfl)
      by_cases hk : k = b.key p
      · subst hk
        exact (congrArg Entry.object (Function.update_self _ _ _)).trans (hobject o ih)
      · exact (congrArg Entry.object (Function.update_of_ne hk _ _)).trans ih

/-- **A hit is sound**: in every run, with builds that fail or are killed anywhere and with a Redis that answers or does
not, an object that a build takes from the cache is, byte for byte, what a compiler has made from the same inputs, and
it stays what it is; and Redis announces no object that is not there. -/
theorem cached_object_sound (hdigest : Function.Injective b.digest) (hfree : ∀ p, (b.inputs p).NulFree)
    (h : Run b.cache.step initial w) :
    (∀ p ready, w.stage p = .hit ready → ∃ o ∈ (w.entry (b.key p)).made, b.inputs o.builder = b.inputs p ∧
      ∀ w', Run b.cache.step w w' → (w'.entry (b.key p)).object = some o) ∧
    ∀ k, (w.entry k).index = some .ready → ∃ o ∈ (w.entry k).made, b.key o.builder = k ∧
      ∀ w', Run b.cache.step w w' → (w'.entry k).object = some o := by
  refine ⟨fun p ready hst => ?_, fun k hready => ?_⟩
  · have hsound := sound_run h (b.key p)
    have hfits := hsound.fits p rfl
    rw [hst] at hfits
    obtain ⟨o, ho⟩ := Option.isSome_iff_exists.mp hfits
    have hmade := hsound.object o ho
    refine ⟨o, hmade, ?_, fun w' h' => object_stays h h' ho⟩
    exact digested_inj (hfree _) (hfree _) (hdigest (hsound.made o hmade))
  · have hsound := sound_run h k
    obtain ⟨o, ho⟩ := Option.isSome_iff_exists.mp (hsound.index hready)
    exact ⟨o, hsound.object o ho, hsound.made o (hsound.object o ho), fun w' h' => object_stays h h' ho⟩

/-- Two builds with the same step. -/
def sameStep : Builds Bytes where
  inputs _ := ⟨[98], [111], [114], [101], [104], [50], [49], [51], [115], [91], [93], [0, 1]⟩
  digest := id
  redisIndex _ := true

/-- The first build stores its object at the second attempt, and the second one finds it. -/
def afterHit : Sharing.World Use Bytes Entry Stage :=
  (execute sameStep.cache.step ([.readIndex true, .lookup, .registerBuilding true, .compile (some [7, 7]), .acquire,
    .check, .copySome 1, .storeFails, .acquire, .check, .copyAll, .rename, .registerReady true].map (fun ev => (0, ev)) ++
      [(1, .readIndex true), (1, .lookup)]) initial).getD initial

theorem cached_object_sound_hit : afterHit.stage 1 = .hit true ∧
    ∃ o ∈ (afterHit.entry (sameStep.key 1)).made, sameStep.inputs o.builder = sameStep.inputs 1 ∧
      ∀ w', Run sameStep.cache.step afterHit w' → (w'.entry (sameStep.key 1)).object = some o := by
  have hrun : Run sameStep.cache.step initial afterHit :=
    execute_run_getD (fun _ _ => trivial) (by decide +kernel)
  have hst : afterHit.stage 1 = .hit true := by decide +kernel
  have hfree : ∀ p, (sameStep.inputs p).NulFree := fun _ => by
    simp [CompileInputs.NulFree, CompileInputs.items, sameStep]
  exact ⟨hst, (cached_object_sound Function.injective_id hfree hrun).1 1 true hst⟩

end KernelGym.ObjectCache
