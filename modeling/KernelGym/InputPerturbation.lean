import KernelGym.Library.Dicts
import KernelGym.Library.Runs

/-! Perturbed inputs: which tensors are known to come from a random factory, and what is applied to them. The capture
of the origins runs over a memory of tensors, whose object ids and storage addresses are used again after a tensor is
freed. -/

namespace KernelGym.InputPerturbation

open Library

inductive Kind
  | rand
  | randn
  deriving DecidableEq, Repr

inductive Perturbation
  | original
  | scaleUp
  | scaleDown
  | signChallenge
  deriving DecidableEq, Repr

/-! ### Tensors in memory -/

/-- The device, the address and the size in bytes. -/
abbrev StorageKey := String × ℕ × ℕ

/-- A block of memory and the bytes in it. -/
structure Storage (α : Type) where
  device : String
  address : ℕ
  cells : List α

structure DType where
  name : String
  itemsize : ℕ
  isFloatingPoint : Bool
  positive : 0 < itemsize
  deriving DecidableEq

/-- A tensor: its storage, by the number of its allocation, where its elements start in it, and the factory that
returned this very object. -/
structure Tensor where
  storage : ℕ
  dtype : DType
  offsets : List ℕ
  returned : Option Kind := none
  deriving DecidableEq

/-- `RandomInputOrigins` -/
structure RandomInputOrigins where
  byObjectId : Dict ℕ Kind := {}
  byStorage : Dict StorageKey Kind := {}

namespace RandomInputOrigins

def record (origins : RandomInputOrigins) (id : ℕ) (key : StorageKey) (kind : Kind) : RandomInputOrigins where
  byObjectId := origins.byObjectId.set id kind
  byStorage := origins.byStorage.set key kind

/-- `kind_for` -/
def kindFor (origins : RandomInputOrigins) (id : ℕ) (key : StorageKey) : Option Kind :=
  match origins.byObjectId.get id with
  | some kind => some kind
  | none => origins.byStorage.get key

end RandomInputOrigins

/-- The memory during a capture. `marks` tells the factory whose tensor was put on a storage. -/
structure Memory (α : Type) where
  storages : List (Storage α)
  objects : List (ℕ × Tensor)
  origins : RandomInputOrigins := {}
  marks : ℕ → Option Kind := fun _ => none

variable {α : Type}

def Storage.key (s : Storage α) : StorageKey := (s.device, s.address, s.cells.length)

/-- Whether two blocks could be in memory at once; empty ones have no memory. -/
def Storage.apart (s s' : Storage α) : Bool :=
  s.cells.isEmpty || s'.cells.isEmpty || (s.device, s.address) ≠ (s'.device, s'.address)

namespace Memory

/-- The storage of a live tensor. -/
def storageOf (m : Memory α) (t : Tensor) : Option (Storage α) := m.storages[t.storage]?

/-- The live tensor of an id, with its storage. -/
def find (m : Memory α) (id : ℕ) : Option (Tensor × Storage α) :=
  (m.objects.lookup id).bind fun t => (m.storageOf t).map fun s => (t, s)

/-- The elements of a tensor, each with its bytes. -/
def elements (t : Tensor) (s : Storage α) : List (List α) :=
  t.offsets.filterMap fun offset =>
    if offset + t.dtype.itemsize ≤ s.cells.length then some ((s.cells.drop offset).take t.dtype.itemsize) else none

end Memory

/-- What a run of `get_inputs` does with tensors. -/
inductive Operation (α : Type)
  | allocate (id : ℕ) (storage : Storage α) (dtype : DType) (offsets : List ℕ) (factory : Option Kind)
  | view (id source : ℕ) (dtype : DType) (offsets : List ℕ)
  | write (id : ℕ) (cells : List α)
  | resize (id : ℕ) (storage : Storage α) (offsets : List ℕ)
  | assign (id source : ℕ) (dtype : DType) (offsets : List ℕ)
  | refill (id : ℕ) (cells : List α) (kind : Kind)
  | free (id : ℕ)

namespace Memory

/-- The objects after one of them has changed. -/
def modify (m : Memory α) (id : ℕ) (change : Tensor → Tensor) : List (ℕ × Tensor) :=
  m.objects.map fun e => if e.1 = id then (e.1, change e.2) else e

/-- A new tensor on a new storage. A random factory records it. -/
def allocate (m : Memory α) (id : ℕ) (storage : Storage α) (dtype : DType) (offsets : List ℕ) (factory : Option Kind) :
    Memory α where
  storages := m.storages ++ [storage]
  objects := (id, ⟨m.storages.length, dtype, offsets, factory⟩) :: m.objects
  origins :=
    match factory with
    | some kind => m.origins.record id storage.key kind
    | none => m.origins
  marks := fun n => if n = m.storages.length then factory else m.marks n

/-- `resize_`: the storage of a tensor gets another size and, unless it fits, another address. -/
def resize (m : Memory α) (id : ℕ) (t : Tensor) (storage : Storage α) (offsets : List ℕ) : Memory α :=
  { m with
    storages := m.storages.set t.storage storage
    objects := m.modify id fun t => { t with offsets } }

/-- `set_` and the assignment of `data`: a tensor is put on the storage of another one. -/
def assign (m : Memory α) (id : ℕ) (t source : Tensor) (dtype : DType) (offsets : List ℕ) : Memory α :=
  { m with
    objects := m.modify id fun t => { t with storage := source.storage, dtype, offsets }
    marks := fun n => if n = source.storage then (m.marks n).or t.returned else m.marks n }

/-- A random factory with `out=`, which returns that tensor. -/
def refill (m : Memory α) (id : ℕ) (t : Tensor) (s : Storage α) (cells : List α) (kind : Kind) : Memory α where
  storages := m.storages.set t.storage { s with cells }
  objects := m.modify id fun t => { t with returned := some kind }
  origins := m.origins.record id s.key kind
  marks := fun n => if n = t.storage then some kind else m.marks n

section

variable {m : Memory α} {id : ℕ} {t t' : Tensor} {s : Storage α} {offsets : List ℕ}

theorem objects_resize : (m.resize id t s offsets).objects = m.modify id fun t => { t with offsets } := rfl

theorem objects_assign {dtype : DType} : (m.assign id t t' dtype offsets).objects =
    m.modify id fun t => { t with storage := t'.storage, dtype, offsets } := rfl

theorem objects_refill {cells : List α} {kind : Kind} : (m.refill id t s cells kind).objects =
    m.modify id fun t => { t with returned := some kind } := rfl

end

/-- One operation, if the memory allows it: a new object gets an id that no live object has, and a new storage an
address that no live storage has. -/
def step (m : Memory α) : Operation α → Option (Memory α)
  | .allocate id storage dtype offsets factory =>
    if ∀ e ∈ m.objects, e.1 ≠ id ∧ ∀ s ∈ m.storageOf e.2, s.apart storage = true then
      some (m.allocate id storage dtype offsets factory)
    else none
  | .view id source dtype offsets =>
    if ∀ e ∈ m.objects, e.1 ≠ id then
      (m.find source).map fun found => { m with objects := (id, ⟨found.1.storage, dtype, offsets, none⟩) :: m.objects }
    else none
  | .write id cells =>
    (m.find id).bind fun found =>
      if cells.length = found.2.cells.length then
        some { m with storages := m.storages.set found.1.storage { found.2 with cells } }
      else none
  | .resize id storage offsets =>
    (m.find id).bind fun found =>
      if ∀ e ∈ m.objects, e.2.storage ≠ found.1.storage → ∀ s ∈ m.storageOf e.2, s.apart storage = true then
        some (m.resize id found.1 storage offsets)
      else none
  | .assign id source dtype offsets =>
    (m.find id).bind fun found =>
      (m.find source).map fun other => m.assign id found.1 other.1 dtype offsets
  | .refill id cells kind =>
    (m.find id).bind fun found =>
      if cells.length = found.2.cells.length then some (m.refill id found.1 found.2 cells kind) else none
  | .free id => some { m with objects := m.objects.filter fun e => e.1 ≠ id }

end Memory

/-! ### The perturbation -/

/-- The operations of the tensor library on single elements of a type. -/
structure Arithmetic (α : Type) where
  multiply3 : DType → List α → List α
  multiply001 : DType → List α → List α
  negate : DType → List α → List α
  absolute : DType → List α → List α

inductive Transform
  | multiply3
  | multiply001
  | negate
  | absolute
  deriving DecidableEq, Repr

/-- The name in the summary. -/
def Transform.name : Transform → String
  | .multiply3 => "multiply_3"
  | .multiply001 => "multiply_0.01"
  | .negate => "negate"
  | .absolute => "absolute"

def Arithmetic.apply (a : Arithmetic α) : Transform → DType → List α → List α
  | .multiply3 => a.multiply3
  | .multiply001 => a.multiply001
  | .negate => a.negate
  | .absolute => a.absolute

/-- What `_transform_tensor` does to the clone; without one the tensor itself is returned. -/
def transformOf (kind : Kind) : Perturbation → Option Transform
  | .original => none
  | .scaleUp => some .multiply3
  | .scaleDown => some .multiply001
  | .signChallenge =>
    match kind with
    | .rand => some .negate
    | .randn => some .absolute

/-- A list, a tuple or a dictionary, or an object of a subclass of one of these. -/
inductive Container (β : Type)
  | list (subclass : Option String)
  | tuple (subclass : Option String)
  | dict (subclass : Option String) (keys : List β)
  deriving DecidableEq

/-- What `transform` builds in the place of a container: an object of the plain class. -/
def Container.rebuilt {β : Type} : Container β → Container β
  | .list _ => .list none
  | .tuple _ => .tuple none
  | .dict _ keys => .dict none keys

/-- Nested inputs: tensors and other values in containers. -/
inductive Inputs (β τ : Type)
  | tensor (t : τ)
  | node (container : Container β) (items : List (Inputs β τ))
  | other (value : β)

namespace Inputs

variable {β τ σ : Type}

mutual

/-- Other leaves in the same structure. -/
def map (f : τ → σ) : Inputs β τ → Inputs β σ
  | .tensor t => .tensor (f t)
  | .node container items => .node container (mapItems f items)
  | .other value => .other value

def mapItems (f : τ → σ) : List (Inputs β τ) → List (Inputs β σ)
  | [] => []
  | item :: rest => map f item :: mapItems f rest

end

mutual

/-- `transform`, with what it does to a tensor. -/
def transform (f : τ → σ) : Inputs β τ → Inputs β σ
  | .tensor t => .tensor (f t)
  | .node container items => .node container.rebuilt (transformItems f items)
  | .other value => .other value

def transformItems (f : τ → σ) : List (Inputs β τ) → List (Inputs β σ)
  | [] => []
  | item :: rest => transform f item :: transformItems f rest

end

mutual

/-- The tensors in the order in which they are visited. -/
def leaves : Inputs β τ → List τ
  | .tensor t => [t]
  | .node _ items => leavesItems items
  | .other _ => []

def leavesItems : List (Inputs β τ) → List τ
  | [] => []
  | item :: rest => leaves item ++ leavesItems rest

end

mutual

/-- No container is of a subclass. -/
def Plain : Inputs β τ → Prop
  | .tensor _ => True
  | .node container items => container.rebuilt = container ∧ PlainItems items
  | .other _ => True

def PlainItems : List (Inputs β τ) → Prop
  | [] => True
  | item :: rest => Plain item ∧ PlainItems rest

end

end Inputs

/-- A tensor of the result: the one that was given, or a clone with new elements. -/
inductive Leaf (α : Type)
  | same (id : ℕ)
  | clone (elements : List (List α))
  deriving DecidableEq

namespace Memory

/-- The kind of a floating-point tensor by the records. -/
def detectedKind (m : Memory α) (id : ℕ) : Option Kind :=
  (m.find id).bind fun found =>
    if found.1.dtype.isFloatingPoint then m.origins.kindFor id found.2.key else none

/-- `transform` on a tensor. -/
def transformLeaf (a : Arithmetic α) (m : Memory α) (perturbation : Perturbation) (id : ℕ) : Leaf α :=
  match m.find id, (m.detectedKind id).bind fun kind => transformOf kind perturbation with
  | some (t, s), some transform => .clone ((elements t s).map (a.apply transform t.dtype))
  | _, _ => .same id

end Memory

structure Summary where
  name : Perturbation
  detectedInputKinds : List (Kind × ℕ)
  transforms : List (Transform × ℕ)
  transformedTensorCount : ℕ
  deriving DecidableEq

/-- `apply_input_perturbation` on inputs that are given by the ids of their tensors. -/
def applyInputPerturbation {β : Type} (a : Arithmetic α) (m : Memory α) (perturbation : Perturbation) (inputs : Inputs β ℕ) :
    Inputs β (Leaf α) × Summary :=
  let detected := inputs.leaves.filterMap m.detectedKind
  let transforms := detected.filterMap fun kind => transformOf kind perturbation
  (inputs.transform (m.transformLeaf a perturbation),
    { name := perturbation
      detectedInputKinds := ([Kind.rand, Kind.randn].map fun kind => (kind, detected.count kind)).filter fun e => e.2 ≠ 0
      transforms := transforms.eraseDups.map fun transform => (transform, transforms.count transform)
      transformedTensorCount := transforms.length })

end KernelGym.InputPerturbation
