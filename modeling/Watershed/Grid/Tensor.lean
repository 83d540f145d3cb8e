import Watershed.Grid.Layout
import Watershed.Storage

/-!
# Dense tensors

A tensor is a shape together with one value per cell, in row-major order. Tensors over the edges of
a grid carry the offset channel as their leading axis, so that each channel is one contiguous block.

The size of a tensor is the product of its axes taken from the first to the last, and every partial
product has to be addressable. A `Layout` takes the product from the last axis to the first: both
reject a shape that overflows, but an axis of length zero hides different partial products from the
two. A tensor of such a shape exists, is empty, and has no layout.
-/

namespace Watershed

/-- The product of the axes from the left, as long as every partial product is addressable. -/
def volumeFrom? (total : Nat) : List Nat → Option Nat
  | [] => some total
  | extent :: rest =>
      if total * extent < addressLimit then volumeFrom? (total * extent) rest else none

/-- The number of elements of a tensor of the given shape, if it can be counted. -/
def volume? (shape : List Nat) : Option Nat :=
  volumeFrom? 1 shape

/-- A shape and one value per cell, in row-major order. -/
structure Tensor (α : Type) where
  shape : List Nat
  data : Array α
  sized : volume? shape = some data.size

namespace Tensor

variable {α β : Type}

/-- The size that is reported as expected for a shape that cannot be counted. -/
def largestSize : Nat :=
  addressLimit - 1

/-- A tensor from its elements, whose number has to be that of the shape. -/
def ofArray (shape : List Nat) (data : Array α) : Except Error (Tensor α) :=
  match counted : volume? shape with
  | none => .error (.sizeMismatch largestSize data.size)
  | some expected =>
      if same : data.size = expected then
        .ok ⟨shape, data, counted.trans (congrArg some same.symm)⟩
      else
        .error (.sizeMismatch expected data.size)

/-- The tensor whose element at each flat index is given by a function. -/
def generate (shape : List Nat) (element : Nat → α) : Except Error (Tensor α) :=
  match counted : volume? shape with
  | none => .error .capacity
  | some size => .ok ⟨shape, Array.ofFn fun index : Fin size => element index, by simp [counted]⟩

/-- The tensor that holds one value everywhere. -/
def replicate (shape : List Nat) (value : α) : Except Error (Tensor α) :=
  match counted : volume? shape with
  | none => .error .capacity
  | some size => .ok ⟨shape, Array.replicate size value, by simp [counted]⟩

/-- There can be a block for the elements of a tensor, of a number of bytes each. -/
def checkStorage (shape : List Nat) (bytes : Nat) : Except Error Unit :=
  match volume? shape with
  | none => .error .capacity
  | some size => Storage.check size bytes

/-- The tensor that holds one 64-bit number everywhere, if it can be stored. -/
def allocate (shape : List Nat) (value : Int) : Except Error (Tensor Int) := do
  checkStorage shape Storage.wordBytes
  replicate shape value

variable (tensor : Tensor α)

/-- The number of axes. -/
def rank : Nat :=
  tensor.shape.length

/-- The number of elements. -/
def size : Nat :=
  tensor.data.size

/-- There are no elements. -/
def isEmpty : Bool :=
  tensor.data.isEmpty

/-- The layout of the shape; an empty tensor can have a shape without one. -/
def layout : Except Error Layout :=
  (Layout.ofShape tensor.shape).mapError fun _ => .capacity

/-- The element at the given coordinates. -/
def get? (coordinates : Coordinates) : Except Error (Option α) := do
  let layout ← tensor.layout
  return (layout.index? coordinates).bind (tensor.data[·]?)

/-- The same shape with every element transformed. -/
def map (f : α → β) : Tensor β :=
  ⟨tensor.shape, tensor.data.map f, by simp [tensor.sized]⟩

/-- The same shape with every element transformed by a function of its flat index. -/
def mapIdx (f : Nat → α → β) : Tensor β :=
  ⟨tensor.shape, tensor.data.mapIdx f, by simp [tensor.sized]⟩

/-- The same shape with the elements in opposite order. -/
def reverse : Tensor α :=
  ⟨tensor.shape, tensor.data.reverse, by simp [tensor.sized]⟩

/-- The tensor with one element replaced, and the element that was there. -/
def set? (coordinates : Coordinates) (value : α) : Except Error (Option (α × Tensor α)) := do
  let layout ← tensor.layout
  return (layout.index? coordinates).bind fun index =>
    tensor.data[index]?.map fun old =>
      (old, ⟨tensor.shape, tensor.data.setIfInBounds index value, by simp [tensor.sized]⟩)

/-- The elements under another shape of the same size. -/
def reshape (shape : List Nat) : Except Error (Tensor α) :=
  ofArray shape tensor.data

/-- The extent of the leading axis. -/
def channelCount : Nat :=
  tensor.shape.headD 0

/-- The number of elements that belong to one position of the leading axis. -/
def channelSize : Nat :=
  match tensor.shape with
  | [] => 0
  | _ :: rest => volume rest

/-- The elements of a channel, if the tensor has one of this number. -/
def channel? (channel : Nat) : Option (Array α) :=
  let first := channel * tensor.channelSize
  let last := (channel + 1) * tensor.channelSize
  if channel < tensor.channelCount ∧ last ≤ tensor.data.size then
    some (tensor.data.extract first last)
  else
    none

/-- The tensor with one channel transformed by a function of the position in the channel. -/
def mapChannel? (channel : Nat) (f : Nat → α → α) : Option (Tensor α) :=
  let first := channel * tensor.channelSize
  let last := (channel + 1) * tensor.channelSize
  if channel < tensor.channelCount ∧ last ≤ tensor.data.size then
    some (tensor.mapIdx fun index old =>
      if first ≤ index ∧ index < last then f (index - first) old else old)
  else
    none

/-- The tensor with one channel set to a value throughout. -/
def fillChannel? (channel : Nat) (value : α) : Option (Tensor α) :=
  tensor.mapChannel? channel fun _ _ => value

end Tensor

end Watershed
