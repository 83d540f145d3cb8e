import Watershed.Error

/-!
# Row-major layout of a grid

A shape lists the lengths of the axes of a grid. Its cells are numbered in row-major order: the
last axis varies fastest, and a grid of rank zero has one cell. A `Layout` is a shape whose cells
can be numbered with 64-bit indices.

The module relates four views of a cell and its neighbours:

* `Layout.index?` and `Layout.coordinates?` convert between coordinates and flat indices;
* `Layout.visits` walks over all cells with an odometer, without any division;
* `Layout.shift?` moves a cell by an offset, axis by axis;
* `Layout.span?` and `Layout.flatOffset` describe the same move by one interval per axis and by one
  signed distance of flat indices.
-/

namespace Watershed

/-- One natural number per axis: the position of a cell. -/
abbrev Coordinates := List Nat

/-- One signed number per axis: the way from a cell to a neighbour. -/
abbrev Offset := List Int

/-- Sizes and flat indices are 64-bit numbers, so each of them is below this bound. -/
def addressLimit : Nat := UInt64.size

/-- The number of cells of a shape. -/
def volume : List Nat → Nat
  | [] => 1
  | extent :: rest => extent * volume rest

/-- The volume of every tail of the shape can be addressed. -/
def Addressable : List Nat → Prop
  | [] => True
  | extent :: rest => extent * volume rest < addressLimit ∧ Addressable rest

instance decidableAddressable : (shape : List Nat) → Decidable (Addressable shape)
  | [] => .isTrue trivial
  | extent :: rest =>
      have := decidableAddressable rest
      inferInstanceAs (Decidable (extent * volume rest < addressLimit ∧ Addressable rest))

/-- The signed 64-bit number that agrees with an integer modulo `2 ^ 64`. -/
def wrap64 (value : Int) : Int :=
  value.bmod addressLimit

/-- The distance of neighbouring cells along each axis, in flat indices. -/
def axisStrides : List Nat → List Nat
  | [] => []
  | _ :: rest => volume rest :: axisStrides rest

/-- The flat index of coordinates, if there is one coordinate per axis and each is in range. -/
def rowMajorIndex? : List Nat → Coordinates → Option Nat
  | [], [] => some 0
  | extent :: shape, coordinate :: coordinates =>
      if coordinate < extent then
        (rowMajorIndex? shape coordinates).map (coordinate * volume shape + ·)
      else
        none
  | _, _ => none

/-- The coordinates of the cell with the given flat index. -/
def rowMajorCoordinates : List Nat → Nat → Coordinates
  | [], _ => []
  | _ :: shape, index =>
      index / volume shape :: rowMajorCoordinates shape (index % volume shape)

/-- The coordinates moved by an offset, unless they leave the grid on some axis. -/
def displace? : List Nat → Coordinates → Offset → Option Coordinates
  | [], [], [] => some []
  | extent :: shape, coordinate :: coordinates, step :: offset =>
      if 0 ≤ coordinate + step ∧ coordinate + step < extent then
        (displace? shape coordinates offset).map ((coordinate + step).toNat :: ·)
      else
        none
  | _, _, _ => none

/--
One turn of the odometer: the coordinates of the next cell, and whether every axis has wrapped
around to zero.
-/
def advance : List Nat → Coordinates → Coordinates × Bool
  | extent :: shape, coordinate :: coordinates =>
      match advance shape coordinates with
      | (rest, false) => (coordinate :: rest, false)
      | (rest, true) =>
          if coordinate + 1 < extent then ((coordinate + 1) :: rest, false) else (0 :: rest, true)
  | _, _ => ([], true)

/-- The next `count` cells of the odometer, appended to those already seen. -/
def walk (shape : List Nat) :
    (count index : Nat) → Coordinates → Array (Nat × Coordinates) → Array (Nat × Coordinates)
  | 0, _, _, seen => seen
  | count + 1, index, coordinates, seen =>
      walk shape count (index + 1) (advance shape coordinates).1 (seen.push (index, coordinates))

/-- A half-open interval of positions on one axis. -/
structure Span where
  start : Nat
  stop : Nat
  deriving DecidableEq

namespace Span

/-- The start belongs to the interval, and the stop does not. -/
def contains (span : Span) (position : Nat) : Bool :=
  span.start ≤ position && position < span.stop

/-- The positions on an axis from which a step of the given size stays on the axis. -/
def ofStep (extent : Nat) (step : Int) : Span :=
  if extent ≤ step.natAbs then ⟨0, 0⟩
  else if step < 0 then ⟨step.natAbs, extent⟩
  else ⟨0, extent - step.natAbs⟩

/-- Each coordinate lies in the interval of its axis, as far as both lists go. -/
def containAll : List Span → Coordinates → Bool
  | span :: spans, coordinate :: coordinates =>
      span.contains coordinate && containAll spans coordinates
  | _, _ => true

end Span

/-- A shape whose cells can be numbered with 64-bit indices. -/
structure Layout where
  shape : List Nat
  addressable : Addressable shape
  deriving DecidableEq

namespace Layout

/-- The layout of a shape, unless some of its sizes exceeds the address range. -/
def ofShape (shape : List Nat) : Except Error Layout :=
  if addressable : Addressable shape then .ok ⟨shape, addressable⟩ else .error .outOfBounds

variable (layout : Layout)

/-- The number of axes. -/
def rank : Nat :=
  layout.shape.length

/-- The number of cells. -/
def size : Nat :=
  volume layout.shape

/-- Some axis has no positions. -/
def isEmpty : Bool :=
  layout.size == 0

/-- The distance of neighbouring cells along each axis, in flat indices. -/
def strides : List Nat :=
  axisStrides layout.shape

/-- The flat index of coordinates, if they are those of a cell. -/
def index? (coordinates : Coordinates) : Option Nat :=
  rowMajorIndex? layout.shape coordinates

/-- The coordinates of a flat index, if it is that of a cell. -/
def coordinates? (index : Nat) : Option Coordinates :=
  if index < layout.size then some (rowMajorCoordinates layout.shape index) else none

/-- The flat index of the neighbour at an offset, if both cells are in the grid. -/
def shift? (index : Nat) (offset : Offset) : Option Nat := do
  let coordinates ← layout.coordinates? index
  let moved ← displace? layout.shape coordinates offset
  layout.index? moved

/--
The signed distance in flat indices that belongs to an offset, in 64-bit arithmetic. Components
that one of the two lists has beyond the other do not count.
-/
def flatOffset (offset : Offset) : Int :=
  (offset.zip layout.strides).foldl
    (fun total (step, stride) => wrap64 (total + wrap64 (step * wrap64 stride))) 0

/-- The positions on an axis from which a step stays in the grid. -/
def span? (axis : Nat) (step : Int) : Option Span :=
  layout.shape[axis]?.map (Span.ofStep · step)

/-- For each axis the positions from which an offset stays in the grid. -/
def spans (offset : Offset) : List Span :=
  layout.shape.zipWith Span.ofStep offset

/-- Every cell in row-major order, with its flat index and its coordinates. -/
def visits : Array (Nat × Coordinates) :=
  walk layout.shape layout.size 0 (layout.shape.map fun _ => 0) #[]

/-- A property of coordinates, evaluated at every cell in row-major order. -/
def sweep (holds : Coordinates → Bool) : Array Bool :=
  layout.visits.map fun (_, coordinates) => holds coordinates

/-- Marks the cells from which an offset stays in the grid. -/
def insideMask (offset : Offset) : Array Bool :=
  layout.sweep (Span.containAll (layout.spans offset))

end Layout

end Watershed
