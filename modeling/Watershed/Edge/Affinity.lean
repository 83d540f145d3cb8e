import Watershed.Binary32
import Watershed.Grid.Tensor

/-!
# Affinities

Labels on the cells of a grid say which cells belong together. For each offset and each cell the
affinity compares the label of the cell with the label of its neighbour at that offset: it is one
when both labels are equal and zero otherwise. It is valid when the neighbour is in the grid and
neither of the two labels is the one to be ignored.

The neighbour of a cell is found by adding one flat distance per offset; the cells for which this
does not leave the grid are marked beforehand.
-/

namespace Watershed

/-- Affinities and their validity, with the offset as the leading axis. -/
structure Affinities where
  weights : Tensor Binary32
  valid : Tensor Bool

namespace Affinities

variable {α : Type} [BEq α]

/-- The flat index at a 64-bit signed distance from another one. -/
def target (index : Nat) (distance : Int) : Nat :=
  ((index + distance) % addressLimit).toNat

/-- A label is ignored if it equals the mark, as far as labels can be compared. -/
def isIgnored (ignored : Option α) (label : α) : Bool :=
  match ignored with
  | none => false
  | some mark => mark == label

/--
Whether the labels of a cell and of its neighbour agree, or nothing if the neighbour is missing or
one of the labels is ignored.
-/
def agreement? (labels : Array α) (ignored : Option α) (inside : Array Bool) (distance : Int)
    (index : Nat) : Option Bool :=
  if inside[index]?.getD false then
    match labels[index]?, labels[target index distance]? with
    | some here, some there =>
        if isIgnored ignored here || isIgnored ignored there then none else some (here == there)
    | _, _ => none
  else
    none

/-- The agreement of every cell with its neighbour at an offset. -/
def channel (layout : Layout) (labels : Array α) (ignored : Option α) (offset : Offset) :
    Array (Option Bool) :=
  let inside := layout.insideMask offset
  let distance := layout.flatOffset offset
  (Array.range layout.size).map (agreement? labels ignored inside distance)

/-- Agreement gives the weight one; disagreement gives zero, and so does the lack of an answer. -/
def weight : Option Bool → Binary32
  | some true => .one
  | _ => .zero

/-- The affinities of labels at every offset, which need one component per axis. -/
def ofLabels (labels : Tensor α) (offsets : List Offset) (ignored : Option α) :
    Except Error Affinities :=
  match offsets.find? (·.length != labels.rank) with
  | some odd => .error (.rankMismatch labels.rank odd.length)
  | none => do
      let layout ← labels.layout
      let channels := offsets.toArray.map (channel layout labels.data ignored)
      let agreement := fun edge =>
        (channels[edge / layout.size]?.bind (·[edge % layout.size]?)).getD none
      let agreements ← Tensor.generate (offsets.length :: labels.shape) agreement
      return ⟨agreements.map weight, agreements.map Option.isSome⟩

end Affinities

end Watershed
