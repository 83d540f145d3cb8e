import Watershed.Grid.Stencil

/-!
# Edge numbers

The edges of a grid graph are numbered channel by channel, and within a channel by the flat index of
the cell that they start from. All attractive edges come before all repulsive ones.

An edge number alone says where the edge starts and how far it reaches in flat indices. The end is
rejected only when it falls outside the whole range of cells; whether an edge crosses the border of
an axis is decided where the valid edges are marked.
-/

namespace Watershed

/-- The numbering of the edges of a grid graph. -/
structure EdgeIndex where
  nodes : Nat
  steps : Array Int
  attractiveCount : Nat
  deriving DecidableEq

namespace EdgeIndex

/-- The numbering of the edges that a stencil puts on a grid. -/
def ofGrid (stencil : Stencil) (gridShape : List Nat) : Except Error EdgeIndex := do
  stencil.checkGrid gridShape
  let layout ← Layout.ofShape gridShape
  return {
    nodes := layout.size
    steps := (stencil.flatOffsets layout).toArray
    attractiveCount := layout.size * stencil.attractive }

variable (index : EdgeIndex)

/-- The number of channels, one for each offset of the stencil. -/
def channels : Nat :=
  index.steps.size

/-- The number of edges: one for each channel and each node, whether it has two ends or not. -/
def count : Nat :=
  index.nodes * index.channels

/-- The edges of the attractive channels come first, so the number of an edge tells its kind. -/
def isRepulsive (edge : Nat) : Bool :=
  index.attractiveCount ≤ edge

/-- The number of the edge of a channel that starts from a node. -/
def number (channel node : Nat) : Nat :=
  channel * index.nodes + node

/-- The node at a signed distance from another one. -/
def neighbor? (node : Fin index.nodes) (step : Int) : Option (Fin index.nodes) :=
  if inside : 0 ≤ node.val + step ∧ node.val + step < index.nodes then
    some ⟨(node.val + step).toNat, by omega⟩
  else
    none

/-- The nodes at which an edge starts and ends. -/
def ends? (edge : Nat) : Option (Fin index.nodes × Fin index.nodes) :=
  if positive : 0 < index.nodes then
    let source : Fin index.nodes := ⟨edge % index.nodes, Nat.mod_lt _ positive⟩
    index.steps[edge / index.nodes]?.bind fun step =>
      (index.neighbor? source step).map fun target => (source, target)
  else
    none

/-- A list with one entry per edge has to have as many entries as there are edges. -/
def checkCount (actual : Nat) : Except Error Unit :=
  if actual = index.count then .ok () else .error (.sizeMismatch index.count actual)

end EdgeIndex

end Watershed
