import Watershed.Grid.Layout

/-!
# Stencils

A stencil turns a grid into a graph: channel `c` links every cell `v` with the cell `v + offsets c`.
The first channels are attractive and speak for a common cluster, the remaining ones are repulsive
and speak against it. Weights of the links form a tensor with the channel as its leading axis.
-/

namespace Watershed

/-- Offsets of one rank, of which the first `attractive` ones attract and the others repel. -/
structure Stencil where
  offsets : List Offset
  attractive : Nat
  rank : Nat
  nonempty : offsets ≠ []
  uniform : ∀ offset ∈ offsets, offset.length = rank
  attractive_le : attractive ≤ offsets.length

namespace Stencil

/-- The first offset whose rank differs from the given one. -/
def oddOffset? (rank : Nat) (offsets : List Offset) : Option Offset :=
  offsets.find? (·.length != rank)

theorem length_eq_of_oddOffset?_eq_none {rank : Nat} {offsets : List Offset}
    (none_odd : oddOffset? rank offsets = none) :
    ∀ offset ∈ offsets, offset.length = rank := by
  intro offset member
  have := List.find?_eq_none.1 none_odd offset member
  simpa using this

/--
A stencil from its offsets: there has to be one, all have the rank of the first, and no more
attractive channels are asked for than there are offsets.
-/
def ofOffsets (offsets : List Offset) (attractive : Nat) : Except Error Stencil :=
  match offsets with
  | [] => .error .noOffsets
  | first :: others =>
      match uniform : oddOffset? first.length (first :: others) with
      | some odd => .error (.rankMismatch first.length odd.length)
      | none =>
          if attractive_le : attractive ≤ (first :: others).length then
            .ok {
              offsets := first :: others
              attractive := attractive
              rank := first.length
              nonempty := by simp
              uniform := length_eq_of_oddOffset?_eq_none uniform
              attractive_le := attractive_le }
          else
            .error (.channelSplit attractive (first :: others).length)

variable (stencil : Stencil)

/-- The number of channels, one for each offset. -/
def channelCount : Nat :=
  stencil.offsets.length

/-- The number of repulsive channels, which come behind the attractive ones. -/
def repulsive : Nat :=
  stencil.offsets.length - stencil.attractive

/-- The offset of a channel, if there is such a channel. -/
def offset? (channel : Nat) : Option Offset :=
  stencil.offsets[channel]?

/-- Whether the edges of a channel attract. -/
def isAttractive (channel : Nat) : Bool :=
  channel < stencil.attractive

/-- A grid has to have one axis per component of the offsets. -/
def checkGrid (gridShape : List Nat) : Except Error Unit :=
  if gridShape.length = stencil.rank then .ok ()
  else .error (.rankMismatch stencil.rank gridShape.length)

/-- The shape of the grid under a tensor of links, whose leading axis counts the channels. -/
def gridShape (edgeShape : List Nat) : Except Error (List Nat) :=
  match edgeShape with
  | [] => .error (.rankMismatch (stencil.rank + 1) 0)
  | channels :: grid =>
      if channels = stencil.channelCount then do
        stencil.checkGrid grid
        return grid
      else
        .error (.rankMismatch stencil.channelCount channels)

/-- The shape of a tensor of links over a grid. -/
def edgeShape (gridShape : List Nat) : List Nat :=
  stencil.channelCount :: gridShape

/-- For each channel the signed distance of linked cells, in flat indices. -/
def flatOffsets (layout : Layout) : List Int :=
  stencil.offsets.map layout.flatOffset

end Stencil

end Watershed
