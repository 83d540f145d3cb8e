/-!
# Refusals

Every operation on grids, edges and clusterings that cannot answer says why with a value of
`Error`. The wording of each cause is fixed in one place, `Error.message`.
-/

namespace Watershed

/-- The cause for which an operation refuses its input. -/
inductive Error where
  /-- A list holds `actual` elements where its shape asks for `expected`. -/
  | sizeMismatch (expected actual : Nat)
  /-- Two tensors that belong together have different shapes. -/
  | shapeMismatch (expected actual : List Nat)
  /-- A shape, an offset or a list of strides has the wrong number of components. -/
  | rankMismatch (expected actual : Nat)
  /-- More attractive channels are asked for than there are channels. -/
  | channelSplit (attractive channels : Nat)
  /-- No clustering algorithm has this name. -/
  | unknownAlgorithm (name : String)
  /-- A stencil needs at least one offset. -/
  | noOffsets
  /-- A stride of zero selects nothing. -/
  | zeroStride
  /-- A shape, a node or an edge lies outside the addressable range. -/
  | outOfBounds
  /-- A list would need more elements, or more bytes, than can be addressed. -/
  | capacity
  /-- A random position is asked for on a side of length zero. -/
  | emptySide
  deriving DecidableEq

namespace Error

/-- The components of a shape, between brackets and separated by commas. -/
def shapeText (shape : List Nat) : String :=
  "[" ++ ", ".intercalate (shape.map toString) ++ "]"

/-- The sentence that reports a cause. -/
def message : Error → String
  | sizeMismatch expected actual => s!"size mismatch: expected {expected}, got {actual}"
  | shapeMismatch expected actual =>
      "shape mismatch: expected " ++ shapeText expected ++ ", got " ++ shapeText actual
  | rankMismatch expected actual =>
      s!"dimension mismatch: expected {expected} dimensions, got {actual}"
  | channelSplit attractive channels =>
      s!"invalid channel split: {attractive} attractive channels out of {channels}"
  | unknownAlgorithm name => "unsupported algorithm: " ++ name
  | noOffsets => "offset list is empty"
  | zeroStride => "invalid stride"
  | outOfBounds => "out of bounds"
  | capacity => "size exceeds the address range"
  | emptySide => "cannot place a point on an empty side"

end Error

end Watershed
