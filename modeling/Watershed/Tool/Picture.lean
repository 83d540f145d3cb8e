import Watershed.Tool.Failure

/-!
# Label pictures

A picture shows a labelling of a two-dimensional grid: each label has a colour of its own, and the
label zero is black.
-/

namespace Watershed.Tool

/-- A colour by the brightness of its three channels. -/
structure Color where
  red : UInt8
  green : UInt8
  blue : UInt8
  deriving DecidableEq

namespace Color

/-- A colour channel from the low byte of a number, at least a quarter of full brightness. -/
def channel (value : UInt64) : UInt8 :=
  64 + (value &&& 0xbf).toUInt8

/-- The colour of a label, from the bytes of a multiple of the label. -/
def ofLabel (label : Nat) : Color :=
  if label = 0 then
    ⟨0, 0, 0⟩
  else
    let hash := label.toUInt64 * 0x9e3779b97f4a7c15
    ⟨channel (hash >>> 40), channel (hash >>> 24), channel (hash >>> 8)⟩

/-- The bytes of a colour in the order in which they are stored. -/
def channels (color : Color) : List UInt8 :=
  [color.red, color.green, color.blue]

end Color

/-- The colours of the positions of a grid, row by row. -/
structure Picture where
  width : Nat
  height : Nat
  pixels : Array Color

namespace Picture

/-- The picture of a labelling, which needs one label per position. -/
def ofLabels (width height : Nat) (labels : Array Nat) : Except Failure Picture :=
  if labels.size = width * height then .ok ⟨width, height, labels.map Color.ofLabel⟩
  else .error (.labelCount labels.size width height)

/-- A picture can only be saved if both sides have a length. -/
def checkSides (picture : Picture) (path : String) : Except Failure Unit :=
  if picture.width = 0 ∨ picture.height = 0 then .error (.picture path) else .ok ()

end Picture

end Watershed.Tool
