/-!
# Single-precision numbers

A `Binary32` is the bit pattern of a number in the binary interchange format of 32 bits. Arithmetic
rounds each result to the nearest pattern, ties to even. Two NaN patterns can differ in their sign,
and the total order of patterns shows it, so the sign of a NaN result is fixed here: a NaN operand
is passed on, the first before the second, and an operation without a NaN operand that has no answer
gives the negative quiet NaN.

Two orders are in use. The comparison of numbers treats the two zeros as equal and a NaN as
different from everything. The total order `Binary32.orderKey` ranks all patterns: negative NaNs,
negative numbers, the negative zero, the positive zero, positive numbers, positive NaNs.
-/

namespace Watershed

/-- A number given by its 32-bit pattern. -/
structure Binary32 where
  bits : UInt32
  deriving DecidableEq, Inhabited

namespace Binary32

/-- The positive zero. -/
def zero : Binary32 := ⟨0x00000000⟩

/-- The number one. -/
def one : Binary32 := ⟨0x3f800000⟩

/-- The number minus one. -/
def minusOne : Binary32 := ⟨0xbf800000⟩

/-- The pattern above all finite numbers. -/
def infinity : Binary32 := ⟨0x7f800000⟩

/-- The positive NaN with its quiet bit set, as it is read from a text. -/
def quietNaN : Binary32 := ⟨0x7fc00000⟩

/-- The result of an operation that has no answer. -/
def invalid : Binary32 := ⟨0xffc00000⟩

/-- The pattern with the sign bit set. -/
def setSign (x : Binary32) : Binary32 :=
  ⟨x.bits ||| 0x80000000⟩

/-- The pattern of the same magnitude without a sign. -/
def abs (x : Binary32) : Binary32 :=
  ⟨x.bits &&& 0x7fffffff⟩

/-- The sign bit is set, that of a NaN or a zero included. -/
def isNegative (x : Binary32) : Bool :=
  0x80000000 ≤ x.bits

/-- The magnitude of a NaN lies above that of infinity. -/
def isNaN (x : Binary32) : Bool :=
  infinity.bits < x.abs.bits

/-- The pattern is neither infinite nor a NaN. -/
def isFinite (x : Binary32) : Bool :=
  x.abs.bits < infinity.bits

/-- A NaN with its quiet bit set. -/
def quieted (x : Binary32) : Binary32 :=
  ⟨x.bits ||| 0x00400000⟩

/-- The number that the runtime computes with. -/
def toFloat32 (x : Binary32) : Float32 :=
  Float32.ofBits x.bits

/-- A rounded operation on patterns, with the rule for NaN results. -/
def combine (operation : Float32 → Float32 → Float32) (x y : Binary32) : Binary32 :=
  if x.isNaN then x.quieted
  else if y.isNaN then y.quieted
  else
    let result : Binary32 := ⟨(operation x.toFloat32 y.toFloat32).toBits⟩
    if result.isNaN then invalid else result

instance : Add Binary32 := ⟨combine (· + ·)⟩

instance : Sub Binary32 := ⟨combine (· - ·)⟩

instance : Mul Binary32 := ⟨combine (· * ·)⟩

/-- Equality of numbers: a NaN equals nothing, and the two zeros are equal. -/
def sameValue (x y : Binary32) : Bool :=
  !x.isNaN && !y.isNaN && (x.bits == y.bits || (x.abs.bits == 0 && y.abs.bits == 0))

instance : BEq Binary32 := ⟨sameValue⟩

/-- The position of a pattern in the total order of all patterns. -/
def orderKey (x : Binary32) : Nat :=
  if x.isNegative then 0xffffffff - x.bits.toNat else 0x80000000 + x.bits.toNat

/-- The comparison of numbers: a NaN is neither smaller nor greater than anything. -/
def less (x y : Binary32) : Bool :=
  !x.isNaN && !y.isNaN && !sameValue x y && x.orderKey < y.orderKey

/-- The number moved into an interval; a NaN and a zero of either sign stay as they are. -/
def clamp (x low high : Binary32) : Binary32 :=
  let raised := if x.less low then low else x
  if high.less raised then high else raised

/--
The priority of a weight: its position in the total order, after a zero has been added so that the
two zeros rank alike.
-/
def priority (weight : Binary32) : Nat :=
  (weight + zero).orderKey

end Binary32

end Watershed
