/-!
# Double-precision numbers

A `Binary64` is the bit pattern of a number in the binary interchange format of 64 bits. Arithmetic
rounds to the nearest pattern, ties to even. A NaN operand is passed on, the first before the
second, and an operation without a NaN operand that has no answer gives the negative quiet NaN.
-/

namespace Watershed

/-- A number given by its 64-bit pattern. -/
structure Binary64 where
  bits : UInt64
  deriving DecidableEq, Inhabited

namespace Binary64

/-- The number one. -/
def one : Binary64 := ⟨0x3ff0000000000000⟩

/-- The result of an operation that has no answer. -/
def invalid : Binary64 := ⟨0xfff8000000000000⟩

/-- The magnitude of a NaN lies above that of infinity. -/
def isNaN (x : Binary64) : Bool :=
  0x7ff0000000000000 < x.bits &&& 0x7fffffffffffffff

/-- A NaN with its quiet bit set. -/
def quieted (x : Binary64) : Binary64 :=
  ⟨x.bits ||| 0x0008000000000000⟩

/-- The number that the runtime computes with. -/
def toFloat (x : Binary64) : Float :=
  Float.ofBits x.bits

/-- The number nearest to a natural number of 64 bits. -/
def ofNat (n : Nat) : Binary64 :=
  ⟨n.toUInt64.toFloat.toBits⟩

/-- A rounded operation on patterns, with the rule for NaN results. -/
def combine (operation : Float → Float → Float) (x y : Binary64) : Binary64 :=
  if x.isNaN then x.quieted
  else if y.isNaN then y.quieted
  else
    let result : Binary64 := ⟨(operation x.toFloat y.toFloat).toBits⟩
    if result.isNaN then invalid else result

instance : Mul Binary64 := ⟨combine (· * ·)⟩

instance : Div Binary64 := ⟨combine (· / ·)⟩

end Binary64

end Watershed
