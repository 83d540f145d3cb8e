import Watershed.Binary32.Rounding
import Watershed.Json.Scanner

/-!
# The values of JSON numbers

A number without fraction and exponent that fits in 64 bits is an integer. Every other number is a
double-precision one. Its digits are taken up into a 64-bit significand as long as they fit, further
ones only move the point, and the significand is then multiplied or divided by a power of ten in
double precision. A number beyond the double-precision range is refused.
-/

namespace Watershed.Json

/-- The value of a number. -/
inductive Number where
  /-- A natural number of 64 bits. -/
  | natural (value : Nat)
  /-- The negative of a positive number, of 64 bits with the sign. -/
  | negative (value : Nat)
  /-- A double-precision number. -/
  | real (value : Binary64)

namespace Number

/-- The power of ten with the given exponent, in double precision. -/
def powerOfTen (exponent : Nat) : Binary64 :=
  ⟨(Float.ofScientific 1 false exponent).toBits⟩

/-- The largest exponent of a power of ten in double precision. -/
def largestExponent : Nat := 308

/-- A zero of either sign. -/
def isZero (x : Binary64) : Bool :=
  x.bits &&& 0x7fffffffffffffff == 0

/-- An infinity of either sign. -/
def isInfinite (x : Binary64) : Bool :=
  x.bits &&& 0x7fffffffffffffff == 0x7ff0000000000000

/-- The number divided by a power of ten, in steps of the largest one. -/
def divideByPower (x : Binary64) (exponent : Nat) : Binary64 :=
  if exponent ≤ largestExponent then
    x / powerOfTen exponent
  else if isZero x then
    x
  else
    divideByPower (x / powerOfTen largestExponent) (exponent - largestExponent)
termination_by exponent
decreasing_by
  simp only [largestExponent] at *
  omega

/-- The number multiplied by a power of ten, if the result is in range. -/
def scale? (x : Binary64) (exponent : Int) : Option Binary64 :=
  if exponent < 0 then
    some (divideByPower x exponent.natAbs)
  else if exponent.toNat ≤ largestExponent then
    let scaled := x * powerOfTen exponent.toNat
    if isInfinite scaled then none else some scaled
  else if isZero x then
    some x
  else
    none

/-- Takes up digits as long as the significand fits in 64 bits, and gives the ones left over. -/
def takeUp : Nat → List Nat → Nat × List Nat
  | significand, [] => (significand, [])
  | significand, digit :: digits =>
      if 10 * significand + digit < UInt64.size then takeUp (10 * significand + digit) digits
      else (significand, digit :: digits)

/-- The number with the opposite sign. -/
def negate (x : Binary64) : Binary64 :=
  ⟨x.bits ^^^ 0x8000000000000000⟩

/-- The number with the sign that stands before it. -/
def signed (negative : Bool) (x : Binary64) : Binary64 :=
  if negative then negate x else x

/-- The value of an integer of 64 bits without its sign. -/
def ofInteger (isNegative : Bool) (value : Nat) : Number :=
  if !isNegative then natural value
  else if 0 < value ∧ value ≤ UInt64.size / 2 then negative value
  else real (negate (.ofNat value))

/-- The value of a number as it is written, if it is in range. -/
def ofNumeral? (numeral : Numeral) : Option Number :=
  let (significand, surplus) := takeUp 0 numeral.whole
  if surplus.isEmpty && numeral.fraction.isEmpty && numeral.exponent.isNone then
    some (ofInteger numeral.negative significand)
  else
    let (significand, lost) := takeUp significand numeral.fraction
    let exponent : Int :=
      surplus.length - (numeral.fraction.length - lost.length : Nat) + numeral.exponent.getD 0
    (scale? (.ofNat significand) exponent).map fun x => real (signed numeral.negative x)

/-- The value as a natural number of 64 bits, if it was written as one. -/
def natural? : Number → Option Nat
  | natural value => some value
  | _ => none

/-- The value as a signed number of 64 bits, if it was written as one. -/
def integer? : Number → Option Int
  | natural value => if value < UInt64.size / 2 then some value else none
  | negative value => some (-value)
  | real _ => none

/-- The nearest single-precision number; an integer is rounded once, and not by way of a double. -/
def toBinary32 : Number → Binary32
  | natural value => .ofNat value
  | negative value => (Binary32.ofNat value).setSign
  | real value => .ofBinary64 value

end Number

end Watershed.Json
