import Watershed.Binary32
import Watershed.Binary64

/-!
# Rounding to single precision

A quotient of natural numbers is rounded to the nearest single-precision number, and to the one with
an even last bit when two are equally near. Numbers of other formats are quotients of this kind:
natural numbers, double-precision numbers, and decimal numbers.
-/

namespace Watershed.Binary32

/-- The natural number nearest to a quotient; a tie goes to the even one. -/
def roundQuotient (numerator denominator : Nat) : Nat :=
  let quotient := numerator / denominator
  let rest := numerator % denominator
  if 2 * rest < denominator then quotient
  else if denominator < 2 * rest then quotient + 1
  else if quotient % 2 = 0 then quotient
  else quotient + 1

/-- A quotient divided by a power of two, as a pair of numerator and denominator. -/
def shiftQuotient (numerator denominator : Nat) (exponent : Int) : Nat × Nat :=
  if 0 ≤ exponent then (numerator, denominator <<< exponent.toNat)
  else (numerator <<< exponent.natAbs, denominator)

/--
The exponent of the last bit of a positive quotient: with it the quotient has 24 bits before the
point, unless that is below the least exponent of the format.
-/
def unitExponent (numerator denominator : Nat) : Int :=
  let estimate : Int := (numerator.log2 : Int) - denominator.log2 - 24
  let (scaled, unit) := shiftQuotient numerator denominator estimate
  max (-149) (if scaled < unit <<< 24 then estimate else estimate + 1)

/-- The number nearest to a quotient of natural numbers. -/
def nearest (numerator denominator : Nat) : Binary32 :=
  if numerator = 0 then
    zero
  else
    let exponent := unitExponent numerator denominator
    let (scaled, unit) := shiftQuotient numerator denominator exponent
    let pattern := ((exponent + 149).toNat <<< 23) + roundQuotient scaled unit
    if pattern < infinity.bits.toNat then ⟨pattern.toUInt32⟩ else infinity

/-- The number nearest to a natural number. -/
def ofNat (n : Nat) : Binary32 :=
  nearest n 1

/-- The number with the sign bit set on request. -/
def withSign (negative : Bool) (x : Binary32) : Binary32 :=
  if negative then x.setSign else x

/-- The number nearest to a double-precision number. -/
def ofBinary64 (x : Binary64) : Binary32 :=
  let negative := 0x8000000000000000 ≤ x.bits
  let field := ((x.bits >>> 52) &&& 0x7ff).toNat
  let fraction := (x.bits &&& 0xfffffffffffff).toNat
  withSign negative <|
    if field = 0x7ff then
      if fraction = 0 then infinity else quietNaN
    else
      let significand := if field = 0 then fraction else fraction + (1 <<< 52)
      if field < 1075 then nearest significand (1 <<< (1075 - max field 1))
      else nearest (significand <<< (field - 1075)) 1

/--
The number nearest to `digits * 10 ^ exponent`, where `digits` has at most `count` digits. Far
beyond the range of the format the answer is infinity or zero.
-/
def ofDecimal (digits count : Nat) (exponent : Int) : Binary32 :=
  if digits = 0 then zero
  else if 60 < exponent then infinity
  else if exponent + count < -60 then zero
  else if 0 ≤ exponent then nearest (digits * Nat.pow 10 exponent.toNat) 1
  else nearest digits (Nat.pow 10 exponent.natAbs)

end Watershed.Binary32
