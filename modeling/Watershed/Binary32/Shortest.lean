import Watershed.Binary32

/-!
# The shortest decimal text of a number

A single-precision number is written with the fewest digits that are rounded back to it, and of
several such texts the nearest one is taken; of two equally near ones, the one that ends in an even
digit. The decimal point is placed within or beside the digits as long as the number is neither very
large nor very small; beyond that an exponent follows.
-/

namespace Watershed.Binary32

/-- A positive number `significand * 2 ^ exponent`. -/
structure Parts where
  significand : Nat
  exponent : Int

/-- The leading bit of a significand, which the pattern of a number that is not tiny leaves out. -/
def leadingBit : Nat := 0x800000

/-- The significand and the exponent of a finite pattern without its sign. -/
def parts (x : Binary32) : Parts :=
  let field := (x.abs.bits >>> 23).toNat
  let fraction := (x.bits &&& 0x7fffff).toNat
  if field = 0 then ⟨fraction, -149⟩ else ⟨fraction + leadingBit, field - 150⟩

/-- Decimal digits, read as a natural number, and the power of ten that they are multiplied with. -/
structure Decimal where
  digits : Nat
  exponent : Int

/--
The digits next to a number on the decimal grid of a power of ten, if they are rounded back to the
number. Everything is counted in quarters of the last binary place; the interval of numbers that are
rounded to this one reaches half a place upwards, and downwards too unless a smaller place begins
there, and its ends belong to it if the significand is even.
-/
def onGrid? (parts : Parts) (exponent : Int) : Option Decimal :=
  let power := Nat.pow 10 (-exponent).toNat <<< (parts.exponent - 2).toNat
  let unit := Nat.pow 10 exponent.toNat <<< (2 - parts.exponent).toNat
  let value := 4 * parts.significand * power
  let gap := if parts.significand = leadingBit ∧ -149 < parts.exponent then 1 else 2
  let low := (4 * parts.significand - gap) * power
  let high := (4 * parts.significand + 2) * power
  let inside := fun digits =>
    if parts.significand % 2 = 0 then low ≤ digits * unit && digits * unit ≤ high
    else low < digits * unit && digits * unit < high
  let below := value / unit
  let above := below + 1
  match 0 < below && inside below, inside above with
  | true, false => some ⟨below, exponent⟩
  | false, true => some ⟨above, exponent⟩
  | true, true =>
      let down := value - below * unit
      let up := above * unit - value
      if down < up ∨ down = up ∧ below % 2 = 0 then some ⟨below, exponent⟩
      else some ⟨above, exponent⟩
  | false, false => none

/-- The shortest digits of a positive finite number: those of the coarsest grid that has some. -/
def shortest (x : Binary32) : Decimal :=
  ((List.range 86).findSome? fun (step : Nat) => onGrid? x.parts (39 - (step : Int))).getD ⟨0, 0⟩

/-- Digits in the form in which documents show them. -/
def layOut (decimal : Decimal) : List Char :=
  let digits := Nat.toDigits 10 decimal.digits
  let point : Int := digits.length + decimal.exponent
  let zeros := fun (count : Int) => List.replicate count.toNat '0'
  if 0 ≤ decimal.exponent ∧ point ≤ 13 then
    digits ++ zeros decimal.exponent ++ ".0".toList
  else if 0 < point ∧ point ≤ 13 then
    digits.take point.toNat ++ '.' :: digits.drop point.toNat
  else if -6 < point ∧ point ≤ 0 then
    "0.".toList ++ zeros (-point) ++ digits
  else
    let fraction := if digits.length = 1 then [] else '.' :: digits.drop 1
    digits.take 1 ++ fraction ++ 'e' :: (toString (point - 1)).toList

/-- The decimal text of a finite number. -/
def text (x : Binary32) : String :=
  let sign := if x.isNegative then ['-'] else []
  String.ofList (sign ++ if x.abs = zero then "0.0".toList else layOut x.shortest)

end Watershed.Binary32
