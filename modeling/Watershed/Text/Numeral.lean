import Watershed.Binary32.Rounding

/-!
# Numerals on a command line

Natural numbers are written with decimal digits and an optional plus sign. Single-precision numbers
are written in decimal, with an optional sign, point and exponent, or as `inf`, `infinity` or `nan`
in upper or lower case; they are rounded to the nearest number.
-/

namespace Watershed.Text

/-- The number that decimal digits denote. -/
def digitsValue (digits : List Char) : Nat :=
  digits.foldl (fun value digit => 10 * value + (digit.toNat - '0'.toNat)) 0

/-- The text consists of decimal digits, of which there is at least one. -/
def isDigits (text : List Char) : Bool :=
  !text.isEmpty && text.all Char.isDigit

/-- The natural number of 64 bits that a text denotes. -/
def natural? (text : List Char) : Option Nat :=
  let digits := match text with
    | '+' :: rest => rest
    | _ => text
  if isDigits digits && digitsValue digits < UInt64.size then some (digitsValue digits) else none

/-- A sign at the start of a text, and what follows. -/
def splitSign : List Char → Bool × List Char
  | '-' :: rest => (true, rest)
  | '+' :: rest => (false, rest)
  | text => (false, text)

/-- The exponent that ends a number: nothing, or a mark, an optional sign and digits. -/
def exponent? : List Char → Option Int
  | [] => some 0
  | mark :: rest =>
      let (negative, digits) := splitSign rest
      if (mark = 'e' || mark = 'E') && isDigits digits then
        some (if negative then -(digitsValue digits : Int) else digitsValue digits)
      else
        none

/-- The number that digits, a point and an exponent denote, without a sign. -/
def magnitude? (text : List Char) : Option Binary32 := do
  let (whole, rest) := text.span Char.isDigit
  let (fraction, rest) := match rest with
    | '.' :: rest => rest.span Char.isDigit
    | _ => ([], rest)
  let exponent ← exponent? rest
  let digits := whole ++ fraction
  if digits.isEmpty then none
  else some (.ofDecimal (digitsValue digits) digits.length (exponent - fraction.length))

/-- The single-precision number that a text denotes. -/
def single? (text : List Char) : Option Binary32 :=
  let (negative, rest) := splitSign text
  let lower := rest.map Char.toLower
  if lower = "inf".toList || lower = "infinity".toList then
    some (.withSign negative .infinity)
  else if lower = "nan".toList then
    some (.withSign negative .quietNaN)
  else
    (magnitude? rest).map (.withSign negative)

end Watershed.Text
