import Watershed.Text.Numeral

/-!
# Positions at the end of sentences

A sentence about a fault in a text may end with the position of the fault: the words `at line`, a
number, the word `column` and a number. Faults are reported without their positions, so a sentence
that ends like this is cut in front of the position, once.
-/

namespace Watershed.Json

/-- What precedes the 64-bit number at the end of a text. -/
def beforeNumber? (text : List Char) : Option (List Char) :=
  let digits := (text.reverse.takeWhile Char.isDigit).reverse
  (Text.natural? digits).map fun _ => text.take (text.length - digits.length)

/-- What precedes the position at the end of a text. -/
def beforePosition? (text : List Char) : Option (List Char) := do
  let rest ← beforeNumber? text
  let rest ← List.isSuffixOf? " column ".toList rest
  let rest ← beforeNumber? rest
  List.isSuffixOf? " at line ".toList rest

/-- The sentence without the position at its end. -/
def withoutPosition (sentence : String) : String :=
  ((beforePosition? sentence.toList).map String.ofList).getD sentence

end Watershed.Json
