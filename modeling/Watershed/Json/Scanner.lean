/-!
# The words of JSON texts

Blanks, quoted texts and numbers of the JSON grammar. A scanner takes a word from the front of the
remaining characters. Quoted texts come in two kinds: those whose value is wanted, where paired
surrogates make one character and lone ones are refused, and those that are passed over, where only
the form of each escape is checked.
-/

namespace Watershed.Json

/-- Why a text is not the description that was asked for. -/
inductive Fault where
  /-- The text is not JSON, or it does not have the form that was asked for. -/
  | malformed
  /-- The text has the right form, but a value in it was refused, as a sentence tells. -/
  | refused (sentence : String)
  deriving DecidableEq

/-- Takes a value from the front of the remaining characters. -/
abbrev Reader := StateT (List Char) (Except Fault)

/-- The characters that may stand between the parts of a text. -/
def isBlank (c : Char) : Bool :=
  c = ' ' || c = '\n' || c = '\t' || c = '\r'

/-- The value of a hexadecimal digit, in upper or lower case. -/
def hexDigit? (c : Char) : Option Nat :=
  if '0' ≤ c && c ≤ '9' then some (c.toNat - '0'.toNat)
  else if 'a' ≤ c && c ≤ 'f' then some (c.toNat - 'a'.toNat + 10)
  else if 'A' ≤ c && c ≤ 'F' then some (c.toNat - 'A'.toNat + 10)
  else none

/-- The 16-bit unit that four hexadecimal digits denote. -/
def codeUnit? (a b c d : Char) : Option Nat := do
  return ((← hexDigit? a) * 16 + (← hexDigit? b)) * 256 + (← hexDigit? c) * 16 + (← hexDigit? d)

/-- The character of an escape other than `\u`. -/
def escaped? : Char → Option Char
  | '"' => some '"'
  | '\\' => some '\\'
  | '/' => some '/'
  | 'b' => some '\x08'
  | 'f' => some '\x0c'
  | 'n' => some '\n'
  | 'r' => some '\r'
  | 't' => some '\t'
  | _ => none

/--
The next 16-bit unit after an optional high surrogate: it completes a character, or it is a high
surrogate that waits for its partner. A surrogate in any other place is refused.
-/
def pairUnit? (high : Option Nat) (unit : Nat) : Option (Option Nat × Option Char) :=
  match high with
  | none =>
      if 0xd800 ≤ unit ∧ unit ≤ 0xdbff then some (some unit, none)
      else if 0xdc00 ≤ unit ∧ unit ≤ 0xdfff then none
      else some (none, some (Char.ofNat unit))
  | some high =>
      if 0xdc00 ≤ unit ∧ unit ≤ 0xdfff then
        some (none, some (Char.ofNat (0x10000 + (high - 0xd800) * 0x400 + (unit - 0xdc00))))
      else
        none

/-- The rest of a quoted text after its opening quote, behind the characters read so far. -/
def quotedRest (read : List Char) (high : Option Nat) :
    List Char → Except Fault (String × List Char)
  | '\\' :: 'u' :: a :: b :: c :: d :: rest =>
      match (codeUnit? a b c d).bind (pairUnit? high) with
      | none => .error .malformed
      | some (high, none) => quotedRest read high rest
      | some (high, some c) => quotedRest (c :: read) high rest
  | '"' :: rest =>
      if high.isSome then .error .malformed else .ok (String.ofList read.reverse, rest)
  | '\\' :: c :: rest =>
      match high, escaped? c with
      | none, some c => quotedRest (c :: read) none rest
      | _, _ => .error .malformed
  | c :: rest =>
      if high.isSome || c.toNat < 0x20 || c = '\\' then .error .malformed
      else quotedRest (c :: read) none rest
  | [] => .error .malformed

/-- What follows a quoted text whose opening quote has been taken. -/
def skipQuotedRest : List Char → Except Fault (List Char)
  | '\\' :: 'u' :: a :: b :: c :: d :: rest =>
      if (codeUnit? a b c d).isSome then skipQuotedRest rest else .error .malformed
  | '"' :: rest => .ok rest
  | '\\' :: c :: rest =>
      if (escaped? c).isSome then skipQuotedRest rest else .error .malformed
  | c :: rest => if c.toNat < 0x20 || c = '\\' then .error .malformed else skipQuotedRest rest
  | [] => .error .malformed

/-- A number as it is written. -/
structure Numeral where
  negative : Bool
  whole : List Nat
  fraction : List Nat
  exponent : Option Int

/-- The digits at the front of a text. -/
def spanDigits (text : List Char) : List Nat × List Char :=
  let (digits, rest) := text.span Char.isDigit
  (digits.map fun digit => digit.toNat - '0'.toNat, rest)

/-- A fraction, if the text goes on with a point; there has to be a digit behind the point. -/
def scanFraction (text : List Char) : Except Fault (List Nat × List Char) :=
  match text with
  | '.' :: rest =>
      match spanDigits rest with
      | ([], _) => .error .malformed
      | (digits, rest) => .ok (digits, rest)
  | _ => .ok ([], text)

/-- A sign of an exponent, and what follows. -/
def exponentSign : List Char → Bool × List Char
  | '-' :: rest => (true, rest)
  | '+' :: rest => (false, rest)
  | text => (false, text)

/-- An exponent, if the text goes on with its mark; there has to be a digit in it. -/
def scanExponent (text : List Char) : Except Fault (Option Int × List Char) :=
  match text with
  | mark :: rest =>
      if mark = 'e' || mark = 'E' then
        let (negative, rest) := exponentSign rest
        match spanDigits rest with
        | ([], _) => .error .malformed
        | (digits, rest) =>
            let value : Int := (digits.foldl (fun value digit => 10 * value + digit) 0 : Nat)
            .ok (some (if negative then -value else value), rest)
      else
        .ok (none, text)
  | [] => .ok (none, text)

/-- A number of the grammar: no leading zeros, and no sign but a minus. -/
def scanNumeral (text : List Char) : Except Fault (Numeral × List Char) := do
  let (negative, text) := match text with
    | '-' :: rest => (true, rest)
    | _ => (false, text)
  let (whole, text) := spanDigits text
  if whole.isEmpty || (whole.head? == some 0 && whole.length != 1) then
    .error .malformed
  else
    let (fraction, text) ← scanFraction text
    let (exponent, text) ← scanExponent text
    return (⟨negative, whole, fraction, exponent⟩, text)

end Watershed.Json
