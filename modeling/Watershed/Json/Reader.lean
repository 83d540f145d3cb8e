import Watershed.Json.Number
import Watershed.Json.Position

/-!
# Reading JSON descriptions

Readers for values of a known form. They go through the text once and stop at the first fault in
text order. A record is written as an object or as an array of its fields in their order. In an
object, unknown fields are passed over and a repeated field is a fault; in an array, fields at the
end may be missing.
-/

namespace Watershed.Json

/-- Stops with a fault in the form of the text. -/
def malformed {α : Type} : Reader α :=
  throw .malformed

/-- Stops because a value is refused, as a sentence tells; a position at its end is left out. -/
def refuse {α : Type} (sentence : String) : Reader α :=
  throw (.refused (withoutPosition sentence))

/-- Skips blanks and looks at the next character. -/
def peek : Reader (Option Char) := fun text =>
  let rest := text.dropWhile isBlank
  .ok (rest.head?, rest)

/-- Skips blanks and takes the next character. -/
def next : Reader (Option Char) := fun text =>
  let rest := text.dropWhile isBlank
  .ok (rest.head?, rest.tail)

/-- Skips blanks and takes a given character. -/
def expect (wanted : Char) : Reader Unit := do
  if (← next) = some wanted then return () else malformed

/-- Skips blanks and takes a given word. -/
def word (wanted : String) : Reader Unit := do
  let _ ← peek
  let text ← get
  if wanted.toList.isPrefixOf text then set (text.drop wanted.length) else malformed

/-- Takes a quoted text. -/
def text : Reader String := do
  expect '"'
  let (value, rest) ← quotedRest [] none (← get)
  set rest
  return value

/-- Passes over a quoted text, whose escapes need not denote characters. -/
def skipText : Reader Unit := do
  expect '"'
  set (← skipQuotedRest (← get))

/-- Takes a number as it is written. -/
def numeral : Reader Numeral := do
  let _ ← peek
  let (value, rest) ← scanNumeral (← get)
  set rest
  return value

/-- A value that has to be there. -/
def present {α : Type} : Option α → Reader α
  | some value => return value
  | none => malformed

/-- Takes a number that is in range. -/
def number : Reader Number := do
  present (Number.ofNumeral? (← numeral))

/-- Takes a natural number of 64 bits. -/
def natural : Reader Nat := do
  present (← number).natural?

/-- Takes a signed number of 64 bits. -/
def integer : Reader Int := do
  present (← number).integer?

/-- Takes a number and rounds it to single precision. -/
def single : Reader Binary32 :=
  return (← number).toBinary32

/-- Takes one of the two truth values. -/
def boolean : Reader Bool := do
  match ← peek with
  | some 't' => word "true"; return true
  | some 'f' => word "false"; return false
  | _ => malformed

/-- Takes a value, or nothing where `null` stands in its place. -/
def nullable {α : Type} (value : Reader α) : Reader (Option α) := do
  match ← peek with
  | some 'n' => word "null"; return none
  | _ => return some (← value)

/-- The elements of a list from the next one on, behind those found so far. -/
def elements {α : Type} (element : Reader α) : Nat → Array α → Reader (Array α)
  | 0, _ => malformed
  | bound + 1, found => do
      let found := found.push (← element)
      match ← next with
      | some ',' => elements element bound found
      | some ']' => return found
      | _ => malformed

/-- A list of values; it cannot have more elements than the text has characters. -/
def list {α : Type} (element : Reader α) : Reader (Array α) := do
  expect '['
  match ← peek with
  | some ']' => expect ']'; return #[]
  | _ => elements element (← get).length #[]

/-- What a value that is passed over is nested in. -/
inductive Frame where
  | list
  | record
  deriving DecidableEq

/-- Passes over the name of a field and the colon behind it. -/
def skipName : Reader Unit := do
  skipText
  expect ':'

/-- Passes over a word, a number or a text; a bracket is left to the caller. -/
def skipScalar (first : Char) : Reader Unit := do
  match first with
  | 'n' => word "null"
  | 't' => word "true"
  | 'f' => word "false"
  | '"' => skipText
  | _ => let _ ← numeral

mutual

/-- Passes over a value and all that it is nested in. -/
def skipValue : Nat → List Frame → Reader Unit
  | 0, _ => malformed
  | bound + 1, frames => do
      match ← peek with
      | some '[' =>
          expect '['
          if (← peek) = some ']' then
            expect ']'
            skipRest bound frames
          else
            skipValue bound (.list :: frames)
      | some '{' =>
          expect '{'
          if (← peek) = some '}' then
            expect '}'
            skipRest bound frames
          else
            skipName
            skipValue bound (.record :: frames)
      | some first =>
          skipScalar first
          skipRest bound frames
      | none => malformed

/-- Passes over what follows a value in the lists and records that it is nested in. -/
def skipRest : Nat → List Frame → Reader Unit
  | _, [] => return ()
  | 0, _ => malformed
  | bound + 1, frame :: frames => do
      match frame, ← next with
      | .list, some ',' => skipValue bound (.list :: frames)
      | .list, some ']' => skipRest bound frames
      | .record, some ',' =>
          skipName
          skipValue bound (.record :: frames)
      | .record, some '}' => skipRest bound frames
      | _, _ => malformed

end

/-- Passes over any value; it cannot have more parts than the text has characters. -/
def skip : Reader Unit := do
  skipValue ((← get).length + 1) []

/-- A field of a record: its name, and the reader that stores its value. -/
structure Field (σ : Type) where
  name : String
  store : σ → Reader σ

/-- The members of an object from the next one on. -/
def members {σ : Type} (fields : List (Field σ)) : Nat → List String → σ → Reader σ
  | 0, _, _ => malformed
  | bound + 1, seen, state => do
      let name ← text
      let (seen, state) ← match fields.find? (·.name == name) with
        | none =>
            expect ':'
            skip
            pure (seen, state)
        | some field =>
            if seen.contains name then malformed
            else
              expect ':'
              pure (name :: seen, ← field.store state)
      match ← next with
      | some ',' => members fields bound seen state
      | some '}' => return state
      | _ => malformed

/-- The fields of a record in their order, up to the closing bracket. -/
def positions {σ : Type} : List (Field σ) → Bool → σ → Reader σ
  | [], _, state => do
      expect ']'
      return state
  | field :: fields, isFirst, state => do
      if (← peek) = some ']' then
        expect ']'
        return state
      else
        if !isFirst then
          expect ','
        positions fields false (← field.store state)

/-- A record, as an object or as an array. -/
def record {σ : Type} (fields : List (Field σ)) (start : σ) : Reader σ := do
  match ← peek with
  | some '{' =>
      expect '{'
      if (← peek) = some '}' then
        expect '}'
        return start
      else
        members fields (← get).length [] start
  | some '[' =>
      expect '['
      positions fields true start
  | _ => malformed

/-- The value that a whole text describes; nothing but blanks may follow it. -/
def read {α : Type} (value : Reader α) (text : String) : Except Fault α :=
  match value text.toList with
  | .error fault => .error fault
  | .ok (result, rest) => if rest.all isBlank then .ok result else .error .malformed

end Watershed.Json
