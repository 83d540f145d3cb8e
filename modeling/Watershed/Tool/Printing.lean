import Watershed.Binary32.Shortest
import Watershed.Tool.Document

/-!
# Documents as JSON texts

A document is printed as JSON with two blanks of indentation per level. A number that is not finite
is printed as `null`.
-/

namespace Watershed.Tool.Document

/-- The last hexadecimal digit of a number. -/
def hexDigit (value : Nat) : Char :=
  Nat.digitChar (value % 16)

/-- A character inside of a quoted text. -/
def quotedChar (c : Char) : List Char :=
  match c with
  | '"' => ['\\', '"']
  | '\\' => ['\\', '\\']
  | '\x08' => ['\\', 'b']
  | '\x0c' => ['\\', 'f']
  | '\n' => ['\\', 'n']
  | '\r' => ['\\', 'r']
  | '\t' => ['\\', 't']
  | c =>
      if c.toNat < 0x20 then
        ['\\', 'u', '0', '0', hexDigit (c.toNat / 16), hexDigit c.toNat]
      else
        [c]

/-- A text between quotes. -/
def quoted (value : String) : String :=
  "\"" ++ String.ofList (value.toList.flatMap quotedChar) ++ "\""

/-- The start of a line at a level of nesting. -/
def newLine (level : Nat) : String :=
  "\n" ++ String.ofList (List.replicate (2 * level) ' ')

/-- Parts of a list or a record between brackets, each on a line of its own. -/
def bracketed (opening closing : String) (level : Nat) (parts : List String) : String :=
  match parts with
  | [] => opening ++ closing
  | parts =>
      opening ++ newLine (level + 1) ++ ("," ++ newLine (level + 1)).intercalate parts ++
        newLine level ++ closing

mutual

/-- The text of a document whose first line is at a level of nesting. -/
def print (level : Nat) : Document → String
  | null => "null"
  | boolean value => if value then "true" else "false"
  | integer value => toString value
  | single value => if value.isFinite then value.text else "null"
  | text value => quoted value
  | list items => bracketed "[" "]" level (printItems (level + 1) items)
  | record fields => bracketed "\x7b" "\x7d" level (printFields (level + 1) fields)

/-- The texts of the items of a list. -/
def printItems (level : Nat) : List Document → List String
  | [] => []
  | item :: items => print level item :: printItems level items

/-- The texts of the fields of a record, each behind its name. -/
def printFields (level : Nat) : List (String × Document) → List String
  | [] => []
  | (name, value) :: fields =>
      (quoted name ++ ": " ++ print level value) :: printFields level fields

end

end Watershed.Tool.Document
