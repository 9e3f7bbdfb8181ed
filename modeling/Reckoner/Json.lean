import Reckoner.Number.Text
import Reckoner.Text.Hex

/-!
# JSON on several lines

A value is written with one field or item a line, two spaces deeper than the braces or brackets
around it; an object or list without content is written as a pair of them. Strings are written in
printable ASCII: other characters appear as UTF-16 units in four hexadecimal digits each.
-/

namespace Reckoner

inductive Json
  | number (value : Float)
  | string (text : String)
  | list (items : List Json)
  | object (fields : List (String × Json))

namespace Json

/-! ## Strings and numbers -/

/-- One UTF-16 unit by its number. -/
def unitEscape (n : Nat) : List Char := '\\' :: 'u' :: Text.hex 4 n

/-- One character as it stands in a string. Above U+FFFF it is a pair of units: the first holds the
upper ten bits of the distance from U+10000, the second the lower ten. -/
def escaped (c : Char) : List Char :=
  match c with
  | '"' => ['\\', '"']
  | '\\' => ['\\', '\\']
  | '\n' => ['\\', 'n']
  | '\r' => ['\\', 'r']
  | '\t' => ['\\', 't']
  | '\x0c' => ['\\', 'f']
  | '\x08' => ['\\', 'b']
  | c =>
      let n := c.toNat
      if 0x20 ≤ n ∧ n ≤ 0x7e then [c]
      else if n < 0x10000 then unitEscape n
      else
        unitEscape (0xd800 + (n - 0x10000) / 0x400) ++
          unitEscape (0xdc00 + (n - 0x10000) % 0x400)

def stringText (s : String) : List Char := '"' :: s.toList.flatMap escaped ++ ['"']

/-- A number, with the names that JSON readers know for the values no digits write. -/
def numberText (x : Float) : List Char :=
  if x.isNaN then "NaN".toList
  else if Number.pattern x = Number.infinityPattern then
    if Number.isNegative x then "-Infinity".toList else "Infinity".toList
  else (Number.text x).toList

/-! ## Layout -/

/-- A line end, and the spaces that begin the next line at a depth. -/
def lineBreak (depth : Nat) : List Char := '\n' :: List.replicate (2 * depth) ' '

mutual

/-- A value whose first line begins at the given depth. -/
def layout (depth : Nat) : Json → List Char
  | number x => numberText x
  | string s => stringText s
  | list [] => ['[', ']']
  | list (item :: more) =>
      '[' :: lineBreak (depth + 1) ++ layout (depth + 1) item ++ layoutItems (depth + 1) more ++
        lineBreak depth ++ [']']
  | object [] => ['\x7b', '\x7d']
  | object ((name, value) :: more) =>
      '\x7b' :: lineBreak (depth + 1) ++ stringText name ++ ':' :: ' ' ::
        layout (depth + 1) value ++ layoutFields (depth + 1) more ++ lineBreak depth ++ ['\x7d']

/-- The items after the first, each after a comma and on a line of its own. -/
def layoutItems (depth : Nat) : List Json → List Char
  | [] => []
  | item :: more => ',' :: lineBreak depth ++ layout depth item ++ layoutItems depth more

/-- The fields after the first, each after a comma and on a line of its own. -/
def layoutFields (depth : Nat) : List (String × Json) → List Char
  | [] => []
  | (name, value) :: more =>
      ',' :: lineBreak depth ++ stringText name ++ ':' :: ' ' :: layout depth value ++
        layoutFields depth more

end

/-- A value as text, without a line end after it. -/
def render (j : Json) : String := String.ofList (layout 0 j)

end Json

end Reckoner
