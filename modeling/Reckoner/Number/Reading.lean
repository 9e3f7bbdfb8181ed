import Reckoner.Number.Binary
import Reckoner.Text.Blank
import Reckoner.Text.Digit

/-!
# Reading numbers

Two grammars. A literal inside a formula is a run of digits with at most one point. A number given
from outside may have blanks around it, a sign, single underscores between digits, a point, and an
exponent, or be the name of infinity or of the undefined value. Digits of any script count with
their value in both, and what is read is rounded to the nearest double.
-/

namespace Reckoner.Number

open Reckoner.Text

/-! ## Literals -/

/-- The number written by digits around at most one point. -/
def literal (cs : List Char) : Float :=
  let whole := cs.takeWhile (· ≠ '.')
  let fraction := (cs.dropWhile (· ≠ '.')).drop 1
  ofDecimal false (digitsValue (whole ++ fraction)) (-fraction.length)

/-! ## Numbers from outside -/

/-- Blanks allowed around a number: all but the four information separators. -/
def isNumberBlank (c : Char) : Bool := isBlank c && !(0x1c ≤ c.toNat && c.toNat ≤ 0x1f)

/-- The text without underscores, provided that each stands between two digits. -/
def withoutUnderscores (afterDigit : Bool) : List Char → Option (List Char)
  | [] => some []
  | c :: rest =>
      if c = '_' then
        if afterDigit && rest.head?.any isDigit then withoutUnderscores false rest else none
      else (withoutUnderscores (isDigit c) rest).map (c :: ·)

/-- A sign at the front, if there is one, and the rest; the flag says whether it is a minus. -/
def splitSign : List Char → Bool × List Char
  | '-' :: rest => (true, rest)
  | '+' :: rest => (false, rest)
  | cs => (false, cs)

/-- The exponent that follows the digits: nothing at all, or a letter e, an optional sign and at
least one digit. -/
def exponent? : List Char → Option Int
  | [] => some 0
  | c :: rest =>
      let (negative, ds) := splitSign rest
      if (c = 'e' ∨ c = 'E') ∧ ds ≠ [] ∧ ds.all isDigit then
        some (if negative then -(digitsValue ds : Int) else digitsValue ds)
      else none

/-- The magnitude written by digits with at most one point among or around them, and an exponent. -/
def decimal? (negative : Bool) (cs : List Char) : Option Float :=
  let whole := cs.takeWhile isDigit
  let afterWhole := cs.dropWhile isDigit
  let pointed := afterWhole.head? = some '.'
  let fraction := if pointed then (afterWhole.drop 1).takeWhile isDigit else []
  let tail := if pointed then (afterWhole.drop 1).dropWhile isDigit else afterWhole
  if whole.isEmpty && fraction.isEmpty then none
  else (exponent? tail).map fun e =>
    ofDecimal negative (digitsValue (whole ++ fraction)) (e - fraction.length)

/-- The names of the values that no digits write, in any mixture of cases. -/
def named? (negative : Bool) (cs : List Char) : Option Float :=
  let name := String.ofList (cs.map Char.toLower)
  if name = "inf" ∨ name = "infinity" then some (if negative then -infinity else infinity)
  else if name = "nan" then some undefinedValue
  else none

/-- The number that a text from outside writes, if it writes one. -/
def read? (s : String) : Option Float :=
  match withoutUnderscores false (trimmed isNumberBlank s.toList) with
  | none => none
  | some cs =>
      let (negative, magnitude) := splitSign cs
      (named? negative magnitude).or (decimal? negative magnitude)

end Reckoner.Number
