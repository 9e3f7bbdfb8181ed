import Reckoner.Number.Shortest

/-!
# The text of a number

A number is written with the fewest digits that read back. From 10 ^ -4 up to below 10 ^ 16 it is
written out with a point and at least one digit on both sides of it; otherwise one digit stands
before the point, and a signed exponent of at least two digits follows.
-/

namespace Reckoner.Number

/-- The digits of `n` with zeros in front, at least `width` of them. -/
def paddedDigits (width n : Nat) : List Char :=
  let ds := Nat.toDigits 10 n
  List.replicate (width - ds.length) '0' ++ ds

/-- Digits whose first has the place value 10 ^ `place`, with `place` not negative, written out. -/
def writtenOut (ds : List Char) (place : Nat) : List Char :=
  let whole := ds.take (place + 1)
  let fraction := ds.drop (place + 1)
  whole ++ List.replicate (place + 1 - whole.length) '0' ++ '.' ::
    (if fraction.isEmpty then ['0'] else fraction)

/-- The exponent part: its sign is always written, and it has at least two digits. -/
def exponentPart (place : Int) : List Char :=
  'e' :: (if place < 0 then '-' else '+') :: paddedDigits 2 place.natAbs

/-- Digits whose first has the place value 10 ^ `place`, with one digit before the point. -/
def scientific (ds : List Char) (place : Int) : List Char :=
  match ds with
  | [] => exponentPart place
  | [d] => d :: exponentPart place
  | d :: more => d :: '.' :: more ++ exponentPart place

/-- A positive decimal: written out if its first digit stands between 10 ^ -4 and 10 ^ 15. -/
def Decimal.text (x : Decimal) : List Char :=
  let ds := Nat.toDigits 10 x.digits
  let place : Int := ds.length - 1 + x.exponent
  if 16 ≤ place ∨ place < -4 then scientific ds place
  else if 0 ≤ place then writtenOut ds place.toNat
  else '0' :: '.' :: List.replicate ((-place).toNat - 1) '0' ++ ds

/-- The text of the magnitude with pattern `b`. -/
def magnitudeText (b : Nat) : List Char :=
  if b = 0 then ['0', '.', '0']
  else if b = infinityPattern then ['i', 'n', 'f']
  else (shortest b).text

/-- The text of a double. The minus sign of the negative zero is kept; an undefined value has no
sign. -/
def text (x : Float) : String :=
  if x.isNaN then "nan"
  else String.ofList ((if isNegative x then ['-'] else []) ++ magnitudeText (pattern x))

end Reckoner.Number
