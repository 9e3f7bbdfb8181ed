import Reckoner.Number.Binary

/-!
# The shortest decimal that reads back

Every real number between the middles of the gaps on both sides of a double rounds to that double;
the middles themselves do if its pattern is even. Among the decimals in that interval the one with
the fewest digits is a point of the coarsest decimal grid that meets the interval, and of two such
points the one nearer to the double.

Grids are counted from 10 ^ -324 up: grid `g` holds the multiples of 10 ^ (g - 324). Grid 0 is finer
than the gaps between doubles, so the search from coarse to fine always ends with a point.
-/

namespace Reckoner.Number

/-- A decimal number, `digits * 10 ^ exponent`. -/
structure Decimal where
  digits : Nat
  exponent : Int
deriving DecidableEq, Repr

/-- Whether the point `c` of grid `g` rounds to the magnitude with pattern `b`. Both sides are
counted in halves of 2 ^ -1074 and 10 ^ -324. -/
def roundsTo (b g c : Nat) : Bool :=
  let low := (units (b - 1) + units b) * Nat.pow 10 324
  let point := 2 * (c * Nat.pow 10 g * Nat.pow 2 1074)
  let high := (units b + units (b + 1)) * Nat.pow 10 324
  if b % 2 = 0 then low ≤ point && point ≤ high else low < point && point < high

/-- The point of grid `g` that rounds to the magnitude with pattern `b`: only the two neighbours of
the magnitude on the grid can. If both do, the nearer is taken, and the even one if they are equally
near. -/
def gridPoint? (b g : Nat) : Option Nat :=
  let value := units b * Nat.pow 10 324
  let step := Nat.pow 10 g * Nat.pow 2 1074
  let below := value / step
  match roundsTo b g below, roundsTo b g (below + 1) with
  | true, true => some (roundQuotient value step)
  | true, false => some below
  | false, true => some (below + 1)
  | false, false => none

/-- The point found on the coarsest grid among `g` and the finer ones, and that grid. -/
def coarsest (b : Nat) : (g : Nat) → Nat × Nat
  | 0 => ((gridPoint? b 0).getD 0, 0)
  | g + 1 =>
      match gridPoint? b (g + 1) with
      | some c => (c, g + 1)
      | none => coarsest b g

/-- A grid at least as coarse as any that meets the interval of pattern `b`: a third of the binary
length of a number is more than its decimal length. -/
def coarseGrid (b : Nat) : Nat :=
  Nat.log2 (units b * Nat.pow 10 324 / Nat.pow 2 1074) / 3 + 1

/-- The decimal of fewest digits that rounds to the positive magnitude with pattern `b`. -/
def shortest (b : Nat) : Decimal :=
  let found := coarsest b (coarseGrid b)
  ⟨found.1, found.2 - 324⟩

end Reckoner.Number
