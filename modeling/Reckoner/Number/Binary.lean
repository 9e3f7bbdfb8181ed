/-!
# Doubles by their bit patterns

The pattern of a double without its sign is a number below 2 ^ 63. Patterns grow with the
magnitudes they stand for, so the neighbours of a magnitude have the next smaller and the next
larger pattern. All finite magnitudes are multiples of 2 ^ -1074, and `units` counts that multiple;
rounding and printing then need natural numbers only.
-/

namespace Reckoner.Number

/-! ## Magnitudes -/

/-- The pattern of infinity, and the first that is not finite. -/
def infinityPattern : Nat := 0x7ff0000000000000

/-- The magnitude with the pattern `b`, in units of 2 ^ -1074. The pattern of infinity counts as
2 ^ 1024, the magnitude that would follow the largest finite one. -/
def units (b : Nat) : Nat :=
  let step := Nat.pow 2 52
  if b < step then b else (step + b % step) * Nat.pow 2 (b / step - 1)

/-- The pattern of a double without its sign. -/
def pattern (x : Float) : Nat := x.toBits.toNat % Nat.pow 2 63

/-- Whether a double carries a minus sign; the negative zero does. -/
def isNegative (x : Float) : Bool := Nat.pow 2 63 ≤ x.toBits.toNat

/-- The double without sign that has the given pattern. -/
def ofPattern (b : Nat) : Float := Float.ofBits (UInt64.ofNat b)

def infinity : Float := ofPattern infinityPattern

/-- The value of an operation that has none. -/
def undefinedValue : Float := Float.ofBits 0x7ff8000000000000

/-! ## Rounding -/

/-- The integer nearest to `n / d`; a half goes to the even neighbour. -/
def roundQuotient (n d : Nat) : Nat :=
  let below := n / d
  let twiceRest := 2 * (n % d)
  if twiceRest < d ∨ (twiceRest = d ∧ below % 2 = 0) then below else below + 1

/-- The pattern of the double nearest to `n / d`; of two equally near the one with the even
pattern. Magnitudes from 2 ^ 1024 less half a unit in the last place on become infinite. -/
def nearest (n d : Nat) : Nat :=
  let scaled := n * Nat.pow 2 1074
  let dropped := Nat.log2 (scaled / d) - 52
  min (dropped * Nat.pow 2 52 + roundQuotient scaled (d * Nat.pow 2 dropped)) infinityPattern

theorem nearest_le (n d : Nat) : nearest n d ≤ infinityPattern := Nat.min_le_right _ _

/-- The pattern of the double nearest to `digits * 10 ^ exponent`. An exponent far outside the
range of doubles is decided by the length of the number alone: from 10 ^ 309 on everything is
infinite, and below 10 ^ -324 everything is zero. -/
def nearestDecimal (digits : Nat) (exponent : Int) : Nat :=
  let top := (Nat.toDigits 10 digits).length + exponent
  if digits = 0 ∨ top ≤ -324 then 0
  else if 310 ≤ top then infinityPattern
  else if 0 ≤ exponent then nearest (digits * Nat.pow 10 exponent.toNat) 1
  else nearest digits (Nat.pow 10 (-exponent).toNat)

theorem nearestDecimal_le (digits : Nat) (exponent : Int) :
    nearestDecimal digits exponent ≤ infinityPattern := by
  simp only [nearestDecimal]
  split
  · exact Nat.zero_le _
  · split
    · exact Nat.le_refl _
    · split <;> exact nearest_le _ _

/-- The double nearest to `digits * 10 ^ exponent`, with its sign. -/
def ofDecimal (negative : Bool) (digits : Nat) (exponent : Int) : Float :=
  let magnitude := ofPattern (nearestDecimal digits exponent)
  if negative then -magnitude else magnitude

end Reckoner.Number
