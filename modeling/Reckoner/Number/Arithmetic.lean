import Reckoner.Number.Binary

/-!
# Functions on doubles

No function here fails: where a real function has no value the result is undefined, and where it
grows without bound the result is infinite.
-/

namespace Reckoner.Number

/-- The circle constant, rounded. -/
def circle : Float := 3.141592653589793

/-- The base of the natural logarithm, rounded. -/
def eulerBase : Float := 2.718281828459045

/-- The nearest integer, a half going to the even neighbour; the sign stays, also on zero. Adding
and taking away 2 ^ 52 drops the fraction of a magnitude below 2 ^ 52, and larger ones have none. -/
def roundHalfEven (x : Float) : Float :=
  let shift : Float := 4503599627370496
  if x.abs < shift then
    let magnitude := (x.abs + shift) - shift
    if isNegative x then -magnitude else magnitude
  else x

/-- The logarithm of `x` to a base. There is none to a base of one, or of zero and below. -/
def logarithm (x base : Float) : Float :=
  if base.isNaN || base <= 0 || base == 1 then undefinedValue
  else x.log / base.log

/-- The greater of two numbers, the first of two equal ones; undefined if one of them is. -/
def greater (a b : Float) : Float :=
  if a.isNaN || b.isNaN then undefinedValue
  else if b > a then b else a

/-- The smaller of two numbers, the first of two equal ones; undefined if one of them is. -/
def smaller (a b : Float) : Float :=
  if a.isNaN || b.isNaN then undefinedValue
  else if b < a then b else a

end Reckoner.Number
