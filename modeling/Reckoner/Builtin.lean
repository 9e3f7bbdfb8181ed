import Reckoner.Number.Arithmetic

/-!
# Built-in functions

The functions every formula can call. Each has one name and takes one or two numbers. Trigonometric
functions, exponential and logarithm are those of the platform's mathematical library, bit for bit.
-/

namespace Reckoner

inductive Builtin
  | sin | cos | tan | sqrt | abs | exp | round | floor | ceil
  | log | max | min
deriving DecidableEq, Repr

namespace Builtin

/-- All built-in functions. -/
def all : List Builtin := [sin, cos, tan, sqrt, abs, exp, round, floor, ceil, log, max, min]

theorem mem_all (b : Builtin) : b ∈ all := by cases b <;> decide

def name : Builtin → String
  | sin => "sin"
  | cos => "cos"
  | tan => "tan"
  | sqrt => "sqrt"
  | abs => "abs"
  | exp => "exp"
  | round => "round"
  | floor => "floor"
  | ceil => "ceil"
  | log => "log"
  | max => "max"
  | min => "min"

/-- What a built-in function computes, and from how many numbers. -/
inductive Meaning
  | unary (f : Float → Float)
  | binary (f : Float → Float → Float)

def meaning : Builtin → Meaning
  | sin => .unary Float.sin
  | cos => .unary Float.cos
  | tan => .unary Float.tan
  | sqrt => .unary Float.sqrt
  | abs => .unary Float.abs
  | exp => .unary Float.exp
  | round => .unary Number.roundHalfEven
  | floor => .unary Float.floor
  | ceil => .unary Float.ceil
  | log => .binary Number.logarithm
  | max => .binary Number.greater
  | min => .binary Number.smaller

/-- The number of arguments a built-in function takes. -/
def arity (b : Builtin) : Nat :=
  match b.meaning with
  | .unary _ => 1
  | .binary _ => 2

/-- The value on a list of arguments, if there are as many as the function takes. -/
def value? (b : Builtin) (args : List Float) : Option Float :=
  match b.meaning, args with
  | .unary f, [x] => some (f x)
  | .binary f, [x, y] => some (f x y)
  | _, _ => none

theorem isSome_value?_iff {b : Builtin} {args : List Float} :
    (b.value? args).isSome ↔ args.length = b.arity := by
  unfold value? arity
  cases b.meaning <;> rcases args with _ | ⟨x, _ | ⟨y, _ | ⟨z, more⟩⟩⟩ <;> simp

end Builtin

end Reckoner
