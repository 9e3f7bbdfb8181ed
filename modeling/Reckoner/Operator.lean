import Reckoner.Token

/-!
# Operators

The five binary operators, how tightly they bind, and what they compute. Sums bind least, products
more, powers most; sums and products group from the left, powers from the right.
-/

namespace Reckoner

inductive Operator
  | plus | minus | times | divide | power
deriving DecidableEq, Repr

namespace Operator

def symbol : Operator → Symbol
  | plus => .plus
  | minus => .minus
  | times => .times
  | divide => .divide
  | power => .power

/-- The kind of the token that writes the operator. -/
def kind (op : Operator) : Kind := .symbol op.symbol

def ofSymbol? : Symbol → Option Operator
  | .plus => some plus
  | .minus => some minus
  | .times => some times
  | .divide => some divide
  | .power => some power
  | .lparen | .rparen | .comma => none

/-- The operator that a kind of token writes; brackets, commas and operands write none. -/
def ofKind? : Kind → Option Operator
  | .symbol s => ofSymbol? s
  | .number | .word | .quoted => none

@[simp] theorem ofKind?_kind (op : Operator) : ofKind? op.kind = some op := by
  cases op <;> rfl

theorem ofKind?_eq_some_iff {k : Kind} {op : Operator} : ofKind? k = some op ↔ k = op.kind := by
  constructor
  · intro h
    cases k with
    | symbol s => cases s <;> cases h <;> rfl
    | _ => cases h
  · rintro rfl
    simp

/-! ## Precedence -/

/-- How tightly an operator holds its operands. -/
def tightness : Operator → Nat
  | plus | minus => 1
  | times | divide => 2
  | power => 3

/-- Whether an operation whose right operand is complete ends when the operator `next` follows: it
does if it binds tighter, or equally and groups from the left. -/
def endsBefore (op next : Operator) : Bool :=
  next.tightness < op.tightness || (next.tightness == op.tightness && next ≠ power)

/-! ## Meaning -/

/-- Operations on doubles as IEEE 754 defines them; dividing by zero gives an infinity or an
undefined value. Powers are those of the platform's mathematical library. -/
def apply : Operator → Float → Float → Float
  | plus => (· + ·)
  | minus => (· - ·)
  | times => (· * ·)
  | divide => (· / ·)
  | power => Float.pow

end Operator

end Reckoner
