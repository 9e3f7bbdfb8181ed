import Reckoner.Json
import Reckoner.Token

/-!
# Expressions

The tree of a formula. A formula that was read from text has only numbers, identifiers, quoted
texts, operations with the five operators, and calls with at least one argument; the other trees
can be built by hand, and evaluating them is an error.
-/

namespace Reckoner

inductive Expr
  | number (value : Float)
  | identifier (name : String)
  /-- The operator is given by the kind of its token, and only five kinds have a meaning. -/
  | binary (left : Expr) (op : Kind) (right : Expr)
  | call (name : String) (arguments : List Expr)
  /-- A text that is parsed and evaluated when evaluation reaches it. -/
  | quoted (source : String)
  | bare
deriving Inhabited, Repr

namespace Expr

/-! ## Shapes -/

/-- The six forms of expression. -/
inductive Shape
  | number | identifier | binary | call | quoted | bare
deriving DecidableEq, Repr

/-- The name of a form as messages, traces and dumps show it. -/
def Shape.label : Shape → String
  | .number => "NumberNode"
  | .identifier => "IdentifierNode"
  | .binary => "BinaryOpNode"
  | .call => "CallNode"
  | .quoted => "NestedNode"
  | .bare => "ASTNode"

def shape : Expr → Shape
  | number _ => .number
  | identifier _ => .identifier
  | binary .. => .binary
  | call .. => .call
  | quoted _ => .quoted
  | bare => .bare

/-! ## Work -/

mutual

/-- How much there is to evaluate: one for each node, and for a quoted text one more than its
length, which is at least the work of the tree that it is parsed into. -/
def work : Expr → Nat
  | number _ => 1
  | identifier _ => 1
  | binary left _ right => left.work + right.work + 1
  | call _ arguments => workAll arguments + 1
  | quoted source => source.length + 1
  | bare => 1

/-- The work of all expressions of a list. -/
def workAll : List Expr → Nat
  | [] => 0
  | e :: more => e.work + workAll more

end

theorem work_pos (e : Expr) : 0 < e.work := by
  cases e <;> simp only [work] <;> omega

@[simp] theorem workAll_append (es fs : List Expr) :
    workAll (es ++ fs) = workAll es + workAll fs := by
  induction es with
  | nil => simp [workAll]
  | cons e more ih => simp only [List.cons_append, workAll, ih]; omega

/-! ## Dump -/

/-- One node as a JSON object: its form, then its parts in the order of their meaning. -/
def node (s : Shape) (parts : List (String × Json)) : Json :=
  .object (("_type", .string s.label) :: parts)

mutual

/-- The tree as a JSON value. -/
def toJson : Expr → Json
  | number value => node .number [("value", .number value)]
  | identifier name => node .identifier [("name", .string name)]
  | binary left op right =>
      node .binary [("left", left.toJson), ("op", .string op.label), ("right", right.toJson)]
  | call name arguments =>
      node .call [("function", .string name), ("arguments", .list (toJsonAll arguments))]
  | quoted source => node .quoted [("source", .string source)]
  | bare => node .bare []

def toJsonAll : List Expr → List Json
  | [] => []
  | e :: more => e.toJson :: toJsonAll more

end

/-- The tree as JSON text on several lines. -/
def dump (e : Expr) : String := e.toJson.render

end Expr

end Reckoner
