import Reckoner.Builtin
import Reckoner.Fault

/-!
# Why an evaluation fails
-/

namespace Reckoner

inductive Failure
  /-- The text, or a quoted text inside it, is no formula. -/
  | source (f : SourceFault)
  | unknownIdentifier (name : String)
  /-- A name that stands for a function is used as a number. -/
  | functionAsNumber
  /-- A name that stands for a number is called. -/
  | numberAsFunction
  /-- A built-in function is called with the wrong number of arguments. -/
  | argumentCount (b : Builtin)
  /-- The operator of an operation built by hand has no meaning. -/
  | noOperator (op : Kind)
  /-- A bare node built by hand has no meaning. -/
  | noForm
  /-- A function of the host refused its arguments. -/
  | host (message : String)
deriving DecidableEq, Repr

def Failure.message : Failure → String
  | .source f => f.message
  | .unknownIdentifier name => "Unknown identifier \"" ++ name ++ "\""
  | .functionAsNumber => "Can't use function as Identifier"
  | .numberAsFunction => "Can't use Number as Function"
  | .argumentCount b =>
      b.name ++ " expects " ++ (if b.arity = 1 then "one number" else "two numbers")
  | .noOperator op => "Unrecognized binary operator: TokenType." ++ op.label
  | .noForm => "Unrecognized expression node: " ++ Expr.Shape.bare.label
  | .host message => message

end Reckoner
