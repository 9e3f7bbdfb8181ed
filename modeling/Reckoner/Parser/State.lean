import Reckoner.Fault
import Reckoner.Number.Reading
import Reckoner.Operator

/-!
# Reading an expression token by token

The state between two tokens is everything that was read and not finished: inside the innermost
bracket the operations and implicit calls that wait for their last operand, outside of it the same
for each bracket that is still open. One token moves the state one step: it is taken, or it ends
the expression without being part of it, or it cannot stand there.

A name or number directly before a term is a call with that term as its one argument, and it binds
tighter than all operators. A name or number directly before a bracket is a call with the arguments
inside the bracket.
-/

namespace Reckoner.Parser

/-! ## Unfinished expressions -/

/-- What waits for an operand that ends with the next operator, bracket or comma. -/
inductive Pending
  | operation (left : Expr) (op : Operator)
  | implicitCall (name : String)

/-- A bracket: around an expression, with its offset, or around the arguments of a call, with those
that are complete. -/
inductive Opening
  | group (start : Nat)
  | arguments (name : String) (before : List Expr)

/-- An open bracket and what was pending where it opened. -/
structure Level where
  opening : Opening
  pending : List Pending

/-- The state between two tokens. The innermost pending thing and bracket come first. -/
inductive State
  /-- An operand has to begin. -/
  | expecting (pending : List Pending) (outer : List Level)
  /-- A number, name, quoted text or bracketed expression ended, which began at `start`. It is the
  only term that arguments may follow. -/
  | basic (e : Expr) (start : Nat) (pending : List Pending) (outer : List Level)
  /-- A call with its bracketed arguments ended. -/
  | called (e : Expr) (pending : List Pending) (outer : List Level)

/-- The state before the first token. -/
def State.start : State := .expecting [] []

/-! ## Finishing what is pending -/

/-- Ends everything pending that ends before the operator `next`, and leaves the rest pending. -/
def settle (next : Operator) (e : Expr) : List Pending → Expr × List Pending
  | [] => (e, [])
  | .implicitCall name :: pending => settle next (.call name [e]) pending
  | .operation left op :: pending =>
      if op.endsBefore next then settle next (.binary left op.kind e) pending
      else (e, .operation left op :: pending)

/-- Ends everything pending. -/
def settleAll (e : Expr) : List Pending → Expr
  | [] => e
  | .implicitCall name :: pending => settleAll (.call name [e]) pending
  | .operation left op :: pending => settleAll (.binary left op.kind e) pending

/-! ## Steps -/

/-- What a token does to a state. -/
inductive Step
  | shift (next : State)
  | accept (e : Expr)
  | fail (f : GrammarFault)

/-- The name under which a term is called: that of an identifier, and of a number its text. -/
def calleeName? : Expr → Option String
  | .identifier name => some name
  | .number value => some (Number.text value)
  | .binary .. | .call .. | .quoted _ | .bare => none

/-- Begins an operand. -/
def begin (t : Token) (pending : List Pending) (outer : List Level) : Step :=
  match t.lexeme with
  | .number digits =>
      .shift (.basic (.number (Number.literal digits.toList)) t.position pending outer)
  | .word name => .shift (.basic (.identifier name) t.position pending outer)
  | .quoted inner => .shift (.basic (.quoted inner) t.position pending outer)
  | .symbol .lparen => .shift (.expecting [] (⟨.group t.position, pending⟩ :: outer))
  | .symbol _ => .fail ⟨.noTerm t.lexeme, t.position⟩

/-- Goes on after a whole expression inside the innermost bracket. -/
def close (t : Token) (e : Expr) : List Level → Step
  | [] => .accept e
  | ⟨.group start, pending⟩ :: outer =>
      if t.lexeme = .symbol .rparen then .shift (.basic e start pending outer)
      else .fail ⟨.unclosed t.lexeme, t.position⟩
  | ⟨.arguments name before, pending⟩ :: outer =>
      if t.lexeme = .symbol .comma then
        .shift (.expecting [] (⟨.arguments name (before ++ [e]), pending⟩ :: outer))
      else if t.lexeme = .symbol .rparen then
        .shift (.called (.call name (before ++ [e])) pending outer)
      else .fail ⟨.unclosed t.lexeme, t.position⟩

/-- Goes on after an operand that the token does not call. -/
def proceed (t : Token) (e : Expr) (pending : List Pending) (outer : List Level) : Step :=
  match Operator.ofKind? t.lexeme.kind with
  | some op =>
      let (left, stillPending) := settle op e pending
      .shift (.expecting (.operation left op :: stillPending) outer)
  | none => close t (settleAll e pending) outer

/-- One step. -/
def State.feed (s : State) (t : Token) : Step :=
  match s with
  | .expecting pending outer => begin t pending outer
  | .called e pending outer => proceed t e pending outer
  | .basic e start pending outer =>
      match t.lexeme, calleeName? e with
      | .number _, some name | .word _, some name => begin t (.implicitCall name :: pending) outer
      | .symbol .lparen, some name =>
          .shift (.expecting [] (⟨.arguments name [], pending⟩ :: outer))
      | .number _, none | .word _, none | .symbol .lparen, none =>
          .fail ⟨.notCallable e.shape, start⟩
      | _, _ => proceed t e pending outer

/-- What the state is worth where the text ends, after `length` characters. -/
def State.finish (s : State) (length : Nat) : Except GrammarFault Expr :=
  match s with
  | .expecting [] [] => .error ⟨.nothing, 0⟩
  | .basic e _ pending [] | .called e pending [] => .ok (settleAll e pending)
  | _ => .error ⟨.cutShort, length⟩

end Reckoner.Parser
