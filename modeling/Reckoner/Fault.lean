import Reckoner.Expr
import Reckoner.Lexer

/-!
# What can be wrong with a text

A text is no formula if one of its lexemes is malformed or if its tokens do not form an expression.
Either fault has a position, the offset of a character in the text.
-/

namespace Reckoner

/-- Why tokens do not form an expression. -/
inductive GrammarCause
  /-- There is no token at all. -/
  | nothing
  /-- The text ends where an expression cannot. -/
  | cutShort
  /-- A bracket is open, and neither its end nor anything that continues the expression follows. -/
  | unclosed (got : Lexeme)
  /-- An operand has to begin, but none begins with this. -/
  | noTerm (got : Lexeme)
  /-- Arguments follow a term that is neither a name nor a number. -/
  | notCallable (callee : Expr.Shape)
deriving DecidableEq, Repr

/-- A lexeme as messages show it, kind first. -/
def Lexeme.shown (x : Lexeme) : String :=
  x.kind.label ++ " (" ++ Text.quoted x.text ++ ")"

def GrammarCause.message : GrammarCause → String
  | .nothing => "Input is empty or invalid"
  | .cutShort => "Unexpected end of input"
  | .unclosed got => "Expected one of: RPAREN but got: " ++ got.shown
  | .noTerm got => "Unknown expression starting with " ++ got.shown
  | .notCallable callee => "Cannot use " ++ callee.label ++ " as a function name"

structure GrammarFault where
  cause : GrammarCause
  position : Nat
deriving DecidableEq, Repr

/-- The first thing found wrong with a text. -/
inductive SourceFault
  | lexical (f : LexicalFault)
  | grammar (f : GrammarFault)
deriving DecidableEq, Repr

def SourceFault.message : SourceFault → String
  | .lexical f => "[LexerError] Position " ++ toString f.position ++ ": " ++ f.cause.message
  | .grammar f => "[ParseError] Position " ++ toString f.position ++ ": " ++ f.cause.message

end Reckoner
