import Reckoner.Text.Quoted

/-!
# Tokens

A formula is written with four kinds of lexeme: numbers, words, quoted texts and single symbols. A
token is a lexeme together with the offset of its first character, counted in code points from the
start of the text.
-/

namespace Reckoner

/-! ## Symbols and kinds -/

/-- The characters that are lexemes of their own. -/
inductive Symbol
  | plus | minus | times | divide | power | lparen | rparen | comma
deriving DecidableEq, Repr

def Symbol.char : Symbol → Char
  | .plus => '+'
  | .minus => '-'
  | .times => '*'
  | .divide => '/'
  | .power => '^'
  | .lparen => '('
  | .rparen => ')'
  | .comma => ','

def Symbol.ofChar? : Char → Option Symbol
  | '+' => some .plus
  | '-' => some .minus
  | '*' => some .times
  | '/' => some .divide
  | '^' => some .power
  | '(' => some .lparen
  | ')' => some .rparen
  | ',' => some .comma
  | _ => none

@[simp] theorem Symbol.ofChar?_char (s : Symbol) : Symbol.ofChar? s.char = some s := by
  cases s <;> rfl

theorem Symbol.char_of_ofChar? {c : Char} {s : Symbol} (h : Symbol.ofChar? c = some s) :
    s.char = c := by
  unfold Symbol.ofChar? at h
  split at h <;> simp_all <;> subst h <;> rfl

/-- The kind of a lexeme, which forgets what numbers, words and quoted texts hold. -/
inductive Kind
  | number | word | quoted
  | symbol (s : Symbol)
deriving DecidableEq, Repr

/-- The name of a kind as messages and dumps show it. -/
def Kind.label : Kind → String
  | .number => "NUMBER"
  | .word => "IDENTIFIER"
  | .quoted => "STRING"
  | .symbol .plus => "PLUS"
  | .symbol .minus => "MINUS"
  | .symbol .times => "MULTIPLY"
  | .symbol .divide => "DIVIDE"
  | .symbol .power => "EXPONENT"
  | .symbol .lparen => "LPAREN"
  | .symbol .rparen => "RPAREN"
  | .symbol .comma => "COMMA"

/-! ## Lexemes and tokens -/

inductive Lexeme
  | number (digits : String)
  | word (name : String)
  | quoted (inner : String)
  | symbol (s : Symbol)
deriving DecidableEq, Repr

def Lexeme.kind : Lexeme → Kind
  | .number _ => .number
  | .word _ => .word
  | .quoted _ => .quoted
  | .symbol s => .symbol s

theorem Lexeme.eq_symbol_of_kind {x : Lexeme} {s : Symbol} (h : x.kind = .symbol s) :
    x = .symbol s := by
  cases x <;> cases h
  rfl

/-- What a lexeme says: its characters, for a quoted text those between the quotes. -/
def Lexeme.text : Lexeme → String
  | .number digits => digits
  | .word name => name
  | .quoted inner => inner
  | .symbol s => s.char.toString

/-- The characters that write a lexeme. -/
def Lexeme.spelling : Lexeme → List Char
  | .number digits => digits.toList
  | .word name => name.toList
  | .quoted inner => '"' :: inner.toList ++ ['"']
  | .symbol s => [s.char]

structure Token where
  lexeme : Lexeme
  position : Nat
deriving DecidableEq, Repr

/-- A token as lists of tokens show it. -/
def Token.shown (t : Token) : String :=
  "Token(" ++ t.lexeme.kind.label ++ ", " ++ Text.quoted t.lexeme.text ++
    ", position=" ++ toString t.position ++ ")"

/-- A list of tokens on one line. -/
def Token.shownList (ts : List Token) : String :=
  "[" ++ ", ".intercalate (ts.map Token.shown) ++ "]"

end Reckoner
