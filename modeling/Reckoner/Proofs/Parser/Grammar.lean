import Reckoner.Number.Reading
import Reckoner.Number.Text
import Reckoner.Expr
import Reckoner.Operator

/-!
# The grammar of formulas

Five levels, loosest first: sums, products, powers, calls, basic terms. A derivation relates a
list of lexemes to the tree that it writes. Sums and products group to the left and powers to the
right. A call is a name or number with arguments in brackets, or with one argument directly behind
it, which is a call or a basic term itself and has to begin with a number or a word.

A derivation also keeps how its last lexeme was read: what may follow a phrase depends on whether
the phrase ends with the bracket behind arguments.
-/

namespace Reckoner.Grammar

inductive Level
  | sum | product | power | call | basic
deriving DecidableEq

/-- How the last lexeme of a phrase was read: as the bracket behind the arguments of a call, or as
anything else. -/
inductive Ending
  | plain | arguments
deriving DecidableEq

/-- The name under which a tree is called, if it can be: an identifier under its name, a number
under its text. -/
inductive Callee : Expr → String → Prop
  | identifier (name : String) : Callee (.identifier name) name
  | number (value : Float) : Callee (.number value) (Number.text value)

/-- An argument without brackets begins with a number or a word. -/
def BeginsOperand (w : List Lexeme) : Prop :=
  ∃ x ∈ w.head?, x.kind = .number ∨ x.kind = .word

/-- One of the arguments inside brackets. -/
structure Argument where
  lexemes : List Lexeme
  tree : Expr
  ending : Ending

/-- Arguments with commas between them. -/
def separated (args : List Argument) : List Lexeme :=
  [Lexeme.symbol .comma].intercalate (args.map Argument.lexemes)

/-- An argument with the comma behind it. -/
def Argument.withComma (a : Argument) : List Lexeme := a.lexemes ++ [.symbol .comma]

inductive Derives : Level → List Lexeme → Expr → Ending → Prop
  | number (digits : String) :
      Derives .basic [.number digits] (.number (Number.literal digits.toList)) .plain
  | word (name : String) : Derives .basic [.word name] (.identifier name) .plain
  | quoted (inner : String) : Derives .basic [.quoted inner] (.quoted inner) .plain
  | group {w e ending} : Derives .sum w e ending →
      Derives .basic (.symbol .lparen :: w ++ [.symbol .rparen]) e .plain
  | ofBasic {w e ending} : Derives .basic w e ending → Derives .call w e ending
  | implicitCall {w callee name v argument ending} :
      Derives .basic w callee .plain → Callee callee name →
      Derives .call v argument ending → BeginsOperand v →
      Derives .call (w ++ v) (.call name [argument]) ending
  | explicitCall {w callee name args} :
      Derives .basic w callee .plain → Callee callee name → args ≠ [] →
      (∀ a ∈ args, Derives .sum a.lexemes a.tree a.ending) →
      Derives .call (w ++ .symbol .lparen :: separated args ++ [.symbol .rparen])
        (.call name (args.map Argument.tree)) .arguments
  | ofCall {w e ending} : Derives .call w e ending → Derives .power w e ending
  | power {w base middle v exponent ending} :
      Derives .call w base middle → Derives .power v exponent ending →
      Derives .power (w ++ .symbol .power :: v) (.binary base Operator.power.kind exponent) ending
  | ofPower {w e ending} : Derives .power w e ending → Derives .product w e ending
  | product {op : Operator} {w left middle v right ending} : op = .times ∨ op = .divide →
      Derives .product w left middle → Derives .power v right ending →
      Derives .product (w ++ .symbol op.symbol :: v) (.binary left op.kind right) ending
  | ofProduct {w e ending} : Derives .product w e ending → Derives .sum w e ending
  | sum {op : Operator} {w left middle v right ending} : op = .plus ∨ op = .minus →
      Derives .sum w left middle → Derives .product v right ending →
      Derives .sum (w ++ .symbol op.symbol :: v) (.binary left op.kind right) ending

/-- What may stand behind a whole expression without being read as part of it: no operator, and
unless arguments end the expression nothing that begins an argument. -/
def Stops (ending : Ending) (x : Lexeme) : Prop :=
  (∀ op : Operator, x ≠ .symbol op.symbol) ∧
    (ending = .plain → x.kind ≠ .number ∧ x.kind ≠ .word ∧ x ≠ .symbol .lparen)

/-! ## Arguments -/

theorem BeginsOperand.append {w : List Lexeme} (h : BeginsOperand w) (v : List Lexeme) :
    BeginsOperand (w ++ v) := by
  obtain ⟨x, mem, kind⟩ := h
  refine ⟨x, ?_, kind⟩
  rw [List.head?_append, Option.mem_def.mp mem]
  rfl

theorem separated_concat (args : List Argument) (a : Argument) :
    separated (args ++ [a]) = args.flatMap Argument.withComma ++ a.lexemes := by
  induction args with
  | nil => simp [separated]
  | cons b more ih =>
      rw [separated, List.cons_append, List.map_cons,
        List.intercalate_cons_of_ne_nil (by simp), ← separated, ih]
      simp [Argument.withComma]

theorem mem_separated {args : List Argument} {a : Argument} (ha : a ∈ args) {x : Lexeme}
    (hx : x ∈ a.lexemes) : x ∈ separated args := by
  induction args with
  | nil => cases ha
  | cons b more ih =>
      by_cases last : more = []
      · subst last
        obtain rfl : a = b := by simpa using ha
        simpa [separated] using hx
      · rw [separated, List.map_cons, List.intercalate_cons_of_ne_nil (by simpa using last),
          ← separated]
        rcases List.mem_cons.mp ha with rfl | ha
        · simp [hx]
        · simp [ih ha]

/-! ## Levels -/

/-- Levels in numbers; a tighter level has a larger one. -/
def Level.rank : Level → Nat
  | .sum => 1
  | .product => 2
  | .power => 3
  | .call => 4
  | .basic => 5

theorem Level.rank_sum_le (l : Level) : Level.sum.rank ≤ l.rank := by cases l <;> decide

/-- The level of the operations of an operator. -/
def levelOf : Operator → Level
  | .plus | .minus => .sum
  | .times | .divide => .product
  | .power => .power

/-- The level of its left operand. -/
def leftOf : Operator → Level
  | .plus | .minus => .sum
  | .times | .divide => .product
  | .power => .call

/-- The level of its right operand. -/
def rightOf : Operator → Level
  | .plus | .minus => .product
  | .times | .divide => .power
  | .power => .power

@[simp] theorem rank_levelOf (op : Operator) : (levelOf op).rank = op.tightness := by
  cases op <;> rfl

/-- A phrase of one level is a phrase of all looser ones. -/
theorem Derives.loosen {l m : Level} {w : List Lexeme} {e : Expr} {ending : Ending}
    (h : Derives m w e ending) (le : l.rank ≤ m.rank) : Derives l w e ending := by
  cases m with
  | basic =>
      cases l with
      | sum => exact .ofProduct (.ofPower (.ofCall (.ofBasic h)))
      | product => exact .ofPower (.ofCall (.ofBasic h))
      | power => exact .ofCall (.ofBasic h)
      | call => exact .ofBasic h
      | basic => exact h
  | call =>
      cases l with
      | sum => exact .ofProduct (.ofPower (.ofCall h))
      | product => exact .ofPower (.ofCall h)
      | power => exact .ofCall h
      | call => exact h
      | basic => simp [Level.rank] at le
  | power =>
      cases l with
      | sum => exact .ofProduct (.ofPower h)
      | product => exact .ofPower h
      | power => exact h
      | call | basic => simp [Level.rank] at le
  | product =>
      cases l with
      | sum => exact .ofProduct h
      | product => exact h
      | power | call | basic => simp [Level.rank] at le
  | sum =>
      cases l with
      | sum => exact h
      | product | power | call | basic => simp [Level.rank] at le

/-- The three rules for operations in one. -/
theorem Derives.binary {op : Operator} {w v : List Lexeme} {left right : Expr}
    {middle ending : Ending} (hl : Derives (leftOf op) w left middle)
    (hr : Derives (rightOf op) v right ending) :
    Derives (levelOf op) (w ++ .symbol op.symbol :: v) (.binary left op.kind right) ending := by
  cases op with
  | plus => exact .sum (.inl rfl) hl hr
  | minus => exact .sum (.inr rfl) hl hr
  | times => exact .product (.inl rfl) hl hr
  | divide => exact .product (.inr rfl) hl hr
  | power => exact .power hl hr

end Reckoner.Grammar
