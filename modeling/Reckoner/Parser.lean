import Reckoner.Parser.Work

/-!
# The parser

The parser reads one expression, pulling tokens from a lexer one at a time. The token that ends the
expression has been pulled and is gone; what follows it is never looked at, so a text may go on
after a whole expression.
-/

namespace Reckoner

namespace Parser

/-- Reads on from a state. The result comes with the lexer as the last pull left it; `length` is the
number of characters of the whole text. -/
def run (length : Nat) (s : State) (l : Lexer) : Except SourceFault Expr × Lexer :=
  match h : l.next with
  | (.done, after) => ((s.finish length).mapError .grammar, after)
  | (.fault f, after) => (.error (.lexical f), after)
  | (.token t, after) =>
      have := Lexer.length_next_lt h
      match s.feed t with
      | .shift next => run length next after
      | .accept e => (.ok e, after)
      | .fail f => (.error (.grammar f), after)
termination_by l.rest.length

theorem work_run {length : Nat} {s : State} {l : Lexer} {e : Expr}
    (h : (run length s l).1 = .ok e) : e.work ≤ s.work + l.rest.length := by
  fun_induction run length s l with
  | case1 s l after hn =>
    cases hf : s.finish length with
    | ok e' =>
      rw [hf] at h
      cases h
      exact Nat.le_trans (Nat.le_of_eq (State.work_finish hf)) (Nat.le_add_right _ _)
    | error f => rw [hf] at h; cases h
  | case2 => cases h
  | case3 s l t after hn _ next hs ih =>
    have pulled := Lexer.length_next hn
    have step := State.feed_within pulled.2 s
    rw [hs] at step
    have := ih h
    simp only [Step.Within] at step
    omega
  | case4 s l t after hn _ e' hs =>
    have pulled := Lexer.length_next hn
    have step := State.feed_within pulled.2 s
    rw [hs] at step
    cases h
    simp only [Step.Within] at step
    omega
  | case5 => cases h

end Parser

/-- Reads one expression from the start of a text, and gives the lexer as it was left. -/
def Lexer.parse (source : String) : Except SourceFault Expr × Lexer :=
  Parser.run source.length .start (.read source)

/-- The expression that a text begins with, or the first thing wrong with the text. -/
def parse (source : String) : Except SourceFault Expr := (Lexer.parse source).1

/-- The tree of a text has no more work than the text has characters. -/
theorem work_le_of_parse {source : String} {e : Expr} (h : parse source = .ok e) :
    e.work ≤ source.length := by
  have := Parser.work_run h
  rw [Parser.State.work_start, Nat.zero_add, Lexer.read, String.length_toList] at this
  exact this

end Reckoner
