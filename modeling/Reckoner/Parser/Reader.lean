import Reckoner.Parser

/-!
# A reader that is used again

A lexer and a parser that reads from it can be kept for many texts. The parser remembers the token
in its hand and the length of its text, and it looks at nothing else, so what an earlier text left
there is at its disposal until it is written over.
-/

namespace Reckoner

/-- A lexer, and what the parser that reads from it remembers. -/
structure Reader where
  lexer : Lexer
  inHand : Option Token
  /-- The number of characters of the text. -/
  length : Nat
deriving DecidableEq, Repr

namespace Reader

/-- A lexer and a parser that were given no text yet. -/
def fresh : Reader := ⟨.empty, none, 0⟩

/-- Pulls a token into the hand, which is empty at the end of the text. Where there is a fault, the
hand keeps what was in it. -/
def pull (r : Reader) : Option LexicalFault × Reader :=
  match r.lexer.next with
  | (.done, after) => (none, { r with lexer := after, inHand := none })
  | (.token t, after) => (none, { r with lexer := after, inHand := some t })
  | (.fault f, after) => (some f, { r with lexer := after })

/-- Everything that a pull can do. -/
theorem pull_cases {r after : Reader} {fault? : Option LexicalFault}
    (h : r.pull = (fault?, after)) :
    (fault? = none ∧ r.lexer.next = (.done, after.lexer) ∧
        after = ⟨after.lexer, none, r.length⟩) ∨
      (∃ t, fault? = none ∧ r.lexer.next = (.token t, after.lexer) ∧
        after = ⟨after.lexer, some t, r.length⟩) ∨
      ∃ f, fault? = some f ∧ r.lexer.next = (.fault f, after.lexer) ∧
        after = ⟨after.lexer, r.inHand, r.length⟩ := by
  rw [pull] at h
  split at h
  · next next =>
      cases h
      exact .inl ⟨rfl, next, rfl⟩
  · next t _ next =>
      cases h
      exact .inr (.inl ⟨t, rfl, next, rfl⟩)
  · next f _ next =>
      cases h
      exact .inr (.inr ⟨f, rfl, next, rfl⟩)

/-- A token that comes into the hand was pulled. -/
theorem next_of_pull {r after : Reader} {t : Token} (h : r.pull = (none, after))
    (hand : after.inHand = some t) :
    r.lexer.next = (.token t, after.lexer) ∧ after = ⟨after.lexer, some t, r.length⟩ := by
  obtain ⟨-, -, same⟩ | ⟨t', -, next, same⟩ | ⟨f, isFault, -⟩ := pull_cases h
  · rw [same] at hand
    cases hand
  · rw [same] at hand
    cases hand
    exact ⟨next, same⟩
  · cases isFault

/-- Reads on from a state, with the token in the hand. -/
def run (s : Parser.State) (r : Reader) : Except SourceFault Expr × Reader :=
  match h : r.pull with
  | (some f, after) => (.error (.lexical f), after)
  | (none, after) =>
      match hand : after.inHand with
      | none => ((s.finish after.length).mapError .grammar, after)
      | some t =>
          have := Lexer.length_next_lt (next_of_pull h hand).1
          match s.feed t with
          | .shift next => run next after
          | .accept e => (.ok e, after)
          | .fail f => (.error (.grammar f), after)
termination_by r.lexer.rest.length

/-- Reads one expression from the start of a text. -/
def parse (r : Reader) (source : String) : Except SourceFault Expr × Reader :=
  run .start { r with lexer := .read source, length := source.length }

end Reader

end Reckoner
