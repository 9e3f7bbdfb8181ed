import Reckoner.Parser
import Reckoner.Proofs.Lexer.Writing

/-!
# The parser with a conversion that may fail

The parser takes the value of a number for granted. `runWith` asks for it: its conversion of texts
may give no value, and then nothing comes out at all. If the conversion gives the lexer's numbers
their values, whatever it does with other texts, nothing is ever missing, and what comes out is what
the parser gives (`runWith_eq_run`).
-/

namespace Reckoner.Parser

/-! ## Steps that ask for values -/

/-- Begins an operand. A number has the value that the conversion gives, if it gives one. -/
def beginWith (value? : String → Option Float) (t : Token) (pending : List Pending)
    (outer : List Level) : Option Step :=
  match t.lexeme with
  | .number digits =>
      (value? digits).map fun value => .shift (.basic (.number value) t.position pending outer)
  | _ => some (begin t pending outer)

/-- One step, or nothing if it begins with a number that has no value. -/
def State.feedWith (value? : String → Option Float) (s : State) (t : Token) : Option Step :=
  match s with
  | .expecting pending outer => beginWith value? t pending outer
  | .called .. => some (s.feed t)
  | .basic e _ pending outer =>
      match t.lexeme, calleeName? e with
      | .number _, some name => beginWith value? t (.implicitCall name :: pending) outer
      | _, _ => some (s.feed t)

/-- Reads on from a state as the parser does, or gives nothing as soon as a number has no value. -/
def runWith (value? : String → Option Float) (length : Nat) (s : State) (l : Lexer) :
    Option (Except SourceFault Expr × Lexer) :=
  match h : l.next with
  | (.done, after) => some ((s.finish length).mapError .grammar, after)
  | (.fault f, after) => some (.error (.lexical f), after)
  | (.token t, after) =>
      have := Lexer.length_next_lt h
      match s.feedWith value? t with
      | some (.shift next) => runWith value? length next after
      | some (.accept e) => some (.ok e, after)
      | some (.fail f) => some (.error (.grammar f), after)
      | none => none
termination_by l.rest.length

/-- The conversion gives the value of the token, if the token is a number. -/
def Converts (value? : String → Option Float) (t : Token) : Prop :=
  ∀ digits, t.lexeme = .number digits → value? digits = some (Number.literal digits.toList)

section

variable {value? : String → Option Float} {t : Token}

theorem beginWith_eq_begin (converts : Converts value? t) (pending : List Pending)
    (outer : List Level) : beginWith value? t pending outer = some (begin t pending outer) := by
  rcases t with ⟨x, position⟩
  cases x with
  | number digits =>
      unfold beginWith
      dsimp only
      rw [converts digits rfl]
      rfl
  | word | quoted | symbol => rfl

theorem feedWith_eq_feed (converts : Converts value? t) (s : State) :
    s.feedWith value? t = some (s.feed t) := by
  cases s with
  | expecting pending outer => exact beginWith_eq_begin converts pending outer
  | called => rfl
  | basic e start pending outer =>
      simp only [State.feedWith]
      split
      · next digits name number callee =>
          rw [beginWith_eq_begin converts]
          simp only [State.feed, number, callee]
      · rfl

section

variable {length : Nat} {s : State} {l after : Lexer}

theorem runWith_of_done (h : l.next = (.done, after)) :
    runWith value? length s l = some ((s.finish length).mapError .grammar, after) := by
  rw [runWith]
  split <;> simp_all

theorem runWith_of_fault {f : LexicalFault} (h : l.next = (.fault f, after)) :
    runWith value? length s l = some (.error (.lexical f), after) := by
  rw [runWith]
  split <;> simp_all

theorem runWith_of_token (h : l.next = (.token t, after)) :
    runWith value? length s l =
      match s.feedWith value? t with
      | some (.shift next) => runWith value? length next after
      | some (.accept e) => some (.ok e, after)
      | some (.fail f) => some (.error (.grammar f), after)
      | none => none := by
  rw [runWith]
  split <;> simp_all

end

/-- **A conversion that knows the lexer's numbers never fails the parser.** -/
theorem runWith_eq_run
    (known : ∀ digits, (Lexeme.number digits).WellFormed →
      value? digits = some (Number.literal digits.toList)) (length : Nat) (s : State) (l : Lexer) :
    runWith value? length s l = some (run length s l) := by
  have step {l after : Lexer} {t : Token} (pulled : l.next = (.token t, after)) (s : State) :
      s.feedWith value? t = some (s.feed t) := by
    obtain ⟨p, rfl, wf, -⟩ := Lexer.exists_piece_of_next pulled
    apply feedWith_eq_feed
    intro digits number
    apply known
    rwa [← number]
  fun_induction run length s l with
  | case1 s l after hn => rw [runWith_of_done hn]
  | case2 s l f after hn => rw [runWith_of_fault hn]
  | case3 s l t after hn _ next hs ih =>
      rw [runWith_of_token hn, step hn, hs]
      exact ih
  | case4 s l t after hn _ e hs => rw [runWith_of_token hn, step hn, hs]
  | case5 s l t after hn _ f hs => rw [runWith_of_token hn, step hn, hs]

end

end Reckoner.Parser
