import Reckoner.Proofs.Parser.FirstFault
import Reckoner.Proofs.Parser.Sharing

/-!
# Call syntax behind what cannot be called

A number, a word or an opening bracket directly behind a term is meant to call it. Only a number and
an identifier can be called. `parse_callSyntax` says what the parser makes of call syntax behind any
other term, wherever the term stands.

`Grammar.LeadsTo` describes the places of a formula by what stands before them, one case for each
thing that may be unfinished there. The parser reaches such a place with nothing but the unfinished
things in its state (`exists_place`), and it expects an operand at no other (`expecting_iff`). There
it refuses to call a basic term. The bracket behind arguments ends a call for good, so what follows
is refused only where an outer bracket is still open.
-/

namespace Reckoner.Grammar

/-! ## Places -/

/-- The lexemes lead to a place inside `depth` open brackets where a phrase of this level has to
follow. -/
inductive LeadsTo : Level → Nat → List Lexeme → Prop
  | start : LeadsTo .sum 0 []
  | operator {l depth op w v left ending} : LeadsTo l depth w → l.rank ≤ op.tightness →
      Derives (leftOf op) v left ending →
      LeadsTo (rightOf op) depth (w ++ v ++ [.symbol op.symbol])
  | implicitCall {l depth w v callee name} : LeadsTo l depth w → Parser.Admits l v →
      Derives .basic v callee .plain → Callee callee name → LeadsTo .call depth (w ++ v)
  | group {l depth w} : LeadsTo l depth w → l ≠ .call →
      LeadsTo .sum (depth + 1) (w ++ [.symbol .lparen])
  /-- Inside the bracket of a call, behind the arguments that are already complete. -/
  | arguments {l depth w v callee name} {args : List Argument} : LeadsTo l depth w →
      Parser.Admits l v → Derives .basic v callee .plain → Callee callee name →
      (∀ a ∈ args, Derives .sum a.lexemes a.tree a.ending) →
      LeadsTo .sum (depth + 1) (w ++ v ++ .symbol .lparen :: args.flatMap Argument.withComma)

/-- A lexeme that calls the term before it. -/
def CallSyntax (x : Lexeme) : Prop := x.kind = .number ∨ x.kind = .word ∨ x = .symbol .lparen

end Reckoner.Grammar

namespace Reckoner.Parser

open Reckoner.Grammar

/-! ## Reaching a place -/

section

variable {l : Grammar.Level} {depth : Nat} {w : List Lexeme} {ts : List Token}

/-- Arguments with their commas are collected inside the bracket. -/
theorem take?_withCommas {args : List Argument}
    (all : ∀ a ∈ args, Derives .sum a.lexemes a.tree a.ending) (name : String)
    (before : List Expr) (pending : List Pending) (outer : List Level)
    (written : ts.map Token.lexeme = args.flatMap Argument.withComma) :
    (State.expecting [] (⟨.arguments name before, pending⟩ :: outer)).take? ts =
      some (.expecting [] (⟨.arguments name (before ++ args.map Argument.tree), pending⟩ ::
        outer)) := by
  induction args generalizing before ts with
  | nil =>
      obtain rfl : ts = [] := List.map_eq_nil_iff.mp written
      simp
  | cons a more ih =>
      rw [List.flatMap_cons, Argument.withComma, List.append_assoc,
        List.map_eq_append_iff] at written
      obtain ⟨us, onward, rfl, hus, honward⟩ := written
      obtain ⟨comma, vs, rfl, hcomma, hvs⟩ := List.map_eq_cons_iff.mp honward
      obtain ⟨derived, later⟩ := List.forall_mem_cons.mp all
      obtain ⟨s, taken, holds⟩ := takes_of_derives derived us []
        (⟨.arguments name before, pending⟩ :: outer) hus (waits_nil _)
      have next : s.feed comma =
          .shift (.expecting [] (⟨.arguments name (before ++ [a.tree]), pending⟩ :: outer)) := by
        rw [holds.feed_close (.inr hcomma), close, hcomma]
        rfl
      rw [State.take?_append, taken, Option.bind_some, State.take?_cons next,
        ih later (before ++ [a.tree]) hvs]
      simp

/-- **A place is reached with one level for each open bracket.** What follows is taken as an operand
there, and nothing that is pending ends before a phrase of the level does. -/
theorem exists_place (place : LeadsTo l depth w) (written : ts.map Token.lexeme = w) :
    ∃ pending outer, outer.length = depth ∧ Waits l.rank pending ∧
      ∀ us : List Token, Admits l (us.map Token.lexeme) →
        State.start.take? (ts ++ us) = (State.expecting pending outer).take? us := by
  induction place generalizing ts with
  | start =>
      obtain rfl : ts = [] := List.map_eq_nil_iff.mp written
      exact ⟨[], [], rfl, waits_nil _, fun us _ => rfl⟩
  | @operator l depth op w v left ending _ loose derived ih =>
      rw [List.append_assoc] at written
      obtain ⟨front, onward, rfl, hfront, honward⟩ := List.map_eq_append_iff.mp written
      obtain ⟨vs, last, rfl, hvs, hlast⟩ := List.map_eq_append_iff.mp honward
      obtain ⟨t, rfl, ht⟩ := List.map_eq_singleton_iff.mp hlast
      obtain ⟨pending, outer, hdepth, waits, reached⟩ := ih hfront
      have rank : op.tightness ≤ (leftOf op).rank := by cases op <;> decide
      have follows : op.tightness < followedBelow (leftOf op) := by cases op <;> decide
      have admits (v : List Lexeme) : Admits l v :=
        admits_of_rank_le (Nat.le_trans loose (tightness_le op)) v
      obtain ⟨s, taken, holds⟩ :=
        takes_of_derives derived vs pending outer hvs (waits.mono (Nat.le_trans loose rank))
      have pends := holds.feed_operator ht follows (waits.mono loose)
      refine ⟨.operation left op :: pending, outer, hdepth, waits_operation left op pending,
        fun us _ => ?_⟩
      rw [List.append_assoc, List.append_assoc, reached _ (admits _), State.take?_append, taken,
        Option.bind_some, List.singleton_append, State.take?_cons pends]
  | @implicitCall l depth w v callee name _ admits derived called ih =>
      obtain ⟨front, vs, rfl, hfront, hvs⟩ := List.map_eq_append_iff.mp written
      obtain ⟨pending, outer, hdepth, waits, reached⟩ := ih hfront
      obtain ⟨s, taken, holds⟩ :=
        takes_of_derives derived vs pending outer hvs (waits_of_tight (by decide) _)
      obtain ⟨start, rfl⟩ := holds.eq_basic
      refine ⟨.implicitCall name :: pending, outer, hdepth, waits_of_tight (by decide) _,
        fun us begins => ?_⟩
      have admitted : Admits l ((vs ++ us).map Token.lexeme) := by
        rw [List.map_append, hvs]
        exact admits.append _
      rw [List.append_assoc, reached _ admitted, State.take?_append, taken, Option.bind_some,
        take?_implicit called (begins rfl)]
  | @group l depth w _ operand ih =>
      obtain ⟨front, last, rfl, hfront, hlast⟩ := List.map_eq_append_iff.mp written
      obtain ⟨t, rfl, ht⟩ := List.map_eq_singleton_iff.mp hlast
      obtain ⟨pending, outer, hdepth, -, reached⟩ := ih hfront
      have opens : (State.expecting pending outer).feed t =
          .shift (.expecting [] (⟨.group t.position, pending⟩ :: outer)) := by
        rw [State.feed, begin, ht]
      refine ⟨[], ⟨.group t.position, pending⟩ :: outer, by simp [hdepth], waits_nil _,
        fun us _ => ?_⟩
      rw [List.append_assoc, reached _ fun isCall => absurd isCall operand, List.singleton_append,
        State.take?_cons opens]
  | @arguments l depth w v callee name args _ admits derived called all ih =>
      rw [List.append_assoc] at written
      obtain ⟨front, onward, rfl, hfront, honward⟩ := List.map_eq_append_iff.mp written
      obtain ⟨vs, inside, rfl, hvs, hinside⟩ := List.map_eq_append_iff.mp honward
      obtain ⟨t, complete, rfl, ht, hcomplete⟩ := List.map_eq_cons_iff.mp hinside
      obtain ⟨pending, outer, hdepth, -, reached⟩ := ih hfront
      obtain ⟨s, taken, holds⟩ :=
        takes_of_derives derived vs pending outer hvs (waits_of_tight (by decide) _)
      obtain ⟨start, rfl⟩ := holds.eq_basic
      refine ⟨[], ⟨.arguments name (args.map Argument.tree), pending⟩ :: outer, by simp [hdepth],
        waits_nil _, fun us _ => ?_⟩
      have admitted : Admits l ((vs ++ (t :: complete ++ us)).map Token.lexeme) := by
        rw [List.map_append, hvs]
        exact admits.append _
      rw [List.append_assoc, List.append_assoc, reached _ admitted, State.take?_append, taken,
        Option.bind_some, List.cons_append,
        State.take?_cons (feed_bracket called ht start pending outer), State.take?_append,
        take?_withCommas all name [] pending outer hcomplete]
      rfl

theorem leadsTo_of_awaits {u : List Lexeme} {pending : List Pending}
    (inside : LeadsTo .sum depth u) (awaits : Awaits l pending w) : LeadsTo l depth (u ++ w) := by
  induction awaits with
  | nothing => rwa [List.append_nil]
  | operation _ loose derived ih =>
      have place := ih.operator loose derived
      simpa using place
  | implicitCall _ admits derived called ih =>
      have place := ih.implicitCall admits derived called
      rwa [List.append_assoc] at place

theorem leadsTo_of_opened {u : List Lexeme} {outer : List Level} (opened : Opened outer u) :
    LeadsTo .sum outer.length u := by
  induction opened with
  | nothing => exact .start
  | group _ awaits operand ih => exact (leadsTo_of_awaits ih awaits).group operand
  | arguments _ awaits admits derived called all ih =>
      exact (leadsTo_of_awaits ih awaits).arguments admits derived called all

/-- The places where the parser expects an operand of any kind are those that lexemes lead to. -/
theorem expecting_iff (ts : List Token) (depth : Nat) :
    (∃ pending outer, outer.length = depth ∧
      State.start.take? ts = some (.expecting pending outer)) ↔
      ∃ l, l ≠ .call ∧ LeadsTo l depth (ts.map Token.lexeme) := by
  constructor
  · rintro ⟨pending, outer, rfl, led⟩
    have read := reads_start.take led
    rw [List.nil_append] at read
    generalize ts.map Token.lexeme = w at read
    cases read with
    | expecting opened awaits operand =>
        exact ⟨_, operand, leadsTo_of_awaits (leadsTo_of_opened opened) awaits⟩
  · rintro ⟨l, operand, place⟩
    obtain ⟨pending, outer, hdepth, -, reached⟩ := exists_place place rfl
    have led := reached [] fun isCall => absurd isCall operand
    rw [List.append_nil] at led
    exact ⟨pending, outer, hdepth, led⟩

end

/-! ## Call syntax -/

section

variable {t : Token} {e : Expr}

/-- Call syntax is refused behind a term that is neither a number nor an identifier. -/
theorem feed_uncallable (follows : CallSyntax t.lexeme) (uncallable : calleeName? e = none)
    (start : Nat) (pending : List Pending) (outer : List Level) :
    (State.basic e start pending outer).feed t = .fail ⟨.notCallable e.shape, start⟩ := by
  obtain ⟨x, position⟩ := t
  rw [State.feed, uncallable]
  cases x with
  | number digits => rfl
  | word name => rfl
  | quoted inner => simp [CallSyntax, Lexeme.kind] at follows
  | symbol s =>
      obtain rfl : s = .lparen := by simpa [CallSyntax, Lexeme.kind] using follows
      rfl

/-- Behind the bracket of a call, call syntax ends the expression, or stands where an open bracket
has to be closed. -/
theorem feed_called (follows : CallSyntax t.lexeme) (pending : List Pending) (outer : List Level) :
    (State.called e pending outer).feed t =
      if outer = [] then .accept (settleAll e pending)
      else .fail ⟨.unclosed t.lexeme, t.position⟩ := by
  have noOperator : Operator.ofKind? t.lexeme.kind = none := by
    obtain kind | kind | bracket := follows
    · rw [kind]; rfl
    · rw [kind]; rfl
    · rw [bracket]; rfl
  have noComma : t.lexeme ≠ .symbol .comma :=
    fun h => by simp [CallSyntax, h, Lexeme.kind] at follows
  have noClosing : t.lexeme ≠ .symbol .rparen :=
    fun h => by simp [CallSyntax, h, Lexeme.kind] at follows
  rw [State.feed, proceed, noOperator]
  fun_cases close t (settleAll e pending) outer <;> simp_all

theorem uncallable_of_shape (h : e.shape = .binary ∨ e.shape = .call ∨ e.shape = .quoted) :
    calleeName? e = none := by
  cases e <;> simp [Expr.shape] at h <;> rfl

/-- Tokens that a text begins with are taken up to one that ends the expression. -/
theorem run_of_accepts {s last : State} {l middle after : Lexer} {ts : List Token} (length : Nat)
    (pulled : l.Pulls ts middle) (led : s.take? ts = some last)
    (next : middle.next = (.token t, after)) (accepts : last.feed t = .accept e) :
    (run length s l).1 = .ok e ∧ taken s l = ts := by
  induction pulled generalizing s with
  | nothing =>
      cases led
      obtain ⟨ran, took⟩ := run_of_accept length next accepts
      exact ⟨by rw [ran], took⟩
  | token hn _ ih =>
      rw [State.take?] at led
      split at led
      · next hs =>
          obtain ⟨ran, took⟩ := run_of_shift length hn hs
          obtain ⟨result, behind⟩ := ih led next
          exact ⟨by rw [ran, result], by rw [took, behind]⟩
      · cases led
      · cases led

end

end Reckoner.Parser

namespace Reckoner

open Reckoner.Grammar

/-- **What call syntax does behind a call, an operation or a quoted text.** Let a text begin with
lexemes that lead to some place, a term that may stand there, and a number, a word or an opening
bracket. A basic term that cannot be called is a fault with the position where the term began. Where
a call ends with the bracket behind its arguments, the lexeme behind it is a fault inside every open
bracket; outside of all brackets it ends the expression, and the parser gives the tree of what was
read so far. -/
theorem parse_callSyntax {source : String} (before term : List Token) {t : Token} {after : Lexer}
    {l : Level} {depth : Nat} (pulled : (Lexer.read source).Pulls (before ++ term ++ [t]) after)
    (place : LeadsTo l depth (before.map Token.lexeme))
    (admits : Parser.Admits l (term.map Token.lexeme)) (follows : CallSyntax t.lexeme) (e : Expr) :
    (Derives .basic (term.map Token.lexeme) e .plain →
      e.shape = .binary ∨ e.shape = .call ∨ e.shape = .quoted →
      ∃ first ∈ term.head?,
        parse source = .error (.grammar ⟨.notCallable e.shape, first.position⟩)) ∧
    (Derives .call (term.map Token.lexeme) e .arguments →
      (0 < depth → parse source = .error (.grammar ⟨.unclosed t.lexeme, t.position⟩)) ∧
      (depth = 0 → consumed source = before ++ term ∧ ∃ tree, parse source = .ok tree ∧
        Derives .sum ((before ++ term).map Token.lexeme) tree .arguments)) := by
  obtain ⟨middle, front, behind⟩ := pulled.exists_of_append
  obtain ⟨pending, outer, rfl, -, reached⟩ := Parser.exists_place place rfl
  have waits (m : Level) (tight : 4 ≤ m.rank) := Parser.waits_of_tight tight pending
  cases behind with
  | token next =>
      refine ⟨fun derived shape => ?_, fun derived => ?_⟩
      · obtain ⟨s, led, holds⟩ :=
          Parser.takes_of_derives derived term pending outer rfl (waits .basic (by decide))
        obtain ⟨start, rfl⟩ := holds.eq_basic
        obtain ⟨first, more, rfl, rfl⟩ := Parser.start_of_basic derived rfl led
        refine ⟨first, rfl, ?_⟩
        rw [← reached _ admits] at led
        refine Parser.run_of_rejects front led ?_
        rw [next]
        exact Parser.feed_uncallable follows (Parser.uncallable_of_shape shape) _ pending outer
      · obtain ⟨s, led, e₀, start, pending₀, rfl, -, -⟩ :=
          Parser.takes_of_derives derived term pending outer rfl (waits .call (by decide))
        rw [← reached _ admits] at led
        have feed := Parser.feed_called (e := e₀) follows pending₀ outer
        refine ⟨fun inside => ?_, fun outside => ?_⟩
        · refine Parser.run_of_rejects front led ?_
          rw [next]
          rwa [if_neg (List.ne_nil_of_length_pos inside)] at feed
        · obtain rfl := List.eq_nil_of_length_eq_zero outside
          obtain ⟨result, took⟩ := Parser.run_of_accepts source.length front led next feed
          have read := Parser.reads_start.take led
          obtain ⟨ending, whole, stops⟩ := read.accept feed
          refine ⟨took, _, result, ?_⟩
          cases ending with
          | arguments => exact whole
          | plain =>
              obtain ⟨noNumber, noWord, noBracket⟩ := stops.2 rfl
              exact (follows.elim noNumber (·.elim noWord noBracket)).elim

/-- Behind an operator and inside a bracket a call and a sum are refused, whatever follows the word
that would call them. -/
theorem parse_callSyntax_inside :
    parse "x^(f(y)z $" = .error (.grammar ⟨.unclosed (.word "z"), 7⟩) ∧
      parse "x^((y+z)w $" = .error (.grammar ⟨.notCallable .binary, 3⟩) := by
  have base : Derives (leftOf .power) [.word "x"] (.identifier "x") .plain := .ofBasic (.word "x")
  have power : LeadsTo (rightOf .power) 0 [.word "x", .symbol .power] :=
    .operator .start (by decide) base
  have place : LeadsTo .sum 1 [.word "x", .symbol .power, .symbol .lparen] :=
    .group power (by decide)
  have admits (v : List Lexeme) : Parser.Admits .sum v := fun isCall => by cases isCall
  have argument : Derives .sum [.word "y"] (.identifier "y") .plain :=
    (Derives.word "y").loosen (by decide)
  constructor
  · have pulled : (Lexer.read "x^(f(y)z $").Pulls
        [⟨.word "x", 0⟩, ⟨.symbol .power, 1⟩, ⟨.symbol .lparen, 2⟩, ⟨.word "f", 3⟩,
          ⟨.symbol .lparen, 4⟩, ⟨.word "y", 5⟩, ⟨.symbol .rparen, 6⟩, ⟨.word "z", 7⟩]
        ⟨[' ', '$'], 8⟩ := by
      iterate 8 refine .token rfl ?_
      exact .nothing
    have each : ∀ a ∈ [(⟨[.word "y"], .identifier "y", .plain⟩ : Argument)],
        Derives .sum a.lexemes a.tree a.ending := by simpa using argument
    have call : Derives .call [.word "f", .symbol .lparen, .word "y", .symbol .rparen]
        (.call "f" [.identifier "y"]) .arguments :=
      .explicitCall (.word "f") (.identifier "f") (by simp) each
    exact ((parse_callSyntax [_, _, _] [_, _, _, _] pulled place (admits _)
      (.inr (.inl rfl)) _).2 call).1 (by decide)
  · have pulled : (Lexer.read "x^((y+z)w $").Pulls
        [⟨.word "x", 0⟩, ⟨.symbol .power, 1⟩, ⟨.symbol .lparen, 2⟩, ⟨.symbol .lparen, 3⟩,
          ⟨.word "y", 4⟩, ⟨.symbol .plus, 5⟩, ⟨.word "z", 6⟩, ⟨.symbol .rparen, 7⟩, ⟨.word "w", 8⟩]
        ⟨[' ', '$'], 9⟩ := by
      iterate 9 refine .token rfl ?_
      exact .nothing
    have sum : Derives .sum [.word "y", .symbol .plus, .word "z"]
        (.binary (.identifier "y") Operator.plus.kind (.identifier "z")) .plain :=
      .sum (.inl rfl) argument ((Derives.word "z").loosen (by decide))
    obtain ⟨first, head, refused⟩ := (parse_callSyntax [_, _, _] [_, _, _, _, _] pulled place
      (admits _) (.inr (.inl rfl)) _).1 (.group sum) (.inl rfl)
    cases head
    exact refused

/-- Outside of all brackets the arguments behind a call are left out of the tree. -/
theorem parse_callSyntax_leftOut :
    LeadsTo .sum 0 [] ∧
    Derives .call [.word "f", .symbol .lparen, .word "x", .symbol .comma, .word "y",
      .symbol .rparen] (.call "f" [.identifier "x", .identifier "y"]) .arguments ∧
    tokenize "f(x, y)(z)" =
      .ok ([⟨.word "f", 0⟩, ⟨.symbol .lparen, 1⟩, ⟨.word "x", 2⟩, ⟨.symbol .comma, 3⟩,
        ⟨.word "y", 5⟩, ⟨.symbol .rparen, 6⟩] ++
        [⟨.symbol .lparen, 7⟩, ⟨.word "z", 8⟩, ⟨.symbol .rparen, 9⟩]) ∧
    parse "f(x, y)(z)" = .ok (.call "f" [.identifier "x", .identifier "y"]) := by
  have each : ∀ a ∈ [(⟨[.word "x"], .identifier "x", .plain⟩ : Argument),
      ⟨[.word "y"], .identifier "y", .plain⟩], Derives .sum a.lexemes a.tree a.ending := by
    simpa using And.intro ((Derives.word "x").loosen (by decide))
      ((Derives.word "y").loosen (by decide))
  have call : Derives .call [.word "f", .symbol .lparen, .word "x", .symbol .comma, .word "y",
      .symbol .rparen] (.call "f" [.identifier "x", .identifier "y"]) .arguments :=
    .explicitCall (.word "f") (.identifier "f") (by simp) each
  exact ⟨.start, call, by cbv, by cbv⟩

end Reckoner
