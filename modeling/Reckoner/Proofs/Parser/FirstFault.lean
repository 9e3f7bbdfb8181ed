import Reckoner.Proofs.Parser.Stopping
import Reckoner.Proofs.Parser.Unplaced

/-!
# The first token that cannot be

A fault of the grammar is found as early as it can be: what was taken before begins some formula,
and with the token in hand no text begins one. The fault has the position of that token, with one
exception. That a term cannot be called is seen one token late, behind the term, and the fault has
the position where the term began.
-/

namespace Reckoner.Parser

open Reckoner.Grammar

/-! ## What a fault says -/

section

variable {t : Token} {e : Expr} {pending : List Pending} {outer : List Level} {f : GrammarFault}

theorem fault_of_begin (h : begin t pending outer = .fail f) :
    f = ⟨.noTerm t.lexeme, t.position⟩ := by
  rw [begin] at h
  split at h <;> cases h
  rfl

theorem fault_of_close (h : close t e outer = .fail f) :
    f = ⟨.unclosed t.lexeme, t.position⟩ := by
  revert h
  fun_cases close t e outer <;> simp +contextual [eq_comm]

theorem fault_of_proceed (h : proceed t e pending outer = .fail f) :
    f = ⟨.unclosed t.lexeme, t.position⟩ := by
  rw [proceed] at h
  split at h
  · cases h
  · exact fault_of_close h

/-- A token is refused because no operand begins with it, because a bracket is open, or because the
term before it cannot be called. -/
theorem fault_of_feed {s : State} (h : s.feed t = .fail f) :
    f = ⟨.noTerm t.lexeme, t.position⟩ ∨ f = ⟨.unclosed t.lexeme, t.position⟩ ∨
      ∃ e start pending outer, s = .basic e start pending outer ∧ calleeName? e = none ∧
        f = ⟨.notCallable e.shape, start⟩ := by
  revert h
  fun_cases State.feed s t with
  | case1 => exact fun h => .inl (fault_of_begin h)
  | case2 => exact fun h => .inr (.inl (fault_of_proceed h))
  | case3 => exact fun h => .inl (fault_of_begin h)
  | case4 => exact fun h => .inl (fault_of_begin h)
  | case5 => exact fun h => by cases h
  | case6 e start pending outer | case7 e start pending outer | case8 e start pending outer =>
      intro h
      cases h
      exact .inr (.inr ⟨e, start, pending, outer, rfl, ‹_›, rfl⟩)
  | case9 => exact fun h => .inr (.inl (fault_of_proceed h))

/-- The end of the text is a fault where nothing was read, or something is unfinished. -/
theorem fault_of_finish {s : State} {length : Nat} (h : s.finish length = .error f) :
    s = .start ∧ f = ⟨.nothing, 0⟩ ∨ f = ⟨.cutShort, length⟩ := by
  unfold State.finish at h
  split at h
  · cases h
    exact .inl ⟨rfl, rfl⟩
  · cases h
  · cases h
  · cases h
    exact .inr rfl

theorem eq_nil_of_reads_start {w : List Lexeme} (h : Reads .start w) : w = [] := by
  cases h with
  | expecting opened awaits =>
      cases opened
      cases awaits
      rfl

end

/-! ## Where a term began -/

section

variable {t : Token} {e : Expr} {start : Nat} {pending : List Pending} {outer : List Level}

theorem start_of_begin {pending' : List Pending} {outer' : List Level}
    (h : begin t pending' outer' = .shift (.basic e start pending outer)) : start = t.position := by
  rw [begin] at h
  split at h <;> cases h <;> rfl

/-- Behind a closing bracket a term may have begun long ago. Behind any other token it is the
token. -/
theorem start_of_feed {s : State} (h : s.feed t = .shift (.basic e start pending outer))
    (other : t.lexeme ≠ .symbol .rparen) : start = t.position := by
  have noneCloses (e' : Expr) (pending' : List Pending) (outer' : List Level) :
      proceed t e' pending' outer' ≠ .shift (.basic e start pending outer) := by
    intro h
    rw [proceed] at h
    split at h
    · cases h
    · revert h
      fun_cases close t (settleAll e' pending') outer' <;> simp_all
  revert h
  fun_cases State.feed s t with
  | case1 => exact start_of_begin
  | case2 => exact fun h => absurd h (noneCloses _ _ _)
  | case3 => exact start_of_begin
  | case4 => exact start_of_begin
  | case5 => exact fun h => by cases h
  | case6 | case7 | case8 => exact fun h => by cases h
  | case9 => exact fun h => absurd h (noneCloses _ _ _)

/-- An opening bracket that is taken is that of a group, or that of the arguments of a call. -/
theorem next_of_feed_bracket {s next : State} (ht : t.lexeme = .symbol .lparen)
    (h : s.feed t = .shift next) :
    ∃ opening pending outer, next = .expecting [] (⟨opening, pending⟩ :: outer) ∧
      (opening = .group t.position ∨ ∃ name, opening = .arguments name []) := by
  cases s with
  | expecting pending outer =>
      rw [State.feed, begin, ht] at h
      exact ⟨_, pending, outer, (Step.shift.inj h).symm, .inl rfl⟩
  | called e pending outer =>
      -- arguments do not follow arguments: the bracket stands behind the whole expression
      have noOperator : Operator.ofKind? t.lexeme.kind = none := by rw [ht]; rfl
      rw [State.feed, proceed, noOperator] at h
      revert h
      fun_cases close t (settleAll e pending) outer <;> simp_all
  | basic e start pending outer =>
      obtain ⟨name, -, kind, -⟩ | ⟨name, -, -, feed⟩ | ⟨f, feed⟩ | ⟨-, -, noBracket, -⟩ :=
        feed_basic_cases t e start pending outer
      · simp [ht, Lexeme.kind] at kind
      · rw [feed] at h
        exact ⟨_, pending, outer, (Step.shift.inj h).symm, .inr ⟨name, rfl⟩⟩
      · rw [feed] at h
        cases h
      · exact absurd ht noBracket

/-- A single token that is taken as a term is where the term began. -/
theorem start_of_single {s : State} {ts : List Token} {x : Lexeme}
    (written : ts.map Token.lexeme = [x]) (other : x ≠ .symbol .rparen)
    (led : s.take? ts = some (.basic e start pending outer)) :
    ∃ first more, ts = first :: more ∧ start = first.position := by
  obtain ⟨t, rfl, rfl⟩ := List.map_eq_singleton_iff.mp written
  rw [State.take?] at led
  split at led
  · next next hs =>
      cases led
      exact ⟨t, [], rfl, start_of_feed hs other⟩
  · cases led
  · cases led

/-- The position that is kept for a basic term is that of its first token. -/
theorem start_of_basic {s : State} {ts : List Token} {w : List Lexeme} {tree : Expr}
    (derived : Derives .basic w tree .plain) (written : ts.map Token.lexeme = w)
    (led : s.take? ts = some (.basic e start pending outer)) :
    ∃ first more, ts = first :: more ∧ start = first.position := by
  cases derived with
  | number => exact start_of_single written (by simp) led
  | word => exact start_of_single written (by simp) led
  | quoted => exact start_of_single written (by simp) led
  | group inside =>
      obtain ⟨bracket, us, rfl, opens, hus⟩ := List.map_eq_cons_iff.mp written
      obtain ⟨vs, last, rfl, hvs, hlast⟩ := List.map_eq_append_iff.mp hus
      obtain ⟨t, rfl, closes⟩ := List.map_eq_singleton_iff.mp hlast
      refine ⟨bracket, vs ++ [t], rfl, ?_⟩
      rw [State.take?] at led
      split at led
      · next next hs =>
          obtain ⟨opening, pending', outer', rfl, kind⟩ := next_of_feed_bracket opens hs
          -- what stands inside is taken as a phrase, and the bracket that opened decides
          obtain ⟨middle, inner, holds⟩ := takes_of_derives inside vs [] _ hvs (waits_nil _)
          rw [State.take?_append, inner, Option.bind_some, State.take?, holds.feed_close (.inl closes),
            close.eq_def, closes] at led
          rcases kind with rfl | ⟨name, rfl⟩
          · cases led
            rfl
          · cases led
      · cases led
      · cases led

end

end Reckoner.Parser

namespace Reckoner

open Reckoner.Grammar

/-! ## Faults of a text -/

/-- Every text whose first tokens have these lexemes has a fault with this cause. What follows them
may be anything, also no lexeme at all. -/
def Hopeless (ts : List Token) (cause : GrammarCause) : Prop :=
  ∀ source us after, (Lexer.read source).Pulls us after →
    us.map Token.lexeme = ts.map Token.lexeme →
    ∃ position, parse source = .error (.grammar ⟨cause, position⟩)

/-- What a fault says, and at which position, after the tokens that were taken and for the pull in
hand. -/
inductive Reported (source : String) : List Token → Pull → String → Nat → Prop
  | nothing : (∀ c ∈ source.toList, c = ' ') →
      Reported source [] .done "Input is empty or invalid" 0
  | cutShort {ts} : ts ≠ [] → tokenize source = .ok ts →
      Reported source ts .done "Unexpected end of input" source.length
  | unclosed {ts t} :
      Reported source ts (.token t) ("Expected one of: RPAREN but got: " ++ t.lexeme.shown)
        t.position
  | noTerm {ts t} :
      Reported source ts (.token t) ("Unknown expression starting with " ++ t.lexeme.shown)
        t.position
  /-- The term that cannot be called is the last that was taken, and the position that of its first
  token. -/
  | notCallable {before first more t e} :
      Derives .basic ((first :: more).map Token.lexeme) e .plain → Parser.calleeName? e = none →
      Reported source (before ++ first :: more) (.token t)
        ("Cannot use " ++ e.shape.label ++ " as a function name") first.position

/-- The fault is that of the first tokens from which no formula begins: those that were taken and
the one in hand. -/
structure FirstFault (source : String) (ts : List Token) (inHand : Pull) (f : GrammarFault) :
    Prop where
  pulled : ∃ after, (Lexer.read source).Pulls ts after ∧ after.next.1 = inHand
  completable : Completable source ts
  hopeless : ∀ t, inHand = .token t → Hopeless (ts ++ [t]) f.cause
  reported : Reported source ts inHand f.cause.message f.position

section

variable {source : String} {ts : List Token} {last : Parser.State} {after : Lexer} {t : Token}
  {f : GrammarFault}

/-- A token that was refused is refused behind the same lexemes in every text. -/
theorem hopeless_of_feed (led : Parser.State.start.take? ts = some last)
    (refused : last.feed t = .fail f) : Hopeless (ts ++ [t]) f.cause := by
  intro source us after pulled lexemes
  rw [List.map_append, List.map_eq_append_iff] at lexemes
  obtain ⟨us, vs, rfl, before, single⟩ := lexemes
  obtain ⟨t', rfl, same⟩ := List.map_eq_singleton_iff.mp single
  obtain ⟨middle, pulled, next⟩ := pulled.exists_of_append
  obtain ⟨last', led', states⟩ := Parser.take?_alike rfl before.symm led
  obtain ⟨position, refused'⟩ := Parser.fail_alike states same.symm refused
  cases next with
  | token hn =>
      have rejects : last'.Rejects source.length ⟨f.cause, position⟩ middle.next.1 := by
        rw [hn]
        exact refused'
      exact ⟨position, Parser.run_of_rejects pulled led' rejects⟩

/-- Where the text ends, either nothing was read or an expression is unfinished. -/
theorem reported_of_finish (pulled : (Lexer.read source).Pulls ts after)
    (done : after.next.1 = .done) (led : Parser.State.start.take? ts = some last)
    (finish : last.finish source.length = .error f) :
    Reported source ts .done f.cause.message f.position := by
  cases ts with
  | nil =>
      cases led
      cases finish
      refine .nothing fun c hc => ?_
      cases pulled
      obtain ⟨trailing, spaces⟩ := Lexer.exists_trailing_of_next (Prod.ext done rfl)
      have blank : source.toList = List.replicate trailing ' ' := spaces
      rw [blank] at hc
      exact List.eq_of_mem_replicate hc
  | cons t more =>
      have read := Parser.reads_start.take led
      obtain ⟨rfl, -⟩ | rfl := Parser.fault_of_finish finish
      · cases Parser.eq_nil_of_reads_start read
      · exact .cutShort (List.cons_ne_nil t more) (pulled.tokens_of_done done)

theorem reported_of_feed (led : Parser.State.start.take? ts = some last)
    (refused : last.feed t = .fail f) :
    Reported source ts (.token t) f.cause.message f.position := by
  obtain rfl | rfl | ⟨e, start, pending, outer, rfl, notCallable, rfl⟩ :=
    Parser.fault_of_feed refused
  · exact .noTerm
  · exact .unclosed
  · -- the lexemes that were read end with those of the term, which tells its tokens
    have read := Parser.reads_start.take led
    rw [List.nil_append] at read
    generalize hw : ts.map Token.lexeme = w at read
    cases read with
    | @basic _ _ _ _ _ v _ _ _ _ _ derived =>
        obtain ⟨before, term, rfl, -, written⟩ := List.map_eq_append_iff.mp hw
        rw [Parser.State.take?_append, Option.bind_eq_some_iff] at led
        obtain ⟨middle, -, led⟩ := led
        obtain ⟨first, more, rfl, rfl⟩ := Parser.start_of_basic derived written led
        rw [← written] at derived
        exact .notCallable derived notCallable

/-- No other fault says that a text is empty. -/
theorem Reported.blank {inHand : Pull} {message : String} {position : Nat}
    (h : Reported source ts inHand message position)
    (empty : message = "Input is empty or invalid") : ∀ c ∈ source.toList, c = ' ' := by
  have first := congrArg (fun text => text.toList.take 3) empty
  cases h with
  | nothing blank => exact blank
  | cutShort => exact absurd empty (by decide)
  | unclosed => simp at first
  | noTerm => simp at first
  | notCallable => simp at first

theorem parse_of_blank (blank : ∀ c ∈ source.toList, c = ' ') :
    parse source = .error (.grammar ⟨.nothing, 0⟩) := by
  have spaces := List.eq_replicate_of_mem blank
  have done := next_trailing source.toList.length 0
  rw [← spaces] at done
  rw [parse, Lexer.parse, Lexer.read, (Parser.run_of_done source.length done).1]
  rfl

end

/-- **A fault of the grammar is that of the first tokens from which no formula begins.** The text
before the token in hand can be completed to a formula; with that token in hand every text has the
same fault, up to its position; and what the fault says has the position of that token, or of the
term that cannot be called. A text is said to be empty exactly if it has nothing but spaces. -/
theorem parse_firstFault (source : String) :
    (∀ f, parse source = .error (.grammar f) →
      FirstFault source (Parser.taken .start (.read source)) (Parser.ahead .start (.read source))
        f) ∧
    ((∃ f, parse source = .error (.grammar f) ∧
        f.cause.message = "Input is empty or invalid") ↔ ∀ c ∈ source.toList, c = ' ') := by
  have first (f : GrammarFault) (h : parse source = .error (.grammar f)) :
      FirstFault source (Parser.taken .start (.read source)) (Parser.ahead .start (.read source))
        f := by
    obtain ⟨last, after, pulled, inHand, led, rejects⟩ :=
      Parser.exists_stop source.length .start (.read source)
    have rejected := (rejects f).mp h
    cases hn : Parser.ahead .start (.read source) with
    | done =>
        rw [hn] at inHand rejected
        exact ⟨⟨after, pulled, inHand⟩, completable_of_pulls pulled led, by simp,
          reported_of_finish pulled inHand led rejected⟩
    | token t =>
        rw [hn] at inHand rejected
        refine ⟨⟨after, pulled, inHand⟩, completable_of_pulls pulled led, ?_,
          reported_of_feed led rejected⟩
        intro t' ht'
        cases ht'
        exact hopeless_of_feed led rejected
    | fault f' =>
        rw [hn] at rejected
        cases rejected
  refine ⟨first, ?_, fun blank => ⟨_, parse_of_blank blank, rfl⟩⟩
  rintro ⟨f, h, empty⟩
  exact (first f h).reported.blank empty

set_option maxRecDepth 1000 in
/-- A sum cannot be called; the fault has the position of the bracket around it. -/
theorem parse_firstFault_sum :
    parse "x^(y+z)w" = .error (.grammar ⟨.notCallable .binary, 2⟩) ∧
      FirstFault "x^(y+z)w"
        [⟨.word "x", 0⟩, ⟨.symbol .power, 1⟩, ⟨.symbol .lparen, 2⟩, ⟨.word "y", 3⟩,
          ⟨.symbol .plus, 4⟩, ⟨.word "z", 5⟩, ⟨.symbol .rparen, 6⟩]
        (.token ⟨.word "w", 7⟩) ⟨.notCallable .binary, 2⟩ := by
  have fault : parse "x^(y+z)w" = .error (.grammar ⟨.notCallable .binary, 2⟩) := by cbv
  have taken : Parser.taken .start (.read "x^(y+z)w") =
      [⟨.word "x", 0⟩, ⟨.symbol .power, 1⟩, ⟨.symbol .lparen, 2⟩, ⟨.word "y", 3⟩,
        ⟨.symbol .plus, 4⟩, ⟨.word "z", 5⟩, ⟨.symbol .rparen, 6⟩] := by cbv
  have inHand : Parser.ahead .start (.read "x^(y+z)w") = .token ⟨.word "w", 7⟩ := by cbv
  refine ⟨fault, ?_⟩
  rw [← taken, ← inHand]
  exact (parse_firstFault _).1 _ fault

end Reckoner
