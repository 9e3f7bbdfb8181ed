import Reckoner.Proofs.Parser.Soundness

/-!
# The parser accepts exactly its grammar

Completeness and soundness put together, for a text whose tokens are known: the parser gives a tree
after taking the first tokens exactly if they derive the tree and the token behind them cannot
continue the expression. A state holds one tree only, so no lexemes derive two.
-/

namespace Reckoner.Parser

open Reckoner.Grammar

/-- Behind a whole expression the parser accepts where the text ends, and before every lexeme that
does not continue the expression. -/
theorem Holds.completes {s : State} {e : Expr} {ending : Ending} (h : Holds s .sum e ending [] [])
    {following : Option Token} (stops : ∀ t ∈ following, Stops ending t.lexeme) (length : Nat) :
    s.Completes length following e := by
  obtain ⟨e₀, start, pending₀, rfl, ⟨-, whole⟩, -⟩ := h
  have tree : settleAll e₀ pending₀ = e := whole
  cases following with
  | none => cases ending <;> simp [State.Completes, ended, State.finish, tree]
  | some t =>
      obtain ⟨noOperator, plain⟩ := stops t rfl
      have noKind : Operator.ofKind? t.lexeme.kind = none := by
        rw [Option.eq_none_iff_forall_ne_some]
        intro op isOperator
        exact noOperator op (Lexeme.eq_symbol_of_kind (Operator.ofKind?_eq_some_iff.mp isOperator))
      rw [State.Completes, feed_ended plain, proceed, noKind]
      simp only [close, tree]

theorem completes_of_derives {ts : List Token} {e : Expr} {ending : Ending}
    (h : Derives .sum (ts.map Token.lexeme) e ending) {following : Option Token}
    (stops : ∀ t ∈ following, Stops ending t.lexeme) (length : Nat) :
    ∃ last, State.start.take? ts = some last ∧ last.Completes length following e := by
  obtain ⟨last, taken, holds⟩ := takes_of_derives h ts [] [] rfl (waits_nil _)
  exact ⟨last, taken, holds.completes stops length⟩

/-- No lexemes derive two trees, and no tree is derived with two endings. -/
theorem Derives.unique {l m : Grammar.Level} {w : List Lexeme} {e e' : Expr}
    {ending ending' : Ending} (h : Derives l w e ending) (h' : Derives m w e' ending') :
    e = e' ∧ ending = ending' := by
  have written : (w.map (Token.mk · 0)).map Token.lexeme = w := by
    rw [List.map_map]
    exact List.map_id w
  obtain ⟨s, taken, e₀, start, pending₀, hs, ⟨-, tree⟩, -⟩ :=
    takes_of_derives h _ [] [] written (waits_nil _)
  obtain ⟨s', taken', e₀', start', pending₀', hs', ⟨-, tree'⟩, -⟩ :=
    takes_of_derives h' _ [] [] written (waits_nil _)
  obtain rfl : s = s' := Option.some.inj (taken.symm.trans taken')
  rw [hs] at hs'
  cases ending with
  | plain =>
      cases ending' with
      | plain => cases hs'; exact ⟨tree.symm.trans tree', rfl⟩
      | arguments => cases hs'
  | arguments =>
      cases ending' with
      | plain => cases hs'
      | arguments => cases hs'; exact ⟨tree.symm.trans tree', rfl⟩

end Reckoner.Parser

namespace Reckoner

open Reckoner.Grammar

/-- A text whose tokens lead to the end of an expression is read as that expression, to its end. -/
theorem parse_of_take? {source : String} {ts : List Token} {last : Parser.State} {e : Expr}
    (tokens : tokenize source = .ok ts) (led : Parser.State.start.take? ts = some last)
    (finish : last.finish source.length = .ok e) :
    parse source = .ok e ∧ Parser.taken .start (.read source) = ts := by
  have whole := Parser.run_eq_ok_iff tokens source.length .start e (Nat.le_refl ts.length)
  rw [List.take_length, List.getElem?_eq_none (Nat.le_refl ts.length)] at whole
  exact whole.mpr ⟨last, led, finish⟩

/-- A text whose tokens derive a tree is read as that tree, to its end. -/
theorem parse_of_derives {source : String} {ts : List Token} {e : Expr} {ending : Ending}
    (tokens : tokenize source = .ok ts) (h : Derives .sum (ts.map Token.lexeme) e ending) :
    parse source = .ok e ∧ Parser.taken .start (.read source) = ts := by
  have noneFollows : ∀ t ∈ (none : Option Token), Stops ending t.lexeme := by simp
  obtain ⟨last, led, finish⟩ := Parser.completes_of_derives h noneFollows source.length
  exact parse_of_take? tokens led finish

/-- **The parser accepts exactly its grammar.** Of a text with the tokens `ts` it takes the first
`k` and gives the tree `e` exactly if those derive `e` and the next token, if there is one, does not
continue the expression. No lexemes derive two trees. -/
theorem parse_eq_ok_iff_derives :
    (∀ source ts, tokenize source = .ok ts → ∀ (e : Expr) (k : Nat), k ≤ ts.length →
      ((parse source = .ok e ∧ Parser.taken .start (.read source) = ts.take k) ↔
        ∃ ending, Derives .sum ((ts.take k).map Token.lexeme) e ending ∧
          ∀ t ∈ ts[k]?, Stops ending t.lexeme)) ∧
    ∀ w e e' ending ending', Derives .sum w e ending → Derives .sum w e' ending' → e = e' := by
  refine ⟨fun source ts tokens e k hk => ?_, fun w e e' _ _ h h' => (Parser.Derives.unique h h').1⟩
  rw [parse, Lexer.parse, Parser.run_eq_ok_iff tokens source.length .start e hk]
  constructor
  · rintro ⟨last, taken, completes⟩
    exact Parser.derives_of_completes taken completes
  · rintro ⟨ending, derived, stops⟩
    exact Parser.completes_of_derives derived stops source.length

/-- Arguments behind arguments are not read, and the tree before them is whole. -/
theorem parse_second_arguments :
    parse "f(x)(y)" = .ok (.call "f" [.identifier "x"]) ∧
      Parser.taken .start (.read "f(x)(y)") =
        [⟨.word "f", 0⟩, ⟨.symbol .lparen, 1⟩, ⟨.word "x", 2⟩, ⟨.symbol .rparen, 3⟩] := by
  have tokens : tokenize "f(x)(y)" =
      .ok [⟨.word "f", 0⟩, ⟨.symbol .lparen, 1⟩, ⟨.word "x", 2⟩, ⟨.symbol .rparen, 3⟩,
        ⟨.symbol .lparen, 4⟩, ⟨.word "y", 5⟩, ⟨.symbol .rparen, 6⟩] := by cbv
  have argument : Derives .sum [.word "x"] (.identifier "x") .plain :=
    (Derives.word "x").loosen (by decide)
  have each : ∀ a ∈ [(⟨[.word "x"], .identifier "x", .plain⟩ : Argument)],
      Derives .sum a.lexemes a.tree a.ending := by simpa using argument
  have call : Derives .call [.word "f", .symbol .lparen, .word "x", .symbol .rparen]
      (.call "f" [.identifier "x"]) .arguments :=
    .explicitCall (.word "f") (.identifier "f") (by simp) each
  refine (parse_eq_ok_iff_derives.1 _ _ tokens _ 4 (by decide)).mpr
    ⟨.arguments, call.loosen (by decide), ?_⟩
  intro t ht
  obtain rfl : (⟨.symbol .lparen, 4⟩ : Token) = t := Option.some.inj ht
  refine ⟨fun op => ?_, fun h => by cases h⟩
  cases op <;> decide

end Reckoner
