import Reckoner.Proofs.Lexer.Pulling
import Reckoner.Proofs.Parser.Exact

/-!
# Where the parser stops

The parser stops with one pull in hand that it does not take: a token, the end of the text, or a
lexical fault. `exists_stop` reads off the state before that pull whether the parser finds a fault
there. No state is beyond repair: an operand and the closing brackets complete whatever is
unfinished (`State.takes_closing`), so every part of a text that the parser took begins some formula
(`completable_of_pulls`).
-/

namespace Reckoner.Parser

open Reckoner.Grammar

/-! ## The pull in hand -/

/-- What was pulled and not taken where reading on from a state stops. -/
def ahead (s : State) (l : Lexer) : Pull :=
  match h : l.next with
  | (.token t, after) =>
      have := Lexer.length_next_lt h
      match s.feed t with
      | .shift next => ahead next after
      | .accept _ | .fail _ => .token t
  | (.done, _) => .done
  | (.fault f, _) => .fault f
termination_by l.rest.length

/-- The state finds a grammatical fault in what was pulled behind it; `length` is the length of the
whole text. -/
def State.Rejects (s : State) (length : Nat) (f : GrammarFault) : Pull → Prop
  | .done => s.finish length = .error f
  | .token t => s.feed t = .fail f
  | .fault _ => False

theorem ahead_of_shift {s next : State} {l after : Lexer} {t : Token}
    (h : l.next = (.token t, after)) (hs : s.feed t = .shift next) :
    ahead s l = ahead next after := by
  rw [ahead]
  split <;> simp_all

/-- What is pulled is in hand if it is no token, or a token that the state does not shift. -/
theorem ahead_of_stop {s : State} {l after : Lexer} {pull : Pull} (h : l.next = (pull, after))
    (stops : ∀ t, pull = .token t → ∀ next, s.feed t ≠ .shift next) :
    ahead s l = pull ∧ taken s l = [] := by
  rw [ahead, taken]
  cases pull with
  | done => constructor <;> split <;> simp_all
  | fault f => constructor <;> split <;> simp_all
  | token t =>
      have noShift := stops t rfl
      cases hs : s.feed t with
      | shift next => exact absurd hs (noShift next)
      | accept e => constructor <;> split <;> simp_all
      | fail f => constructor <;> split <;> simp_all

/-- The tokens taken are those pulled before the one in hand, and the run ends with a fault of the
grammar exactly if the state that they lead to finds it there. -/
theorem exists_stop (length : Nat) (s : State) (l : Lexer) :
    ∃ last after, l.Pulls (taken s l) after ∧ after.next.1 = ahead s l ∧
      s.take? (taken s l) = some last ∧
      ∀ f, (run length s l).1 = .error (.grammar f) ↔ last.Rejects length f (ahead s l) := by
  -- where the run stops at once, the state is the last one and nothing was taken
  have here {s : State} {l after : Lexer} {pull : Pull} {result : Except SourceFault Expr}
      (hn : l.next = (pull, after))
      (stops : ∀ t, pull = .token t → ∀ next, s.feed t ≠ .shift next)
      (rejects : ∀ f, result = .error (.grammar f) ↔ s.Rejects length f pull) :
      ∃ last after, l.Pulls (taken s l) after ∧ after.next.1 = ahead s l ∧
        s.take? (taken s l) = some last ∧
        ∀ f, result = .error (.grammar f) ↔ last.Rejects length f (ahead s l) := by
    obtain ⟨inHand, took⟩ := ahead_of_stop hn stops
    rw [inHand, took]
    exact ⟨s, l, .nothing, by rw [hn], rfl, rejects⟩
  fun_induction run length s l with
  | case1 s l after hn =>
      refine here hn (by simp) fun f => ?_
      cases hf : s.finish length <;> simp [State.Rejects, hf, Except.mapError]
  | case2 s l f after hn => exact here hn (by simp) fun g => by simp [State.Rejects]
  | case3 s l t after hn _ next hs ih =>
      obtain ⟨last, behind, pulled, inHand, led, rejects⟩ := ih
      rw [(run_of_shift length hn hs).2, ahead_of_shift hn hs]
      exact ⟨last, behind, .token hn pulled, inHand, by rw [State.take?_cons hs, led], rejects⟩
  | case4 s l t after hn _ e hs =>
      exact here hn (by rintro _ ⟨⟩; simp [hs]) fun f => by simp [State.Rejects, hs]
  | case5 s l t after hn _ f hs =>
      exact here hn (by rintro _ ⟨⟩; simp [hs]) fun g => by simp [State.Rejects, hs]

/-- Tokens that a text begins with are read before the fault that is found behind them. -/
theorem run_of_rejects {length : Nat} {s last : State} {l after : Lexer} {ts : List Token}
    {f : GrammarFault} (pulled : l.Pulls ts after) (led : s.take? ts = some last)
    (rejects : last.Rejects length f after.next.1) :
    (run length s l).1 = .error (.grammar f) := by
  induction pulled generalizing s with
  | @nothing l =>
      cases led
      cases hn : l.next with
      | mk pull after =>
          rw [hn] at rejects
          cases pull with
          | done =>
              have finish : last.finish length = .error f := rejects
              rw [(run_of_done length hn).1, finish]
              rfl
          | token t => rw [(run_of_fail length hn rejects).1]
          | fault => cases rejects
  | token hn _ ih =>
      rw [State.take?] at led
      split at led
      · next next hs =>
          rw [(run_of_shift length hn hs).1]
          exact ih led rejects
      · cases led
      · cases led

/-! ## Completing what is unfinished -/

/-- Lexemes that complete a state: an operand if one has to begin, and the brackets that close what
is open. -/
def State.closing : State → List Lexeme
  | .expecting _ outer => .word "x" :: List.replicate outer.length (.symbol .rparen)
  | .basic _ _ _ outer | .called _ _ outer => List.replicate outer.length (.symbol .rparen)

/-- The state is worth an expression where the text ends. -/
def State.Whole (s : State) : Prop := ∃ e, ∀ length, s.finish length = .ok e

theorem takes_brackets (ending : Ending) (e : Expr) (start : Nat) (pending : List Pending)
    {outer : List Level} {ts : List Token}
    (written : ts.map Token.lexeme = List.replicate outer.length (.symbol .rparen)) :
    ∃ last, (ended ending e start pending outer).take? ts = some last ∧ last.Whole := by
  induction outer generalizing ending e start pending ts with
  | nil =>
      obtain rfl : ts = [] := List.map_eq_nil_iff.mp written
      refine ⟨_, rfl, settleAll e pending, fun length => ?_⟩
      cases ending <;> rfl
  | cons level outer ih =>
      rw [List.length_cons, List.replicate_succ] at written
      obtain ⟨t, us, rfl, ht, hus⟩ := List.map_eq_cons_iff.mp written
      have closes : (ended ending e start pending (level :: outer)).feed t =
          close t (settleAll e pending) (level :: outer) := by
        rw [feed_ended_symbol ht (by decide), proceed, ht]
        rfl
      rw [State.take?, closes]
      rcases level with ⟨opening, pending'⟩
      cases opening with
      | group start' =>
          simp only [close, ht, if_true]
          exact ih .plain _ start' pending' hus
      | arguments name before =>
          simp only [close, ht, Lexeme.symbol.injEq, reduceCtorEq, if_false, if_true]
          exact ih .arguments _ 0 pending' hus

/-- **Every state can be completed.** -/
theorem State.takes_closing (s : State) {ts : List Token}
    (written : ts.map Token.lexeme = s.closing) :
    ∃ last, s.take? ts = some last ∧ last.Whole := by
  cases s with
  | basic e start pending outer => exact takes_brackets .plain e start pending written
  | called e pending outer => exact takes_brackets .arguments e 0 pending written
  | expecting pending outer =>
      obtain ⟨⟨_, position⟩, us, rfl, rfl, hus⟩ := List.map_eq_cons_iff.mp written
      have begins : (State.expecting pending outer).feed ⟨.word "x", position⟩ =
          .shift (.basic (.identifier "x") position pending outer) := rfl
      rw [State.take?_cons begins]
      exact takes_brackets .plain _ position pending hus

theorem State.wellFormed_closing (s : State) : ∀ x ∈ s.closing, x.WellFormed := by
  have brackets (n : Nat) : ∀ x ∈ List.replicate n (Lexeme.symbol .rparen), x.WellFormed := by
    intro x hx
    obtain rfl := List.eq_of_mem_replicate hx
    trivial
  have operand : (Lexeme.word "x").WellFormed := by
    refine ⟨by decide, fun c hc => ?_⟩
    obtain rfl : c = 'x' := by simpa using hc
    decide
  cases s with
  | basic => exact brackets _
  | called => exact brackets _
  | expecting => exact List.forall_mem_cons.mpr ⟨operand, brackets _⟩

end Reckoner.Parser

namespace Reckoner

/-! ## Texts that begin a formula -/

/-- The tokens are those of a beginning of the text, and some other text behind that beginning makes
a formula of it, which the parser reads from these tokens and all that follow. -/
def Completable (source : String) (ts : List Token) : Prop :=
  ∃ kept dropped extra, kept ++ dropped = source ∧ tokenize kept = .ok ts ∧
    ∃ more e, tokenize (kept ++ extra) = .ok (ts ++ more) ∧ parse (kept ++ extra) = .ok e ∧
      Parser.taken .start (.read (kept ++ extra)) = ts ++ more

/-- **What the parser takes begins some formula.** -/
theorem completable_of_pulls {source : String} {ts : List Token} {after : Lexer}
    {last : Parser.State} (pulled : (Lexer.read source).Pulls ts after)
    (led : Parser.State.start.take? ts = some last) : Completable source ts := by
  obtain ⟨pieces, readable, tokens, whole⟩ := pulled.exists_readable
  obtain rfl : tokensOf 0 pieces = ts := tokens
  -- the pieces that were read, and behind them what closes the state, each after a space
  have longer := tokenize_flatMap_text (readable.append_spaced last.wellFormed_closing)
  rw [List.flatMap_append, String.ofList_append, tokensOf_append] at longer
  have written : (tokensOf (0 + (pieces.flatMap Piece.text).length) (spaced last.closing)).map
      Token.lexeme = last.closing := by simp
  obtain ⟨final, closed, e, finish⟩ := last.takes_closing written
  have led' := Parser.State.take?_append .start (tokensOf 0 pieces)
    (tokensOf (0 + (pieces.flatMap Piece.text).length) (spaced last.closing))
  rw [led, Option.bind_some, closed] at led'
  refine ⟨String.ofList (pieces.flatMap Piece.text), String.ofList after.rest, _, ?_,
    tokenize_flatMap_text readable, _, e, longer, parse_of_take? longer led' (finish _)⟩
  rw [← String.ofList_append, ← whole]
  exact String.ofList_toList

end Reckoner
