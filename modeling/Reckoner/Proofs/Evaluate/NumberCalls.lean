import Reckoner.Proofs.Evaluate.DeadBranches
import Reckoner.Proofs.Lexer.Pulling
import Reckoner.Proofs.Number.Literals
import Reckoner.Proofs.Number.Pattern
import Reckoner.Proofs.Parser.Exact

/-!
# Numbers that are called

A number in front of arguments is called under its text. The text of a finite number begins with a
digit, so it is no name: no scope with names that a formula can spell binds it, and neither do the
built-in ones. The call fails at the check of its name, before anything of the arguments happens.
A literal beyond the largest double is infinite, though, and the text of infinity is a name like any
other (`isName_text_literal_iff`).
-/

namespace Reckoner

open Reckoner.Grammar

/-! ## Texts of literals -/

instance (name : String) : Decidable (IsName name) :=
  haveI := List.decidableBAll (fun c => Text.isLetter c = true) name.toList
  inferInstanceAs (Decidable (_ ∧ _))

theorem isLetter_eq_false_of_decimal {c : Char} (h : c.isDigit = true) :
    Text.isLetter c = false := by
  refine Text.isLetter_eq_false_of_isDigit ?_
  have inRange : 48 ≤ c.toNat ∧ c.toNat ≤ 57 := by
    simp only [Char.isDigit, Bool.and_eq_true, decide_eq_true_eq, ge_iff_le,
      UInt32.le_iff_toNat_le] at h
    exact h
  rw [Text.isDigit, Text.digitValue?, Text.zeros, Text.digitAmong, if_neg (by omega),
    if_pos (by omega)]
  rfl

/-- Of all magnitudes only infinity has a text that a formula can spell as a name. -/
theorem isName_text_ofPattern_iff {b : Nat} (le : b ≤ Number.infinityPattern) :
    IsName (Number.text (Number.ofPattern b)) ↔ b = Number.infinityPattern := by
  constructor
  · rintro ⟨-, letters⟩
    by_contra finite
    obtain ⟨d, more, first, digit⟩ := Number.exists_digit_magnitudeText finite
    rw [Number.toList_text_ofPattern le, first] at letters
    have letter := letters d List.mem_cons_self
    rw [isLetter_eq_false_of_decimal digit] at letter
    cases letter
  · rintro rfl
    have spelled := Number.toList_text_ofPattern (Nat.le_refl Number.infinityPattern)
    rw [Number.magnitudeText_infinityPattern] at spelled
    refine ⟨fun empty => ?_, ?_⟩
    · rw [empty] at spelled
      cases spelled
    · rw [spelled, ← List.all_eq_true]
      decide

theorem literal_eq_ofPattern (cs : List Char) :
    ∃ b ≤ Number.infinityPattern, Number.literal cs = Number.ofPattern b :=
  ⟨_, Number.nearestDecimal_le _ _, rfl⟩

/-- **The text of a literal is a name exactly if the literal is infinite.** -/
theorem isName_text_literal_iff (cs : List Char) :
    IsName (Number.text (Number.literal cs)) ↔ Number.literal cs = Number.infinity := by
  obtain ⟨b, le, value⟩ := literal_eq_ofPattern cs
  rw [value, isName_text_ofPattern_iff le, Number.ofPattern_eq_infinity_iff le]

theorem text_infinity : Number.text Number.infinity = "inf" := by
  rw [← String.toList_inj]
  exact (Number.toList_text_ofPattern (Nat.le_refl _)).trans Number.magnitudeText_infinityPattern

/-! ## Names that scopes bind -/

theorem IsBuiltin.isName {name : String} (h : IsBuiltin name) : IsName name := by
  have all : ∀ name ∈ "pi" :: "e" :: Builtin.all.map Builtin.name,
      IsName name := by decide
  exact all name h

/-- Every name that is bound along a chain of scopes is one that a formula can spell. -/
def Scopes.Spellable {φ : Type} (s : Scopes φ) (base : Option ScopeId) : Prop :=
  ∀ id ∈ s.chain base, ∀ name ∈ (s.bindings id).names, IsName name

section

variable {φ ω : Type}

theorem Scopes.Spellable.lookup?_eq_none {s : Scopes φ} {base : Option ScopeId}
    (spellable : s.Spellable base) {name : String} (noName : ¬IsName name) :
    s.lookup? base name = none := by
  rw [lookup?, List.findSome?_eq_none_iff]
  intro id hid
  rw [Bindings.get?_eq_none_iff]
  exact fun bound => noName (spellable id hid name bound)

/-- Under the built-in names the text of a literal stands for nothing, unless the literal is
infinite and the scopes bind its text. -/
theorem Context.Covers.lookup?_literal {c : Context φ} (covers : c.Covers) {s : Scopes φ}
    (spellable : s.Spellable c.base) {cs : List Char}
    (free : Number.literal cs = Number.infinity → s.lookup? c.base "inf" = none) :
    ¬IsBuiltin (Number.text (Number.literal cs)) ∧
      s.lookup? c.base (Number.text (Number.literal cs)) = none ∧
      c.lookup? s (Number.text (Number.literal cs)) = none := by
  have noBuiltin : ¬IsBuiltin (Number.text (Number.literal cs)) := by
    intro builtin
    have infinite := (isName_text_literal_iff cs).mp builtin.isName
    rw [infinite, text_infinity] at builtin
    revert builtin
    decide
  have unbound : s.lookup? c.base (Number.text (Number.literal cs)) = none := by
    by_cases infinite : Number.literal cs = Number.infinity
    · rw [infinite, text_infinity, free infinite]
    · exact spellable.lookup?_eq_none fun isName =>
        infinite ((isName_text_literal_iff cs).mp isName)
  refine ⟨noBuiltin, unbound, ?_⟩
  obtain ⟨times, base, rfl⟩ := covers
  rw [Context.lookup?, unbound, Option.or_none, List.findSome?_eq_none_iff]
  intro layer mem
  rw [List.eq_of_mem_replicate mem]
  exact Bindings.get?_standard_eq_none_iff.mpr noBuiltin

end

/-! ## Calls of literals -/

/-- The lexemes are those of a number in front of an argument, or in front of arguments in
brackets. -/
inductive CallsNumber (digits : String) : List Lexeme → List Expr → Prop
  | implicit {v argument ending} : Derives .call v argument ending → BeginsOperand v →
      CallsNumber digits (.number digits :: v) [argument]
  | bracketed {args : List Argument} : args ≠ [] →
      (∀ a ∈ args, Derives .sum a.lexemes a.tree a.ending) →
      CallsNumber digits (.number digits :: .symbol .lparen :: separated args ++ [.symbol .rparen])
        (args.map Argument.tree)

/-- The call that a number in front of arguments is read as. -/
def numberCall (digits : String) (arguments : List Expr) : Expr :=
  .call (Number.text (Number.literal digits.toList)) arguments

theorem CallsNumber.derives {digits : String} {w : List Lexeme} {arguments : List Expr}
    (h : CallsNumber digits w arguments) :
    ∃ ending, Derives .sum w (numberCall digits arguments) ending := by
  have callee := Derives.number digits
  cases h with
  | implicit derived begins =>
      exact ⟨_, (Derives.implicitCall callee (.number _) derived begins).loosen (by decide)⟩
  | bracketed nonempty all =>
      exact ⟨_, (Derives.explicitCall callee (.number _) nonempty all).loosen (by decide)⟩

section

variable {φ ω : Type} {digits : String} {arguments : List Expr}

/-- The call fails at the check of its name, and leaves the session as it is. -/
theorem on_numberCall {c : Context φ} (covers : c.Covers) {s : Session φ ω}
    (spellable : s.world.scopes.Spellable c.base)
    (free : Number.literal digits.toList = Number.infinity →
      s.world.scopes.lookup? c.base "inf" = none) (host : Host φ ω) (debug : Bool) :
    (evaluate host debug c (numberCall digits arguments)).on s =
      (.error (.unknownIdentifier (Number.text (Number.literal digits.toList))), s) := by
  obtain ⟨-, -, unknown⟩ := covers.lookup?_literal spellable free
  rw [numberCall, evaluate, Run.on_bind, Run.on_resolve, unknown]

/-- Evaluation comes from the call to nothing else: to no argument and to no function. -/
theorem Moment.Next.not_numberCall {library : Library φ ω} {p q : Moment φ ω}
    (step : Next library p q) (covers : p.context.Covers)
    (spellable : p.session.world.scopes.Spellable p.context.base)
    (free : Number.literal digits.toList = Number.infinity →
      p.session.world.scopes.lookup? p.context.base "inf" = none) :
    p.tree ≠ numberCall digits arguments := by
  obtain ⟨-, -, unknown⟩ := covers.lookup?_literal spellable free
  cases step with
  | left => rintro ⟨⟩
  | right => rintro ⟨⟩
  | quoted => rintro ⟨⟩
  | argument found | reentry found =>
      intro tree
      obtain ⟨rfl, -⟩ := Expr.call.inj tree
      rw [unknown] at found
      cases found

/-- **Calling a number asks for an unknown identifier.** A literal in front of an argument, or of
arguments in brackets, is read as a call under the text of its value. That text is no built-in name,
and a name at all only for infinity. Where the scopes bind nothing but names that a formula can
spell, and not the name of infinity if the literal is infinite, they do not bind it: the evaluation
fails for the text, with no call made and the world as it was, and never comes to an argument. -/
theorem evaluateText_numberCall {source : String} {ts : List Token}
    (tokens : tokenize source = .ok ts)
    (called : CallsNumber digits (ts.map Token.lexeme) arguments) {base : Option ScopeId}
    {w : World φ ω} (spellable : w.scopes.Spellable base)
    (free : Number.literal digits.toList = Number.infinity →
      w.scopes.lookup? base "inf" = none) (library : Library φ ω) (depth : Nat) (debug : Bool) :
    let name := Number.text (Number.literal digits.toList)
    parse source = .ok (.call name arguments) ∧
      (IsName name ↔ Number.literal digits.toList = Number.infinity) ∧
      (Number.literal digits.toList = Number.infinity → name = "inf") ∧
      ¬IsBuiltin name ∧ w.scopes.lookup? base name = none ∧
      (evaluateText (library.host depth).recorded debug (.ofScope base) source).effect w =
        ⟨.error (.unknownIdentifier name), w, []⟩ ∧
      ∀ q, Moment.Of library depth debug base source w q → q.tree = .call name arguments := by
  intro name
  obtain ⟨ending, derived⟩ := called.derives
  have parsed : parse source = .ok (numberCall digits arguments) :=
    (parse_of_derives tokens derived).1
  have covers : (Context.ofScope base : Context φ).underBuiltins.Covers :=
    Context.covers_ofScope base
  obtain ⟨noBuiltin, unbound, -⟩ := covers.lookup?_literal spellable free
  refine ⟨parsed, isName_text_literal_iff _, fun infinite => ?_, noBuiltin, unbound, ?_, ?_⟩
  · rw [← text_infinity, ← infinite]
  · have onTree := evaluateText_alike (library.host depth).recorded debug (.ofScope base) parsed
    rw [onTree.effect_eq w, Run.effect_eq_on]
    have fails : (evaluate (library.host depth).recorded debug
        (Context.ofScope base).underBuiltins (numberCall digits arguments)).on ⟨w.recording, []⟩ =
          (.error (.unknownIdentifier name), ⟨w.recording, []⟩) :=
      on_numberCall covers (s := ⟨w.recording, []⟩) spellable free _ debug
    rw [fails]
    rfl
  · rintro q ⟨p, ⟨first⟩, steps⟩
    obtain rfl := Except.ok.inj (parsed.symm.trans first)
    cases Relation.ReflTransGen.cases_head steps with
    | inl same =>
        rw [← same]
        rfl
    | inr onward =>
        obtain ⟨next, step, -⟩ := onward
        exact absurd rfl (step.not_numberCall covers spellable free)

/-- A call under a number, with an argument whose evaluation would call a function of the host. -/
theorem evaluateText_numberCall_seven :
    let library : Library Unit Unit := fun _ args => .answer (.ok (args.headD 0))
    let own : Bindings Unit :=
      (Bindings.empty.put "tick" (.function (.host 1 ()))).put "x" (.number 2)
    let w : World Unit Unit := ⟨⟨#[⟨own, none⟩]⟩, ()⟩
    parse "7 tick(x)" = .ok (.call "7.0" [.call "tick" [.identifier "x"]]) ∧
      (evaluateText (library.host 0).recorded false (.ofScope (some 0)) "7 tick(x)").effect w =
        ⟨.error (.unknownIdentifier "7.0"), w, []⟩ := by
  intro library own w
  have seven : Number.text (Number.literal "7".toList) = "7.0" := by
    have spelled : Number.magnitudeText (Number.nearestDecimal 7 0) = "7.0".toList := by
      decide +kernel
    rw [← String.toList_inj, ← spelled]
    exact Number.toList_text_ofPattern (Number.nearestDecimal_le 7 0)
  have finite : Number.literal "7".toList ≠ Number.infinity := by
    rw [Ne, ← isName_text_literal_iff, seven]
    decide
  have tokens : tokenize "7 tick(x)" =
      .ok [⟨.number "7", 0⟩, ⟨.word "tick", 2⟩, ⟨.symbol .lparen, 6⟩, ⟨.word "x", 7⟩,
        ⟨.symbol .rparen, 8⟩] := by cbv
  have each : ∀ a ∈ [(⟨[.word "x"], .identifier "x", .plain⟩ : Argument)],
      Derives .sum a.lexemes a.tree a.ending := by
    simpa using (Derives.word "x").loosen (by decide)
  have argument : Derives .call [.word "tick", .symbol .lparen, .word "x", .symbol .rparen]
      (.call "tick" [.identifier "x"]) .arguments :=
    .explicitCall (.word "tick") (.identifier "tick") (by simp) each
  have spellable : w.scopes.Spellable (some 0) := by
    have names : ∀ id ∈ [0], ∀ name ∈ (w.scopes.bindings id).names, IsName name := by decide
    exact names
  have result := evaluateText_numberCall tokens (.implicit argument ⟨_, rfl, .inr rfl⟩) spellable
    (fun infinite => absurd infinite finite) library 0 false
  rw [seven] at result
  exact ⟨result.1, result.2.2.2.2.2.1⟩

/-- A well-formed number that is called with the argument `e` in brackets. -/
theorem tokenize_bracketed (wf : (Lexeme.number digits).WellFormed) :
    ∃ ts, tokenize (digits ++ "(e)") = .ok ts ∧
      ts.map Token.lexeme = [.number digits, .symbol .lparen, .word "e", .symbol .rparen] := by
  let pieces : List Piece :=
    [⟨0, .number digits⟩, ⟨0, .symbol .lparen⟩, ⟨0, .word "e"⟩, ⟨0, .symbol .rparen⟩]
  have word : IsName "e" := by decide
  have readable : Readable pieces := by
    refine ⟨?_, by simp [pieces, Piece.Apart, Lexeme.kind]⟩
    simp only [pieces, List.forall_mem_cons]
    exact ⟨wf, trivial, word, trivial, by simp⟩
  have text : String.ofList (pieces.flatMap Piece.text) = digits ++ "(e)" := by
    rw [← String.toList_inj, String.toList_ofList, String.toList_append]
    rfl
  rw [← text]
  exact ⟨_, tokenize_flatMap_text readable, map_lexeme_tokensOf 0 pieces⟩

/-- 310 nines are beyond the largest double. They are called as infinity, which the caller has bound
to a function. -/
theorem evaluateText_numberCall_infinite :
    let digits := String.ofList (List.replicate 310 '9')
    let library : Library Unit Unit := fun _ args => .answer (.ok (args.headD 0))
    let own : Bindings Unit := Bindings.empty.put "inf" (.function (.host 1 ()))
    let w : World Unit Unit := ⟨⟨#[⟨own, none⟩]⟩, ()⟩
    let source := digits ++ "(e)"
    let o := (evaluateText (library.host 0).recorded false (.ofScope (some 0)) source).effect w
    (∃ ts, tokenize source = .ok ts ∧
      CallsNumber digits (ts.map Token.lexeme) [.identifier "e"]) ∧
    w.scopes.Spellable (some 0) ∧ o.result = .ok Number.eulerBase ∧
      o.calls = [⟨(), [Number.eulerBase], .ok Number.eulerBase⟩] := by
  intro digits library own w source o
  have first : digits.toList = '9' :: List.replicate 309 '9' := String.toList_ofList
  have noPoint : '.' ∉ List.replicate 309 '9' := by
    intro point
    cases List.eq_of_mem_replicate point
  have infinite : Number.literal digits.toList = Number.infinity := by
    have value : Text.digitsValue ('9' :: List.replicate 309 '9') = 10 ^ 310 - 1 := by
      decide +kernel
    have beyond : Number.nearestDecimal (10 ^ 310 - 1) 0 = Number.infinityPattern := by
      decide +kernel
    rw [first, literal_of_noPoint (List.not_mem_cons_of_ne_of_not_mem (by decide) noPoint), value,
      beyond]
    rfl
  have number : (Lexeme.number digits).WellFormed := by
    refine ⟨'9', _, first, by decide, fun c hc => .inl ?_, ?_⟩
    · rw [List.eq_of_mem_replicate hc]
      decide
    · rw [List.count_eq_zero_of_not_mem noPoint]
      decide
  obtain ⟨ts, tokens, lexemes⟩ := tokenize_bracketed number
  have each : ∀ a ∈ [(⟨[.word "e"], .identifier "e", .plain⟩ : Argument)],
      Derives .sum a.lexemes a.tree a.ending := by
    simpa using (Derives.word "e").loosen (by decide)
  have called : CallsNumber digits (ts.map Token.lexeme) [.identifier "e"] := by
    rw [lexemes]
    exact .bracketed (by simp) each
  have spellable : ∀ id ∈ [0], ∀ name ∈ (w.scopes.bindings id).names, IsName name := by decide
  refine ⟨⟨ts, tokens, called⟩, spellable, ?_⟩
  obtain ⟨ending, derived⟩ := called.derives
  have parsed := (parse_of_derives tokens derived).1
  have onTree := evaluateText_alike (library.host 0).recorded false (.ofScope (some 0)) parsed
  show (Run.effect _ w).result = _ ∧ (Run.effect _ w).calls = _
  rw [onTree.effect_eq w, numberCall, infinite, text_infinity, evaluate, evaluateAll, evaluate,
    evaluateAll]
  exact ⟨rfl, rfl⟩

end

end Reckoner
