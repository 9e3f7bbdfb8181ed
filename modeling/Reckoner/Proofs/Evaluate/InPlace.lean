import Reckoner.Proofs.Evaluate.Place
import Reckoner.Proofs.Evaluate.Recording
import Reckoner.Proofs.Parser.Sound
import Reckoner.Stock

/-!
# Quoted texts in place

A quoted text is evaluated under the built-in names once more, in the context of the place where it
stands. The second layer of built-in names hides nothing that the first does not hide, whatever the
functions of the host do to the scopes. So a quoted text means what its tree means in its place, and
a text that is no formula fails where evaluation reaches it.
-/

namespace Reckoner

namespace Expr

mutual

/-- The tree with every quoted text that is a formula replaced by the tree of that formula. -/
def inPlace : Expr → Expr
  | number value => number value
  | identifier name => identifier name
  | binary left op right => binary left.inPlace op right.inPlace
  | call name arguments => call name (inPlaceAll arguments)
  | quoted source =>
      match parse source with
      | .ok e => e
      | .error _ => quoted source
  | bare => bare

def inPlaceAll : List Expr → List Expr
  | [] => []
  | e :: more => e.inPlace :: inPlaceAll more

end

theorem inPlaceAll_eq_map (es : List Expr) : inPlaceAll es = es.map inPlace := by
  induction es with
  | nil => rfl
  | cons e more ih => rw [inPlaceAll, ih, List.map_cons]

theorem inPlace_quoted_of_ok {source : String} {e : Expr} (h : parse source = .ok e) :
    (quoted source).inPlace = e := by
  rw [inPlace, h]

theorem inPlace_quoted_of_error {source : String} {f : SourceFault} (h : parse source = .error f) :
    (quoted source).inPlace = quoted source := by
  rw [inPlace, h]

end Expr

/-- The frame with the quoted texts beside the place in place. -/
def Frame.inPlace : Frame → Frame
  | .inLeft op right => .inLeft op right.inPlace
  | .inRight left op => .inRight left.inPlace op
  | .inArgument name before after =>
      .inArgument name (before.map Expr.inPlace) (after.map Expr.inPlace)

theorem inPlace_plug (path : List Frame) (e : Expr) :
    (plug path e).inPlace = plug (path.map Frame.inPlace) e.inPlace := by
  induction path with
  | nil => rfl
  | cons frame path ih =>
      rw [plug_cons, List.map_cons, plug_cons, ← ih]
      cases frame with
      | inLeft op right => rfl
      | inRight left op => rfl
      | inArgument name before after =>
          simp [Frame.fill, Frame.inPlace, Expr.inPlace, Expr.inPlaceAll_eq_map]

/-! ## What is left quoted -/

/-- The lexeme is no quoted text that is a formula. -/
def Lexeme.NoFormula (x : Lexeme) : Prop :=
  ∀ source, x = .quoted source → ∃ f, parse source = .error f

/-- A text without quotes has no quoted text in its tree. -/
theorem noFormula_of_standsIn {text : List Char} (noQuote : '"' ∉ text) {x : Lexeme}
    (stands : x.StandsIn text) : x.NoFormula := by
  rintro source rfl
  refine absurd (stands.2.subset ?_) noQuote
  simp [Lexeme.spelling]

/-- Of quoted texts without quotes inside, only those that are no formulas are left. -/
theorem Expr.ReadFrom.inPlace {written : Lexeme → Prop} {e : Expr} (h : e.ReadFrom written)
    (noQuote : ∀ source, written (.quoted source) → '"' ∉ source.toList) :
    e.inPlace.ReadFrom Lexeme.NoFormula := by
  induction h with
  | number => exact .number (by rintro source ⟨⟩)
  | identifier => exact .identifier (by rintro source ⟨⟩)
  | @quoted source hx =>
      rcases hp : parse source with f | e
      · rw [Expr.inPlace_quoted_of_error hp]
        refine .quoted ?_
        rintro source ⟨⟩
        exact ⟨f, hp⟩
      · -- a text without quotes has no quoted text in its tree, so one pass replaces them all
        rw [Expr.inPlace_quoted_of_ok hp]
        exact (readFrom_of_parse hp).mono fun x => noFormula_of_standsIn (noQuote source hx)
  | binary op _ _ ihLeft ihRight => exact .binary op ihLeft ihRight
  | @call callee _ _ _ called nonempty _ ihCallee ihArguments =>
      -- the tree that gave the call its name is a leaf and stays as it is
      have same : callee.inPlace = callee := by cases called <;> rfl
      rw [same] at ihCallee
      rw [Expr.inPlace, Expr.inPlaceAll_eq_map]
      exact .call ihCallee called (by simpa using nonempty) (by simpa using ihArguments)

theorem Expr.ReadFrom.of_plug {written : Lexeme → Prop} {e : Expr} {path : List Frame}
    (h : (plug path e).ReadFrom written) : e.ReadFrom written := by
  induction path with
  | nil => exact h
  | cons frame path ih =>
      rw [plug_cons] at h
      apply ih
      cases frame with
      | inLeft op right => cases h; assumption
      | inRight left op => cases h; assumption
      | inArgument name before after =>
          cases h with
          | call _ _ _ each => exact each _ (by simp)

/-! ## Evaluating in place -/

section

variable {φ ω : Type} (host : Host φ ω) (debug : Bool) (c : Context φ)

theorem Host.agrees_self : Host.Agrees Eq host host := by
  rintro code args w w' rfl
  exact ⟨rfl, rfl⟩

theorem Context.agrees_self : Context.Agrees (Eq : World φ ω → World φ ω → Prop) c c := by
  rintro w w' name rfl
  rfl

/-- A second layer of built-in names hides what the first one hides, in every world. -/
theorem Context.agrees_underBuiltins_twice :
    Context.Agrees (Eq : World φ ω → World φ ω → Prop) c.underBuiltins.underBuiltins
      c.underBuiltins := by
  rintro w w' name rfl
  rw [Context.lookup?_underBuiltins, Context.lookup?_underBuiltins, ← Option.or_assoc,
    Option.or_self]

/-- A text is evaluated as its tree is under the built-in names. -/
theorem evaluateText_alike {source : String} {e : Expr} (h : parse source = .ok e) :
    Run.Alike (evaluateText host debug c source) (evaluate host debug c.underBuiltins e) := by
  rw [evaluateText_of_ok host debug c h]
  apply Run.Agrees.after_report
  apply Run.Agrees.after_report
  apply Run.Agrees.after_report
  have same := evaluate_agrees host.agrees_self debug debug c.underBuiltins.agrees_self e
  have whole := same.bind fun x => (Run.agrees_pure x).after_report debug (.result x)
  rwa [bind_pure] at whole

mutual

/-- Under the built-in names a tree is evaluated as it is with its quoted texts in place. -/
theorem evaluate_alike_inPlace (e : Expr) :
    Run.Alike (evaluate host debug c.underBuiltins e)
      (evaluate host debug c.underBuiltins e.inPlace) := by
  cases e with
  | number value => exact evaluate_agrees host.agrees_self _ _ (Context.agrees_self _) _
  | identifier name => exact evaluate_agrees host.agrees_self _ _ (Context.agrees_self _) _
  | binary left op right =>
      rw [Expr.inPlace, evaluate, evaluate]
      refine (evaluate_alike_inPlace left).bind fun a => ?_
      refine (evaluate_alike_inPlace right).bind fun b => ?_
      rcases Operator.ofKind? op with _ | operator
      · exact Run.agrees_throw _
      · exact Run.agrees_pure _
  | call name arguments =>
      rw [Expr.inPlace, evaluate, evaluate]
      refine (Run.agrees_resolve (Context.agrees_self _) name).bind fun v => ?_
      cases v with
      | number x => exact Run.agrees_throw _
      | function f =>
          refine (evaluateAll_alike_inPlace arguments).bind fun args => ?_
          exact Run.agrees_call host.agrees_self f args
  | quoted source =>
      rcases hp : parse source with f | e
      · rw [Expr.inPlace_quoted_of_error hp]
        exact evaluate_agrees host.agrees_self _ _ (Context.agrees_self _) _
      · -- the text runs its tree under two layers of built-in names, in place there is one
        rw [Expr.inPlace_quoted_of_ok hp, evaluate]
        refine (evaluateText_alike host debug _ hp).trans ?_
        exact evaluate_agrees host.agrees_self _ _ c.agrees_underBuiltins_twice e
  | bare => exact evaluate_agrees host.agrees_self _ _ (Context.agrees_self _) _

theorem evaluateAll_alike_inPlace (es : List Expr) :
    Run.Alike (evaluateAll host debug c.underBuiltins es)
      (evaluateAll host debug c.underBuiltins (Expr.inPlaceAll es)) := by
  cases es with
  | nil => exact evaluateAll_agrees host.agrees_self _ _ (Context.agrees_self _) _
  | cons e more =>
      rw [Expr.inPlaceAll, evaluateAll, evaluateAll]
      refine (evaluate_alike_inPlace e).bind fun x => ?_
      refine (evaluateAll_alike_inPlace more).bind fun xs => ?_
      exact Run.agrees_pure _

end

/-- A tree around a quoted text that is no formula is evaluated up to that text, and then fails as
the text does alone. -/
theorem evaluate_plug_quoted_alike {source : String} {f : SourceFault} (h : parse source = .error f)
    (path : List Frame) :
    Run.Alike (evaluate host debug c (plug path (.quoted source)))
      (do lead host c path; throw (Failure.source f)) := by
  have fails : evaluate host false c (.quoted source) = throw (Failure.source f) := by
    rw [evaluate, evaluateText_of_error host false c h]
    rfl
  rw [← evaluate_plug fails path]
  exact evaluate_agrees host.agrees_self _ _ c.agrees_self _

end

/-- **A quoted expression means the same as its text written in place.** Evaluating a text comes to
the same as evaluating its tree once, with all quoted texts that are formulas in place: the same
value or failure, the same world, the same calls of the host. Of a quoted text that is no formula
the tree keeps the text. Where evaluation reaches it, the text fails as it does alone, after
everything before it and with nothing done behind it. -/
theorem evaluateText_inPlace {φ ω : Type} {source : String} {tree : Expr}
    (parsed : parse source = .ok tree) (host : Host φ ω) (debug : Bool) (base : Option ScopeId)
    (w : World φ ω) :
    (evaluateText host.recorded debug (.ofScope base) source).effect w =
        (evaluate host.recorded debug (Context.ofScope base).underBuiltins tree.inPlace).effect w ∧
      (∀ path quote f, tree = plug path (.quoted quote) → parse quote = .error f →
        tree.inPlace = plug (path.map Frame.inPlace) (.quoted quote) ∧
        (evaluateText host.recorded debug (.ofScope base) source).effect w =
          (do
            lead host.recorded (Context.ofScope base).underBuiltins (path.map Frame.inPlace)
            throw (Failure.source f)).effect w) ∧
      ∀ path quote, tree.inPlace = plug path (.quoted quote) → ∃ f, parse quote = .error f := by
  have whole := (evaluateText_alike host.recorded debug (.ofScope base) parsed).trans
    (evaluate_alike_inPlace host.recorded debug (.ofScope base) tree)
  refine ⟨whole.effect_eq w, ?_, ?_⟩
  · rintro path quote f rfl fails
    have kept : (plug path (.quoted quote)).inPlace =
        plug (path.map Frame.inPlace) (.quoted quote) := by
      rw [inPlace_plug, Expr.inPlace_quoted_of_error fails]
    rw [kept] at whole
    exact ⟨kept, (whole.trans (evaluate_plug_quoted_alike _ _ _ fails _)).effect_eq w⟩
  · intro path quote kept
    have left := (readFrom_of_parse parsed).inPlace fun q hq => hq.1
    rw [kept] at left
    cases left.of_plug with
    | quoted noFormula => exact noFormula quote rfl

set_option maxRecDepth 1000 in
/-- A quoted text that is cut short fails after the call on its left, with its own position. -/
theorem evaluateText_inPlace_cutShort :
    parse "tick e + \"y +\"" =
        .ok (.binary (.call "tick" [.identifier "e"]) Operator.plus.kind (.quoted "y +")) ∧
      let tick : Stock.Code := ⟨.tick, 0⟩
      let w : Stock.StockWorld :=
        ⟨⟨#[⟨Bindings.empty.put "tick" (.function (.host 1 tick)), none⟩]⟩, []⟩
      let o := (evaluateText (Stock.host 0).recorded false (.ofScope (some 0))
        "tick e + \"y +\"").effect w
      o.result = .error (.source (.grammar ⟨.cutShort, 3⟩)) ∧
        o.calls = [⟨tick, [Number.eulerBase], .ok Number.eulerBase⟩] := by
  have parsed : parse "tick e + \"y +\"" =
      .ok (.binary (.call "tick" [.identifier "e"]) Operator.plus.kind (.quoted "y +")) := by cbv
  have cutShort : parse "y +" = .error (.grammar ⟨.cutShort, 3⟩) := by cbv
  refine ⟨parsed, ?_⟩
  intro tick w
  obtain ⟨-, same⟩ := (evaluateText_inPlace parsed (Stock.host 0) false (some 0) w).2.1
    [.inRight (.call "tick" [.identifier "e"]) Operator.plus.kind] "y +" _ rfl cutShort
  rw [same, List.map_singleton, Frame.inPlace, Expr.inPlace, Expr.inPlaceAll, Expr.inPlaceAll,
    Expr.inPlace, lead, Frame.lead, evaluate, evaluateAll, evaluate, evaluateAll]
  exact ⟨rfl, rfl⟩

end Reckoner
