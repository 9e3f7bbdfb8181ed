import Mathlib
import Reckoner.Proofs.Evaluate.Recording

/-!
# What a caller's scope can influence

Of a caller's scopes an evaluation sees what the names stand for that the text asks for, and nothing
else. So two chains of scopes cannot be told apart if these names resolve alike along both, and if
the functions behind them are steady: what they do depends on their arguments only. The chains may
have any shape, and one of them may be missing.

Whether a function is steady is asked relative to the names. It has to answer alike in any two
worlds in which they resolve alike, and it may write to scopes as long as they still resolve alike
afterwards. A function that answers by its arguments and leaves the scopes as they are always does.
-/

namespace Reckoner

variable {φ ω : Type}

/-! ## Chains that cannot be told apart -/

/-- Along the two chains the names resolve alike, and of the functions of the host only to steady
ones. -/
def ResolveAlike (names : String → Prop) (steady : φ → Prop) (base base' : Option ScopeId)
    (w w' : World φ ω) : Prop :=
  ∀ name, names name → w.scopes.lookup? base name = w'.scopes.lookup? base' name ∧
    ∀ arity code, w.scopes.lookup? base name = some (.function (.host arity code)) → steady code

/-- What the steady functions do depends on their arguments only, as far as the names can tell. -/
def Host.IsSteady (host : Host φ ω) (names : String → Prop) (steady : φ → Prop)
    (base base' : Option ScopeId) : Prop :=
  ∀ code, steady code → ∀ args w w', ResolveAlike names steady base base' w w' →
    (host.invoke code args w).1 = (host.invoke code args w').1 ∧
      ResolveAlike names steady base base' (host.invoke code args w).2 (host.invoke code args w').2

section

variable {host : Host φ ω} {names : String → Prop} {steady : φ → Prop}
  {base base' : Option ScopeId}

/-- Functions that answer by their arguments and leave the scopes as they are. -/
theorem Host.isSteady_of_pure
    (answer : ∀ code, steady code → ∀ args w w',
      (host.invoke code args w).1 = (host.invoke code args w').1)
    (keeps : ∀ code, steady code → ∀ args w, (host.invoke code args w).2.scopes = w.scopes) :
    host.IsSteady names steady base base' := by
  intro code hc args w w' alike
  refine ⟨answer code hc args w w', ?_⟩
  intro name hn
  rw [keeps code hc, keeps code hc]
  exact alike name hn

/-- Steady functions are still steady when their calls are written down, and the same calls are. -/
theorem Host.IsSteady.recorded (h : host.IsSteady names steady base base') :
    Host.AgreesOn steady
      (fun w w' => ResolveAlike names steady base base' w.forget w'.forget ∧ w.calls = w'.calls)
      host.recorded host.recorded := by
  rintro code hc args w w' ⟨alike, calls⟩
  obtain ⟨answer, after⟩ := h code hc args w.forget w'.forget alike
  refine ⟨answer, after, ?_⟩
  show w.calls ++ [⟨code, args, (host.invoke code args w.forget).1⟩] =
    w'.calls ++ [⟨code, args, (host.invoke code args w'.forget).1⟩]
  rw [calls, answer]

/-- Under the built-in names a text asks its caller for no others than those. -/
theorem Context.agreesOn_ofScope {source : String} :
    Context.AgreesOn (Expr.quoted source).Mentions steady
      (fun (w w' : World φ (ω × List (Call φ))) =>
        ResolveAlike (AsksFor source) steady base base' w.forget w'.forget ∧ w.calls = w'.calls)
      (Context.ofScope base).underBuiltins (Context.ofScope base').underBuiltins := by
  refine Context.AgreesOn.underBuiltins ?_
  rintro name asked w w' ⟨alike, -⟩
  rw [Context.lookup?_ofScope, Context.lookup?_ofScope]
  exact alike name asked

end

/-! ## Texts that cannot tell -/

/-- The two effects have the same value or failure, and made the same calls. -/
def Effect.SameAnswer (o o' : Effect φ ω) : Prop := o.result = o'.result ∧ o.calls = o'.calls

theorem effect_sameAnswer {host : Host φ ω} {source : String} {steady : φ → Prop}
    {base base' : Option ScopeId} (isSteady : host.IsSteady (AsksFor source) steady base base')
    {w w' : World φ ω} (alike : ResolveAlike (AsksFor source) steady base base' w w')
    (debug debug' : Bool) :
    ((evaluateText host.recorded debug (.ofScope base) source).effect w).SameAnswer
      ((evaluateText host.recorded debug' (.ofScope base') source).effect w') := by
  have agrees := evaluateText_agreesOn isSteady.recorded debug debug' Context.agreesOn_ofScope
    source fun name mentions => mentions
  obtain ⟨result, -, calls⟩ := agrees ⟨w.recording, []⟩ ⟨w'.recording, []⟩ ⟨alike, rfl⟩
  rw [Run.effect_eq_on, Run.effect_eq_on]
  exact ⟨result, calls⟩

/-- **Noninterference.** Along two chains that resolve alike the names that a text asks for, with
steady functions behind them, the text has the same value or the same failure and makes the same
calls. So no definition of a built-in name matters, in whatever scope, nor one of a name that the
text does not hold; and a text that holds built-in names only does not depend on any scope. -/
theorem evaluateText_noninterference (host : Host φ ω) (source : String) (debug debug' : Bool) :
    (∀ steady base base' w w', host.IsSteady (AsksFor source) steady base base' →
      ResolveAlike (AsksFor source) steady base base' w w' →
      ((evaluateText host.recorded debug (.ofScope base) source).effect w).SameAnswer
        ((evaluateText host.recorded debug' (.ofScope base') source).effect w')) ∧
    (∀ steady base w, host.IsSteady (AsksFor source) steady base base →
      (∀ name, AsksFor source name → ∀ arity code,
        w.scopes.lookup? base name = some (.function (.host arity code)) → steady code) →
      ∀ id name v, IsBuiltin name ∨ ¬(Expr.quoted source).Mentions name →
        ((evaluateText host.recorded debug (.ofScope base) source).effect w).SameAnswer
          ((evaluateText host.recorded debug' (.ofScope base) source).effect
            { w with scopes := w.scopes.define id name v })) ∧
    ((∀ name, (Expr.quoted source).Mentions name → IsBuiltin name) → ∀ base base' w w',
      ((evaluateText host.recorded debug (.ofScope base) source).effect w).SameAnswer
        ((evaluateText host.recorded debug' (.ofScope base') source).effect w')) := by
  refine ⟨?_, ?_, ?_⟩
  · intro steady base base' w w' isSteady alike
    exact effect_sameAnswer isSteady alike debug debug'
  · intro steady base w isSteady functions id name v unasked
    refine effect_sameAnswer isSteady ?_ debug debug'
    intro key asked
    have other : key ≠ name := by
      rintro rfl
      exact unasked.elim asked.2 (· asked.1)
    exact ⟨(w.scopes.lookup?_define_of_ne id v base other).symm, functions key asked⟩
  · intro builtin base base' w w'
    have none : ∀ name, ¬AsksFor source name := fun name asked => asked.2 (builtin name asked.1)
    have isSteady : host.IsSteady (AsksFor source) (fun _ => False) base base' :=
      fun code absurd => absurd.elim
    exact effect_sameAnswer isSteady (fun name asked => (none name asked).elim) debug debug'

set_option maxRecDepth 1000 in
/-- The constant of a quoted text stays what it is under a chain that gives its name to another
number, and holds more names; there are two scopes in the one chain and a single one in the other. -/
theorem evaluateText_noninterference_quoted :
    let host : Host Unit Unit := ⟨fun _ args w => (.ok (args.headD 0), w)⟩
    let tick : Value Unit := .function (.host 1 ())
    let own : Bindings Unit := (Bindings.empty.put "x" (.number 1)).put "tick" tick
    let outer : Bindings Unit := (Bindings.empty.put "x" (.number 7)).put "tick" tick
    let inner : Bindings Unit :=
      ((Bindings.empty.put "x" (.number 1)).put "pi" (.number 3)).put "y" tick
    let w : World Unit Unit := ⟨⟨#[⟨own, none⟩]⟩, ()⟩
    let w' : World Unit Unit := ⟨⟨#[⟨outer, none⟩, ⟨inner, some 0⟩]⟩, ()⟩
    ResolveAlike (AsksFor "tick x + \"pi\"") (fun _ => True) (some 0) (some 1) w w' ∧
      ((evaluateText host.recorded false (.ofScope (some 0)) "tick x + \"pi\"").effect w).SameAnswer
        ((evaluateText host.recorded false (.ofScope (some 1)) "tick x + \"pi\"").effect w') := by
  intro host tick own outer inner w w'
  have parsed : parse "tick x + \"pi\"" =
      .ok (.binary (.call "tick" [.identifier "x"]) Operator.plus.kind (.quoted "pi")) := by cbv
  have constant : parse "pi" = .ok (.identifier "pi") := by cbv
  have names : ∀ name, AsksFor "tick x + \"pi\"" name → name = "tick" ∨ name = "x" := by
    rintro name ⟨mentions, caller⟩
    rw [Expr.mentions_quoted parsed, Expr.mentions_binary, Expr.mentions_quoted constant,
      Expr.mentions_identifier] at mentions
    rcases mentions with mentions | rfl
    · simpa using mentions
    · exact absurd (by decide) caller
  have alike : ResolveAlike (AsksFor "tick x + \"pi\"") (fun _ => True) (some 0) (some 1) w w' := by
    intro name asked
    refine ⟨?_, fun _ _ _ => trivial⟩
    rcases names name asked with rfl | rfl
    · cbv
    · cbv
  refine ⟨alike, (evaluateText_noninterference host _ false false).1 _ _ _ _ _ ?_ alike⟩
  exact Host.isSteady_of_pure (fun _ _ _ _ _ => rfl) fun _ _ _ _ => rfl

end Reckoner
