import Reckoner.Proofs.Evaluate.Walk
import Reckoner.Proofs.Parser.Sound
import Reckoner.Stock

/-!
# Evaluation stops at the first violation

Where the functions of the host leave the names alone, what a name stands for is known before the
evaluation begins. Then an evaluation is a walk through the visits of the tree: `Follows` says so of
any part of it, with the values that it takes off a stack and puts on, and the parts are put
together as the evaluator puts them together.
-/

namespace Reckoner

variable {φ ω α β : Type}

/-! ## Hosts that leave the names alone -/

/-- The worlds that calls of functions on a chain of scopes lead to. -/
inductive Host.Reaches (host : Host φ ω) (base : Option ScopeId) (w : World φ ω) :
    World φ ω → Prop
  | refl : host.Reaches base w w
  | call {w' : World φ ω} {name : String} {arity : Nat} {code : φ} (args : List Float) :
      host.Reaches base w w' →
      w'.scopes.lookup? base name = some (.function (.host arity code)) →
      host.Reaches base w (host.invoke code args w').2

/-- No sequence of calls changes what a name stands for along the chain. -/
def Host.KeepsNames (host : Host φ ω) (base : Option ScopeId) (w : World φ ω) : Prop :=
  ∀ w', host.Reaches base w w' → ∀ name, w'.scopes.lookup? base name = w.scopes.lookup? base name

/-- Functions that write to no scope keep all names. -/
theorem Host.keepsNames_of_scopes {host : Host φ ω}
    (h : ∀ code args w, (host.invoke code args w).2.scopes = w.scopes) (base : Option ScopeId)
    (w : World φ ω) : host.KeepsNames base w := by
  intro w' reached name
  induction reached with
  | refl => rfl
  | call args _ _ ih => rw [h, ih]

/-! ## Parts of an evaluation -/

/-- Walks go through visits as a part of an evaluation did: with its value they go on, after the
calls that it made, and with its failure they stop there. The values that the part uses are on the
stack `before`, and its own value is on the stack `after`. -/
def Continues (names : String → Option (Value φ)) (good : World φ ω → Prop) (vs : List Visit)
    (before : List Float → List Float) (after : α → List Float → List Float)
    (made : List (Call φ)) : Except Failure α × Session φ (ω × List (Call φ)) → Prop
  | (.ok x, t) => good t.world.forget ∧
      ∀ more stack calls result, Walk names more (after x stack) calls result →
        Walk names (vs ++ more) (before stack) (made ++ calls) result
  | (.error f, _) => ∀ more stack, Walk names (vs ++ more) (before stack) made (.error f)

/-- A visit in front that takes nothing from the stack and makes no call. -/
theorem Continues.cons {names : String → Option (Value φ)} {good : World φ ω → Prop}
    {vs : List Visit} {before : List Float → List Float} {after : α → List Float → List Float}
    {made : List (Call φ)} {outcome : Except Failure α × Session φ (ω × List (Call φ))}
    (h : Continues names good vs before after made outcome) {v : Visit}
    (passes : ∀ more stack calls result, Walk names more stack calls result →
      Walk names (v :: more) stack calls result) :
    Continues names good (v :: vs) before after made outcome := by
  rcases outcome with ⟨f | x, t⟩
  · intro more stack
    exact passes _ _ _ _ (h more stack)
  · obtain ⟨ht, goesOn⟩ := h
    refine ⟨ht, ?_⟩
    intro more stack calls result walk
    exact passes _ _ _ _ (goesOn more stack calls result walk)

/-- From every good world a run goes through visits as walks do. -/
def Follows (names : String → Option (Value φ)) (good : World φ ω → Prop) (vs : List Visit)
    (before : List Float → List Float) (after : α → List Float → List Float)
    (r : Run φ (ω × List (Call φ)) α) : Prop :=
  ∀ s, good s.world.forget → ∃ made, (r.on s).2.world.calls = s.world.calls ++ made ∧
    Continues names good vs before after made (r.on s)

section

variable {names : String → Option (Value φ)} {good : World φ ω → Prop} {vs us : List Visit}
  {before : List Float → List Float} {r : Run φ (ω × List (Call φ)) α}
  {k : α → Run φ (ω × List (Call φ)) β}

theorem follows_pure (x : α) (after : α → List Float → List Float) :
    Follows names good [] (after x) after (pure x) :=
  fun _ hs => ⟨[], by simp, hs, fun _ _ _ _ h => h⟩

/-- A value that a visit puts on the stack. -/
theorem follows_step {v : Visit} {x : α} {after : α → List Float → List Float}
    (passes : ∀ more stack calls result, Walk names more (after x stack) calls result →
      Walk names (v :: more) (before stack) calls result) :
    Follows names good [v] before after (pure x) :=
  fun _ hs => ⟨[], by simp, hs, passes⟩

theorem follows_report (debug : Bool) (line : TraceLine) :
    Follows names good [] before (fun _ => before) (Run.report debug line) := by
  intro s hs
  obtain ⟨trace, hr⟩ := Run.on_report debug line s
  rw [hr]
  exact ⟨[], by simp, hs, fun _ _ _ _ h => h⟩

theorem follows_throw {v : Visit} {f : Failure} (violates : v.violation? names = some f)
    (more : List Visit) (after : α → List Float → List Float) :
    Follows names good (v :: more) before after (throw f) :=
  fun _ _ => ⟨[], by simp, fun _ _ => .violation violates⟩

/-- A run with a value is followed by what goes on with that value. -/
theorem Follows.bind {middle : α → List Float → List Float} {after : β → List Float → List Float}
    (h : Follows names good vs before middle r)
    (hk : ∀ x, (∃ s, (r.on s).1 = .ok x) → Follows names good us (middle x) after (k x)) :
    Follows names good (vs ++ us) before after (r >>= k) := by
  intro s hs
  obtain ⟨made, hcalls, walks⟩ := h s hs
  rw [Run.on_bind]
  rcases hr : r.on s with ⟨f | x, t⟩
  · rw [hr] at hcalls walks
    refine ⟨made, hcalls, ?_⟩
    intro more stack
    rw [List.append_assoc]
    exact walks _ stack
  · rw [hr] at hcalls walks
    obtain ⟨ht, goesOn⟩ := walks
    obtain ⟨made', hcalls', walks'⟩ := hk x ⟨s, by rw [hr]⟩ t ht
    refine ⟨made ++ made', by rw [hcalls', hcalls, List.append_assoc], ?_⟩
    -- a walk through the rest, failed or not, is one that the first part goes on with
    show Continues names good (vs ++ us) before after (made ++ made') ((k x).on t)
    rcases hk' : (k x).on t with ⟨f | y, t'⟩
    · rw [hk'] at walks'
      intro more stack
      rw [List.append_assoc]
      exact goesOn _ stack _ _ (walks' more stack)
    · rw [hk'] at walks'
      obtain ⟨ht', goesOn'⟩ := walks'
      refine ⟨ht', ?_⟩
      intro more stack calls result h
      rw [List.append_assoc, List.append_assoc]
      exact goesOn _ stack _ _ (goesOn' more stack calls result h)

/-- More may lie on the stack below what a run uses. -/
theorem Follows.above {after : α → List Float → List Float}
    (h : Follows names good vs before after r) (below : List Float → List Float) :
    Follows names good vs (fun stack => before (below stack))
      (fun x stack => after x (below stack)) r := by
  intro s hs
  obtain ⟨made, hcalls, walks⟩ := h s hs
  refine ⟨made, hcalls, ?_⟩
  rcases hr : r.on s with ⟨f | x, t⟩
  · rw [hr] at walks
    intro more stack
    exact walks more (below stack)
  · rw [hr] at walks
    obtain ⟨ht, goesOn⟩ := walks
    refine ⟨ht, ?_⟩
    intro more stack
    exact goesOn more (below stack)

end

/-! ## Names and calls -/

section

variable {host : Host φ ω} {base : Option ScopeId} {w : World φ ω}

theorem lookup?_of_meaning_host {s : Scopes φ} {name : String} {arity : Nat} {code : φ}
    (h : meaning s base name = some (.function (.host arity code))) :
    s.lookup? base name = some (.function (.host arity code)) := by
  rw [meaning, Option.or_eq_some_iff] at h
  rcases h with h | ⟨-, h⟩
  · exact absurd h (get?_standard_ne_host name arity code)
  · exact h

/-- A context in which every name means what it means where the evaluation began. -/
def Context.Means (c : Context φ) (host : Host φ ω) (base : Option ScopeId) (w : World φ ω) :
    Prop :=
  ∀ w', host.Reaches base w w' → ∀ name, c.lookup? w'.scopes name = meaning w.scopes base name

theorem Host.KeepsNames.means (keeps : host.KeepsNames base w) :
    (Context.ofScope base).underBuiltins.Means host base w := by
  intro w' reached name
  rw [Context.lookup?_underBuiltins, Context.lookup?_ofScope, meaning, keeps w' reached name]

theorem Context.Means.underBuiltins {c : Context φ} (means : c.Means host base w) :
    c.underBuiltins.Means host base w := by
  intro w' reached name
  rw [Context.lookup?_underBuiltins, means w' reached name, meaning, ← Option.or_assoc,
    Option.or_self]

theorem Context.Means.on_resolve {c : Context φ} (means : c.Means host base w) (name : String)
    {s : Session φ (ω × List (Call φ))} (hs : host.Reaches base w s.world.forget) :
    (Run.resolve c name : Run φ (ω × List (Call φ)) (Value φ)).on s =
      match meaning w.scopes base name with
      | some v => (.ok v, s)
      | none => (.error (.unknownIdentifier name), s) := by
  have resolved := Run.on_resolve c name s
  rw [← World.scopes_forget, means _ hs] at resolved
  exact resolved

/-- A name that is used as a number. -/
theorem follows_identifier {c : Context φ} (means : c.Means host base w) (debug : Bool)
    (name : String) :
    Follows (meaning w.scopes base) (host.Reaches base w) [.identifier name] (fun stack => stack)
      (fun x stack => x :: stack) (evaluate host.recorded debug c (.identifier name)) := by
  intro s hs
  rw [evaluate, Run.on_bind, means.on_resolve name hs]
  rcases hv : meaning w.scopes base name with _ | x | f
  · exact ⟨[], by simp, fun more stack => .violation (by rw [Visit.violation?, hv])⟩
  · exact ⟨[], by simp, hs, fun more stack calls result walk => .identifier hv walk⟩
  · exact ⟨[], by simp, fun more stack => .violation (by rw [Visit.violation?, hv])⟩

/-- The call itself, with the values of the arguments on the stack. -/
theorem follows_call (keeps : host.KeepsNames base w) {name : String} {f : Function φ}
    (hv : meaning w.scopes base name = some (.function f)) (args : List Float) :
    Follows (meaning w.scopes base) (host.Reaches base w) [.apply name args.length]
      (fun stack => args.reverse ++ stack) (fun x stack => x :: stack)
      (Run.call host.recorded f args) := by
  cases f with
  | builtin b =>
      rw [Run.call]
      rcases value : b.value? args with _ | x
      · have count : args.length ≠ b.arity := by
          intro count
          have isSome := Builtin.isSome_value?_iff.mpr count
          rw [value] at isSome
          cases isSome
        refine follows_throw ?_ [] _
        rw [Visit.violation?, hv]
        exact if_neg count
      · exact follows_step fun _ _ _ _ walk => .builtin hv value walk
  | host arity code =>
      intro s hs
      -- a name that stands for a function of the host is no built-in name, so the chain binds it
      have bound : s.world.forget.scopes.lookup? base name =
          some (.function (.host arity code)) := by
        rw [keeps _ hs]
        exact lookup?_of_meaning_host hv
      have reached := hs.call args bound
      refine ⟨[⟨code, args, (host.invoke code args s.world.forget).1⟩], rfl, ?_⟩
      rw [Run.call, Run.on_invoke, Host.recorded]
      dsimp only
      rcases answer : (host.invoke code args s.world.forget).1 with f | x
      · exact fun more stack => .refused hv
      · exact ⟨reached, fun more stack calls result walk => .answered hv walk⟩

/-- The check of a called name, and what goes on behind it if the name stands for a function. -/
theorem follows_callee {c : Context φ} (means : c.Means host base w) (debug : Bool) {name : String}
    {arguments : List Expr} {vs : List Visit}
    (goesOn : ∀ f, meaning w.scopes base name = some (.function f) →
      Follows (meaning w.scopes base) (host.Reaches base w) vs (fun stack => stack)
        (fun x stack => x :: stack)
        (evaluateAll host.recorded debug c arguments >>= Run.call host.recorded f)) :
    Follows (meaning w.scopes base) (host.Reaches base w) (.callee name :: vs) (fun stack => stack)
      (fun x stack => x :: stack) (evaluate host.recorded debug c (.call name arguments)) := by
  intro s hs
  rw [evaluate, Run.on_bind, means.on_resolve name hs]
  rcases hv : meaning w.scopes base name with _ | x | f
  · exact ⟨[], by simp, fun more stack => .violation (by rw [Visit.violation?, hv])⟩
  · exact ⟨[], by simp, fun more stack => .violation (by rw [Visit.violation?, hv])⟩
  · obtain ⟨made, hcalls, walks⟩ := goesOn f hv s hs
    exact ⟨made, hcalls, walks.cons fun _ _ _ _ walk => .callee hv walk⟩

theorem length_of_evaluateAll {host : Host φ ω} {debug : Bool} {c : Context φ} {es : List Expr}
    {xs : List Float} {s : Session φ ω} (h : ((evaluateAll host debug c es).on s).1 = .ok xs) :
    xs.length = es.length := by
  induction es generalizing xs s with
  | nil =>
      rw [evaluateAll] at h
      cases h
      rfl
  | cons e more ih =>
      rw [evaluateAll, Run.on_bind] at h
      split at h
      · next x t _ =>
          rw [Run.on_bind] at h
          split at h
          · next ys u hys =>
              cases h
              rw [List.length_cons, List.length_cons, ih (s := t) (by rw [hys])]
          · cases h
      · cases h

mutual

/-- Evaluating a tree that was read from text goes through its visits. -/
theorem evaluate_follows (keeps : host.KeepsNames base w) (debug : Bool) {c : Context φ}
    (means : c.Means host base w) {written : Lexeme → Prop} (e : Expr) :
    e.ReadFrom written →
      Follows (meaning w.scopes base) (host.Reaches base w) (visits e) (fun stack => stack)
        (fun x stack => x :: stack) (evaluate host.recorded debug c e) := by
  cases e with
  | number x =>
      intro _
      rw [visits, evaluate]
      exact follows_step fun _ _ _ _ walk => .number walk
  | identifier name =>
      intro _
      rw [visits]
      exact follows_identifier means debug name
  | binary left kind right =>
      intro read
      cases read with
      | binary op readLeft readRight =>
          rw [visits, evaluate, Operator.ofKind?_kind, List.append_assoc]
          refine (evaluate_follows keeps debug means left readLeft).bind fun a _ => ?_
          have behind := (evaluate_follows keeps debug means right readRight).above (a :: ·)
          refine behind.bind fun b _ => ?_
          exact follows_step fun _ _ _ _ walk => .operation walk
  | call name arguments =>
      intro read
      rw [visits, List.cons_append]
      -- the name is checked before any argument, and still means the same behind them
      refine follows_callee means debug fun f hv => ?_
      cases read with
      | call _ _ _ readArguments =>
          have values := evaluateAll_follows keeps debug means arguments readArguments
          refine values.bind fun xs hxs => ?_
          obtain ⟨s, hxs⟩ := hxs
          rw [← length_of_evaluateAll hxs]
          exact follows_call keeps hv xs
  | quoted source =>
      intro _
      rw [visits, evaluate]
      exact evaluateText_follows keeps debug means.underBuiltins source
  | bare => rintro ⟨⟩
termination_by 2 * e.work
decreasing_by all_goals simp only [Expr.work]; omega

theorem evaluateAll_follows (keeps : host.KeepsNames base w) (debug : Bool) {c : Context φ}
    (means : c.Means host base w) {written : Lexeme → Prop} (es : List Expr) :
    (∀ e ∈ es, e.ReadFrom written) →
      Follows (meaning w.scopes base) (host.Reaches base w) (visitsAll es) (fun stack => stack)
        (fun xs stack => xs.reverse ++ stack) (evaluateAll host.recorded debug c es) := by
  cases es with
  | nil =>
      intro _
      rw [visitsAll, evaluateAll]
      exact follows_pure [] (fun xs stack => xs.reverse ++ stack)
  | cons e more =>
      intro read
      rw [List.forall_mem_cons] at read
      rw [visitsAll, evaluateAll]
      refine (evaluate_follows keeps debug means e read.1).bind fun x _ => ?_
      rw [← List.append_nil (visitsAll more)]
      have behind := (evaluateAll_follows keeps debug means more read.2).above (x :: ·)
      refine behind.bind fun xs _ => ?_
      have pushed : (fun stack => xs.reverse ++ x :: stack) =
          fun stack => (x :: xs).reverse ++ stack := by
        funext stack
        simp
      rw [pushed]
      exact follows_pure (x :: xs) (fun xs stack => xs.reverse ++ stack)
termination_by 2 * Expr.workAll es + 1
decreasing_by
  all_goals
    have := e.work_pos
    simp only [Expr.workAll]
    omega

theorem evaluateText_follows (keeps : host.KeepsNames base w) (debug : Bool) {c : Context φ}
    (means : c.underBuiltins.Means host base w) (source : String) :
    Follows (meaning w.scopes base) (host.Reaches base w) (visitsText source) (fun stack => stack)
      (fun x stack => x :: stack) (evaluateText host.recorded debug c source) := by
  cases h : parse source with
  | error f =>
      rw [visitsText_of_error h, evaluateText_of_error host.recorded debug c h]
      exact (follows_report _ _).bind fun _ _ => follows_throw rfl [] _
  | ok e =>
      have shrinks := work_le_of_parse h
      rw [visitsText_of_ok h, evaluateText_of_ok host.recorded debug c h]
      refine (follows_report _ _).bind fun _ _ => ?_
      refine (follows_report _ _).bind fun _ _ => ?_
      refine (follows_report _ _).bind fun _ _ => ?_
      rw [← List.append_nil (visits e)]
      refine (evaluate_follows keeps debug means e (readFrom_of_parse h)).bind fun x _ => ?_
      exact (follows_report _ _).bind fun _ _ => follows_pure x _
termination_by 2 * source.length + 1

end

end

/-- **Evaluation succeeds exactly on well-scoped formulas**, and otherwise reports the first
violation, having made exactly the calls before it. Where the functions of the host keep the names,
evaluating a text is a walk through the visits of its tree, and there is a value exactly if no visit
violates what the names stand for and every call is answered. -/
theorem evaluateText_walks {source : String} {tree : Expr} (parsed : parse source = .ok tree)
    {host : Host φ ω} {base : Option ScopeId} {w : World φ ω} (keeps : host.KeepsNames base w)
    (debug : Bool) :
    let names := meaning w.scopes base
    let o := (evaluateText host.recorded debug (.ofScope base) source).effect w
    Walk names (visits tree) [] o.calls o.result ∧
      EndsAtFirst names (visits tree) o.calls o.result ∧
      ((∃ x, o.result = .ok x) ↔
        (∀ v ∈ visits tree, v.violation? names = none) ∧
          ∀ call ∈ o.calls, ∃ x, call.answer = .ok x) := by
  intro names o
  have walk : Walk names (visits tree) [] o.calls o.result := by
    obtain ⟨made, hcalls, walks⟩ :=
      evaluateText_follows keeps debug keeps.means source ⟨w.recording, []⟩ .refl
    rw [visitsText_of_ok parsed] at walks
    have effect := Run.effect_eq_on (evaluateText host.recorded debug (.ofScope base) source) w
    rw [World.calls_recording, List.nil_append] at hcalls
    rw [hcalls] at effect
    show Walk names (visits tree) [] (Run.effect _ w).calls (Run.effect _ w).result
    rw [effect]
    rcases hr : (evaluateText host.recorded debug (.ofScope base) source).on ⟨w.recording, []⟩
      with ⟨f | x, t⟩
    · rw [hr] at walks
      simpa using walks [] []
    · rw [hr] at walks
      simpa using walks.2 [] [] [] (.ok x) .done
  exact ⟨walk, walk.ends, walk.ends.exists_ok_iff⟩

/-- A call that is answered, and then a name that stands for nothing. -/
theorem evaluateText_walks_unbound :
    parse "tick e + lost" =
        .ok (.binary (.call "tick" [.identifier "e"]) Operator.plus.kind (.identifier "lost")) ∧
      let host : Host Unit Unit := ⟨fun _ args w => (.ok (args.headD 0), w)⟩
      let w : World Unit Unit :=
        ⟨⟨#[⟨Bindings.empty.put "tick" (.function (.host 1 ())), none⟩]⟩, ()⟩
      host.KeepsNames (some 0) w ∧
        ¬∃ x, ((evaluateText host.recorded false (.ofScope (some 0)) "tick e + lost").effect
          w).result = .ok x := by
  have parsed : parse "tick e + lost" =
      .ok (.binary (.call "tick" [.identifier "e"]) Operator.plus.kind (.identifier "lost")) := by
    cbv
  refine ⟨parsed, ?_⟩
  intro host w
  have keeps : host.KeepsNames (some 0) w := Host.keepsNames_of_scopes (fun _ _ _ => rfl) _ _
  refine ⟨keeps, ?_⟩
  rw [(evaluateText_walks parsed keeps false).2.2]
  rintro ⟨bound, -⟩
  have lost : Visit.identifier "lost" ∈ visits
      (.binary (.call "tick" [.identifier "e"]) Operator.plus.kind (.identifier "lost")) := by
    rw [visits, visits, visits]
    simp
  cases bound _ lost

end Reckoner
