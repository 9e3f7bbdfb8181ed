import Reckoner.Evaluate
import Reckoner.Proofs.Evaluate.Names

/-!
# Runs that agree

Two computations agree over a relation between worlds if from related worlds they have the same
value or the same failure and leave related worlds. What they report is left out.
`evaluate_agreesOn` says that the evaluator keeps every relation that the functions of the host keep
and that resolves names alike. Only the names that stand in the tree matter, and only the functions
that these can stand for; it is proved once and used wherever two evaluations of one tree are
compared.
-/

namespace Reckoner

variable {φ ω ω' α β : Type}

namespace Run

/-! ## What a run does with a session -/

/-- The value or failure of a run that starts in a session, and the session it leaves. -/
def on (r : Run φ ω α) (s : Session φ ω) : Except Failure α × Session φ ω := r.run.run s

@[simp] theorem on_pure (x : α) (s : Session φ ω) : (pure x : Run φ ω α).on s = (.ok x, s) := rfl

@[simp] theorem on_throw (f : Failure) (s : Session φ ω) :
    (throw f : Run φ ω α).on s = (.error f, s) := rfl

theorem on_bind (r : Run φ ω α) (k : α → Run φ ω β) (s : Session φ ω) :
    (r >>= k).on s =
      match r.on s with
      | (.ok x, t) => (k x).on t
      | (.error f, t) => (.error f, t) := by
  rw [on, ExceptT.run_bind, StateT.run_bind]
  show _ = match r.run.run s with
    | (.ok x, t) => (k x).on t
    | (.error f, t) => (.error f, t)
  obtain ⟨result, t⟩ := StateT.run (ExceptT.run r) s
  cases result <;> rfl

theorem on_resolve (c : Context φ) (name : String) (s : Session φ ω) :
    (resolve c name : Run φ ω (Value φ)).on s =
      match c.lookup? s.world.scopes name with
      | some v => (.ok v, s)
      | none => (.error (.unknownIdentifier name), s) := by
  show (match c.lookup? s.world.scopes name with
    | some v => (pure v : Run φ ω (Value φ))
    | none => throw (Failure.unknownIdentifier name)).on s = _
  cases c.lookup? s.world.scopes name <;> rfl

theorem on_invoke (host : Host φ ω) (code : φ) (args : List Float) (s : Session φ ω) :
    (invoke host code args).on s =
      ((host.invoke code args s.world).1, { s with world := (host.invoke code args s.world).2 }) :=
  rfl

theorem on_report (debug : Bool) (line : TraceLine) (s : Session φ ω) :
    ∃ trace, (report debug line : Run φ ω Unit).on s = (.ok (), ⟨s.world, trace⟩) := by
  cases debug with
  | true => exact ⟨s.trace ++ [line], rfl⟩
  | false => exact ⟨s.trace, rfl⟩

/-! ## Agreement -/

section

variable {R : World φ ω → World φ ω' → Prop}

/-- From related worlds both runs give the same and leave related worlds. -/
def Agrees (R : World φ ω → World φ ω' → Prop) (r : Run φ ω α) (r' : Run φ ω' α) : Prop :=
  ∀ s s', R s.world s'.world →
    (r.on s).1 = (r'.on s').1 ∧ R (r.on s).2.world (r'.on s').2.world

theorem agrees_pure (x : α) : Agrees R (pure x) (pure x) := fun _ _ h => ⟨rfl, h⟩

theorem agrees_throw (f : Failure) : Agrees R (throw f : Run φ ω α) (throw f) :=
  fun _ _ h => ⟨rfl, h⟩

/-- Two runs that agree come to one value or failure, and leave related worlds. -/
theorem Agrees.exists_on {r : Run φ ω α} {r' : Run φ ω' α} (h : Agrees R r r') {s : Session φ ω}
    {s' : Session φ ω'} (related : R s.world s'.world) :
    ∃ result t t', r.on s = (result, t) ∧ r'.on s' = (result, t') ∧ R t.world t'.world := by
  obtain ⟨same, after⟩ := h s s' related
  exact ⟨_, _, _, rfl, Prod.ext same.symm rfl, after⟩

theorem Agrees.bind {r : Run φ ω α} {r' : Run φ ω' α} {k : α → Run φ ω β} {k' : α → Run φ ω' β}
    (h : Agrees R r r') (hk : ∀ x, Agrees R (k x) (k' x)) : Agrees R (r >>= k) (r' >>= k') := by
  intro s s' related
  obtain ⟨result, t, t', hr, hr', after⟩ := h.exists_on related
  rw [on_bind, on_bind, hr, hr']
  -- both are at the same value now, or have failed alike
  rcases result with f | x
  · exact ⟨rfl, after⟩
  · exact hk x t t' after

theorem agrees_report (debug debug' : Bool) (line line' : TraceLine) :
    Agrees R (report debug line) (report debug' line') := by
  intro s s' related
  obtain ⟨trace, hr⟩ := on_report debug line s
  obtain ⟨trace', hr'⟩ := on_report debug' line' s'
  rw [hr, hr']
  exact ⟨rfl, related⟩

/-- A report before a run changes nothing that another run could differ in. -/
theorem Agrees.after_report {r : Run φ ω α} {r' : Run φ ω' α} (h : Agrees R r r') (debug : Bool)
    (line : TraceLine) : Agrees R (report debug line >>= fun _ => r) r' := by
  intro s s' related
  obtain ⟨trace, hr⟩ := on_report debug line s
  rw [on_bind, hr]
  exact h ⟨s.world, trace⟩ s' related

end

/-- Runs that agree from equal worlds. -/
abbrev Alike (r r' : Run φ ω α) : Prop := Agrees Eq r r'

theorem Alike.trans {r₁ r₂ r₃ : Run φ ω α} (h : Alike r₁ r₂) (h' : Alike r₂ r₃) : Alike r₁ r₃ := by
  intro s s' same
  obtain ⟨result, after⟩ := h s s' same
  obtain ⟨result', after'⟩ := h' s' s' rfl
  exact ⟨result.trans result', after.trans after'⟩

end Run

/-! ## Hosts and contexts -/

/-- The two hosts answer alike in related worlds and leave related worlds. -/
def Host.Agrees (R : World φ ω → World φ ω' → Prop) (host : Host φ ω) (host' : Host φ ω') : Prop :=
  ∀ code args w w', R w w' →
    (host.invoke code args w).1 = (host'.invoke code args w').1 ∧
      R (host.invoke code args w).2 (host'.invoke code args w').2

/-- The two contexts resolve all names alike in related worlds. -/
def Context.Agrees (R : World φ ω → World φ ω' → Prop) (c c' : Context φ) : Prop :=
  ∀ w w' name, R w w' → c.lookup? w.scopes name = c'.lookup? w'.scopes name

/-- The steady functions of the two hosts answer alike in related worlds and leave related
worlds. -/
def Host.AgreesOn (steady : φ → Prop) (R : World φ ω → World φ ω' → Prop) (host : Host φ ω)
    (host' : Host φ ω') : Prop :=
  ∀ code, steady code → ∀ args w w', R w w' →
    (host.invoke code args w).1 = (host'.invoke code args w').1 ∧
      R (host.invoke code args w).2 (host'.invoke code args w').2

/-- In related worlds the two contexts resolve these names alike, and of the functions of the host
only to steady ones. -/
def Context.AgreesOn (names : String → Prop) (steady : φ → Prop)
    (R : World φ ω → World φ ω' → Prop) (c c' : Context φ) : Prop :=
  ∀ name, names name → ∀ w w', R w w' →
    c.lookup? w.scopes name = c'.lookup? w'.scopes name ∧
      ∀ arity code, c.lookup? w.scopes name = some (.function (.host arity code)) → steady code

section

variable {R : World φ ω → World φ ω' → Prop} {host : Host φ ω} {host' : Host φ ω'}
  {names : String → Prop} {steady : φ → Prop} {c c' : Context φ}

theorem Host.Agrees.on (h : Host.Agrees R host host') (steady : φ → Prop) :
    Host.AgreesOn steady R host host' := fun code _ => h code

theorem Context.Agrees.on (h : Context.Agrees R c c') (names : String → Prop) :
    Context.AgreesOn names (fun _ => True) R c c' :=
  fun name _ w w' related => ⟨h w w' name related, fun _ _ _ => trivial⟩

theorem Context.Agrees.underBuiltins (h : Context.Agrees R c c') :
    Context.Agrees R c.underBuiltins c'.underBuiltins := by
  intro w w' name related
  rw [Context.lookup?_underBuiltins, Context.lookup?_underBuiltins, h w w' name related]

/-- Built-in names are resolved in front of both contexts, so only the others have to agree. -/
theorem Context.AgreesOn.underBuiltins
    (h : Context.AgreesOn (fun name => names name ∧ ¬IsBuiltin name) steady R c c') :
    Context.AgreesOn names steady R c.underBuiltins c'.underBuiltins := by
  intro name hn w w' related
  rw [Context.lookup?_underBuiltins, Context.lookup?_underBuiltins]
  rcases hv : (Bindings.standard : Bindings φ).get? name with _ | v
  · exact h name ⟨hn, Bindings.get?_standard_eq_none_iff.mp hv⟩ w w' related
  · refine ⟨rfl, fun arity code hf => ?_⟩
    rw [Option.some_or] at hf
    exact absurd (hv.trans hf) (get?_standard_ne_host name arity code)

theorem Run.agrees_resolve (contexts : Context.Agrees R c c') (name : String) :
    Run.Agrees R (Run.resolve c name) (Run.resolve c' name) := by
  intro s s' related
  rw [Run.on_resolve, Run.on_resolve, contexts s.world s'.world name related]
  rcases c'.lookup? s'.world.scopes name with _ | v
  · exact ⟨rfl, related⟩
  · exact ⟨rfl, related⟩

/-- What goes on behind a name gets the same value on both sides, and no function of the host that
is not steady. -/
theorem Run.agrees_resolve_bind (contexts : Context.AgreesOn names steady R c c') {name : String}
    (hn : names name) {k : Value φ → Run φ ω β} {k' : Value φ → Run φ ω' β}
    (hk : ∀ v, (∀ arity code, v = .function (.host arity code) → steady code) →
      Run.Agrees R (k v) (k' v)) :
    Run.Agrees R (Run.resolve c name >>= k) (Run.resolve c' name >>= k') := by
  intro s s' related
  obtain ⟨same, found⟩ := contexts name hn s.world s'.world related
  rw [Run.on_bind, Run.on_bind, Run.on_resolve, Run.on_resolve, ← same]
  rcases hv : c.lookup? s.world.scopes name with _ | v
  · exact ⟨rfl, related⟩
  · refine hk v ?_ s s' related
    rintro arity code rfl
    exact found arity code hv

theorem Run.agrees_call_steady (hosts : Host.AgreesOn steady R host host') {f : Function φ}
    (hf : ∀ arity code, f = .host arity code → steady code) (args : List Float) :
    Run.Agrees R (Run.call host f args) (Run.call host' f args) := by
  cases f with
  | host arity code =>
      intro s s' related
      exact hosts code (hf arity code rfl) args s.world s'.world related
  | builtin b =>
      rw [Run.call, Run.call]
      rcases b.value? args with _ | x
      · exact Run.agrees_throw _
      · exact Run.agrees_pure x

theorem Run.agrees_call (hosts : Host.Agrees R host host') (f : Function φ) (args : List Float) :
    Run.Agrees R (Run.call host f args) (Run.call host' f args) :=
  Run.agrees_call_steady (hosts.on fun _ => True) (fun _ _ _ => trivial) args

end

/-! ## The evaluator -/

theorem evaluateText_of_error (host : Host φ ω) (debug : Bool) (c : Context φ) {source : String}
    {f : SourceFault} (h : parse source = .error f) :
    evaluateText host debug c source =
      (do
        Run.report debug (.parsing source)
        throw (Failure.source f)) := by
  rw [evaluateText]
  split <;> simp_all

theorem evaluateText_of_ok (host : Host φ ω) (debug : Bool) (c : Context φ) {source : String}
    {e : Expr} (h : parse source = .ok e) :
    evaluateText host debug c source =
      (do
        Run.report debug (.parsing source)
        Run.report debug (.root e.shape)
        Run.report debug .evaluation
        let value ← evaluate host debug c.underBuiltins e
        Run.report debug (.result value)
        pure value) := by
  rw [evaluateText]
  split <;> simp_all

section

variable {R : World φ ω → World φ ω' → Prop} {host : Host φ ω} {host' : Host φ ω'}
  {names : String → Prop} {steady : φ → Prop}

mutual

/-- **Evaluations of one tree agree** where its names resolve alike and the functions that they
stand for answer alike. -/
theorem evaluate_agreesOn (hosts : Host.AgreesOn steady R host host') (debug debug' : Bool)
    {c c' : Context φ} (contexts : Context.AgreesOn names steady R c c') (e : Expr) :
    (∀ name, e.Mentions name → names name) →
      Run.Agrees R (evaluate host debug c e) (evaluate host' debug' c' e) := by
  -- one case per node, with the measure of the evaluator: a quoted text has a smaller tree
  cases e with
  | number value =>
      intro _
      rw [evaluate, evaluate]
      exact Run.agrees_pure value
  | identifier name =>
      intro within
      rw [evaluate, evaluate]
      refine Run.agrees_resolve_bind contexts (within name .identifier) fun v _ => ?_
      cases v with
      | number x => exact Run.agrees_pure x
      | function f => exact Run.agrees_throw _
  | binary left op right =>
      intro within
      rw [evaluate, evaluate]
      have onLeft := evaluate_agreesOn hosts debug debug' contexts left
        fun name mentions => within name (.left mentions)
      have onRight := evaluate_agreesOn hosts debug debug' contexts right
        fun name mentions => within name (.right mentions)
      refine onLeft.bind fun a => ?_
      refine onRight.bind fun b => ?_
      rcases Operator.ofKind? op with _ | operator
      · exact Run.agrees_throw _
      · exact Run.agrees_pure _
  | call name arguments =>
      intro within
      rw [evaluate, evaluate]
      refine Run.agrees_resolve_bind contexts (within name .callee) fun v hv => ?_
      cases v with
      | number x => exact Run.agrees_throw _
      | function f =>
          have values := evaluateAll_agreesOn hosts debug debug' contexts arguments
            fun a ha name mentions => within name (.argument ha mentions)
          refine values.bind fun args => ?_
          refine Run.agrees_call_steady hosts ?_ args
          rintro arity code rfl
          exact hv arity code rfl
  | quoted source =>
      intro within
      rw [evaluate, evaluate]
      have under : Context.AgreesOn names steady R c.underBuiltins c'.underBuiltins :=
        .underBuiltins fun name hn => contexts name hn.1
      exact evaluateText_agreesOn hosts debug debug' under source within
  | bare =>
      intro _
      rw [evaluate, evaluate]
      exact Run.agrees_throw _
termination_by 2 * e.work
decreasing_by all_goals simp only [Expr.work]; omega

theorem evaluateAll_agreesOn (hosts : Host.AgreesOn steady R host host') (debug debug' : Bool)
    {c c' : Context φ} (contexts : Context.AgreesOn names steady R c c') (es : List Expr) :
    (∀ e ∈ es, ∀ name, e.Mentions name → names name) →
      Run.Agrees R (evaluateAll host debug c es) (evaluateAll host' debug' c' es) := by
  cases es with
  | nil =>
      intro _
      rw [evaluateAll, evaluateAll]
      exact Run.agrees_pure []
  | cons e more =>
      intro within
      rw [List.forall_mem_cons] at within
      rw [evaluateAll, evaluateAll]
      refine (evaluate_agreesOn hosts debug debug' contexts e within.1).bind fun x => ?_
      refine (evaluateAll_agreesOn hosts debug debug' contexts more within.2).bind fun xs => ?_
      exact Run.agrees_pure _
termination_by 2 * Expr.workAll es + 1
decreasing_by
  all_goals
    have := e.work_pos
    simp only [Expr.workAll]
    omega

theorem evaluateText_agreesOn (hosts : Host.AgreesOn steady R host host') (debug debug' : Bool)
    {c c' : Context φ} (contexts : Context.AgreesOn names steady R c.underBuiltins c'.underBuiltins)
    (source : String) : (∀ name, (Expr.quoted source).Mentions name → names name) →
      Run.Agrees R (evaluateText host debug c source) (evaluateText host' debug' c' source) := by
  cases h : parse source with
  | error f =>
      intro _
      rw [evaluateText_of_error host debug c h, evaluateText_of_error host' debug' c' h]
      exact (Run.agrees_report _ _ _ _).bind fun _ => Run.agrees_throw _
  | ok e =>
      intro within
      have shrinks := work_le_of_parse h
      rw [evaluateText_of_ok host debug c h, evaluateText_of_ok host' debug' c' h]
      refine (Run.agrees_report _ _ _ _).bind fun _ => ?_
      refine (Run.agrees_report _ _ _ _).bind fun _ => ?_
      refine (Run.agrees_report _ _ _ _).bind fun _ => ?_
      have onTree := evaluate_agreesOn hosts debug debug' contexts e
        fun name mentions => within name (.quoted h mentions)
      refine onTree.bind fun x => ?_
      exact (Run.agrees_report _ _ _ _).bind fun _ => Run.agrees_pure x
termination_by 2 * source.length + 1

end

/-- Evaluations of one tree agree where the hosts answer alike and all names resolve alike. -/
theorem evaluate_agrees (hosts : Host.Agrees R host host') (debug debug' : Bool) {c c' : Context φ}
    (contexts : Context.Agrees R c c') (e : Expr) :
    Run.Agrees R (evaluate host debug c e) (evaluate host' debug' c' e) :=
  evaluate_agreesOn (hosts.on _) debug debug' (contexts.on fun _ => True) e fun _ _ => trivial

theorem evaluateAll_agrees (hosts : Host.Agrees R host host') (debug debug' : Bool)
    {c c' : Context φ} (contexts : Context.Agrees R c c') (es : List Expr) :
    Run.Agrees R (evaluateAll host debug c es) (evaluateAll host' debug' c' es) :=
  evaluateAll_agreesOn (hosts.on _) debug debug' (contexts.on fun _ => True) es
    fun _ _ _ _ => trivial

theorem evaluateText_agrees (hosts : Host.Agrees R host host') (debug debug' : Bool)
    {c c' : Context φ} (contexts : Context.Agrees R c c') (source : String) :
    Run.Agrees R (evaluateText host debug c source) (evaluateText host' debug' c' source) :=
  evaluateText_agreesOn (hosts.on _) debug debug' (contexts.underBuiltins.on fun _ => True) source
    fun _ _ => trivial

end

end Reckoner
