import Reckoner.Failure
import Reckoner.Operator
import Reckoner.Parser
import Reckoner.Scope

/-!
# Evaluation

A formula is evaluated depth first and from left to right, under the built-in names, which hide all
other bindings of the same names. A quoted text is a formula of its own: it is parsed and evaluated
when evaluation reaches it, in the context of the place where it stands.

Functions of the host may do anything to the scopes and to notes of their own. The evaluator itself
changes neither; it only hands the world from one call to the next, also when a call fails.
-/

namespace Reckoner

/-! ## The world around a formula -/

/-- What functions of the host can see and change. -/
structure World (φ ω : Type) where
  scopes : Scopes φ
  notes : ω

/-- The functions of a host by their codes: each call has a value or a reason of failure, and leaves
a world behind. -/
structure Host (φ ω : Type) where
  invoke : φ → List Float → World φ ω → Except Failure Float × World φ ω

/-- Where names are looked up: in layers of bindings that belong to the evaluation, nearest first,
and then along a chain of scopes. -/
structure Context (φ : Type) where
  layers : List (Bindings φ)
  base : Option ScopeId

namespace Context

variable {φ : Type}

/-- The context of a caller's scope, or of none. -/
def ofScope (base : Option ScopeId) : Context φ := ⟨[], base⟩

/-- The context with the built-in names in front of all others. -/
def underBuiltins (c : Context φ) : Context φ := { c with layers := .standard :: c.layers }

def lookup? (c : Context φ) (s : Scopes φ) (name : String) : Option (Value φ) :=
  (c.layers.findSome? (·.get? name)).or (s.lookup? c.base name)

theorem lookup?_ofScope (base : Option ScopeId) (s : Scopes φ) (name : String) :
    (ofScope base).lookup? s name = s.lookup? base name := rfl

theorem lookup?_underBuiltins (c : Context φ) (s : Scopes φ) (name : String) :
    c.underBuiltins.lookup? s name = (Bindings.standard.get? name).or (c.lookup? s name) := by
  simp only [lookup?, underBuiltins, List.findSome?_cons]
  rcases (Bindings.standard : Bindings φ).get? name with _ | v
  · rfl
  · rfl

end Context

/-! ## Traces -/

/-- A report on one phase of an evaluation. -/
inductive TraceLine
  | parsing (source : String)
  | root (form : Expr.Shape)
  | evaluation
  | result (value : Float)
deriving DecidableEq, Repr

def TraceLine.text : TraceLine → String
  | .parsing source => "[formula] Phase 1: Parsing " ++ Text.quoted source
  | .root form => "[formula]   root " ++ form.label
  | .evaluation => "[formula] Phase 2: Evaluation"
  | .result value => "[formula]   result " ++ Number.text value

/-- Reports one under the other, each with a line end. -/
def traceText (lines : List TraceLine) : String :=
  String.join (lines.map fun line => line.text ++ "\n")

/-! ## Runs -/

/-- What a run carries along: the world, and what was reported so far. -/
structure Session (φ ω : Type) where
  world : World φ ω
  trace : List TraceLine

/-- A computation on a session that has a value or fails; the session is kept in both cases. -/
abbrev Run (φ ω : Type) := ExceptT Failure (StateM (Session φ ω))

namespace Run

variable {φ ω : Type}

/-- Reports a line if tracing is on. -/
def report (debug : Bool) (line : TraceLine) : Run φ ω Unit :=
  if debug then modify fun s => { s with trace := s.trace ++ [line] } else pure ()

/-- Looks a name up in the scopes as they are now. -/
def resolve (c : Context φ) (name : String) : Run φ ω (Value φ) := do
  match c.lookup? (← get).world.scopes name with
  | some v => pure v
  | none => throw (.unknownIdentifier name)

/-- Calls a function of the host on the world as it is now. -/
def invoke (host : Host φ ω) (code : φ) (args : List Float) : Run φ ω Float :=
  ExceptT.mk fun s =>
    let (result, world) := host.invoke code args s.world
    pure (result, { s with world })

/-- Calls a function. -/
def call (host : Host φ ω) (f : Function φ) (args : List Float) : Run φ ω Float :=
  match f with
  | .host _ code => invoke host code args
  | .builtin b =>
      match b.value? args with
      | some x => pure x
      | none => throw (.argumentCount b)

end Run

/-! ## The evaluator -/

section

variable {φ ω : Type} (host : Host φ ω) (debug : Bool)

mutual

/-- The value of an expression. A call looks its name up before it evaluates the arguments. -/
def evaluate (c : Context φ) (e : Expr) : Run φ ω Float :=
  match e with
  | .number value => pure value
  | .identifier name => do
      match ← Run.resolve c name with
      | .number value => pure value
      | .function _ => throw .functionAsNumber
  | .binary left op right => do
      let a ← evaluate c left
      let b ← evaluate c right
      match Operator.ofKind? op with
      | some operator => pure (operator.apply a b)
      | none => throw (.noOperator op)
  | .call name arguments => do
      match ← Run.resolve c name with
      | .number _ => throw .numberAsFunction
      | .function f => do
          let args ← evaluateAll c arguments
          Run.call host f args
  | .quoted source => evaluateText c source
  | .bare => throw .noForm
termination_by 2 * e.work
decreasing_by all_goals simp only [Expr.work]; omega

/-- The values of the arguments of a call, in their order. -/
def evaluateAll (c : Context φ) (es : List Expr) : Run φ ω (List Float) :=
  match es with
  | [] => pure []
  | e :: more => do
      let x ← evaluate c e
      let xs ← evaluateAll c more
      pure (x :: xs)
termination_by 2 * Expr.workAll es + 1
decreasing_by
  all_goals
    have := e.work_pos
    simp only [Expr.workAll]
    omega

/-- The value of a formula given as text: it is parsed, and evaluated under the built-in names. -/
def evaluateText (c : Context φ) (source : String) : Run φ ω Float := do
  Run.report debug (.parsing source)
  match h : parse source with
  | .error f => throw (.source f)
  | .ok e => do
      have := work_le_of_parse h
      Run.report debug (.root e.shape)
      Run.report debug .evaluation
      let value ← evaluate c.underBuiltins e
      Run.report debug (.result value)
      pure value
termination_by 2 * source.length + 1

end

end

/-! ## Whole evaluations -/

/-- What an evaluation gives: its value or failure, the world it leaves, and what it reported. -/
structure Outcome (φ ω : Type) where
  result : Except Failure Float
  world : World φ ω
  trace : List TraceLine

/-- Runs a computation in a world, with nothing reported yet. -/
def Run.outcome {φ ω : Type} (r : Run φ ω Float) (w : World φ ω) : Outcome φ ω :=
  let (result, s) := r.run.run ⟨w, []⟩
  ⟨result, s.world, s.trace⟩

end Reckoner
