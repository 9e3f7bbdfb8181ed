import Reckoner.Proofs.Evaluate.InPlace
import Reckoner.Proofs.Evaluate.Moments

/-!
# Branches that no text reaches

The evaluator has two failures of its own for trees that are built by hand: a bare node, and an
operator without a meaning. The parser builds neither (`sound_of_parse`), in quoted texts as little
as outside of them, so a failure of this kind is one that a function of the host answered
(`evaluateText_blames`). A quoted text has no quote inside, so its tree has no quoted text: at most
two evaluations of texts are under way at once, unless a function of the host begins another
(`Moment.Active.level`), and between two such calls every step goes to a smaller tree.
-/

namespace Reckoner

/-! ## Sound trees -/

/-- A name: letters only, and at least one. -/
def IsName (name : String) : Prop := name ≠ "" ∧ ∀ c ∈ name.toList, Text.isLetter c = true

/-- The name is the text form of the value of a number that stands in the source. -/
def IsNumeral (source name : String) : Prop :=
  ∃ digits, (Lexeme.number digits).StandsIn source.toList ∧
    name = Number.text (Number.literal digits.toList)

/-- The trees of a source: none of their nodes is bare. -/
inductive Expr.Sound (source : String) : Expr → Prop
  | number (value : Float) : Sound source (.number value)
  | identifier {name : String} : IsName name → Sound source (.identifier name)
  | binary {left right : Expr} (op : Operator) : Sound source left → Sound source right →
      Sound source (.binary left op.kind right)
  | call {name : String} {arguments : List Expr} : IsName name ∨ IsNumeral source name →
      arguments ≠ [] → (∀ a ∈ arguments, Sound source a) → Sound source (.call name arguments)
  | quoted {text : String} : '"' ∉ text.toList → Sound source (.quoted text)

theorem Expr.ReadFrom.sound {source : String} {e : Expr}
    (h : e.ReadFrom (·.StandsIn source.toList)) : e.Sound source := by
  induction h with
  | number => exact .number _
  | identifier hx => exact .identifier hx.1
  | quoted hx => exact .quoted hx.1
  | binary op _ _ ihLeft ihRight => exact .binary op ihLeft ihRight
  | call callee called nonempty _ _ ihArguments =>
      refine .call ?_ nonempty ihArguments
      -- the callee is a leaf of the text as well, and the call has its name
      cases called with
      | identifier name =>
          cases callee with
          | identifier hx => exact .inl hx.1
      | number value =>
          cases callee with
          | number hx => exact .inr ⟨_, hx, rfl⟩

/-- **Only sound trees come out of the parser.** -/
theorem sound_of_parse {source : String} {e : Expr} (h : parse source = .ok e) : e.Sound source :=
  (readFrom_of_parse h).sound

theorem Expr.Sound.of_fill {source : String} {frame : Frame} {e : Expr}
    (h : (frame.fill e).Sound source) : e.Sound source := by
  cases frame with
  | inLeft op right => cases h; assumption
  | inRight left op => cases h; assumption
  | inArgument name before after =>
      cases h with
      | call _ _ each => exact each e (by simp)

theorem Frame.work_lt_fill (frame : Frame) (e : Expr) : e.work < (frame.fill e).work := by
  cases frame with
  | inLeft op right => rw [Frame.fill, Expr.work]; omega
  | inRight left op => rw [Frame.fill, Expr.work]; omega
  | inArgument name before after =>
      rw [Frame.fill, Expr.work, Expr.workAll_append, Expr.workAll]
      omega

/-- No quoted text stands in the tree. -/
def Expr.Flat (e : Expr) : Prop := ∀ path text, e ≠ plug path (.quoted text)

theorem Expr.Flat.of_fill {frame : Frame} {e : Expr} (h : (frame.fill e).Flat) : e.Flat := by
  rintro path text rfl
  exact h (frame :: path) text rfl

/-- A text without quotes has no quoted text in its tree. -/
theorem flat_of_parse {source : String} {e : Expr} (noQuote : '"' ∉ source.toList)
    (h : parse source = .ok e) : e.Flat := by
  rintro path text rfl
  cases (readFrom_of_parse h).of_plug with
  | quoted hx => exact noQuote (hx.2.subset (by simp [Lexeme.spelling]))

/-! ## Who fails internally -/

/-- The failures for trees that are built by hand. -/
inductive Failure.Internal : Failure → Prop
  | form : Internal .noForm
  | operator (op : Kind) : Internal (.noOperator op)

section

variable {φ ω α β : Type}

/-- Where the run fails internally, it has made a call that was answered by this failure. -/
def Run.Blames (r : Run φ (ω × List (Call φ)) α) : Prop :=
  ∀ s f, (r.on s).1 = .error f → f.Internal →
    ∃ call ∈ (r.on s).2.world.calls, call.answer = .error f

namespace Run

theorem blames_pure (x : α) : Blames (pure x : Run φ (ω × List (Call φ)) α) := by
  rintro s f ⟨⟩

theorem blames_throw {f : Failure} (h : ¬f.Internal) :
    Blames (throw f : Run φ (ω × List (Call φ)) α) := by
  rintro s _ ⟨⟩ isInternal
  exact absurd isInternal h

theorem Blames.bind {r : Run φ (ω × List (Call φ)) α} {k : α → Run φ (ω × List (Call φ)) β}
    (h : Blames r) (hk : ∀ x, Blames (k x)) : Blames (r >>= k) := by
  intro s
  have first := h s
  rw [on_bind]
  rcases hr : r.on s with ⟨g | x, t⟩
  · rw [hr] at first
    rintro f ⟨⟩
    exact first g rfl
  · exact hk x t

theorem blames_report (debug : Bool) (line : TraceLine) :
    Blames (report debug line : Run φ (ω × List (Call φ)) Unit) := by
  intro s
  obtain ⟨trace, hr⟩ := on_report debug line s
  rw [hr]
  rintro f ⟨⟩

theorem blames_resolve (c : Context φ) (name : String) :
    Blames (resolve c name : Run φ (ω × List (Call φ)) (Value φ)) := by
  intro s f
  rw [on_resolve]
  cases c.lookup? s.world.scopes name with
  | none =>
      rintro ⟨⟩
      rintro ⟨⟩
  | some v => rintro ⟨⟩

theorem blames_call (host : Host φ ω) (f : Function φ) (args : List Float) :
    Blames (call host.recorded f args) := by
  cases f with
  | builtin b =>
      rw [call]
      cases b.value? args with
      | none => exact blames_throw (by rintro ⟨⟩)
      | some x => exact blames_pure x
  | host arity code =>
      -- the call that was made is the last one on the list
      intro s f failed _
      exact ⟨_, List.mem_append_right _ (List.mem_singleton_self _), failed⟩

end Run

mutual

theorem evaluate_blames (host : Host φ ω) (debug : Bool) (c : Context φ) {source : String}
    (e : Expr) : e.Sound source → (evaluate host.recorded debug c e).Blames := by
  cases e with
  | number value =>
      intro _
      rw [evaluate]
      exact Run.blames_pure value
  | identifier name =>
      intro _
      rw [evaluate]
      refine (Run.blames_resolve c name).bind fun v => ?_
      cases v with
      | number x => exact Run.blames_pure x
      | function f => exact Run.blames_throw (by rintro ⟨⟩)
  | binary left kind right =>
      intro sound
      cases sound with
      | binary op soundLeft soundRight =>
          rw [evaluate, Operator.ofKind?_kind]
          refine (evaluate_blames host debug c left soundLeft).bind fun a => ?_
          refine (evaluate_blames host debug c right soundRight).bind fun b => ?_
          exact Run.blames_pure _
  | call name arguments =>
      intro sound
      cases sound with
      | call _ _ each =>
          rw [evaluate]
          refine (Run.blames_resolve c name).bind fun v => ?_
          cases v with
          | number x => exact Run.blames_throw (by rintro ⟨⟩)
          | function f =>
              refine (evaluateAll_blames host debug c arguments each).bind fun args => ?_
              exact Run.blames_call host f args
  | quoted text =>
      intro _
      rw [evaluate]
      exact evaluateText_blames host debug c text
  | bare => rintro ⟨⟩
termination_by 2 * e.work
decreasing_by all_goals simp only [Expr.work]; omega

theorem evaluateAll_blames (host : Host φ ω) (debug : Bool) (c : Context φ) {source : String}
    (es : List Expr) :
    (∀ e ∈ es, e.Sound source) → (evaluateAll host.recorded debug c es).Blames := by
  cases es with
  | nil =>
      intro _
      rw [evaluateAll]
      exact Run.blames_pure []
  | cons e more =>
      intro each
      rw [List.forall_mem_cons] at each
      rw [evaluateAll]
      refine (evaluate_blames host debug c e each.1).bind fun x => ?_
      refine (evaluateAll_blames host debug c more each.2).bind fun xs => ?_
      exact Run.blames_pure _
termination_by 2 * Expr.workAll es + 1
decreasing_by
  all_goals
    have := e.work_pos
    simp only [Expr.workAll]
    omega

/-- **No text fails internally by itself**, and no quoted text in it does. -/
theorem evaluateText_blames (host : Host φ ω) (debug : Bool) (c : Context φ) (source : String) :
    (evaluateText host.recorded debug c source).Blames := by
  cases h : parse source with
  | error f =>
      rw [evaluateText_of_error host.recorded debug c h]
      exact (Run.blames_report _ _).bind fun _ => Run.blames_throw (by rintro ⟨⟩)
  | ok e =>
      have shrinks := work_le_of_parse h
      rw [evaluateText_of_ok host.recorded debug c h]
      refine (Run.blames_report _ _).bind fun _ => ?_
      refine (Run.blames_report _ _).bind fun _ => ?_
      refine (Run.blames_report _ _).bind fun _ => ?_
      refine (evaluate_blames host debug c.underBuiltins e (sound_of_parse h)).bind fun x => ?_
      exact (Run.blames_report _ _).bind fun _ => Run.blames_pure x
termination_by 2 * source.length + 1

end

/-! ## How many evaluations are under way -/

namespace Moment

/-- The number of evaluations of texts under way after a step, if there are `n` before it: a quoted
text is one more, and a function of the host that evaluates a text begins to count anew. -/
def underWay (n : Nat) (p q : Moment φ ω) : Nat :=
  if q.depth < p.depth then 1
  else match p.tree with
    | .quoted _ => n + 1
    | _ => n

/-- The evaluation of a text comes to a moment with so many evaluations under way. -/
inductive Active (library : Library φ ω) (depth : Nat) (debug : Bool) (base : Option ScopeId)
    (source : String) (w : World φ ω) : Nat → Moment φ ω → Prop
  | first {p} : First depth debug (.ofScope base) source w p →
      Active library depth debug base source w 1 p
  | step {n p q} : Active library depth debug base source w n p → Next library p q →
      Active library depth debug base source w (underWay n p q) q

/-- A moment with `n` evaluations under way: the tree is one of some text, and the second evaluation
is that of a text without quotes. -/
structure Level (n : Nat) (q : Moment φ ω) : Prop where
  sound : ∃ text, q.tree.Sound text
  nesting : n = 1 ∨ n = 2 ∧ q.tree.Flat

variable {library : Library φ ω} {depth n : Nat} {debug : Bool} {base : Option ScopeId}
  {source : String} {w : World φ ω} {c : Context φ} {p q : Moment φ ω}

theorem First.level (h : First depth debug c source w q) : Level 1 q := by
  obtain ⟨parsed⟩ := h
  exact ⟨⟨source, sound_of_parse parsed⟩, .inl rfl⟩

/-- What one step leads to: a part of the tree, the tree of a quoted text, or that of a text which a
function of the host evaluates. -/
theorem Next.destination (h : Next library p q) :
    (q.depth = p.depth ∧ ∃ frame : Frame, p.tree = frame.fill q.tree) ∨
      (q.depth = p.depth ∧ ∃ text, p.tree = .quoted text ∧ parse text = .ok q.tree) ∨
      (q.depth < p.depth ∧ ∃ text, parse text = .ok q.tree) := by
  cases h with
  | left => exact .inl ⟨rfl, .inLeft _ _, rfl⟩
  | right => exact .inl ⟨rfl, .inRight _ _, rfl⟩
  | argument => exact .inl ⟨rfl, .inArgument _ _ _, rfl⟩
  | quoted first =>
      obtain ⟨parsed⟩ := first
      exact .inr (.inl ⟨rfl, _, rfl, parsed⟩)
  | reentry _ _ _ first =>
      obtain ⟨parsed⟩ := first
      exact .inr (.inr ⟨Nat.lt_succ_self _, _, parsed⟩)

theorem underWay_of_fill {frame : Frame} (same : q.depth = p.depth)
    (whole : p.tree = frame.fill q.tree) : underWay n p q = n := by
  rw [underWay, if_neg (Nat.not_lt.mpr same.ge), whole]
  cases frame <;> rfl

theorem underWay_of_quoted {text : String} (same : q.depth = p.depth)
    (quoted : p.tree = .quoted text) : underWay n p q = n + 1 := by
  rw [underWay, if_neg (Nat.not_lt.mpr same.ge), quoted]

/-- One step keeps it. -/
theorem Next.level (h : Next library p q) (level : Level n p) : Level (underWay n p q) q := by
  obtain ⟨⟨text, sound⟩, nesting⟩ := level
  obtain ⟨same, frame, whole⟩ | ⟨same, inner, quoted, parsed⟩ | ⟨deeper, inner, parsed⟩ :=
    h.destination
  · -- a part of a sound tree is sound, and flat if the tree is
    rw [underWay_of_fill same whole]
    rw [whole] at sound nesting
    exact ⟨⟨text, sound.of_fill⟩, nesting.imp_right fun h => ⟨h.1, h.2.of_fill⟩⟩
  · rw [underWay_of_quoted same quoted]
    rw [quoted] at sound nesting
    refine ⟨⟨inner, sound_of_parse parsed⟩, .inr ?_⟩
    cases sound with
    | quoted noQuote =>
        obtain rfl | ⟨-, flat⟩ := nesting
        · exact ⟨rfl, flat_of_parse noQuote parsed⟩
        · -- no quoted text is left to be evaluated in a second evaluation
          exact absurd rfl (flat [] inner)
  · rw [underWay, if_pos deeper]
    exact ⟨⟨inner, sound_of_parse parsed⟩, .inl rfl⟩

/-- **At most two evaluations of texts are under way** between calls of functions of the host, and
in the second one no quoted text is left. -/
theorem Active.level (h : Active library depth debug base source w n q) : Level n q := by
  induction h with
  | first first => exact first.level
  | step _ step ih => exact step.level ih

/-- Evaluation comes to no moment that is not counted. -/
theorem Of.exists_active (h : Moment.Of library depth debug base source w q) :
    ∃ n, Active library depth debug base source w n q := by
  obtain ⟨p, first, steps⟩ := h
  induction steps with
  | refl => exact ⟨1, .first first⟩
  | tail _ step ih =>
      obtain ⟨n, active⟩ := ih
      exact ⟨_, active.step step⟩

/-- The bound is reached, without any function of a host. -/
example (library : Library φ ω) (w : World φ ω) :
    ∃ q, Active library 0 false none "\"x\"" w 2 q := by
  have outer : parse "\"x\"" = .ok (.quoted "x") := by cbv
  have inner : parse "x" = .ok (.identifier "x") := by cbv
  let p : Moment φ ω := ⟨0, false, (Context.ofScope none).underBuiltins, .quoted "x", ⟨w, []⟩⟩
  let q : Moment φ ω :=
    ⟨0, false, (Context.ofScope none).underBuiltins.underBuiltins, .identifier "x", ⟨w, []⟩⟩
  have first : First 0 false (.ofScope none) "\"x\"" w p := .intro outer
  have step : Next library p q := .quoted (.intro inner)
  exact ⟨q, .step (.first first) step⟩

/-! ## Evaluation ends -/

/-- One step leads to less work, or lets evaluations nest less deeply. -/
theorem Next.decreases (h : Next library p q) :
    q.depth < p.depth ∨ q.depth = p.depth ∧ q.tree.work < p.tree.work := by
  obtain ⟨same, frame, whole⟩ | ⟨same, text, quoted, parsed⟩ | ⟨deeper, -⟩ := h.destination
  · refine .inr ⟨same, ?_⟩
    rw [whole]
    exact frame.work_lt_fill q.tree
  · refine .inr ⟨same, ?_⟩
    rw [quoted, Expr.work]
    exact Nat.lt_succ_of_le (work_le_of_parse parsed)
  · exact .inl deeper

/-- **There is no endless chain of steps**, also if functions of the host begin evaluations. -/
theorem wellFounded_next (library : Library φ ω) : WellFounded fun q p => Next library p q := by
  refine Subrelation.wf (r := InvImage (Prod.Lex (· < ·) (· < ·)) fun p : Moment φ ω =>
    (p.depth, p.tree.work)) (fun {q p} h => ?_) (InvImage.wf _ (Prod.lex _ _).wf)
  obtain deeper | ⟨same, less⟩ := h.decreases
  · exact .left _ _ deeper
  · show Prod.Lex _ _ (q.depth, _) (p.depth, _)
    rw [same]
    exact .right _ less

/-- A step that is no call of a function of the host. -/
def Inside (library : Library φ ω) (p q : Moment φ ω) : Prop :=
  Next library p q ∧ q.depth = p.depth

theorem length_lt_work {qs : List (Moment φ ω)} (h : (p :: qs).IsChain (Inside library)) :
    qs.length < p.tree.work := by
  induction qs generalizing p with
  | nil => exact p.tree.work_pos
  | cons q qs ih =>
      obtain ⟨⟨step, same⟩, more⟩ := List.isChain_cons_cons.mp h
      have shorter := ih more
      have less := step.decreases
      rw [List.length_cons]
      omega

end Moment

/-! ## All texts -/

/-- How the evaluation of a text is sound. The functions of the host are arbitrary for `failures`,
and scripts where it matters what they evaluate. -/
structure RunsSoundly (host : Host φ ω) (library : Library φ ω) (debug : Bool)
    (base : Option ScopeId) (source : String) (w : World φ ω) : Prop where
  /-- Only a sound tree comes out of the parser. -/
  tree : ∀ e, parse source = .ok e → e.Sound source
  /-- The tree of a quoted text in it has no quoted text. -/
  quotes : ∀ path text inner, parse source = .ok (plug path (.quoted text)) →
    parse text = .ok inner → inner.Flat
  /-- Who fails internally is a function of the host, by itself or in what it evaluates. -/
  failures : ∀ f, ((evaluateText host.recorded debug (.ofScope base) source).effect w).result =
      .error f → f.Internal →
    ∃ call ∈ ((evaluateText host.recorded debug (.ofScope base) source).effect w).calls,
      call.answer = .error f
  /-- Wherever evaluation comes, also in quoted texts and in formulas that functions of the host
  evaluate, there is no bare node and every operator has a meaning. -/
  branches : ∀ depth q, Moment.Of library depth debug base source w q → q.tree ≠ .bare ∧
    ∀ left kind right, q.tree = .binary left kind right → ∃ op, Operator.ofKind? kind = some op
  /-- Not counting those around a call of a function of the host, one or two evaluations of texts
  are under way; and none can begin in the second. -/
  levels : ∀ depth n q, Moment.Active library depth debug base source w n q →
    n = 1 ∨ n = 2 ∧ q.tree.Flat
  /-- After fewer steps than the text has characters there is no other, or a function of the host
  begins an evaluation. -/
  steps : ∀ depth p qs, Moment.First depth debug (.ofScope base) source w p →
    (p :: qs).IsChain (Moment.Inside library) → qs.length < source.length
  /-- No evaluation goes on forever. -/
  ends : WellFounded fun q p => Moment.Next library p q

/-- **Only sound trees come out of the parser, and the internal failures are dead for them.** -/
theorem runsSoundly (host : Host φ ω) (library : Library φ ω) (debug : Bool)
    (base : Option ScopeId) (source : String) (w : World φ ω) :
    RunsSoundly host library debug base source w where
  tree _ parsed := sound_of_parse parsed
  quotes path text inner parsed parsedText := by
    cases (readFrom_of_parse parsed).of_plug with
    | quoted hx => exact flat_of_parse hx.1 parsedText
  failures f failed isInternal :=
    evaluateText_blames host debug (.ofScope base) source ⟨w.recording, []⟩ f failed isInternal
  branches depth q reached := by
    obtain ⟨n, active⟩ := reached.exists_active
    obtain ⟨text, sound⟩ := active.level.sound
    constructor
    · intro bare
      rw [bare] at sound
      cases sound
    · intro left kind right binary
      rw [binary] at sound
      cases sound with
      | binary op => exact ⟨op, Operator.ofKind?_kind op⟩
  levels _ _ _ active := active.level.nesting
  steps depth p qs first chain := by
    have shorter := Moment.length_lt_work chain
    obtain ⟨parsed⟩ := first
    exact Nat.lt_of_lt_of_le shorter (work_le_of_parse parsed)
  ends := Moment.wellFounded_next library

end

end Reckoner
