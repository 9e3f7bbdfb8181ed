import Mathlib.Logic.Relation
import Reckoner.Proofs.Evaluate.Script
import Reckoner.Proofs.Scope.Cover

/-!
# The moments of an evaluation

A moment is a tree that is about to be evaluated, with the context and the session there. From it
evaluation goes on to the parts of the tree, in their order and only as far as the parts before them
have values, to the trees of quoted texts, and to the formulas that functions of the host evaluate.
`Moment.Next` is one such step. One invariant of it says what the contexts are: the scope of some
caller under built-in names.
-/

namespace Reckoner

open Relation

variable {φ ω : Type}

/-! ## Moments -/

/-- A tree to be evaluated; `depth` is how deep evaluations may still nest. -/
structure Moment (φ ω : Type) where
  depth : Nat
  debug : Bool
  context : Context φ
  tree : Expr
  session : Session φ ω

/-- The script comes to the evaluation of a text in a scope, with the world as it is by then. -/
inductive Script.Enters (enter : Entry φ ω) :
    Script φ ω → World φ ω → Option ScopeId → String → World φ ω → Prop
  | here {base source next w} : Enters enter (.reenter base source next) w base source w
  | later {base source next w base' source' v} :
      Enters enter (next (enter base source w).1) (enter base source w).2 base' source' v →
      Enters enter (.reenter base source next) w base' source' v
  | look {next w base source v} : Enters enter (next w) w base source v →
      Enters enter (.look next) w base source v
  | note {change next w base source v} :
      Enters enter next { w with notes := change w.notes } base source v →
      Enters enter (.note change next) w base source v
  | write {a next w base source v} :
      Enters enter next { w with scopes := w.scopes.write a } base source v →
      Enters enter (.write a next) w base source v

/-- The evaluation of a text comes to its tree, under the built-in names. -/
inductive Moment.First (depth : Nat) (debug : Bool) (c : Context φ) (source : String)
    (w : World φ ω) : Moment φ ω → Prop
  | intro {e trace} : parse source = .ok e →
      First depth debug c source w ⟨depth, debug, c.underBuiltins, e, ⟨w, trace⟩⟩

/-- Evaluation comes from one moment to another. -/
inductive Moment.Next (library : Library φ ω) : Moment φ ω → Moment φ ω → Prop
  | left {depth debug c left op right s} :
      Next library ⟨depth, debug, c, .binary left op right, s⟩ ⟨depth, debug, c, left, s⟩
  | right {depth debug c left op right s x t} :
      (evaluate (library.host depth) debug c left).on s = (.ok x, t) →
      Next library ⟨depth, debug, c, .binary left op right, s⟩ ⟨depth, debug, c, right, t⟩
  | argument {depth debug c name f before a after s xs t} :
      c.lookup? s.world.scopes name = some (.function f) →
      (evaluateAll (library.host depth) debug c before).on s = (.ok xs, t) →
      Next library ⟨depth, debug, c, .call name (before ++ a :: after), s⟩ ⟨depth, debug, c, a, t⟩
  | quoted {depth debug c source s q} : First depth debug c source s.world q →
      Next library ⟨depth, debug, c, .quoted source, s⟩ q
  /-- The function that is called is one of the host, and evaluates a text in some scope. -/
  | reentry {depth debug c name arguments arity code s xs t base source v q} :
      c.lookup? s.world.scopes name = some (.function (.host arity code)) →
      (evaluateAll (library.host (depth + 1)) debug c arguments).on s = (.ok xs, t) →
      (library code xs).Enters (library.host depth).enter t.world base source v →
      First depth false (.ofScope base) source v q →
      Next library ⟨depth + 1, debug, c, .call name arguments, s⟩ q

/-- The moments of the evaluation of a text in a caller's scope. -/
def Moment.Of (library : Library φ ω) (depth : Nat) (debug : Bool) (base : Option ScopeId)
    (source : String) (w : World φ ω) (q : Moment φ ω) : Prop :=
  ∃ p, First depth debug (.ofScope base) source w p ∧ ReflTransGen (Next library) p q

/-! ## Contexts under built-in names -/

/-- In whatever store, the built-in names stand for the built-in constants and functions. -/
structure Context.Protected (c : Context φ) : Prop where
  circle : ∀ s, c.lookup? s "pi" = some (.number Number.circle)
  eulerBase : ∀ s, c.lookup? s "e" = some (.number Number.eulerBase)
  functions : ∀ s (b : Builtin), c.lookup? s b.name = some (.function (.builtin b))

theorem Context.protected_underBuiltins (c : Context φ) : c.underBuiltins.Protected where
  circle s := by rw [lookup?_underBuiltins]; rfl
  eulerBase s := by rw [lookup?_underBuiltins]; rfl
  functions s b := by
    rw [lookup?_underBuiltins]
    cases b <;> rfl

/-- The context is the scope of a caller, or none, under built-in names. -/
def Context.Covers (c : Context φ) : Prop :=
  ∃ times base, c = ⟨List.replicate (times + 1) .standard, base⟩

theorem Context.covers_ofScope (base : Option ScopeId) :
    (ofScope base : Context φ).underBuiltins.Covers := ⟨0, base, rfl⟩

theorem Context.Covers.underBuiltins {c : Context φ} (h : c.Covers) : c.underBuiltins.Covers := by
  obtain ⟨times, base, rfl⟩ := h
  exact ⟨times + 1, base, rfl⟩

theorem Context.Covers.protected {c : Context φ} (h : c.Covers) : c.Protected := by
  obtain ⟨times, base, rfl⟩ := h
  exact Context.protected_underBuiltins ⟨List.replicate times .standard, base⟩

/-! ## The invariant -/

/-- One step keeps it. -/
theorem Moment.Next.covers {library : Library φ ω} {p q : Moment φ ω} (h : Next library p q)
    (covers : p.context.Covers) : q.context.Covers := by
  cases h with
  | left => exact covers
  | right => exact covers
  | argument => exact covers
  | quoted first =>
      obtain ⟨_⟩ := first
      exact covers.underBuiltins
  | reentry _ _ _ first =>
      obtain ⟨_⟩ := first
      exact Context.covers_ofScope _

/-- **At every moment of an evaluation** the context is the scope of a caller under built-in
names. -/
theorem Moment.Of.covers {library : Library φ ω} {depth : Nat} {debug : Bool}
    {base : Option ScopeId} {source : String} {w : World φ ω} {q : Moment φ ω}
    (h : Of library depth debug base source w q) : q.context.Covers := by
  obtain ⟨p, ⟨_⟩, steps⟩ := h
  induction steps with
  | refl => exact Context.covers_ofScope base
  | tail _ step ih => exact step.covers ih

end Reckoner
