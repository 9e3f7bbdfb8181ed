import Mathlib
import Reckoner.Proofs.Evaluate.Moments

/-!
# A program and its scopes

A program creates scopes, defines names, sets parents and evaluates formulas, in any order and for
as long as it likes. It may set every parent that closes no cycle. Whatever it did before, an
evaluation leaves its scopes alone but for what the functions of the host write, and no scope of it
can take a built-in name away from a formula.
-/

namespace Reckoner

variable {φ ω : Type}

/-! ## Programs -/

/-- One thing that a program does. -/
inductive Operation (φ : Type)
  | write (a : Write φ)
  | setParent (id : ScopeId) (parent : Option ScopeId)
  | evaluate (base : Option ScopeId) (source : String) (debug : Bool)

/-- A parent that is set and a scope that a text is evaluated in exist, and no scope is made its own
ancestor. A definition in a scope that does not exist does nothing. -/
def Operation.Allowed (s : Scopes φ) : Operation φ → Prop
  | .write _ => True
  | .setParent id parent => ∀ p ∈ parent, p < s.slots.size ∧ p ≠ id ∧ ¬s.Ancestor p id
  | .evaluate base _ _ => ∀ b ∈ base, b < s.slots.size

def Operation.perform (host : Host φ ω) (w : World φ ω) : Operation φ → World φ ω
  | .write a => { w with scopes := w.scopes.write a }
  | .setParent id parent => { w with scopes := w.scopes.setParent id parent }
  | .evaluate base source debug =>
      ((evaluateText host debug (.ofScope base) source).outcome w).world

/-- The worlds that programs come to, one operation after the other. -/
inductive Reached (host : Host φ ω) : World φ ω → Prop
  | start (notes : ω) : Reached host ⟨.empty, notes⟩
  | step {w : World φ ω} (o : Operation φ) : Reached host w → o.Allowed w.scopes →
      Reached host (o.perform host w)

section

variable {library : Library φ ω} {depth : Nat} {w : World φ ω}

/-- One operation keeps a store without cycles. -/
theorem Operation.grounded_perform {o : Operation φ} (allowed : o.Allowed w.scopes)
    (h : w.scopes.Grounded) : (o.perform (library.host depth) w).scopes.Grounded := by
  cases o with
  | write a => exact h.write a
  | setParent id parent =>
      exact h.setParent (fun p hp => (allowed p hp).1) fun p hp => (allowed p hp).2
  | evaluate base source debug =>
      rw [perform, scopes_evaluateText]
      exact h.writeAll _

/-- No program comes to a cycle. -/
theorem Reached.grounded (h : Reached (library.host depth) w) : w.scopes.Grounded := by
  induction h with
  | start => exact Scopes.grounded_empty
  | step o _ allowed ih => exact Operation.grounded_perform allowed ih

end

/-! ## Evaluations in a program -/

/-- What the evaluation of a text in a caller's scope makes of the world before it, and where names
are looked up meanwhile. -/
structure LeavesCaller (library : Library φ ω) (depth : Nat) (debug : Bool)
    (base : Option ScopeId) (source : String) (before after : World φ ω) : Prop where
  /-- The world has changed by the calls of functions of the host, one after the other. -/
  world : after = ((evaluateText (library.host depth).recorded debug (.ofScope base) source).effect
    before).calls.foldl (fun w call => ((library.host depth).invoke call.code call.args w).2) before
  /-- The store has changed by what these functions write. -/
  scopes : after.scopes =
    before.scopes.writeAll (library.writes depth debug (.ofScope base) source before)
  /-- No scope is gone. -/
  size_le : before.scopes.slots.size ≤ after.scopes.slots.size
  /-- No scope that was there has another parent. -/
  parents : ∀ id < before.scopes.slots.size,
    after.scopes.parent? id = before.scopes.parent? id
  /-- A name has another value only where one of these functions defines it. -/
  bindings : ∀ id < before.scopes.slots.size, ∀ name,
    (∀ v, .define id name v ∉ library.writes depth debug (.ofScope base) source before) →
      (after.scopes.bindings id).get? name = (before.scopes.bindings id).get? name
  /-- No scope has become its own ancestor. -/
  grounded : after.scopes.Grounded
  /-- Wherever evaluation comes, built-in names stand for what is built in, in whatever store. -/
  builtins : ∀ q, Moment.Of library depth debug base source before q → q.context.Protected
  /-- The context there is as good as scopes of its own in front of a caller's: a store that had
  them would have no other scope changed, and no scope would be its own ancestor. -/
  covers : ∀ q, Moment.Of library depth debug base source before q → ∀ s : Scopes φ,
    s.Grounded → (∀ b ∈ q.context.base, b < s.slots.size) →
      let covered := s.coverTimes q.context.base q.context.layers.length
      covered.2.Grounded ∧ s.Extends covered.2 ∧
        ∀ name, q.context.lookup? s name = covered.2.lookup? covered.1 name

end Reckoner
