import Reckoner.Proofs.Evaluate.Simulation

/-!
# Places in a tree

A place is given by the frames around it, outermost first. `lead` is the part of an evaluation that
comes before the place: everything to the left of it, in order, and for an argument of a call also
the check of the name that is called. Where the place holds an expression that only fails, the whole
tree is evaluated by its lead and then fails.
-/

namespace Reckoner

/-- One node around a place, with the parts of it that are beside the place. -/
inductive Frame
  | inLeft (op : Kind) (right : Expr)
  | inRight (left : Expr) (op : Kind)
  | inArgument (name : String) (before after : List Expr)

/-- The node with an expression at its place. -/
def Frame.fill : Frame → Expr → Expr
  | .inLeft op right, e => .binary e op right
  | .inRight left op, e => .binary left op e
  | .inArgument name before after, e => .call name (before ++ e :: after)

/-- The tree with an expression at its place. -/
def plug (path : List Frame) (e : Expr) : Expr := path.foldr Frame.fill e

@[simp] theorem plug_cons (frame : Frame) (path : List Frame) (e : Expr) :
    plug (frame :: path) e = frame.fill (plug path e) := rfl

section

variable {φ ω : Type} (host : Host φ ω) (c : Context φ)

/-- What is evaluated inside a node before its place. -/
def Frame.lead : Frame → Run φ ω Unit
  | .inLeft _ _ => pure ()
  | .inRight left _ => do
      let _ ← evaluate host false c left
      pure ()
  | .inArgument name before _ => do
      match ← Run.resolve c name with
      | .number _ => throw .numberAsFunction
      | .function _ => do
          let _ ← evaluateAll host false c before
          pure ()

/-- What is evaluated before a place, without the reports. -/
def lead : List Frame → Run φ ω Unit
  | [] => pure ()
  | frame :: path => do
      frame.lead host c
      lead path

variable {host c} {e : Expr} {f : Failure} {r : Run φ ω Unit}

theorem evaluateAll_fails (fails : evaluate host false c e = (do r; throw f))
    (before after : List Expr) :
    evaluateAll host false c (before ++ e :: after) =
      (do
        let _ ← evaluateAll host false c before
        r
        throw f) := by
  induction before with
  | nil =>
      rw [List.nil_append, evaluateAll, evaluateAll, fails, pure_bind, bind_assoc]
      rfl
  | cons x more ih =>
      rw [List.cons_append, evaluateAll, evaluateAll, ih]
      simp only [bind_assoc, pure_bind]
      rfl

/-- A node around an expression that only fails fails after its lead. -/
theorem Frame.evaluate_fill (frame : Frame) (fails : evaluate host false c e = (do r; throw f)) :
    evaluate host false c (frame.fill e) = (do frame.lead host c; r; throw f) := by
  cases frame with
  | inLeft op right =>
      rw [Frame.fill, evaluate, fails, Frame.lead, bind_assoc, pure_bind]
      rfl
  | inRight left op =>
      rw [Frame.fill, evaluate, fails, Frame.lead]
      simp only [bind_assoc, pure_bind]
      rfl
  | inArgument name before after =>
      rw [Frame.fill, evaluate, evaluateAll_fails fails before after, Frame.lead, bind_assoc]
      congr
      ext1 v
      cases v with
      | number x => rfl
      | function g =>
          simp only [bind_assoc, pure_bind]
          rfl

/-- **A tree around an expression that only fails** is evaluated up to the place, and then fails. -/
theorem evaluate_plug (fails : evaluate host false c e = throw f) (path : List Frame) :
    evaluate host false c (plug path e) = (do lead host c path; throw f) := by
  induction path with
  | nil => exact fails
  | cons frame path ih =>
      rw [plug_cons, frame.evaluate_fill ih, lead, bind_assoc]

end

end Reckoner
