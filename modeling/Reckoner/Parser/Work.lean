import Reckoner.Parser.State

/-!
# The work of what the parser holds

Every node costs at least one character to write, and a quoted text two more than its length. So
while tokens are read the work of all trees in the state stays within the number of characters
taken, and the tree of a text has no more work than the text has characters.
-/

namespace Reckoner.Parser

/-! ## Work held by a state -/

/-- The work already held by what is pending; the node to come is counted. -/
def Pending.work : Pending → Nat
  | .operation left _ => left.work + 1
  | .implicitCall _ => 1

def pendingWork (pending : List Pending) : Nat :=
  pending.foldr (fun p total => p.work + total) 0

def Opening.work : Opening → Nat
  | .group _ => 0
  | .arguments _ before => Expr.workAll before + 1

def Level.work (l : Level) : Nat := l.opening.work + pendingWork l.pending

def outerWork (outer : List Level) : Nat := outer.foldr (fun l total => l.work + total) 0

def State.work : State → Nat
  | .expecting pending outer => pendingWork pending + outerWork outer
  | .basic e _ pending outer => e.work + pendingWork pending + outerWork outer
  | .called e pending outer => e.work + pendingWork pending + outerWork outer

@[simp] theorem pendingWork_nil : pendingWork [] = 0 := rfl

@[simp] theorem pendingWork_cons (p : Pending) (pending : List Pending) :
    pendingWork (p :: pending) = p.work + pendingWork pending := rfl

@[simp] theorem outerWork_nil : outerWork [] = 0 := rfl

@[simp] theorem outerWork_cons (l : Level) (outer : List Level) :
    outerWork (l :: outer) = l.opening.work + pendingWork l.pending + outerWork outer := rfl

@[simp] theorem State.work_start : State.start.work = 0 := rfl

/-! ## Finishing what is pending keeps the work -/

theorem work_settle (next : Operator) (e : Expr) (pending : List Pending) :
    (settle next e pending).1.work + pendingWork (settle next e pending).2 =
      e.work + pendingWork pending := by
  fun_induction settle next e pending with
  | case1 => rfl
  | case2 e name pending ih =>
    simp only [ih, Expr.work, Expr.workAll, pendingWork_cons, Pending.work]
    omega
  | case3 e left op pending _ ih =>
    simp only [ih, Expr.work, pendingWork_cons, Pending.work]
    omega
  | case4 => rfl

theorem work_settleAll (e : Expr) (pending : List Pending) :
    (settleAll e pending).work = e.work + pendingWork pending := by
  fun_induction settleAll e pending with
  | case1 => rfl
  | case2 e name pending ih =>
    simp only [ih, Expr.work, Expr.workAll, pendingWork_cons, Pending.work]
    omega
  | case3 e left op pending ih =>
    simp only [ih, Expr.work, pendingWork_cons, Pending.work]
    omega

/-! ## One step -/

/-- What a step holds afterwards is at most `bound`. -/
def Step.Within (bound : Nat) : Step → Prop
  | .shift next => next.work ≤ bound
  | .accept e => e.work ≤ bound
  | .fail _ => True

theorem begin_within {t : Token} (spelled : 0 < t.lexeme.spelling.length)
    (pending : List Pending) (outer : List Level) :
    (begin t pending outer).Within
      (pendingWork pending + outerWork outer + t.lexeme.spelling.length) := by
  rcases t with ⟨x, position⟩
  cases x with
  | number digits => simp only [begin, Step.Within, State.work, Expr.work] at *; omega
  | word name => simp only [begin, Step.Within, State.work, Expr.work] at *; omega
  | quoted inner =>
    simp only [begin, Step.Within, State.work, Expr.work, Lexeme.spelling, List.length_append,
      List.length_cons, List.length_nil, String.length_toList]
    omega
  | symbol s =>
    cases s <;>
      simp only [begin, Step.Within, State.work, outerWork_cons, Opening.work, pendingWork_nil]
    omega

theorem close_within {t : Token} (spelled : 0 < t.lexeme.spelling.length) (e : Expr)
    (outer : List Level) :
    (close t e outer).Within (e.work + outerWork outer + t.lexeme.spelling.length) := by
  fun_cases close t e outer <;>
    simp only [Step.Within, State.work, Expr.work, Expr.workAll, Expr.workAll_append,
      outerWork_cons, outerWork_nil, Opening.work, pendingWork_nil] <;>
    omega

theorem proceed_within {t : Token} (spelled : 0 < t.lexeme.spelling.length) (e : Expr)
    (pending : List Pending) (outer : List Level) :
    (proceed t e pending outer).Within
      (e.work + pendingWork pending + outerWork outer + t.lexeme.spelling.length) := by
  unfold proceed
  split
  · next op _ =>
    have := work_settle op e pending
    simp only [Step.Within, State.work, pendingWork_cons, Pending.work]
    omega
  · have := close_within spelled (settleAll e pending) outer
    rwa [work_settleAll] at this

theorem Step.Within.mono {m n : Nat} {s : Step} (h : s.Within m) (le : m ≤ n) : s.Within n := by
  cases s with
  | shift => exact Nat.le_trans h le
  | accept => exact Nat.le_trans h le
  | fail => trivial

theorem State.feed_within {t : Token} (spelled : 0 < t.lexeme.spelling.length) (s : State) :
    (s.feed t).Within (s.work + t.lexeme.spelling.length) := by
  fun_cases State.feed s t with
  | case1 pending outer => exact begin_within spelled pending outer
  | case2 e pending outer => exact proceed_within spelled e pending outer
  | case3 e start pending outer =>
    refine (begin_within spelled _ outer).mono ?_
    have := e.work_pos
    simp only [State.work, pendingWork_cons, Pending.work]
    omega
  | case4 e start pending outer =>
    refine (begin_within spelled _ outer).mono ?_
    have := e.work_pos
    simp only [State.work, pendingWork_cons, Pending.work]
    omega
  | case5 e start pending outer =>
    have := e.work_pos
    simp only [Step.Within, State.work, outerWork_cons, Opening.work, Expr.workAll, pendingWork_nil]
    omega
  | case6 => trivial
  | case7 => trivial
  | case8 => trivial
  | case9 e start pending outer => exact proceed_within spelled e pending outer

theorem State.work_finish {s : State} {length : Nat} {e : Expr} (h : s.finish length = .ok e) :
    e.work = s.work := by
  unfold State.finish at h
  split at h <;> cases h <;> simp [State.work, work_settleAll]

end Reckoner.Parser
