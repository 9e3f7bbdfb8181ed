import Reckoner.Proofs.Evaluate.Recording

/-!
# Walking a tree

The visits of a tree are what evaluation comes by, depth first and from left to right, with quoted
texts expanded in place. They depend on the tree alone, and whether a visit violates the rules
depends on what its names stand for. A walk goes through the visits with a stack of values: it stops
at the first violation, or where a function of the host refuses, and otherwise ends with one value.
-/

namespace Reckoner

/-- One thing that evaluation comes by. -/
inductive Visit
  | number (x : Float)
  | identifier (name : String)
  /-- The name of a call, before its arguments. -/
  | callee (name : String)
  /-- The call itself, behind its arguments. -/
  | apply (name : String) (count : Nat)
  | operation (op : Operator)
  /-- A quoted text that is no formula. -/
  | noFormula (f : SourceFault)

mutual

/-- The visits of a tree in their order. Nodes that no text is read as have none of their own. -/
def visits (e : Expr) : List Visit :=
  match e with
  | .number x => [.number x]
  | .identifier name => [.identifier name]
  | .binary left op right =>
      visits left ++ visits right ++ (Operator.ofKind? op).toList.map Visit.operation
  | .call name arguments => .callee name :: visitsAll arguments ++ [.apply name arguments.length]
  | .quoted source => visitsText source
  | .bare => []
termination_by 2 * e.work
decreasing_by all_goals simp only [Expr.work]; omega

def visitsAll (es : List Expr) : List Visit :=
  match es with
  | [] => []
  | e :: more => visits e ++ visitsAll more
termination_by 2 * Expr.workAll es + 1
decreasing_by
  all_goals
    have := e.work_pos
    simp only [Expr.workAll]
    omega

def visitsText (source : String) : List Visit :=
  match h : parse source with
  | .error f => [.noFormula f]
  | .ok e =>
      have := work_le_of_parse h
      visits e
termination_by 2 * source.length + 1

end

theorem visitsText_of_ok {source : String} {e : Expr} (h : parse source = .ok e) :
    visitsText source = visits e := by
  rw [visitsText]
  split <;> simp_all

theorem visitsText_of_error {source : String} {f : SourceFault} (h : parse source = .error f) :
    visitsText source = [.noFormula f] := by
  rw [visitsText]
  split <;> simp_all

section

variable {φ : Type}

/-- What a name stands for: the built-in names first, then those along the chain of a scope. -/
def meaning (s : Scopes φ) (base : Option ScopeId) (name : String) : Option (Value φ) :=
  (Bindings.standard.get? name).or (s.lookup? base name)

/-- How a visit violates the rules, if names stand for what they do. -/
def Visit.violation? (names : String → Option (Value φ)) : Visit → Option Failure
  | .number _ | .operation _ => none
  | .identifier name =>
      match names name with
      | none => some (.unknownIdentifier name)
      | some (.function _) => some .functionAsNumber
      | some (.number _) => none
  | .callee name =>
      match names name with
      | none => some (.unknownIdentifier name)
      | some (.number _) => some .numberAsFunction
      | some (.function _) => none
  | .apply name count =>
      match names name with
      | some (.function (.builtin b)) => if count = b.arity then none else some (.argumentCount b)
      | _ => none
  | .noFormula f => some (.source f)

/-- The function of the host that a visit calls, with the number of arguments. -/
def Visit.hostCall? (names : String → Option (Value φ)) : Visit → Option (φ × Nat)
  | .apply name count =>
      match names name with
      | some (.function (.host _ code)) => some (code, count)
      | _ => none
  | _ => none

/-- What of a call is known beforehand. -/
def Call.outline (call : Call φ) : φ × Nat := (call.code, call.args.length)

/-- A walk through visits with a stack of values, the calls of the host it makes with what they
answer, and what it comes to. The arguments of a call are on the stack, the last one on top. -/
inductive Walk (names : String → Option (Value φ)) :
    List Visit → List Float → List (Call φ) → Except Failure Float → Prop
  | done {x : Float} : Walk names [] [x] [] (.ok x)
  | number {x : Float} {more stack calls result} : Walk names more (x :: stack) calls result →
      Walk names (.number x :: more) stack calls result
  | identifier {name : String} {x : Float} {more stack calls result} :
      names name = some (.number x) → Walk names more (x :: stack) calls result →
      Walk names (.identifier name :: more) stack calls result
  | callee {name : String} {f : Function φ} {more stack calls result} :
      names name = some (.function f) → Walk names more stack calls result →
      Walk names (.callee name :: more) stack calls result
  | operation {op : Operator} {a b : Float} {more stack calls result} :
      Walk names more (op.apply a b :: stack) calls result →
      Walk names (.operation op :: more) (b :: a :: stack) calls result
  | builtin {name : String} {b : Builtin} {args : List Float} {x : Float}
      {more stack calls result} : names name = some (.function (.builtin b)) →
      b.value? args = some x → Walk names more (x :: stack) calls result →
      Walk names (.apply name args.length :: more) (args.reverse ++ stack) calls result
  | answered {name : String} {arity : Nat} {code : φ} {args : List Float} {x : Float}
      {more stack calls result} : names name = some (.function (.host arity code)) →
      Walk names more (x :: stack) calls result →
      Walk names (.apply name args.length :: more) (args.reverse ++ stack)
        (⟨code, args, .ok x⟩ :: calls) result
  | refused {name : String} {arity : Nat} {code : φ} {args : List Float} {f : Failure}
      {more stack} : names name = some (.function (.host arity code)) →
      Walk names (.apply name args.length :: more) (args.reverse ++ stack)
        [⟨code, args, .error f⟩] (.error f)
  | violation {v : Visit} {f : Failure} {more stack} : v.violation? names = some f →
      Walk names (v :: more) stack [] (.error f)

/-- Visits that a walk goes through without a violation, and its calls, which are those of the
visits and are all answered. -/
structure Passed (names : String → Option (Value φ)) (vs : List Visit) (calls : List (Call φ)) :
    Prop where
  keeps : ∀ v ∈ vs, v.violation? names = none
  outlines : calls.map Call.outline = vs.filterMap (Visit.hostCall? names)
  answers : ∀ call ∈ calls, ∃ x, call.answer = .ok x

/-- What a visit at which a walk stops fails with, and the call that it makes, if it makes one. -/
inductive StopsAt (names : String → Option (Value φ)) (v : Visit) (f : Failure) :
    List (Call φ) → Prop
  | violation : v.violation? names = some f → StopsAt names v f []
  | refused {call : Call φ} : v.violation? names = none → v.hostCall? names = some call.outline →
      call.answer = .error f → StopsAt names v f [call]

/-- Going through visits comes to a value if all of them pass, and else to the failure of the first
that does not. -/
inductive EndsAtFirst (names : String → Option (Value φ)) :
    List Visit → List (Call φ) → Except Failure Float → Prop
  | value {vs calls} {x : Float} : Passed names vs calls → EndsAtFirst names vs calls (.ok x)
  | failure {before v calls f last} {after : List Visit} : Passed names before calls →
      StopsAt names v f last → EndsAtFirst names (before ++ v :: after) (calls ++ last) (.error f)

section

variable {names : String → Option (Value φ)} {v : Visit} {vs : List Visit} {stack : List Float}
  {calls : List (Call φ)} {result : Except Failure Float}

theorem passed_nil : Passed names [] [] := ⟨by simp, rfl, by simp⟩

theorem Passed.cons (h : Passed names vs calls) (keeps : v.violation? names = none)
    (noCall : v.hostCall? names = none) : Passed names (v :: vs) calls where
  keeps := List.forall_mem_cons.mpr ⟨keeps, h.keeps⟩
  outlines := by rw [h.outlines, List.filterMap_cons_none noCall]
  answers := h.answers

theorem Passed.cons_call {call : Call φ} {x : Float} (h : Passed names vs calls)
    (keeps : v.violation? names = none) (isCall : v.hostCall? names = some call.outline)
    (answer : call.answer = .ok x) : Passed names (v :: vs) (call :: calls) where
  keeps := List.forall_mem_cons.mpr ⟨keeps, h.keeps⟩
  outlines := by rw [List.map_cons, h.outlines, List.filterMap_cons_some isCall]
  answers := List.forall_mem_cons.mpr ⟨⟨x, answer⟩, h.answers⟩

theorem EndsAtFirst.cons (h : EndsAtFirst names vs calls result) (keeps : v.violation? names = none)
    (noCall : v.hostCall? names = none) : EndsAtFirst names (v :: vs) calls result := by
  cases h with
  | value passed => exact .value (passed.cons keeps noCall)
  | failure passed stops => exact .failure (passed.cons keeps noCall) stops

theorem EndsAtFirst.cons_call {call : Call φ} {x : Float} (h : EndsAtFirst names vs calls result)
    (keeps : v.violation? names = none) (isCall : v.hostCall? names = some call.outline)
    (answer : call.answer = .ok x) : EndsAtFirst names (v :: vs) (call :: calls) result := by
  cases h with
  | value passed => exact .value (passed.cons_call keeps isCall answer)
  | failure passed stops => exact .failure (passed.cons_call keeps isCall answer) stops

theorem StopsAt.ends {f : Failure} (h : StopsAt names v f calls) (after : List Visit) :
    EndsAtFirst names (v :: after) calls (.error f) :=
  .failure passed_nil h

/-- **A walk ends at the first violation**, or where a function of the host refuses before one, and
it has made the calls of the visits up to there. -/
theorem Walk.ends (h : Walk names vs stack calls result) : EndsAtFirst names vs calls result := by
  induction h with
  | done => exact .value passed_nil
  | number _ ih => exact ih.cons rfl rfl
  | identifier isNumber _ ih => exact ih.cons (by rw [Visit.violation?, isNumber]) rfl
  | callee isFunction _ ih => exact ih.cons (by rw [Visit.violation?, isFunction]) rfl
  | operation _ ih => exact ih.cons rfl rfl
  | @builtin _ b args _ _ _ _ _ isBuiltin value _ ih =>
      have count : args.length = b.arity := Builtin.isSome_value?_iff.mp (by rw [value]; rfl)
      refine ih.cons ?_ (by rw [Visit.hostCall?, isBuiltin])
      rw [Visit.violation?, isBuiltin]
      exact if_pos count
  | answered isHost _ ih =>
      refine ih.cons_call ?_ ?_ rfl
      · rw [Visit.violation?, isHost]
      · rw [Visit.hostCall?, isHost]
        rfl
  | refused isHost =>
      refine StopsAt.ends (.refused ?_ ?_ rfl) _
      · rw [Visit.violation?, isHost]
      · rw [Visit.hostCall?, isHost]
        rfl
  | violation violates => exact StopsAt.ends (.violation violates) _

/-- There is a value exactly if nothing is violated and every call is answered. -/
theorem EndsAtFirst.exists_ok_iff (h : EndsAtFirst names vs calls result) :
    (∃ x, result = .ok x) ↔
      (∀ v ∈ vs, v.violation? names = none) ∧ ∀ call ∈ calls, ∃ x, call.answer = .ok x := by
  cases h with
  | value passed => simpa using ⟨passed.keeps, passed.answers⟩
  | failure passed stops =>
      constructor
      · rintro ⟨x, ⟨⟩⟩
      · rintro ⟨keeps, answers⟩
        cases stops with
        | violation violates =>
            rw [keeps _ (by simp)] at violates
            cases violates
        | refused _ _ refused =>
            obtain ⟨x, answer⟩ := answers _ (List.mem_append_right _ (List.mem_singleton_self _))
            rw [refused] at answer
            cases answer

end

end

end Reckoner
