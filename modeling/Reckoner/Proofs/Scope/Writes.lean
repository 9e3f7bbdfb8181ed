import Reckoner.Proofs.Scope.Parents

/-!
# Writing to a store

Scopes are only ever created and given bindings, apart from the parents that a program sets. A list
of such writes says everything that happened to a store: scopes that were there keep their parents,
a name of theirs has changed only if one of the writes defines it, and no cycle has come about.
-/

namespace Reckoner

/-- What happens to a store: a name is defined in a scope, or a scope is created, empty and below a
parent. A parent that does not exist is none. -/
inductive Write (φ : Type)
  | define (id : ScopeId) (name : String) (v : Value φ)
  | create (parent : Option ScopeId)

namespace Scopes

variable {φ : Type} {s : Scopes φ}

/-- The scope, if it exists. -/
def existing (s : Scopes φ) (id : Option ScopeId) : Option ScopeId := id.filter (· < s.slots.size)

def write (s : Scopes φ) : Write φ → Scopes φ
  | .define id name v => s.define id name v
  | .create parent => (s.create .empty (s.existing parent)).2

/-- One write after the other. -/
def writeAll (s : Scopes φ) (writes : List (Write φ)) : Scopes φ := writes.foldl write s

@[simp] theorem writeAll_nil (s : Scopes φ) : s.writeAll [] = s := rfl

@[simp] theorem writeAll_cons (s : Scopes φ) (a : Write φ) (more : List (Write φ)) :
    s.writeAll (a :: more) = (s.write a).writeAll more := rfl

theorem writeAll_concat (s : Scopes φ) (writes : List (Write φ)) (a : Write φ) :
    s.writeAll (writes ++ [a]) = (s.writeAll writes).write a := by
  rw [writeAll, List.foldl_append]
  rfl

theorem lt_of_mem_existing {id : Option ScopeId} : ∀ p ∈ s.existing id, p < s.slots.size := by
  intro p hp
  rw [existing, Option.mem_def, Option.filter_eq_some_iff] at hp
  simpa using hp.2

/-! ## One write -/

theorem size_le_write (s : Scopes φ) (a : Write φ) : s.slots.size ≤ (s.write a).slots.size := by
  cases a with
  | define => exact Nat.le_of_eq (size_define ..).symm
  | create => rw [write, size_create]; exact Nat.le_succ _

theorem parent?_write (a : Write φ) {id : ScopeId} (inside : id < s.slots.size) :
    (s.write a).parent? id = s.parent? id := by
  cases a with
  | define => exact parent?_define ..
  | create => rw [write, parent?_create, if_neg (Nat.ne_of_lt inside)]

theorem get?_bindings_write {a : Write φ} {id : ScopeId} {name : String}
    (inside : id < s.slots.size) (other : ∀ v, a ≠ .define id name v) :
    ((s.write a).bindings id).get? name = (s.bindings id).get? name := by
  cases a with
  | define id' name' v =>
      rw [write, get?_bindings_define, if_neg]
      rintro ⟨rfl, -, rfl⟩
      exact other v rfl
  | create => rw [write, bindings_create, if_neg (Nat.ne_of_lt inside)]

theorem Grounded.write (h : s.Grounded) (a : Write φ) : (s.write a).Grounded := by
  cases a with
  | define id name v => exact h.define id name v
  | create parent => exact h.create .empty lt_of_mem_existing

/-! ## Many writes -/

theorem size_le_writeAll (s : Scopes φ) (writes : List (Write φ)) :
    s.slots.size ≤ (s.writeAll writes).slots.size := by
  induction writes generalizing s with
  | nil => exact Nat.le_refl _
  | cons a more ih => exact Nat.le_trans (s.size_le_write a) (ih (s.write a))

theorem parent?_writeAll (writes : List (Write φ)) {id : ScopeId} (inside : id < s.slots.size) :
    (s.writeAll writes).parent? id = s.parent? id := by
  induction writes generalizing s with
  | nil => rfl
  | cons a more ih =>
      rw [writeAll_cons, ih (Nat.lt_of_lt_of_le inside (s.size_le_write a)),
        parent?_write a inside]

theorem get?_bindings_writeAll {writes : List (Write φ)} {id : ScopeId} {name : String}
    (inside : id < s.slots.size) (other : ∀ v, .define id name v ∉ writes) :
    ((s.writeAll writes).bindings id).get? name = (s.bindings id).get? name := by
  induction writes generalizing s with
  | nil => rfl
  | cons a more ih =>
      rw [writeAll_cons, ih (Nat.lt_of_lt_of_le inside (s.size_le_write a)),
        get?_bindings_write inside]
      · rintro v rfl
        exact other v List.mem_cons_self
      · exact fun v mem => other v (List.mem_cons_of_mem _ mem)

theorem Grounded.writeAll (h : s.Grounded) (writes : List (Write φ)) :
    (s.writeAll writes).Grounded := by
  induction writes generalizing s with
  | nil => exact h
  | cons a more ih => exact ih (h.write a)

end Scopes

end Reckoner
