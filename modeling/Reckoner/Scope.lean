import Reckoner.Builtin
import Reckoner.Text.Quoted

/-!
# Scopes

A scope binds names to numbers and functions and may have a parent; several scopes may share one. A
name is looked up in a scope first and then along its parents. Defining a name changes one scope
only and never its parents.

Scopes live together in a store and refer to each other by their places in it, so that a definition
in one scope is seen by every scope below it. The functions a name can stand for are built-in or
belong to the host; of the latter the store knows a code of type `φ` only.
-/

namespace Reckoner

/-! ## Values and bindings -/

inductive Function (φ : Type)
  | builtin (b : Builtin)
  | host (arity : Nat) (code : φ)

def Function.arity {φ : Type} : Function φ → Nat
  | .builtin b => b.arity
  | .host arity _ => arity

inductive Value (φ : Type)
  | number (x : Float)
  | function (f : Function φ)

/-- Names with their values, each name once. -/
structure Bindings (φ : Type) where
  entries : List (String × Value φ)
  nodup : (entries.map Prod.fst).Nodup

namespace Bindings

variable {φ : Type}

/-- No names. -/
def empty : Bindings φ := ⟨[], List.nodup_nil⟩

/-- The value of a name. -/
def get? (bs : Bindings φ) (name : String) : Option (Value φ) := bs.entries.lookup name

def names (bs : Bindings φ) : List String := bs.entries.map Prod.fst

/-- Binds a name, which loses its older value. -/
def put (bs : Bindings φ) (name : String) (v : Value φ) : Bindings φ where
  entries := (name, v) :: bs.entries.filter (·.1 ≠ name)
  nodup := by
    rw [List.map_cons, List.nodup_cons]
    refine ⟨?_, bs.nodup.sublist (List.filter_sublist.map _)⟩
    simp

@[simp] theorem get?_empty (name : String) : (empty : Bindings φ).get? name = none := rfl

theorem get?_put (bs : Bindings φ) (name other : String) (v : Value φ) :
    (bs.put name v).get? other = if other = name then some v else bs.get? other := by
  by_cases h : other = name
  · simp [put, get?, h]
  · simp only [put, get?, List.lookup_cons, beq_false_of_ne h, h, if_false]
    induction bs.entries with
    | nil => rfl
    | cons entry more ih =>
      rcases entry with ⟨key, w⟩
      by_cases hk : key = name
      · have : other ≠ key := by rw [hk]; exact h
        simpa [hk, List.lookup_cons, beq_false_of_ne h] using ih
      · by_cases ho : other = key
        · simp [hk, ho]
        · simpa [hk, List.lookup_cons, beq_false_of_ne ho] using ih

/-- The built-in constants and functions. -/
def standard : Bindings φ where
  entries :=
    ("pi", .number Number.circle) :: ("e", .number Number.eulerBase) ::
      Builtin.all.map fun b => (b.name, .function (.builtin b))
  nodup := by
    have : ("pi" :: "e" :: Builtin.all.map Builtin.name).Nodup := by decide
    simpa [Function.comp_def] using this

end Bindings

/-! ## The store -/

/-- The place of a scope in the store. -/
abbrev ScopeId := Nat

structure Scope (φ : Type) where
  bindings : Bindings φ
  parent : Option ScopeId

/-- All scopes there are, in the order of their creation. -/
structure Scopes (φ : Type) where
  slots : Array (Scope φ)

namespace Scopes

variable {φ : Type}

def empty : Scopes φ := ⟨#[]⟩

/-- A new scope with the given bindings and parent. -/
def create (s : Scopes φ) (bindings : Bindings φ) (parent : Option ScopeId) : ScopeId × Scopes φ :=
  (s.slots.size, ⟨s.slots.push ⟨bindings, parent⟩⟩)

/-- Binds a name in one scope. -/
def define (s : Scopes φ) (id : ScopeId) (name : String) (v : Value φ) : Scopes φ :=
  ⟨s.slots.modify id fun scope => { scope with bindings := scope.bindings.put name v }⟩

/-- Gives a scope another parent, or none. -/
def setParent (s : Scopes φ) (id : ScopeId) (parent : Option ScopeId) : Scopes φ :=
  ⟨s.slots.modify id fun scope => { scope with parent := parent }⟩

def parent? (s : Scopes φ) (id : ScopeId) : Option ScopeId :=
  s.slots[id]?.bind Scope.parent

def bindings (s : Scopes φ) (id : ScopeId) : Bindings φ :=
  (s.slots[id]?.map Scope.bindings).getD .empty

@[simp] theorem fst_create (s : Scopes φ) (bindings : Bindings φ) (parent : Option ScopeId) :
    (s.create bindings parent).1 = s.slots.size := rfl

@[simp] theorem size_create (s : Scopes φ) (bindings : Bindings φ) (parent : Option ScopeId) :
    (s.create bindings parent).2.slots.size = s.slots.size + 1 := by
  simp [create]

@[simp] theorem size_define (s : Scopes φ) (id : ScopeId) (name : String) (v : Value φ) :
    (s.define id name v).slots.size = s.slots.size := by
  simp [define]

@[simp] theorem size_setParent (s : Scopes φ) (id : ScopeId) (parent : Option ScopeId) :
    (s.setParent id parent).slots.size = s.slots.size := by
  simp [setParent]

theorem parent?_eq_none_of_le {s : Scopes φ} {id : ScopeId} (h : s.slots.size ≤ id) :
    s.parent? id = none := by
  rw [parent?, Array.getElem?_eq_none h]
  rfl

theorem parent?_create (s : Scopes φ) (bindings : Bindings φ) (parent : Option ScopeId)
    (id : ScopeId) : (s.create bindings parent).2.parent? id =
      if id = s.slots.size then parent else s.parent? id := by
  rw [parent?, parent?, create, Array.getElem?_push]
  by_cases h : id = s.slots.size
  · rw [if_pos h, if_pos h]
    rfl
  · rw [if_neg h, if_neg h]

theorem bindings_create (s : Scopes φ) (bindings : Bindings φ) (parent : Option ScopeId)
    (id : ScopeId) : (s.create bindings parent).2.bindings id =
      if id = s.slots.size then bindings else s.bindings id := by
  rw [Scopes.bindings, Scopes.bindings, create, Array.getElem?_push]
  by_cases h : id = s.slots.size
  · rw [if_pos h, if_pos h]
    rfl
  · rw [if_neg h, if_neg h]

@[simp] theorem parent?_define (s : Scopes φ) (id other : ScopeId) (name : String) (v : Value φ) :
    (s.define id name v).parent? other = s.parent? other := by
  rw [parent?, parent?, define, Array.getElem?_modify]
  by_cases h : id = other
  · rw [if_pos h]
    cases s.slots[other]? <;> rfl
  · rw [if_neg h]

theorem parent?_setParent (s : Scopes φ) (id other : ScopeId) (parent : Option ScopeId) :
    (s.setParent id parent).parent? other =
      if id = other ∧ other < s.slots.size then parent else s.parent? other := by
  rw [parent?, parent?, setParent, Array.getElem?_modify]
  by_cases h : id = other
  · rw [if_pos h]
    by_cases inside : other < s.slots.size
    · rw [if_pos ⟨h, inside⟩, Array.getElem?_eq_getElem inside]
      rfl
    · rw [if_neg fun both => inside both.2, Array.getElem?_eq_none (Nat.le_of_not_lt inside)]
      rfl
  · rw [if_neg h, if_neg fun both => h both.1]

@[simp] theorem bindings_setParent (s : Scopes φ) (id other : ScopeId) (parent : Option ScopeId) :
    (s.setParent id parent).bindings other = s.bindings other := by
  rw [Scopes.bindings, Scopes.bindings, setParent, Array.getElem?_modify]
  by_cases h : id = other
  · rw [if_pos h]
    cases s.slots[other]? <;> rfl
  · rw [if_neg h]

/-- A definition gives one scope that there is one name more, or another value of it. -/
theorem get?_bindings_define (s : Scopes φ) (id other : ScopeId) (name key : String)
    (v : Value φ) :
    ((s.define id name v).bindings other).get? key =
      if id = other ∧ other < s.slots.size ∧ key = name then some v
      else (s.bindings other).get? key := by
  rw [bindings, bindings, define, Array.getElem?_modify]
  by_cases h : id = other
  · rw [if_pos h]
    by_cases inside : other < s.slots.size
    · rw [Array.getElem?_eq_getElem inside]
      simp [h, inside, Bindings.get?_put]
    · rw [Array.getElem?_eq_none (Nat.le_of_not_lt inside)]
      simp [inside]
  · simp [h]

/-! ## Chains -/

/-- At most `bound` scopes of a chain: a scope, its parent, and so on. -/
def chainUpTo (s : Scopes φ) : (bound : Nat) → Option ScopeId → List ScopeId
  | 0, _ => []
  | _ + 1, none => []
  | bound + 1, some id => id :: s.chainUpTo bound (s.parent? id)

/-- A scope and all its ancestors, nearest first. Without a cycle among the parents no chain is
longer than the number of scopes. -/
def chain (s : Scopes φ) (start : Option ScopeId) : List ScopeId :=
  s.chainUpTo s.slots.size start

/-- The value of a name in the nearest scope of the chain that binds it. -/
def lookup? (s : Scopes φ) (start : Option ScopeId) (name : String) : Option (Value φ) :=
  (s.chain start).findSome? fun id => (s.bindings id).get? name

/-- A definition changes no chain. -/
theorem chainUpTo_define (s : Scopes φ) (id : ScopeId) (name : String) (v : Value φ) (bound : Nat)
    (start : Option ScopeId) : (s.define id name v).chainUpTo bound start =
      s.chainUpTo bound start := by
  induction bound generalizing start with
  | zero => rfl
  | succ bound ih =>
      cases start with
      | none => rfl
      | some other => rw [chainUpTo, chainUpTo, parent?_define, ih]

/-- A definition is seen under its own name only. -/
theorem lookup?_define_of_ne (s : Scopes φ) (id : ScopeId) {name key : String} (v : Value φ)
    (start : Option ScopeId) (h : key ≠ name) :
    (s.define id name v).lookup? start key = s.lookup? start key := by
  have same : (fun other => ((s.define id name v).bindings other).get? key) =
      fun other => (s.bindings other).get? key := by
    funext other
    rw [get?_bindings_define, if_neg fun both => h both.2.2]
  rw [lookup?, lookup?, chain, chain, size_define, chainUpTo_define, same]

/-- Whether a name is bound in a scope or one of its ancestors. -/
def contains (s : Scopes φ) (start : Option ScopeId) (name : String) : Bool :=
  (s.lookup? start name).isSome

/-! ## Display -/

/-- The names bound in a scope, in the order of their code points. -/
def names (s : Scopes φ) (id : ScopeId) : List String :=
  (s.bindings id).names.mergeSort fun a b => decide (a ≤ b)

/-- A chain of scopes, the nearest outermost. -/
def shownChain (s : Scopes φ) : List ScopeId → String
  | [] => "None"
  | id :: ancestors =>
      "Scope([" ++ ", ".intercalate ((s.names id).map Text.quoted) ++ "], parent=" ++
        s.shownChain ancestors ++ ")"

/-- A scope and its ancestors on one line, with the names each binds. -/
def shown (s : Scopes φ) (id : ScopeId) : String := s.shownChain (s.chain (some id))

end Scopes

end Reckoner
