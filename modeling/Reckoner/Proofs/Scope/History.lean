import Reckoner.Proofs.Evaluate.Simulation
import Reckoner.Proofs.Scope.Chains

/-!
# Look-ups told by the history of a store

A program makes scopes, defines names in them and sets their parents, as often as it likes and in
any order, as long as no scope becomes its own ancestor. Of this history a look-up needs two things
only: where the parents lead now, and what was last defined under the name in each scope
(`lastDefined`). Scopes may share parents, so one change is seen from many scopes; `history_lookup`
says from which, and for which names.
-/

namespace Reckoner

variable {φ ω : Type}

/-! ## Histories -/

/-- One change of a store. -/
inductive Change (φ : Type)
  | create (parent : Option ScopeId)
  | define (id : ScopeId) (name : String) (v : Value φ)
  | setParent (id : ScopeId) (parent : Option ScopeId)

def Scopes.change (s : Scopes φ) : Change φ → Scopes φ
  | .create parent => (s.create .empty parent).2
  | .define id name v => s.define id name v
  | .setParent id parent => s.setParent id parent

/-- A change is of scopes that exist, and makes no scope its own ancestor. -/
def Change.Allowed (s : Scopes φ) : Change φ → Prop
  | .create parent => ∀ p ∈ parent, p < s.slots.size
  | .define id _ _ => id < s.slots.size
  | .setParent id parent =>
      id < s.slots.size ∧ ∀ p ∈ parent, p < s.slots.size ∧ p ≠ id ∧ ¬s.Ancestor p id

/-- The changes, first one first, that lead from the empty store to another. -/
inductive History : List (Change φ) → Scopes φ → Prop
  | nothing : History [] .empty
  | change {cs : List (Change φ)} {s : Scopes φ} {c : Change φ} : History cs s → c.Allowed s →
      History (cs ++ [c]) (s.change c)

/-- What a change defines a name as, in one scope. -/
def Change.defined? (id : ScopeId) (name : String) : Change φ → Option (Value φ)
  | .define id' name' v => if id' = id ∧ name' = name then some v else none
  | .create _ | .setParent .. => none

/-- What a name was last defined as in a scope. -/
def lastDefined (cs : List (Change φ)) (id : ScopeId) (name : String) : Option (Value φ) :=
  cs.reverse.findSome? (Change.defined? id name)

theorem lastDefined_snoc (cs : List (Change φ)) (c : Change φ) (id : ScopeId) (name : String) :
    lastDefined (cs ++ [c]) id name = (c.defined? id name).or (lastDefined cs id name) := by
  rw [lastDefined, List.reverse_append, List.reverse_singleton, List.singleton_append,
    List.findSome?_cons]
  cases c.defined? id name <;> rfl

section

variable {cs : List (Change φ)} {s : Scopes φ}

/-- No history comes to a cycle. -/
theorem History.grounded (h : History cs s) : s.Grounded := by
  induction h with
  | nothing => exact Scopes.grounded_empty
  | @change cs s c _ allowed ih =>
      cases c with
      | create parent => exact ih.create .empty allowed
      | define id name v => exact ih.define id name v
      | setParent id parent =>
          exact ih.setParent (fun p hp => (allowed.2 p hp).1) fun p hp => (allowed.2 p hp).2

/-- **A scope binds what was last defined in it.** -/
theorem History.get?_bindings (h : History cs s) (id : ScopeId) (name : String) :
    (s.bindings id).get? name = lastDefined cs id name := by
  induction h with
  | nothing => simp [Scopes.bindings, Scopes.empty, lastDefined]
  | @change cs s c _ allowed ih =>
      rw [lastDefined_snoc, ← ih]
      cases c with
      | create parent =>
          rw [Scopes.change, Scopes.bindings_create]
          split
          · next isNew =>
              -- nothing can have been defined in the scope before it was there
              have absent : s.slots[id]? = none := Array.getElem?_eq_none (Nat.le_of_eq isNew.symm)
              rw [Scopes.bindings, absent]
              rfl
          · rfl
      | define id' name' v =>
          rw [Scopes.change, Scopes.get?_bindings_define, Change.defined?]
          by_cases here : id' = id ∧ name' = name
          · obtain ⟨rfl, rfl⟩ := here
            rw [if_pos ⟨rfl, allowed, rfl⟩, if_pos ⟨rfl, rfl⟩]
            rfl
          · rw [if_neg here, if_neg]
            · rfl
            · exact fun all => here ⟨all.1, all.2.2.symm⟩
      | setParent id' parent =>
          rw [Scopes.change, Scopes.bindings_setParent]
          rfl

end

/-! ## Look-ups -/

/-- What looking a name up from a scope comes to, told by the history. -/
structure Resolves (cs : List (Change φ)) (s : Scopes φ) (id : ScopeId) (name : String) :
    Prop where
  /-- The scopes that are looked at are all from this one up to one without a parent. -/
  ends : s.Line (some id) (s.chain (some id))
  /-- The value is the last one defined in the nearest scope that the name was ever defined in. -/
  value : ∀ v, s.lookup? (some id) name = some v ↔
    ∃ nearer owner farther, s.chain (some id) = nearer ++ owner :: farther ∧
      (∀ b ∈ nearer, lastDefined cs b name = none) ∧ lastDefined cs owner name = some v
  /-- Asking for the name fails, and says which one is unknown, if there is no such scope. -/
  unknown : ∀ {ω : Type} (notes : ω), ((Run.resolve (.ofScope (some id)) name).on
      ⟨⟨s, notes⟩, []⟩).1 = .error (.unknownIdentifier name) ↔
    ∀ b ∈ s.chain (some id), lastDefined cs b name = none
  /-- The scope has the name exactly if asking for it succeeds. -/
  contains : ∀ {ω : Type} (notes : ω), s.contains (some id) name = true ↔
    ∃ v, ((Run.resolve (.ofScope (some id)) name).on ⟨⟨s, notes⟩, []⟩).1 = .ok v

theorem History.resolves {cs : List (Change φ)} {s : Scopes φ} (h : History cs s) {id : ScopeId}
    (inside : id < s.slots.size) (name : String) : Resolves cs s id name where
  ends := h.grounded.line_chain (by simpa using inside)
  value v := by
    rw [Scopes.lookup?, List.findSome?_eq_some_iff]
    simp only [h.get?_bindings]
    constructor
    · rintro ⟨nearer, owner, farther, shape, found, passed⟩
      exact ⟨nearer, owner, farther, shape, passed, found⟩
    · rintro ⟨nearer, owner, farther, shape, passed, found⟩
      exact ⟨nearer, owner, farther, shape, found, passed⟩
  unknown notes := by
    rw [Run.on_resolve, Context.lookup?_ofScope]
    simp only [← h.get?_bindings]
    rw [← List.findSome?_eq_none_iff, ← Scopes.lookup?]
    cases s.lookup? (some id) name <;> simp
  contains notes := by
    rw [Run.on_resolve, Context.lookup?_ofScope, Scopes.contains]
    cases s.lookup? (some id) name <;> simp

/-- **Look-ups over any history.** In the store that a history of changes leads to, a name looked up
from a scope has the value last defined in the nearest scope of its chain in which it was ever
defined, and is unknown exactly if there is none. One more definition changes what is found from a
scope only for its own name and where no scope nearer binds it, and then to the defined value. One
new parent changes it only where no scope binds the name up to and including the one whose parent is
set, and then to what is found from the parent, which is nothing without a parent. -/
theorem history_lookup {cs : List (Change φ)} {s : Scopes φ} (history : History cs s) :
    (∀ id < s.slots.size, ∀ name, Resolves cs s id name) ∧
    (∀ id name v, (Change.define id name v).Allowed s → ∀ start < s.slots.size, ∀ key,
      (key = name ∧ s.Comes (some start) name id →
        (s.define id name v).lookup? (some start) key = some v) ∧
      (¬(key = name ∧ s.Comes (some start) name id) →
        (s.define id name v).lookup? (some start) key = s.lookup? (some start) key)) ∧
    ∀ id parent, (Change.setParent id parent : Change φ).Allowed s →
      ∀ start < s.slots.size, ∀ key,
      (s.Comes (some start) key id ∧ (s.bindings id).get? key = none →
        (s.setParent id parent).lookup? (some start) key =
          parent.bind fun p => s.lookup? (some p) key) ∧
      (¬(s.Comes (some start) key id ∧ (s.bindings id).get? key = none) →
        (s.setParent id parent).lookup? (some start) key = s.lookup? (some start) key) := by
  have grounded := history.grounded
  have exist {start : ScopeId} (inside : start < s.slots.size) :
      ∀ p ∈ some start, p < s.slots.size := by simpa using inside
  refine ⟨fun id inside name => history.resolves inside name, ?_, ?_⟩
  · intro id name v allowed start inside key
    constructor
    · rintro ⟨rfl, comes⟩
      exact grounded.lookup?_define_of_comes (exist inside) allowed comes v
    · exact Scopes.lookup?_define_of_not_comes s (some start) v
  · rintro id parent ⟨there, allowed⟩ start inside key
    constructor
    · rintro ⟨comes, unbound⟩
      rw [grounded.lookup?_setParent_of_comes there allowed (exist inside) comes unbound]
      cases parent with
      | none => exact Scopes.lookup?_none s key
      | some p => rfl
    · exact grounded.lookup?_setParent_of_not_comes there allowed (exist inside)

/-- A scope that shared its parent with another is put below the other, which redefines the name of
the parent twice. Then it is seen with the last of the three values, one more definition in the
parent changes nothing for it, and without a parent it has the name no more. -/
theorem history_lookup_reparented :
    let cs : List (Change Unit) :=
      [.create none, .create (some 0), .create (some 0), .define 0 "x" (.number 1),
        .define 1 "x" (.number 2), .setParent 2 (some 1), .define 1 "x" (.number 3)]
    let s : Scopes Unit := cs.foldl Scopes.change .empty
    History cs s ∧ s.lookup? (some 2) "x" = some (.number 3) ∧
      (s.define 0 "x" (.number 4)).lookup? (some 2) "x" = some (.number 3) ∧
      (s.setParent 2 none).lookup? (some 2) "x" = none := by
  intro cs s
  have history : History cs s := by
    have empty : History [] (Scopes.empty : Scopes Unit) := .nothing
    have parent := empty.change (c := .create none) (by simp [Change.Allowed])
    have left := parent.change (c := .create (some 0)) (by simp [Change.Allowed, Scopes.change])
    have right := left.change (c := .create (some 0)) (by simp [Change.Allowed, Scopes.change])
    have one := right.change (c := .define 0 "x" (.number 1)) (Nat.zero_lt_succ 2)
    have two := one.change (c := .define 1 "x" (.number 2)) (Nat.one_lt_succ_succ 1)
    have apart : (Change.setParent 2 (some 1) : Change Unit).Allowed
        ((cs.take 5).foldl Scopes.change .empty) := by
      refine ⟨Nat.lt_add_one 2, ?_⟩
      rintro p ⟨⟩
      refine ⟨Nat.one_lt_succ_succ 1, by decide, fun ancestor => ?_⟩
      -- the only ancestor of this scope is the one that both were made below
      obtain ⟨b, link, way⟩ := Relation.TransGen.head'_iff.mp ancestor
      obtain rfl : 0 = b := Option.some.inj link
      obtain same | ⟨c, link', -⟩ := Relation.ReflTransGen.cases_head way
      · cases same
      · cases link'
    exact (two.change apart).change (c := .define 1 "x" (.number 3)) (Nat.one_lt_succ_succ 1)
  have size : s.slots.size = 3 := rfl
  have shape : s.chain (some 2) = [2, 1, 0] := rfl
  have redefined : lastDefined cs 1 "x" = some (.number 3) := rfl
  have far : ¬s.Comes (some 2) "x" 0 := by
    rintro ⟨nearer, farther, shape', unbound⟩
    rw [shape] at shape'
    rcases nearer with _ | ⟨a, _ | ⟨b, nearer⟩⟩
    · cases shape'
    · cases shape'
    · obtain ⟨-, rfl, -⟩ : 2 = a ∧ 1 = b ∧ _ := by simpa using shape'
      have none := unbound 1 (by simp)
      rw [history.get?_bindings, redefined] at none
      cases none
  obtain ⟨resolves, define, setParent⟩ := history_lookup history
  have found : s.lookup? (some 2) "x" = some (.number 3) := by
    refine ((resolves 2 (by rw [size]; decide) "x").value _).mpr ⟨[2], 1, [0], shape, ?_, redefined⟩
    rintro b hb
    obtain rfl := List.mem_singleton.mp hb
    rfl
  have start : 2 < s.slots.size := by rw [size]; decide
  refine ⟨history, found, ?_, ?_⟩
  · have there : (Change.define 0 "x" (.number 4)).Allowed s := Nat.zero_lt_succ 2
    rw [(define 0 "x" (.number 4) there 2 start "x").2 fun comes => far comes.2]
    exact found
  · have alone : (Change.setParent 2 none : Change Unit).Allowed s := ⟨start, by simp⟩
    exact (setParent 2 none alone 2 start "x").1 ⟨⟨[], [1, 0], shape, by simp⟩, rfl⟩

end Reckoner
