import Mathlib.Logic.Relation
import Reckoner.Scope

/-!
# Parents without cycles

A store is grounded if every parent that is named exists and no scope is its own ancestor. Stores
are built by steps that keep this: a definition changes no parent, a new scope is no one's parent
yet, and a scope may be given a parent that it is not an ancestor of. The last two add one link at
most, so one lemma about relations serves both (`not_transGen_of_link`).
-/

namespace Reckoner

open Relation

/-! ## Adding one link -/

section

variable {α : Type} {r r' : α → α → Prop} {a : α}

/-- Where the only new links lead away from `a`, no new way leads to `a`. -/
theorem reflTransGen_of_link (links : ∀ x y, r' x y → r x y ∨ x = a) {x : α}
    (way : ReflTransGen r' x a) : ReflTransGen r x a := by
  induction way using ReflTransGen.head_induction_on with
  | refl => exact .refl
  | @head x y link _ ih =>
      rcases links x y link with old | rfl
      · exact ih.head old
      · exact .refl

/-- New links from `a` to where no way leads back to `a` close no cycle. -/
theorem not_transGen_of_link (acyclic : ∀ x, ¬TransGen r x x)
    (links : ∀ x y, r' x y → r x y ∨ x = a ∧ ¬ReflTransGen r y a) (x : α) : ¬TransGen r' x x := by
  have fromA (x y : α) (link : r' x y) : r x y ∨ x = a := (links x y link).imp_right And.left
  have aroundA : ¬TransGen r' a a := by
    intro cycle
    obtain ⟨y, link, way⟩ := TransGen.head'_iff.mp cycle
    have old := reflTransGen_of_link fromA way
    rcases links a y link with link | ⟨-, noWay⟩
    · exact acyclic a (.head' link old)
    · exact noWay old
  -- a cycle that does not pass `a` has old links only, and one that does can be begun there
  have around (y : α) (way : ReflTransGen r' x y) :
      ReflTransGen r x y ∨ ReflTransGen r' x a ∧ ReflTransGen r' a y := by
    induction way with
    | refl => exact .inl .refl
    | @tail y z way link ih =>
        rcases ih with old | ⟨there, back⟩
        · rcases fromA y z link with link' | rfl
          · exact .inl (old.tail link')
          · exact .inr ⟨way, .single link⟩
        · exact .inr ⟨there, back.tail link⟩
  intro cycle
  obtain ⟨y, way, link⟩ := TransGen.tail'_iff.mp cycle
  rcases fromA y x link with link' | rfl
  · rcases around y way with old | ⟨there, back⟩
    · exact acyclic x (.tail' old link')
    · have closed : TransGen r' a x := .tail' back link
      exact aroundA (closed.trans_left there)
  · exact aroundA (.head' link way)

end

namespace Scopes

variable {φ : Type} {s : Scopes φ}

/-! ## Grounded stores -/

/-- The second scope is the parent of the first. -/
def Link (s : Scopes φ) (id parent : ScopeId) : Prop := s.parent? id = some parent

/-- The second scope is a parent of the first, or a parent of one of its ancestors. -/
def Ancestor (s : Scopes φ) : ScopeId → ScopeId → Prop := TransGen s.Link

/-- Parents exist, and no scope is its own ancestor. -/
structure Grounded (s : Scopes φ) : Prop where
  closed : ∀ id parent, s.parent? id = some parent → parent < s.slots.size
  acyclic : ∀ id, ¬s.Ancestor id id

/-- A store with the same scopes and the same parents is grounded alike. -/
theorem Grounded.of_parents {t : Scopes φ} (h : s.Grounded) (size : t.slots.size = s.slots.size)
    (parents : ∀ id, t.parent? id = s.parent? id) : t.Grounded := by
  have links : t.Link = s.Link := by
    funext id parent
    rw [Link, Link, parents]
  refine ⟨fun id parent hp => ?_, fun id => ?_⟩
  · rw [size]
    exact h.closed id parent (by rw [← parents, hp])
  · rw [Ancestor, links]
    exact h.acyclic id

theorem grounded_empty : (empty : Scopes φ).Grounded := by
  have noLink (id parent : ScopeId) : ¬(empty : Scopes φ).Link id parent := by
    rw [Link, parent?_eq_none_of_le (Nat.zero_le id)]
    simp
  refine ⟨fun id parent hp => absurd hp (noLink id parent), fun id cycle => ?_⟩
  obtain ⟨other, link, -⟩ := TransGen.head'_iff.mp cycle
  exact noLink id other link

theorem Grounded.define (h : s.Grounded) (id : ScopeId) (name : String) (v : Value φ) :
    (s.define id name v).Grounded :=
  h.of_parents (s.size_define id name v) fun other => s.parent?_define id other name v

/-- A new scope is nobody's parent. -/
theorem Grounded.create (h : s.Grounded) (bindings : Bindings φ) {parent : Option ScopeId}
    (exist : ∀ p ∈ parent, p < s.slots.size) : (s.create bindings parent).2.Grounded := by
  refine ⟨fun id p hp => ?_, not_transGen_of_link (a := s.slots.size) h.acyclic ?_⟩
  · rw [parent?_create] at hp
    rw [size_create]
    split at hp
    · exact Nat.lt_succ_of_lt (exist p hp)
    · exact Nat.lt_succ_of_lt (h.closed id p hp)
  · intro id p link
    rw [Link, parent?_create] at link
    split at link
    · next hid =>
        refine .inr ⟨hid, fun way => ?_⟩
        -- the scopes that were there lead to scopes that were there
        have inside (q : ScopeId) (way : ReflTransGen s.Link p q) : q < s.slots.size := by
          induction way with
          | refl => exact exist p link
          | tail _ link' _ => exact h.closed _ _ link'
        exact Nat.lt_irrefl _ (inside _ way)
    · exact .inl link

/-- A scope may be given a parent if it is neither that parent nor an ancestor of it. -/
theorem Grounded.setParent (h : s.Grounded) {id : ScopeId} {parent : Option ScopeId}
    (exist : ∀ p ∈ parent, p < s.slots.size)
    (apart : ∀ p ∈ parent, p ≠ id ∧ ¬s.Ancestor p id) : (s.setParent id parent).Grounded := by
  refine ⟨fun other p hp => ?_, not_transGen_of_link (a := id) h.acyclic ?_⟩
  · rw [parent?_setParent] at hp
    rw [size_setParent]
    split at hp
    · exact exist p hp
    · exact h.closed other p hp
  · intro other p link
    rw [Link, parent?_setParent] at link
    split at link
    · next hid =>
        refine .inr ⟨hid.1.symm, fun way => ?_⟩
        obtain ⟨other', notAncestor⟩ := apart p link
        rcases reflTransGen_iff_eq_or_transGen.mp way with same | ancestor
        · exact other' same.symm
        · exact notAncestor ancestor
    · exact .inl link

end Scopes

end Reckoner
