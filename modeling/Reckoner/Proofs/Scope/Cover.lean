import Reckoner.Evaluate
import Reckoner.Proofs.Scope.Parents

/-!
# The scopes in front of a caller

An evaluation looks names up as if it had put two new scopes in front of its caller's: one with the
built-in names, and an empty one before it. A context keeps them as a layer beside the store, where
no function of the host can reach them. `lookup?_coverTimes` says that both are the same: in a store
that had these scopes every name would resolve as it does in the context, all other scopes would be
as they are, and their parents would form no cycle.
-/

namespace Reckoner

open Relation

namespace Scopes

variable {φ : Type} {s t : Scopes φ} {base : Option ScopeId}

/-- The store with two new scopes in front of a scope: the built-in names, below that scope, and an
empty one below them. -/
def cover (s : Scopes φ) (base : Option ScopeId) : ScopeId × Scopes φ :=
  let (builtins, withBuiltins) := s.create .standard none
  (withBuiltins.setParent builtins base).create .empty (some builtins)

/-- As many covers as evaluations are nested, each in front of the one before. -/
def coverTimes (s : Scopes φ) (base : Option ScopeId) : (times : Nat) → Option ScopeId × Scopes φ
  | 0 => (base, s)
  | times + 1 =>
      let (inner, covered) := s.coverTimes base times
      let (front, all) := covered.cover inner
      (some front, all)

/-! ## What a cover adds -/

theorem fst_cover (s : Scopes φ) (base : Option ScopeId) : (s.cover base).1 = s.slots.size + 1 := by
  simp [cover, create, setParent]

theorem size_cover (s : Scopes φ) (base : Option ScopeId) :
    (s.cover base).2.slots.size = s.slots.size + 2 := by
  simp [cover, create, setParent]

theorem parent?_cover (s : Scopes φ) (base : Option ScopeId) (id : ScopeId) :
    (s.cover base).2.parent? id =
      if id = s.slots.size + 1 then some s.slots.size
      else if id = s.slots.size then base else s.parent? id := by
  rw [cover, parent?_create, parent?_setParent, parent?_create, size_setParent, size_create,
    fst_create]
  by_cases builtins : id = s.slots.size
  · subst builtins
    simp
  · simp [builtins, Ne.symm builtins]

theorem bindings_cover (s : Scopes φ) (base : Option ScopeId) (id : ScopeId) :
    (s.cover base).2.bindings id =
      if id = s.slots.size + 1 then .empty
      else if id = s.slots.size then .standard else s.bindings id := by
  rw [cover, bindings_create, bindings_setParent, bindings_create, size_setParent, size_create]

/-- The scopes of the one store are those of the other that were there first. -/
structure Extends (s t : Scopes φ) : Prop where
  size_le : s.slots.size ≤ t.slots.size
  parents : ∀ id < s.slots.size, t.parent? id = s.parent? id
  bindings : ∀ id < s.slots.size, t.bindings id = s.bindings id

theorem Extends.refl (s : Scopes φ) : s.Extends s := ⟨Nat.le_refl _, fun _ _ => rfl, fun _ _ => rfl⟩

theorem Extends.trans {u : Scopes φ} (h : s.Extends t) (h' : t.Extends u) : s.Extends u where
  size_le := Nat.le_trans h.size_le h'.size_le
  parents id inside :=
    (h'.parents id (Nat.lt_of_lt_of_le inside h.size_le)).trans (h.parents id inside)
  bindings id inside :=
    (h'.bindings id (Nat.lt_of_lt_of_le inside h.size_le)).trans (h.bindings id inside)

theorem extends_cover (s : Scopes φ) (base : Option ScopeId) : s.Extends (s.cover base).2 where
  size_le := by rw [size_cover]; exact Nat.le_add_right _ _
  parents id inside := by
    rw [parent?_cover, if_neg (Nat.ne_of_lt (Nat.lt_succ_of_lt inside)),
      if_neg (Nat.ne_of_lt inside)]
  bindings id inside := by
    rw [bindings_cover, if_neg (Nat.ne_of_lt (Nat.lt_succ_of_lt inside)),
      if_neg (Nat.ne_of_lt inside)]

/-! ## No cycle -/

theorem Grounded.cover (h : s.Grounded) (exist : ∀ p ∈ base, p < s.slots.size) :
    (s.cover base).2.Grounded := by
  have created : (s.create .standard none).2.Grounded := h.create .standard (by simp)
  have linked : ((s.create .standard none).2.setParent s.slots.size base).Grounded := by
    refine created.setParent (fun p hp => ?_) fun p hp => ⟨Nat.ne_of_lt (exist p hp), ?_⟩
    · rw [size_create]
      exact Nat.lt_succ_of_lt (exist p hp)
    · -- the new scope is nobody's parent yet
      intro ancestor
      obtain ⟨child, -, link⟩ := TransGen.tail'_iff.mp ancestor
      rw [Link, parent?_create] at link
      split at link
      · cases link
      · exact Nat.lt_irrefl _ (h.closed child _ link)
  refine linked.create .empty fun p hp => ?_
  obtain rfl : s.slots.size = p := by simpa [create] using hp
  simp

/-! ## Looking names up -/

/-- A chain of scopes of the one store is the same in the other. -/
theorem Extends.chainUpTo (h : s.Extends t) (grounded : s.Grounded) (bound : Nat)
    (exist : ∀ p ∈ base, p < s.slots.size) :
    t.chainUpTo bound base = s.chainUpTo bound base ∧
      ∀ id ∈ s.chainUpTo bound base, id < s.slots.size := by
  induction bound generalizing base with
  | zero => exact ⟨rfl, by simp [Scopes.chainUpTo]⟩
  | succ bound ih =>
      cases base with
      | none => exact ⟨rfl, by simp [Scopes.chainUpTo]⟩
      | some id =>
          have inside : id < s.slots.size := exist id rfl
          have above := @ih (s.parent? id) fun p hp => grounded.closed id p hp
          rw [Scopes.chainUpTo, Scopes.chainUpTo, h.parents id inside, above.1]
          exact ⟨rfl, List.forall_mem_cons.mpr ⟨inside, above.2⟩⟩

theorem findSome?_congr {α β : Type} {f g : α → Option β} {l : List α}
    (h : ∀ a ∈ l, f a = g a) : l.findSome? f = l.findSome? g := by
  rw [← Function.id_comp f, ← Function.id_comp g, ← List.findSome?_map, ← List.findSome?_map,
    List.map_congr_left h]

/-- **From the front of a cover a name is a built-in one, or resolves as before.** -/
theorem lookup?_cover (grounded : s.Grounded) (exist : ∀ p ∈ base, p < s.slots.size)
    (name : String) : (s.cover base).2.lookup? (some (s.cover base).1) name =
      (Bindings.standard.get? name).or (s.lookup? base name) := by
  have extend := s.extends_cover base
  obtain ⟨same, inside⟩ := extend.chainUpTo grounded s.slots.size exist
  -- the chain is the two new scopes and then the chain that was there
  have chain : (s.cover base).2.chain (some (s.cover base).1) =
      (s.slots.size + 1) :: s.slots.size :: s.chain base := by
    have front : (s.cover base).2.parent? (s.slots.size + 1) = some s.slots.size := by
      rw [parent?_cover, if_pos rfl]
    have builtins : (s.cover base).2.parent? s.slots.size = base := by
      rw [parent?_cover, if_neg (Nat.ne_of_lt (Nat.lt_succ_self _)), if_pos rfl]
    rw [Scopes.chain, size_cover, fst_cover, Scopes.chainUpTo, front, Scopes.chainUpTo, builtins,
      same, Scopes.chain]
  have old : (s.chain base).findSome? (fun id => ((s.cover base).2.bindings id).get? name) =
      s.lookup? base name := by
    refine findSome?_congr fun id mem => ?_
    rw [extend.bindings id (inside id mem)]
  rw [lookup?, chain, List.findSome?_cons, List.findSome?_cons, old, bindings_cover, bindings_cover,
    if_pos rfl, if_neg (Nat.ne_of_lt (Nat.lt_succ_self _)), if_pos rfl, Bindings.get?_empty]
  cases (Bindings.standard : Bindings φ).get? name <;> rfl

/-! ## Covers in front of covers -/

theorem coverTimes_succ (s : Scopes φ) (base : Option ScopeId) (times : Nat) :
    s.coverTimes base (times + 1) =
      (some ((s.coverTimes base times).2.cover (s.coverTimes base times).1).1,
        ((s.coverTimes base times).2.cover (s.coverTimes base times).1).2) := rfl

/-- Covers exist in a grounded store that has all scopes of the one below. -/
theorem Grounded.coverTimes (h : s.Grounded) (exist : ∀ p ∈ base, p < s.slots.size) (times : Nat) :
    (s.coverTimes base times).2.Grounded ∧ s.Extends (s.coverTimes base times).2 ∧
      ∀ p ∈ (s.coverTimes base times).1, p < (s.coverTimes base times).2.slots.size := by
  induction times with
  | zero => exact ⟨h, .refl s, exist⟩
  | succ times ih =>
      obtain ⟨grounded, extend, inside⟩ := ih
      rw [coverTimes_succ]
      refine ⟨grounded.cover inside, extend.trans (extends_cover _ _), fun p hp => ?_⟩
      cases hp
      rw [fst_cover, size_cover]
      exact Nat.lt_succ_self _

/-- **The layers of a context are scopes in front of the caller's**: names resolve in it as they
would from the front of as many covers. -/
theorem lookup?_coverTimes (h : s.Grounded) (exist : ∀ p ∈ base, p < s.slots.size) (times : Nat)
    (name : String) :
    (s.coverTimes base times).2.lookup? (s.coverTimes base times).1 name =
      (Context.mk (List.replicate times .standard) base).lookup? s name := by
  induction times with
  | zero => rfl
  | succ times ih =>
      obtain ⟨grounded, -, inside⟩ := h.coverTimes exist times
      rw [coverTimes_succ, lookup?_cover grounded inside, ih, List.replicate_succ]
      exact (Context.lookup?_underBuiltins _ s name).symm

end Scopes

end Reckoner
