import Mathlib.Data.Finset.Card
import Mathlib.Data.Finset.Range
import Reckoner.Proofs.Scope.Parents

/-!
# Chains of scopes

A look-up walks from a scope to its parent, to the parent of that, and so on. In a grounded store
every such walk ends: a parent has fewer ancestors than its child (`Grounded.ancestorCount_lt`). So
there is a line of scopes up to one without a parent, and since no scope stands in it twice the
store's bound on chains never cuts it short (`Grounded.chain_eq`).

What a definition or a new parent does to a look-up is read off the line: both change it only where
the walk comes as far as the scope that is changed.
-/

namespace Reckoner.Scopes

open Relation

variable {φ : Type}

/-! ## Lines -/

/-- The scopes that a walk along parents comes by, up to one that has no parent. -/
inductive Line (s : Scopes φ) : Option ScopeId → List ScopeId → Prop
  | nothing : Line s none []
  | scope {id : ScopeId} {line : List ScopeId} : Line s (s.parent? id) line →
      Line s (some id) (id :: line)

section

variable {s : Scopes φ} {start : Option ScopeId} {id : ScopeId} {line : List ScopeId}

theorem Line.unique {line' : List ScopeId} (h : s.Line start line) (h' : s.Line start line') :
    line = line' := by
  induction h generalizing line' with
  | nothing => cases h'; rfl
  | scope _ ih =>
      cases h' with
      | scope above => rw [ih above]

/-- What stands in a line behind a scope are its ancestors. -/
theorem Line.ancestor (h : s.Line start line) {child : ScopeId} (link : s.parent? child = start) :
    ∀ b ∈ line, s.Ancestor child b := by
  induction h generalizing child with
  | nothing => simp
  | @scope id line _ ih =>
      rw [List.forall_mem_cons]
      exact ⟨.single link, fun b hb => .head link (ih rfl b hb)⟩

theorem Line.nodup (h : s.Line start line) (grounded : s.Grounded) : line.Nodup := by
  induction h with
  | nothing => exact List.nodup_nil
  | @scope id line above ih =>
      rw [List.nodup_cons]
      exact ⟨fun again => grounded.acyclic id (above.ancestor rfl id again), ih⟩

theorem Line.inside (h : s.Line start line) (grounded : s.Grounded)
    (exist : ∀ p ∈ start, p < s.slots.size) : ∀ b ∈ line, b < s.slots.size := by
  induction h with
  | nothing => simp
  | @scope id line _ ih =>
      rw [List.forall_mem_cons]
      exact ⟨exist id rfl, ih fun p hp => grounded.closed id p hp⟩

/-- No scope stands in a line twice, so a line is no longer than the store. -/
theorem Line.length_le (h : s.Line start line) (grounded : s.Grounded)
    (exist : ∀ p ∈ start, p < s.slots.size) : line.length ≤ s.slots.size := by
  have inside : line ⊆ List.range s.slots.size := fun b hb =>
    List.mem_range.mpr (h.inside grounded exist b hb)
  have shorter := (List.subperm_of_subset (h.nodup grounded) inside).length_le
  rwa [List.length_range] at shorter

/-! ## Every walk ends -/

open Classical in
/-- How many ancestors a scope has. -/
noncomputable def ancestorCount (s : Scopes φ) (id : ScopeId) : Nat :=
  ((Finset.range s.slots.size).filter (s.Ancestor id)).card

open Classical in
/-- A parent has fewer ancestors than its child: those of the parent are ancestors of the child, and
the parent is one more. -/
theorem Grounded.ancestorCount_lt (h : s.Grounded) {p : ScopeId} (link : s.Link id p) :
    s.ancestorCount p < s.ancestorCount id := by
  refine Finset.card_lt_card (Finset.ssubset_iff_of_subset ?_ |>.mpr ⟨p, ?_, ?_⟩)
  · intro b hb
    rw [Finset.mem_filter] at hb ⊢
    exact ⟨hb.1, .head link hb.2⟩
  · rw [Finset.mem_filter, Finset.mem_range]
    exact ⟨h.closed id p link, .single link⟩
  · rw [Finset.mem_filter]
    exact fun both => h.acyclic p both.2

/-- **Every walk along parents ends.** -/
theorem Grounded.exists_line (h : s.Grounded) (start : Option ScopeId) :
    ∃ line, s.Line start line := by
  cases start with
  | none => exact ⟨[], .nothing⟩
  | some id =>
      induction hn : s.ancestorCount id using Nat.strong_induction_on generalizing id with
      | _ n ih =>
          cases hp : s.parent? id with
          | none => exact ⟨[id], .scope (by rw [hp]; exact .nothing)⟩
          | some p =>
              obtain ⟨line, above⟩ := ih _ (hn ▸ h.ancestorCount_lt hp) p rfl
              exact ⟨id :: line, .scope (by rw [hp]; exact above)⟩

theorem chainUpTo_of_line (h : s.Line start line) {bound : Nat} (enough : line.length ≤ bound) :
    s.chainUpTo bound start = line := by
  induction h generalizing bound with
  | nothing => cases bound <;> rfl
  | @scope id line _ ih =>
      cases bound with
      | zero => simp at enough
      | succ bound => rw [chainUpTo, ih (Nat.le_of_succ_le_succ enough)]

/-- **A chain is the whole line**: the bound on its length never cuts it short. -/
theorem Grounded.line_chain (h : s.Grounded) (exist : ∀ p ∈ start, p < s.slots.size) :
    s.Line start (s.chain start) := by
  obtain ⟨line, walked⟩ := h.exists_line start
  rwa [chain, chainUpTo_of_line walked (walked.length_le h exist)]

theorem Grounded.chain_eq (h : s.Grounded) (exist : ∀ p ∈ start, p < s.slots.size)
    (walked : s.Line start line) : s.chain start = line :=
  (h.line_chain exist).unique walked

theorem Grounded.nodup_chain (h : s.Grounded) (exist : ∀ p ∈ start, p < s.slots.size) :
    (s.chain start).Nodup :=
  (h.line_chain exist).nodup h

theorem Grounded.not_mem_nearer (h : s.Grounded) (exist : ∀ p ∈ start, p < s.slots.size)
    {nearer farther : List ScopeId} (shape : s.chain start = nearer ++ id :: farther) :
    id ∉ nearer := by
  have once := h.nodup_chain exist
  rw [shape, List.nodup_append] at once
  exact fun hid => once.2.2 id hid id List.mem_cons_self rfl

end

@[simp] theorem lookup?_none (s : Scopes φ) (name : String) : s.lookup? none name = none := by
  rw [lookup?, chain]
  cases s.slots.size <;> rfl

/-! ## What a definition changes -/

section

variable {s : Scopes φ} {start : Option ScopeId} {id : ScopeId} {name key : String} {v : Value φ}

/-- The walk from `start` for a name comes as far as a scope: no scope nearer binds the name. -/
def Comes (s : Scopes φ) (start : Option ScopeId) (name : String) (id : ScopeId) : Prop :=
  ∃ nearer farther, s.chain start = nearer ++ id :: farther ∧
    ∀ b ∈ nearer, (s.bindings b).get? name = none

@[simp] theorem chain_define (s : Scopes φ) (id : ScopeId) (name : String) (v : Value φ)
    (start : Option ScopeId) : (s.define id name v).chain start = s.chain start := by
  rw [chain, size_define, chainUpTo_define, chain]

/-- A search that does not come to a place finds the same whatever is there. -/
theorem findSome?_of_not_reached {α β : Type} {f g : α → Option β} {a : α} {l : List α}
    (same : ∀ b, b ≠ a → g b = f b)
    (h : ¬∃ nearer farther, l = nearer ++ a :: farther ∧ ∀ b ∈ nearer, f b = none) :
    l.findSome? g = l.findSome? f := by
  induction l with
  | nil => rfl
  | cons b l ih =>
      by_cases hb : b = a
      · exact absurd ⟨[], l, by rw [hb]; rfl, by simp⟩ h
      · rw [List.findSome?_cons, List.findSome?_cons, same b hb]
        cases hf : f b with
        | some x => rfl
        | none =>
            refine ih fun ⟨nearer, farther, shape, unbound⟩ => h ⟨b :: nearer, farther, ?_, ?_⟩
            · rw [shape, List.cons_append]
            · exact List.forall_mem_cons.mpr ⟨hf, unbound⟩

theorem Grounded.lookup?_define_of_comes (h : s.Grounded) (exist : ∀ p ∈ start, p < s.slots.size)
    (inside : id < s.slots.size) (comes : s.Comes start name id) (v : Value φ) :
    (s.define id name v).lookup? start name = some v := by
  obtain ⟨nearer, farther, shape, unbound⟩ := comes
  have apart := h.not_mem_nearer exist shape
  have passed : nearer.findSome? (fun b => ((s.define id name v).bindings b).get? name) = none := by
    rw [List.findSome?_eq_none_iff]
    intro b hb
    rw [get?_bindings_define, if_neg]
    · exact unbound b hb
    · rintro ⟨rfl, -⟩
      exact apart hb
  rw [lookup?, chain_define, shape, List.findSome?_append, passed, Option.none_or,
    List.findSome?_cons, get?_bindings_define, if_pos ⟨rfl, inside, rfl⟩]

theorem lookup?_define_of_not_comes (s : Scopes φ) (start : Option ScopeId) (v : Value φ)
    (h : ¬(key = name ∧ s.Comes start name id)) :
    (s.define id name v).lookup? start key = s.lookup? start key := by
  by_cases hk : key = name
  · subst hk
    rw [lookup?, lookup?, chain_define]
    refine findSome?_of_not_reached (a := id) (fun b hb => ?_) fun comes => h ⟨rfl, comes⟩
    rw [get?_bindings_define, if_neg]
    exact fun both => hb both.1.symm
  · exact lookup?_define_of_ne s id v start hk

end

/-! ## What a new parent changes -/

section

variable {s : Scopes φ} {start parent : Option ScopeId} {id : ScopeId} {key : String}
  {line nearer farther above : List ScopeId}

theorem Line.setParent_of_not_mem (h : s.Line start line) (parent : Option ScopeId)
    (apart : id ∉ line) : (s.setParent id parent).Line start line := by
  induction h with
  | nothing => exact .nothing
  | @scope other line _ ih =>
      rw [List.mem_cons, not_or] at apart
      refine .scope ?_
      rw [parent?_setParent, if_neg fun both => apart.1 both.1]
      exact ih apart.2

theorem Line.setParent_of_mem (h : s.Line start (nearer ++ id :: farther)) (apart : id ∉ nearer)
    (inside : id < s.slots.size) (beyond : (s.setParent id parent).Line parent above) :
    (s.setParent id parent).Line start (nearer ++ id :: above) := by
  induction nearer generalizing start with
  | nil =>
      cases h with
      | scope =>
          refine .scope ?_
          rwa [parent?_setParent, if_pos ⟨rfl, inside⟩]
  | cons b nearer ih =>
      rw [List.mem_cons, not_or] at apart
      cases h with
      | scope rest =>
          refine .scope ?_
          rw [parent?_setParent, if_neg fun both => apart.1 both.1]
          exact ih rest apart.2

/-- A scope that is neither a parent nor an ancestor of it does not stand in its line. -/
theorem Line.not_mem_of_apart (h : s.Line start line)
    (apart : ∀ p ∈ start, p ≠ id ∧ ¬s.Ancestor p id) : id ∉ line := by
  cases h with
  | nothing => simp
  | @scope p line above =>
      obtain ⟨other, notAncestor⟩ := apart p rfl
      rw [List.mem_cons, not_or]
      exact ⟨other.symm, fun hid => notAncestor (above.ancestor rfl id hid)⟩

variable (h : s.Grounded) (inside : id < s.slots.size)
  (allowed : ∀ p ∈ parent, p < s.slots.size ∧ p ≠ id ∧ ¬s.Ancestor p id)
  (exist : ∀ p ∈ start, p < s.slots.size)

include h allowed in
/-- The new parent's chain stays as it is. -/
theorem Grounded.line_parent_setParent :
    (s.setParent id parent).Line parent (s.chain parent) := by
  have walked := h.line_chain fun p hp => (allowed p hp).1
  exact walked.setParent_of_not_mem parent
    (walked.not_mem_of_apart fun p hp => (allowed p hp).2)

include h inside allowed exist in
/-- Behind the scope that has a new parent, a chain goes on with that of the parent. -/
theorem Grounded.chain_setParent (shape : s.chain start = nearer ++ id :: farther) :
    (s.setParent id parent).chain start = nearer ++ id :: s.chain parent := by
  have grounded : (s.setParent id parent).Grounded :=
    h.setParent (fun p hp => (allowed p hp).1) fun p hp => (allowed p hp).2
  have apart := h.not_mem_nearer exist shape
  have walked := h.line_chain exist
  rw [shape] at walked
  refine grounded.chain_eq (by rwa [size_setParent]) ?_
  exact walked.setParent_of_mem apart inside (h.line_parent_setParent allowed)

include h inside allowed exist in
theorem Grounded.lookup?_setParent_of_comes (comes : s.Comes start key id)
    (unbound : (s.bindings id).get? key = none) :
    (s.setParent id parent).lookup? start key = s.lookup? parent key := by
  obtain ⟨nearer, farther, shape, passed⟩ := comes
  rw [lookup?, h.chain_setParent inside allowed exist shape]
  simp only [bindings_setParent]
  rw [List.findSome?_append, List.findSome?_eq_none_iff.mpr passed, Option.none_or,
    List.findSome?_cons, unbound, lookup?]

include h inside allowed exist in
theorem Grounded.lookup?_setParent_of_not_comes
    (stays : ¬(s.Comes start key id ∧ (s.bindings id).get? key = none)) :
    (s.setParent id parent).lookup? start key = s.lookup? start key := by
  have grounded : (s.setParent id parent).Grounded :=
    h.setParent (fun p hp => (allowed p hp).1) fun p hp => (allowed p hp).2
  rw [lookup?, lookup?]
  simp only [bindings_setParent]
  by_cases hid : id ∈ s.chain start
  · obtain ⟨nearer, farther, shape⟩ := List.append_of_mem hid
    rw [h.chain_setParent inside allowed exist shape, shape]
    -- the walk ends in front of what has changed, at the scope itself or before
    have split (behind : List ScopeId) :
        (nearer ++ id :: behind).findSome? (fun b => (s.bindings b).get? key) =
          ((nearer ++ [id]).findSome? fun b => (s.bindings b).get? key).or
            (behind.findSome? fun b => (s.bindings b).get? key) := by
      rw [List.append_cons, List.findSome?_append]
    rw [split (s.chain parent), split farther]
    cases found : (nearer ++ [id]).findSome? fun b => (s.bindings b).get? key with
    | some v => rfl
    | none =>
        rw [List.findSome?_eq_none_iff, List.forall_mem_append] at found
        exact absurd ⟨⟨nearer, farther, shape, found.1⟩, found.2 id (by simp)⟩ stays
  · have walked := (h.line_chain exist).setParent_of_not_mem parent hid
    rw [grounded.chain_eq (by rwa [size_setParent]) walked]

end

end Reckoner.Scopes
