import Reckoner.Expr
import Reckoner.Proofs.Json.Layout

/-!
# Trees by their dumps

A dump is one JSON value, and no two values are laid out alike. The value of a tree names the form
of its root in its first field and keeps all the parts in the others, so the dump tells the tree
(`dump_lossless`): no name, quoted text or number of arguments makes two trees look alike.
-/

namespace Reckoner

/-! ## Labels -/

def Kind.all : List Kind :=
  [.number, .word, .quoted, .symbol .plus, .symbol .minus, .symbol .times, .symbol .divide,
    .symbol .power, .symbol .lparen, .symbol .rparen, .symbol .comma]

theorem Kind.mem_all (k : Kind) : k ∈ all := by
  cases k with
  | number => decide
  | word => decide
  | quoted => decide
  | symbol s => cases s <;> decide

theorem Kind.label_injective : Function.Injective Kind.label := by
  have distinct : ∀ k ∈ all, ∀ k' ∈ all, k.label = k'.label → k = k' := by decide +kernel
  intro k k' h
  exact distinct k k.mem_all k' k'.mem_all h

namespace Expr

def Shape.all : List Shape := [.number, .identifier, .binary, .call, .quoted, .bare]

theorem Shape.mem_all (s : Shape) : s ∈ all := by
  cases s <;> decide

theorem Shape.label_injective : Function.Injective Shape.label := by
  have distinct : ∀ s ∈ all, ∀ s' ∈ all, s.label = s'.label → s = s' := by decide +kernel
  intro s s' h
  exact distinct s s.mem_all s' s'.mem_all h

/-! ## Values of trees -/

theorem node_inj {s s' : Shape} {parts parts' : List (String × Json)}
    (h : node s parts = node s' parts') : s = s' ∧ parts = parts' := by
  rw [node, node, Json.object.injEq, List.cons.injEq, Prod.mk.injEq, Json.string.injEq] at h
  exact ⟨Shape.label_injective h.1.2, h.2⟩

/-- The value of a tree names the form of its root. -/
theorem exists_parts (e : Expr) : ∃ parts, e.toJson = node e.shape parts := by
  cases e <;> exact ⟨_, by rw [toJson]; rfl⟩

theorem shape_eq_of_toJson {a b : Expr} (h : a.toJson = b.toJson) : a.shape = b.shape := by
  obtain ⟨parts, ha⟩ := exists_parts a
  obtain ⟨parts', hb⟩ := exists_parts b
  rw [ha, hb] at h
  exact (node_inj h).1

mutual

theorem toJson_inj (a b : Expr) (h : a.toJson = b.toJson) : a = b := by
  have shape := shape_eq_of_toJson h
  match a, b, shape with
  | number x, number y, _ =>
      simpa [toJson, node] using h
  | identifier name, identifier name', _ =>
      simpa [toJson, node] using h
  | binary left op right, binary left' op' right', _ =>
      have parts : left.toJson = left'.toJson ∧ op.label = op'.label ∧
          right.toJson = right'.toJson := by simpa [toJson, node] using h
      rw [toJson_inj left left' parts.1, Kind.label_injective parts.2.1,
        toJson_inj right right' parts.2.2]
  | call name arguments, call name' arguments', _ =>
      have parts : name = name' ∧ toJsonAll arguments = toJsonAll arguments' := by
        simpa [toJson, node] using h
      rw [parts.1, toJsonAll_inj arguments arguments' parts.2]
  | quoted source, quoted source', _ =>
      simpa [toJson, node] using h
  | bare, bare, _ => rfl

theorem toJsonAll_inj (es fs : List Expr) (h : toJsonAll es = toJsonAll fs) : es = fs := by
  match es, fs with
  | [], [] => rfl
  | [], f :: others =>
      rw [toJsonAll, toJsonAll] at h
      cases h
  | e :: more, [] =>
      rw [toJsonAll, toJsonAll] at h
      cases h
  | e :: more, f :: others =>
      rw [toJsonAll, toJsonAll, List.cons.injEq] at h
      rw [toJson_inj e f h.1, toJsonAll_inj more others h.2]

end

/-! ## Dumps -/

theorem dump_injective : Function.Injective dump := by
  intro a b h
  rw [dump, dump, Json.render, Json.render, ← String.toList_inj, String.toList_ofList,
    String.toList_ofList] at h
  have ends : Json.Ends [] := fun c hc => nomatch hc
  obtain ⟨same, -⟩ := Json.layout_inj 0 a.toJson b.toJson ends ends (congrArg (· ++ []) h)
  exact toJson_inj a b same

/-- **A dump loses nothing and shows nothing but printable ASCII on lines**: trees with one dump are
one tree. -/
theorem dump_lossless :
    (∀ a b : Expr, a.dump = b.dump → a = b) ∧
      ∀ e : Expr, ∀ c ∈ e.dump.toList, c = '\n' ∨ 0x20 ≤ c.toNat ∧ c.toNat ≤ 0x7e := by
  refine ⟨fun a b h => dump_injective h, ?_⟩
  intro e c hc
  rw [dump, Json.render, String.toList_ofList] at hc
  exact Json.inLines_layout 0 e.toJson c hc

/-- A name that imitates the lines between two arguments makes no second argument, and a face is
written with backslashes. -/
theorem dump_lossless_imitation :
    (call "f" [identifier "a", identifier "b"]).dump ≠
        (call "f" [identifier "a\"\n    \x7d,\n    \x7b\n      \"name\": \"b"]).dump ∧
      '\\' ∈ (quoted "😀").dump.toList ∧ ('\\' = '\n' ∨ 0x20 ≤ '\\'.toNat ∧ '\\'.toNat ≤ 0x7e) := by
  have written : '\\' ∈ (quoted "😀").dump.toList := by decide +kernel
  refine ⟨fun same => ?_, written, dump_lossless.2 _ _ written⟩
  simpa using dump_lossless.1 _ _ same

end Expr

end Reckoner
