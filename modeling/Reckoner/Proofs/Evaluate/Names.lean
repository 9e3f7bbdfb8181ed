import Reckoner.Parser
import Reckoner.Scope

/-!
# The names of a formula

A formula can only ask for the names that stand in its tree: those of identifiers and those of calls,
where a number that is called stands for its text. A quoted text asks for the names of its own tree.
Built-in names are never asked of a caller, so the others are all that a caller's scope can answer.
-/

namespace Reckoner

/-- The tree holds a name, as an identifier or as the name of a call; a quoted text that is a
formula holds the names of its tree. -/
inductive Expr.Mentions (name : String) : Expr → Prop
  | identifier : Mentions name (.identifier name)
  | left {left right : Expr} {op : Kind} : Mentions name left →
      Mentions name (.binary left op right)
  | right {left right : Expr} {op : Kind} : Mentions name right →
      Mentions name (.binary left op right)
  | callee {arguments : List Expr} : Mentions name (.call name arguments)
  | argument {called : String} {arguments : List Expr} {a : Expr} : a ∈ arguments →
      Mentions name a → Mentions name (.call called arguments)
  | quoted {source : String} {e : Expr} : parse source = .ok e → Mentions name e →
      Mentions name (.quoted source)

section

variable {name : String}

@[simp] theorem Expr.mentions_identifier {other : String} :
    (Expr.identifier other).Mentions name ↔ name = other := by
  constructor
  · rintro ⟨⟩
    rfl
  · rintro rfl
    exact .identifier

@[simp] theorem Expr.mentions_binary {left right : Expr} {op : Kind} :
    (Expr.binary left op right).Mentions name ↔ left.Mentions name ∨ right.Mentions name := by
  constructor
  · rintro (_ | mentions | mentions)
    · exact .inl mentions
    · exact .inr mentions
  · rintro (mentions | mentions)
    · exact .left mentions
    · exact .right mentions

@[simp] theorem Expr.mentions_call {called : String} {arguments : List Expr} :
    (Expr.call called arguments).Mentions name ↔
      name = called ∨ ∃ a ∈ arguments, a.Mentions name := by
  constructor
  · rintro (_ | _ | _ | _ | ⟨ha, mentions⟩)
    · exact .inl rfl
    · exact .inr ⟨_, ha, mentions⟩
  · rintro (rfl | ⟨a, ha, mentions⟩)
    · exact .callee
    · exact .argument ha mentions

theorem Expr.mentions_quoted {source : String} {e : Expr} (h : parse source = .ok e) :
    (Expr.quoted source).Mentions name ↔ e.Mentions name := by
  constructor
  · rintro (_ | _ | _ | _ | _ | ⟨h', mentions⟩)
    obtain rfl := Except.ok.inj (h.symm.trans h')
    exact mentions
  · exact .quoted h

end

/-- A constant or a function that is built in goes by the name. -/
def IsBuiltin (name : String) : Prop := name ∈ "pi" :: "e" :: Builtin.all.map Builtin.name

instance (name : String) : Decidable (IsBuiltin name) :=
  inferInstanceAs (Decidable (name ∈ _))

/-- The names that a text asks its caller for. -/
def AsksFor (source name : String) : Prop := (Expr.quoted source).Mentions name ∧ ¬IsBuiltin name

theorem Bindings.get?_eq_none_iff {φ : Type} {bs : Bindings φ} {name : String} :
    bs.get? name = none ↔ name ∉ bs.names := by
  rw [get?, List.lookup_eq_none_iff, names, List.mem_map]
  constructor
  · rintro absent ⟨entry, mem, rfl⟩
    simpa using absent entry mem
  · intro absent entry mem
    rw [bne_iff_ne]
    rintro rfl
    exact absent ⟨entry, mem, rfl⟩

theorem Bindings.get?_standard_eq_none_iff {φ : Type} {name : String} :
    (Bindings.standard : Bindings φ).get? name = none ↔ ¬IsBuiltin name := by
  rw [Bindings.get?_eq_none_iff]
  simp [names, standard, IsBuiltin, Function.comp_def]

/-- No built-in name stands for a function of the host. -/
theorem get?_standard_ne_host {φ : Type} (name : String) (arity : Nat) (code : φ) :
    Bindings.standard.get? name ≠ some (.function (.host arity code)) := by
  intro h
  obtain ⟨before, after, entries, -⟩ := List.lookup_eq_some_iff.mp h
  have mem : (name, Value.function (.host arity code)) ∈ Bindings.standard.entries := by
    rw [entries]
    simp
  simp [Bindings.standard] at mem

end Reckoner
