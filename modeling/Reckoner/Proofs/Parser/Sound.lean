import Reckoner.Proofs.Lexer.Writing
import Reckoner.Proofs.Parser.Soundness

/-!
# What trees the parser builds

A tree that was read from text has numbers, identifiers and quoted texts at its leaves, each from a
lexeme of the text, operations with the five operators, and calls with at least one argument. This
holds of every text that the parser reads an expression from, also where the rest of the text has no
tokens.
-/

namespace Reckoner

open Reckoner.Grammar

/-! ## Trees over lexemes -/

/-- The tree is built as a derivation builds it, and its leaves are lexemes with the property. -/
inductive Expr.ReadFrom (written : Lexeme → Prop) : Expr → Prop
  | number {digits : String} : written (.number digits) →
      ReadFrom written (.number (Number.literal digits.toList))
  | identifier {name : String} : written (.word name) → ReadFrom written (.identifier name)
  | quoted {source : String} : written (.quoted source) → ReadFrom written (.quoted source)
  | binary {left right : Expr} (op : Operator) : ReadFrom written left → ReadFrom written right →
      ReadFrom written (.binary left op.kind right)
  | call {callee : Expr} {name : String} {arguments : List Expr} : ReadFrom written callee →
      Callee callee name → arguments ≠ [] → (∀ a ∈ arguments, ReadFrom written a) →
      ReadFrom written (.call name arguments)

section

variable {written other : Lexeme → Prop} {e : Expr}

theorem Expr.ReadFrom.mono (h : e.ReadFrom written) (weaker : ∀ x, written x → other x) :
    e.ReadFrom other := by
  induction h with
  | number hx => exact .number (weaker _ hx)
  | identifier hx => exact .identifier (weaker _ hx)
  | quoted hx => exact .quoted (weaker _ hx)
  | binary op _ _ ihLeft ihRight => exact .binary op ihLeft ihRight
  | call _ called nonempty _ ihCallee ihArguments =>
      exact .call ihCallee called nonempty ihArguments

end

/-- A derivation builds its tree over the lexemes that it derives. -/
theorem Grammar.Derives.readFrom {l : Level} {w : List Lexeme} {e : Expr} {ending : Ending}
    (h : Derives l w e ending) : e.ReadFrom (· ∈ w) := by
  induction h with
  | number digits => exact .number (by simp)
  | word name => exact .identifier (by simp)
  | quoted inner => exact .quoted (by simp)
  | group _ ih => exact ih.mono fun x hx => by simp [hx]
  | ofBasic _ ih | ofCall _ ih | ofPower _ ih | ofProduct _ ih => exact ih
  | implicitCall _ called _ _ ihCallee ihArgument =>
      refine .call (ihCallee.mono fun x hx => by simp [hx]) called (by simp) ?_
      simpa using ihArgument.mono fun x hx => by simp [hx]
  | explicitCall _ called nonempty _ ihCallee ihArguments =>
      refine .call (ihCallee.mono fun x hx => by simp [hx]) called (by simpa using nonempty) ?_
      rw [List.forall_mem_map]
      intro a ha
      exact (ihArguments a ha).mono fun x hx => by simp [mem_separated ha hx]
  | power _ _ ihBase ihExponent =>
      exact .binary .power (ihBase.mono fun x hx => by simp [hx])
        (ihExponent.mono fun x hx => by simp [hx])
  | product _ _ _ ihLeft ihRight =>
      exact .binary _ (ihLeft.mono fun x hx => by simp [hx])
        (ihRight.mono fun x hx => by simp [hx])
  | sum _ _ _ ihLeft ihRight =>
      exact .binary _ (ihLeft.mono fun x hx => by simp [hx])
        (ihRight.mono fun x hx => by simp [hx])

/-! ## Texts -/

/-- The lexeme is well formed and stands in the text. -/
def Lexeme.StandsIn (x : Lexeme) (text : List Char) : Prop := x.WellFormed ∧ x.spelling <:+: text

theorem Lexeme.StandsIn.mono {x : Lexeme} {text longer : List Char} (h : x.StandsIn text)
    (inside : text <:+: longer) : x.StandsIn longer :=
  ⟨h.1, h.2.trans inside⟩

namespace Parser

/-- A run that ends with an expression has a derivation of it, over what was read before and over
lexemes that it takes off the text. -/
theorem exists_derives_of_run {length : Nat} {s : State} {l : Lexer} {e : Expr} {w : List Lexeme}
    (h : (run length s l).1 = .ok e) (read : Reads s w) :
    ∃ v ending, Derives .sum (w ++ v) e ending ∧ ∀ x ∈ v, x.StandsIn l.rest := by
  fun_induction run length s l generalizing w with
  | case1 s l after hn =>
      cases hf : s.finish length with
      | ok e' =>
          rw [hf] at h
          cases h
          obtain ⟨ending, derived⟩ := read.finish hf
          exact ⟨[], ending, by rwa [List.append_nil], by simp⟩
      | error f =>
          rw [hf] at h
          cases h
  | case2 => cases h
  | case3 s l t after hn _ next hs ih =>
      obtain ⟨v, ending, derived, stand⟩ := ih h (read.step hs)
      obtain ⟨p, rfl, wf, -, -, whole⟩ := Lexer.exists_piece_of_next hn
      refine ⟨p.lexeme :: v, ending, by simpa using derived, ?_⟩
      rw [List.forall_mem_cons]
      rw [whole]
      refine ⟨⟨wf, List.infix_append' _ _ _⟩, ?_⟩
      intro x hx
      exact (stand x hx).mono ⟨_, [], by rw [List.append_nil, List.append_assoc]⟩
  | case4 s l t after hn _ e' hs =>
      cases h
      obtain ⟨ending, derived, -⟩ := read.accept hs
      exact ⟨[], ending, by rwa [List.append_nil], by simp⟩
  | case5 => cases h

end Parser

/-- **Every tree that is read from a text is built from lexemes of the text.** -/
theorem readFrom_of_parse {source : String} {e : Expr} (h : parse source = .ok e) :
    e.ReadFrom (·.StandsIn source.toList) := by
  obtain ⟨v, ending, derived, stand⟩ := Parser.exists_derives_of_run h Parser.reads_start
  rw [List.nil_append] at derived
  exact derived.readFrom.mono stand

end Reckoner
