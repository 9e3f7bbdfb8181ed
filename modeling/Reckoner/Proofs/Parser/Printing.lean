import Reckoner.Proofs.Lexer.Writing
import Reckoner.Proofs.Parser.Exact
import Reckoner.Proofs.Parser.Sound

/-!
# Writing trees out

A layout is a tree together with everything that its writer may choose: the digits of the numbers,
which calls have their one argument directly behind them, and brackets that are not needed. Brackets
that are needed are not chosen. They stand around an operand that is an operation itself, and
`needsBrackets` says around which. What is written out so derives the tree of the layout, so the
parser reads it back, whatever spaces are put between the lexemes.
-/

namespace Reckoner

open Reckoner.Grammar

/-! ## Layouts -/

/-- A term that can be called. -/
inductive Leaf
  | number (digits : String)
  | word (name : String)
deriving Inhabited

def Leaf.lexeme : Leaf → Lexeme
  | .number digits => .number digits
  | .word name => .word name

def Leaf.tree : Leaf → Expr
  | .number digits => .number (Number.literal digits.toList)
  | .word name => .identifier name

/-- The name under which the term is called. -/
def Leaf.name : Leaf → String
  | .number digits => Number.text (Number.literal digits.toList)
  | .word name => name

inductive Layout
  | leaf (l : Leaf)
  | quoted (inner : String)
  | binary (left : Layout) (op : Operator) (right : Layout)
  /-- A call with its arguments in brackets; there may be brackets around what is called. -/
  | call (callee : Leaf) (around : Nat) (arguments : List Layout)
  /-- A call with its argument directly behind it. -/
  | implicitCall (callee : Leaf) (around : Nat) (argument : Layout)
  /-- A pair of brackets that the writer adds. -/
  | bracketed (inner : Layout)
deriving Inhabited

inductive Side
  | left | right

/-- Whether an operation on one side of another has to stand in brackets: sums on both sides of
products, sums and products on both sides of powers; on the right also sums in sums and products in
products, which group from the left; and on the left powers in powers. -/
def needsBrackets (outer : Operator) : Side → Operator → Bool
  | .left, inner => inner.tightness < outer.tightness || outer == .power
  | .right, inner =>
      inner.tightness < outer.tightness || (inner.tightness == outer.tightness && outer != .power)

/-- Lexemes with a number of brackets around them. -/
def enclosed : Nat → List Lexeme → List Lexeme
  | 0, w => w
  | n + 1, w => .symbol .lparen :: enclosed n w ++ [.symbol .rparen]

namespace Layout

/-- The operator of an operation that is not in brackets. -/
def operator? : Layout → Option Operator
  | binary _ op _ => some op
  | leaf _ | quoted _ | call .. | implicitCall .. | bracketed _ => none

/-- How many brackets stand around an operand of an operation. -/
def bracketsIn (outer : Operator) (side : Side) (l : Layout) : Nat :=
  if l.operator?.any (needsBrackets outer side) then 1 else 0

mutual

/-- The layout written out. -/
def lexemes : Layout → List Lexeme
  | leaf l => [l.lexeme]
  | quoted inner => [.quoted inner]
  | binary left op right =>
      enclosed (left.bracketsIn op .left) left.lexemes ++
        .symbol op.symbol :: enclosed (right.bracketsIn op .right) right.lexemes
  | call callee around arguments =>
      enclosed around [callee.lexeme] ++
        .symbol .lparen :: [Lexeme.symbol .comma].intercalate (lexemesAll arguments) ++
        [.symbol .rparen]
  | implicitCall callee around argument => enclosed around [callee.lexeme] ++ argument.lexemes
  | bracketed inner => enclosed 1 inner.lexemes

def lexemesAll : List Layout → List (List Lexeme)
  | [] => []
  | l :: more => l.lexemes :: lexemesAll more

end

mutual

/-- The tree that is written out. -/
def tree : Layout → Expr
  | leaf l => l.tree
  | quoted inner => .quoted inner
  | binary left op right => .binary left.tree op.kind right.tree
  | call callee _ arguments => .call callee.name (treeAll arguments)
  | implicitCall callee _ argument => .call callee.name [argument.tree]
  | bracketed inner => inner.tree

def treeAll : List Layout → List Expr
  | [] => []
  | l :: more => l.tree :: treeAll more

end

mutual

/-- The number of brackets that the writer added. -/
def added : Layout → Nat
  | leaf _ | quoted _ => 0
  | binary left _ right => left.added + right.added
  | call _ around arguments => around + addedAll arguments
  | implicitCall _ around argument => around + argument.added
  | bracketed inner => inner.added + 1

def addedAll : List Layout → Nat
  | [] => 0
  | l :: more => l.added + addedAll more

end

/-- A number, a name, or a call whose callee is not in brackets: these can stand directly behind
what they are the argument of. -/
def IsOpener : Layout → Prop
  | leaf _ => True
  | call _ around _ | implicitCall _ around _ => around = 0
  | quoted _ | binary .. | bracketed _ => False

/-- All lexemes can be read, calls have an argument, and arguments without brackets are such that
they can. -/
inductive Sound : Layout → Prop
  | leaf {l : Leaf} : l.lexeme.WellFormed → Sound (.leaf l)
  | quoted {inner : String} : (Lexeme.quoted inner).WellFormed → Sound (.quoted inner)
  | binary {left right : Layout} {op : Operator} : Sound left → Sound right →
      Sound (.binary left op right)
  | call {callee : Leaf} {around : Nat} {arguments : List Layout} : callee.lexeme.WellFormed →
      arguments ≠ [] → (∀ a ∈ arguments, Sound a) → Sound (.call callee around arguments)
  | implicitCall {callee : Leaf} {around : Nat} {argument : Layout} : callee.lexeme.WellFormed →
      Sound argument → argument.IsOpener → Sound (.implicitCall callee around argument)
  | bracketed {inner : Layout} : Sound inner → Sound (.bracketed inner)

theorem lexemesAll_eq_map (ls : List Layout) : lexemesAll ls = ls.map lexemes := by
  induction ls with
  | nil => rfl
  | cons l more ih => rw [lexemesAll, ih, List.map_cons]

theorem treeAll_eq_map (ls : List Layout) : treeAll ls = ls.map tree := by
  induction ls with
  | nil => rfl
  | cons l more ih => rw [treeAll, ih, List.map_cons]

theorem addedAll_eq_zero {ls : List Layout} (h : ∀ l ∈ ls, l.added = 0) : addedAll ls = 0 := by
  induction ls with
  | nil => rfl
  | cons l more ih =>
      rw [List.forall_mem_cons] at h
      rw [addedAll, h.1, ih h.2]

end Layout

/-! ## Every tree can be written out -/

theorem exists_leaf_of_callee {e : Expr} {name : String} (called : Callee e name)
    (h : e.ReadFrom Lexeme.WellFormed) :
    ∃ l : Leaf, l.lexeme.WellFormed ∧ l.tree = e ∧ l.name = name := by
  cases called with
  | identifier =>
      cases h with
      | identifier wf => exact ⟨.word name, wf, rfl, rfl⟩
  | number =>
      cases h with
      | @number digits wf => exact ⟨.number digits, wf, rfl, rfl⟩

/-- A tree over well-formed lexemes has a layout without brackets that are not needed. -/
theorem exists_layout {e : Expr} (h : e.ReadFrom Lexeme.WellFormed) :
    ∃ l : Layout, l.Sound ∧ l.tree = e ∧ l.added = 0 := by
  induction h with
  | @number digits wf => exact ⟨.leaf (.number digits), .leaf wf, rfl, rfl⟩
  | @identifier name wf => exact ⟨.leaf (.word name), .leaf wf, rfl, rfl⟩
  | @quoted inner wf => exact ⟨.quoted inner, .quoted wf, rfl, rfl⟩
  | binary op _ _ ihLeft ihRight =>
      obtain ⟨left, soundLeft, rfl, addedLeft⟩ := ihLeft
      obtain ⟨right, soundRight, rfl, addedRight⟩ := ihRight
      exact ⟨.binary left op right, .binary soundLeft soundRight, rfl,
        by rw [Layout.added, addedLeft, addedRight]⟩
  | @call callee name arguments hcallee called nonempty _ _ ihArguments =>
      obtain ⟨leaf, wf, -, rfl⟩ := exists_leaf_of_callee called hcallee
      choose! layoutOf sound same added using ihArguments
      refine ⟨.call leaf 0 (arguments.map layoutOf), .call wf (by simpa using nonempty) ?_, ?_, ?_⟩
      · exact List.forall_mem_map.mpr sound
      · rw [Layout.tree, Layout.treeAll_eq_map, List.map_map]
        congr
        exact (List.map_congr_left same).trans (List.map_id arguments)
      · rw [Layout.added, Layout.addedAll_eq_zero (List.forall_mem_map.mpr added)]

/-! ## What is written out derives the tree -/

theorem Leaf.derives (l : Leaf) : Derives .basic [l.lexeme] l.tree .plain := by
  cases l with
  | number digits => exact .number digits
  | word name => exact .word name

theorem Leaf.callee (l : Leaf) : Callee l.tree l.name := by
  cases l with
  | number digits => exact .number _
  | word name => exact .identifier name

theorem Leaf.kind (l : Leaf) : l.lexeme.kind = .number ∨ l.lexeme.kind = .word := by
  cases l with
  | number digits => exact .inl rfl
  | word name => exact .inr rfl

/-- Brackets make a basic term of any expression. -/
theorem derives_enclosed {w : List Lexeme} {e : Expr} {ending : Ending} (h : Derives .sum w e ending)
    (n : Nat) : Derives .basic (enclosed (n + 1) w) e .plain := by
  induction n with
  | zero => exact .group h
  | succ n ih => exact .group (ih.loosen (by decide))

theorem Leaf.derives_enclosed (l : Leaf) (n : Nat) :
    Derives .basic (enclosed n [l.lexeme]) l.tree .plain := by
  cases n with
  | zero => exact l.derives
  | succ n => exact Reckoner.derives_enclosed (l.derives.loosen (by decide)) n

namespace Layout

/-- The level of the grammar that the layout is written on. -/
def level : Layout → Grammar.Level
  | leaf _ | quoted _ | bracketed _ => .basic
  | call .. | implicitCall .. => .call
  | binary _ op _ => levelOf op

/-- How the last lexeme of the layout is read. -/
def ending : Layout → Ending
  | leaf _ | quoted _ | bracketed _ => .plain
  | call .. => .arguments
  | implicitCall _ _ argument => argument.ending
  | binary _ op right => if right.bracketsIn op .right = 0 then right.ending else .plain

/-- What stands in an operand is on the level that the operation asks for. -/
def operandLevel (op : Operator) : Side → Grammar.Level
  | .left => leftOf op
  | .right => rightOf op

/-- An operation that needs no brackets binds tightly enough. -/
theorem rank_le_of_not_needsBrackets {outer inner : Operator} {side : Side}
    (h : needsBrackets outer side inner = false) :
    (operandLevel outer side).rank ≤ (levelOf inner).rank := by
  revert h
  cases side <;> cases outer <;> cases inner <;> decide

theorem rank_operandLevel_le (op : Operator) (side : Side) : (operandLevel op side).rank ≤ 4 := by
  cases side <;> cases op <;> decide

/-- A layout that needs no brackets as an operand is on a level that is tight enough. -/
theorem rank_le_of_bracketsIn {l : Layout} {op : Operator} {side : Side}
    (h : l.bracketsIn op side = 0) : (operandLevel op side).rank ≤ l.level.rank := by
  have loose := rank_operandLevel_le op side
  cases l with
  | binary left inner right =>
      refine rank_le_of_not_needsBrackets (Bool.eq_false_iff.mpr fun needed => ?_)
      simp [bracketsIn, operator?, needed] at h
  | call | implicitCall => exact loose
  | leaf | quoted | bracketed => exact Nat.le_succ_of_le loose

/-- The operands of an operation, with their brackets if they need them. -/
theorem derives_operand {l : Layout} (h : Derives l.level l.lexemes l.tree l.ending) (op : Operator)
    (side : Side) :
    Derives (operandLevel op side) (enclosed (l.bracketsIn op side) l.lexemes) l.tree
      (if l.bracketsIn op side = 0 then l.ending else .plain) := by
  cases count : l.bracketsIn op side with
  | zero => exact h.loosen (rank_le_of_bracketsIn count)
  | succ n =>
      have term := derives_enclosed (h.loosen (l.level.rank_sum_le)) n
      exact term.loosen (Nat.le_succ_of_le (rank_operandLevel_le op side))

theorem IsOpener.beginsOperand {l : Layout} (h : l.IsOpener) : BeginsOperand l.lexemes := by
  cases l with
  | leaf l => exact ⟨l.lexeme, rfl, l.kind⟩
  | call callee around arguments =>
      obtain rfl : around = 0 := h
      exact ⟨callee.lexeme, rfl, callee.kind⟩
  | implicitCall callee around argument =>
      obtain rfl : around = 0 := h
      exact ⟨callee.lexeme, rfl, callee.kind⟩
  | quoted | binary | bracketed => exact h.elim

/-- A layout that can be an argument without brackets is a call or a basic term. -/
theorem IsOpener.rank_le {l : Layout} (h : l.IsOpener) :
    Grammar.Level.call.rank ≤ l.level.rank := by
  cases l with
  | leaf => exact Nat.le_succ 4
  | call | implicitCall => exact Nat.le_refl 4
  | quoted | binary | bracketed => exact h.elim

/-- **What is written out derives the tree** on the level of the layout. -/
theorem Sound.derives {l : Layout} (h : l.Sound) : Derives l.level l.lexemes l.tree l.ending := by
  induction h with
  | @leaf l _ => exact l.derives
  | @quoted inner _ => exact .quoted inner
  | @binary left right op _ _ ihLeft ihRight =>
      exact (derives_operand ihLeft op .left).binary (derives_operand ihRight op .right)
  | @call callee around arguments _ nonempty _ ih =>
      have each : ∀ a ∈ arguments.map fun a : Layout => (⟨a.lexemes, a.tree, a.ending⟩ : Argument),
          Derives .sum a.lexemes a.tree a.ending := by
        rw [List.forall_mem_map]
        exact fun a ha => (ih a ha).loosen a.level.rank_sum_le
      have call := Derives.explicitCall (callee.derives_enclosed around) callee.callee
        (by simpa using nonempty) each
      rw [separated, List.map_map, List.map_map] at call
      rw [lexemes, tree, lexemesAll_eq_map, treeAll_eq_map]
      exact call
  | @implicitCall callee around argument _ _ opener ih =>
      exact .implicitCall (callee.derives_enclosed around) callee.callee (ih.loosen opener.rank_le)
        opener.beginsOperand
  | @bracketed inner _ ih => exact derives_enclosed (ih.loosen inner.level.rank_sum_le) 0

/-! ## Texts -/

theorem mem_enclosed {n : Nat} {w : List Lexeme} {x : Lexeme} (hx : x ∈ enclosed n w) :
    (∃ s, x = .symbol s) ∨ x ∈ w := by
  induction n with
  | zero => exact .inr hx
  | succ n ih =>
      rw [enclosed, List.cons_append, List.mem_cons, List.mem_append, List.mem_singleton] at hx
      rcases hx with rfl | hx | rfl
      · exact .inl ⟨_, rfl⟩
      · exact ih hx
      · exact .inl ⟨_, rfl⟩

theorem wellFormed_enclosed {w : List Lexeme} (h : ∀ x ∈ w, x.WellFormed) (n : Nat) :
    ∀ x ∈ enclosed n w, x.WellFormed := by
  intro x hx
  obtain ⟨s, rfl⟩ | hx := mem_enclosed hx
  · trivial
  · exact h x hx

theorem forall_mem_intercalate {α : Type} {p : α → Prop} {between : List α} {ws : List (List α)}
    (hb : ∀ x ∈ between, p x) (h : ∀ w ∈ ws, ∀ x ∈ w, p x) : ∀ x ∈ between.intercalate ws, p x := by
  induction ws with
  | nil => simp
  | cons w more ih =>
      rw [List.forall_mem_cons] at h
      by_cases last : more = []
      · subst last
        simpa using h.1
      · rw [List.intercalate_cons_of_ne_nil last, List.forall_mem_append, List.forall_mem_append]
        exact ⟨⟨h.1, hb⟩, ih h.2⟩

/-- Every lexeme of a sound layout can be read. -/
theorem Sound.wellFormed {l : Layout} (h : l.Sound) : ∀ x ∈ l.lexemes, x.WellFormed := by
  induction h with
  | leaf wf => simpa [lexemes] using wf
  | quoted wf => simpa [lexemes] using wf
  | binary _ _ ihLeft ihRight =>
      rw [lexemes, List.forall_mem_append, List.forall_mem_cons]
      exact ⟨wellFormed_enclosed ihLeft _, trivial, wellFormed_enclosed ihRight _⟩
  | @call callee around arguments wf _ _ ih =>
      have comma : ∀ x ∈ [Lexeme.symbol .comma], x.WellFormed := by simp [Lexeme.WellFormed]
      have inside : ∀ x ∈ [Lexeme.symbol .comma].intercalate (lexemesAll arguments),
          x.WellFormed := by
        rw [lexemesAll_eq_map]
        exact forall_mem_intercalate comma (List.forall_mem_map.mpr ih)
      rw [lexemes, List.forall_mem_append, List.forall_mem_append, List.forall_mem_cons]
      exact ⟨⟨wellFormed_enclosed (by simpa using wf) _, trivial, inside⟩,
        by simp [Lexeme.WellFormed]⟩
  | implicitCall wf _ _ ih =>
      rw [lexemes, List.forall_mem_append]
      exact ⟨wellFormed_enclosed (by simpa using wf) _, ih⟩
  | bracketed _ ih => exact wellFormed_enclosed ih 1

/-- Pieces that write a sound layout, with a space between neighbours that need one, are read back
as they are. -/
theorem Sound.readable {l : Layout} (h : l.Sound) {pieces : List Piece}
    (writes : pieces.map Piece.lexeme = l.lexemes) (apart : pieces.IsChain Piece.Apart) :
    Readable pieces where
  wellFormed p hp := by
    refine h.wellFormed p.lexeme ?_
    rw [← writes]
    exact List.mem_map_of_mem hp
  apart := apart

end Layout

/-- **Parsing undoes writing with as few brackets as possible.** Every tree over lexemes that can be
read has a layout in which its writer adds no brackets. Whatever layout of a tree is written out,
with brackets added or without, and with whatever spaces as long as no two numbers and no two words
touch: the parser reads the tree back, and reads to the end. -/
theorem parse_layout :
    (∀ e : Expr, e.ReadFrom Lexeme.WellFormed →
      ∃ l : Layout, l.Sound ∧ l.tree = e ∧ l.added = 0) ∧
    ∀ l : Layout, l.Sound → ∀ w : Writing, w.pieces.map Piece.lexeme = l.lexemes →
      w.pieces.IsChain Piece.Apart →
      parse (String.ofList w.text) = .ok l.tree ∧
        Parser.taken .start (.read (String.ofList w.text)) = w.tokens := by
  refine ⟨fun e => exists_layout, ?_⟩
  intro l sound w writes apart
  have tokens : tokenize (String.ofList w.text) = .ok w.tokens :=
    tokenize_text (sound.readable writes apart)
  have derived : Derives .sum (w.tokens.map Token.lexeme) l.tree l.ending := by
    rw [Writing.tokens, map_lexeme_tokensOf, writes]
    exact sound.derives.loosen l.level.rank_sum_le
  exact parse_of_derives tokens derived

/-- A difference in a difference needs its brackets, and so does the base of a power; the exponent,
itself a power, needs none, nor does a call whose argument is a call. -/
theorem parse_layout_powers :
    let l : Layout :=
      .binary (.binary (.leaf (.number "1")) .minus
          (.binary (.leaf (.word "x")) .minus (.leaf (.number "2.")))) .power
        (.binary (.leaf (.number "2.")) .power
          (.implicitCall (.word "f") 0 (.call (.word "g") 0 [.leaf (.word "y")])))
    l.Sound ∧ l.added = 0 ∧ parse "(1-(x - 2.))^2.^f g(y)" = .ok l.tree := by
  intro l
  have one : (Layout.leaf (.number "1")).Sound :=
    .leaf ⟨'1', [], rfl, by decide, by simp, by decide⟩
  have two : (Layout.leaf (.number "2.")).Sound :=
    .leaf ⟨'2', ['.'], rfl, by decide, by simp, by decide⟩
  have x : (Layout.leaf (.word "x")).Sound := .leaf ⟨by decide, by simp; decide⟩
  have y : (Layout.leaf (.word "y")).Sound := .leaf ⟨by decide, by simp; decide⟩
  have call : (Layout.call (.word "g") 0 [.leaf (.word "y")]).Sound :=
    .call ⟨by decide, by simp; decide⟩ (by simp) (by simpa using y)
  have sound : l.Sound :=
    .binary (.binary one (.binary x two))
      (.binary two (.implicitCall ⟨by decide, by simp; decide⟩ call rfl))
  let w : Writing := ⟨[⟨0, .symbol .lparen⟩, ⟨0, .number "1"⟩, ⟨0, .symbol .minus⟩,
    ⟨0, .symbol .lparen⟩, ⟨0, .word "x"⟩, ⟨1, .symbol .minus⟩, ⟨1, .number "2."⟩,
    ⟨0, .symbol .rparen⟩, ⟨0, .symbol .rparen⟩, ⟨0, .symbol .power⟩, ⟨0, .number "2."⟩,
    ⟨0, .symbol .power⟩, ⟨0, .word "f"⟩, ⟨1, .word "g"⟩, ⟨0, .symbol .lparen⟩, ⟨0, .word "y"⟩,
    ⟨0, .symbol .rparen⟩], 0⟩
  have apart : w.pieces.IsChain Piece.Apart := by simp [w, Piece.Apart, Lexeme.kind]
  exact ⟨sound, rfl, (parse_layout.2 l sound w rfl apart).1⟩

end Reckoner
