import Mathlib.Data.List.Chain
import Reckoner.Proofs.Lexer.Lexeme

/-!
# Texts as tokens written out

A writing is a text cut into lexemes and the spaces around them. It is proper if every lexeme is
well-formed and no two numbers and no two words touch. `tokenize_eq_ok_iff` says that the tokens of
a text are those of its proper writing, and that no text has two: tokenizing is the inverse of
writing out, and drops nothing but spaces.
-/

namespace Reckoner

open Reckoner.Text

/-! ## Writings -/

/-- A lexeme with the number of spaces in front of it. -/
structure Piece where
  spaces : Nat
  lexeme : Lexeme

/-- Lexemes in their order, each after its spaces, and the number of spaces at the end. -/
structure Writing where
  pieces : List Piece
  trailing : Nat

def Piece.text (p : Piece) : List Char := List.replicate p.spaces ' ' ++ p.lexeme.spelling

/-- Pieces written one after the other, and the spaces at the end. -/
def textOf (pieces : List Piece) (trailing : Nat) : List Char :=
  pieces.flatMap Piece.text ++ List.replicate trailing ' '

/-- The tokens of pieces that stand from `offset` on: each has the offset of the first character of
its lexeme. -/
def tokensOf (offset : Nat) : List Piece → List Token
  | [] => []
  | p :: more => ⟨p.lexeme, offset + p.spaces⟩ :: tokensOf (offset + p.text.length) more

def Writing.text (w : Writing) : List Char := textOf w.pieces w.trailing

def Writing.tokens (w : Writing) : List Token := tokensOf 0 w.pieces

/-- Two neighbours that touch are not both numbers and not both words. -/
def Piece.Apart (p q : Piece) : Prop :=
  q.spaces = 0 → ¬ (p.lexeme.kind = .number ∧ q.lexeme.kind = .number) ∧
    ¬ (p.lexeme.kind = .word ∧ q.lexeme.kind = .word)

/-- Pieces that read back as they are. -/
structure Readable (pieces : List Piece) : Prop where
  wellFormed : ∀ p ∈ pieces, p.lexeme.WellFormed
  apart : pieces.IsChain Piece.Apart

def Writing.Proper (w : Writing) : Prop := Readable w.pieces

theorem textOf_cons (p : Piece) (more : List Piece) (trailing : Nat) :
    textOf (p :: more) trailing =
      List.replicate p.spaces ' ' ++ (p.lexeme.spelling ++ textOf more trailing) := by
  simp [textOf, Piece.text]

theorem Piece.length_text (p : Piece) : p.text.length = p.spaces + p.lexeme.spelling.length := by
  simp [Piece.text]

@[simp] theorem map_lexeme_tokensOf (offset : Nat) (pieces : List Piece) :
    (tokensOf offset pieces).map Token.lexeme = pieces.map Piece.lexeme := by
  induction pieces generalizing offset with
  | nil => rfl
  | cons p more ih => rw [tokensOf, List.map_cons, List.map_cons, ih]

theorem tokensOf_append (offset : Nat) (pieces others : List Piece) :
    tokensOf offset (pieces ++ others) = tokensOf offset pieces ++
      tokensOf (offset + (pieces.flatMap Piece.text).length) others := by
  induction pieces generalizing offset with
  | nil => rfl
  | cons p more ih =>
      rw [List.cons_append, tokensOf, tokensOf, ih, List.cons_append, List.flatMap_cons,
        List.length_append, Nat.add_assoc]

theorem Readable.tail {p : Piece} {more : List Piece} (h : Readable (p :: more)) :
    Readable more :=
  ⟨fun q hq => h.wellFormed q (List.mem_cons_of_mem _ hq), h.apart.tail⟩

/-! ## Where a lexeme ends -/

/-- The first character of a lexeme is no space, and its class tells the kind. -/
theorem Lexeme.WellFormed.exists_first {x : Lexeme} (wf : x.WellFormed) :
    ∃ c more, x.spelling = c :: more ∧ c ≠ ' ' ∧ (isNumberPart c = true ↔ x.kind = .number) ∧
      (isLetter c = true ↔ x.kind = .word) := by
  cases x with
  | number digits =>
      obtain ⟨first, more, shape, digit, -⟩ := wf
      refine ⟨first, more, shape, ?_, ?_, ?_⟩
      · exact ne_of_class digit (by decide)
      · simp [isNumberPart, digit, Lexeme.kind]
      · simp [isLetter_eq_false_of_isDigit digit, Lexeme.kind]
  | word name =>
      obtain ⟨nonempty, letters⟩ := wf
      cases shape : name.toList with
      | nil => exact absurd (String.toList_eq_nil_iff.mp shape) nonempty
      | cons first more =>
          have letter : isLetter first = true := letters first (by simp [shape])
          refine ⟨first, more, shape, ?_, ?_, ?_⟩
          · exact ne_of_class letter (by decide)
          · simp [isNumberPart_eq_false_of_isLetter letter, Lexeme.kind]
          · simp [letter, Lexeme.kind]
  | quoted inner =>
      have noPart : isNumberPart '"' = false := by decide
      have noLetter : isLetter '"' = false := by decide
      exact ⟨'"', _, rfl, by decide, by simp [noPart, Lexeme.kind], by simp [noLetter, Lexeme.kind]⟩
  | symbol s =>
      refine ⟨s.char, [], rfl, ?_, ?_, ?_⟩
      · cases s <;> decide
      · simp [s.isNumberPart_char, Lexeme.kind]
      · simp [s.isLetter_char, Lexeme.kind]

theorem Lexeme.endsBefore_space (x : Lexeme) (after : List Char) :
    x.EndsBefore (' ' :: after) := by
  cases x with
  | number => intro c hc; cases hc; decide
  | word => intro c hc; cases hc; decide
  | quoted => trivial
  | symbol => trivial

theorem Lexeme.endsBefore_nil (x : Lexeme) : x.EndsBefore [] := by
  cases x with
  | number => intro c hc; cases hc
  | word => intro c hc; cases hc
  | quoted => trivial
  | symbol => trivial

/-- A lexeme ends before a piece exactly if the two are apart. -/
theorem endsBefore_text_iff {p q : Piece} (wf : q.lexeme.WellFormed) (after : List Char) :
    p.lexeme.EndsBefore (q.text ++ after) ↔ p.Apart q := by
  obtain ⟨c, rest, spelled, -, number, word⟩ := wf.exists_first
  rw [Piece.text, spelled, Piece.Apart]
  cases spaces : q.spaces with
  | succ n =>
      -- a space ends every lexeme, and pieces with a space between them are apart
      rw [List.replicate_succ, List.cons_append, List.cons_append]
      exact ⟨fun _ zero => absurd zero (Nat.succ_ne_zero n), fun _ => p.lexeme.endsBefore_space _⟩
  | zero =>
      rw [← number, ← word]
      cases p.lexeme with
      | number digits => simp [Lexeme.EndsBefore, Lexeme.kind]
      | word name => simp [Lexeme.EndsBefore, Lexeme.kind]
      | quoted inner => simp [Lexeme.EndsBefore, Lexeme.kind]
      | symbol s => simp [Lexeme.EndsBefore, Lexeme.kind]

theorem endsBefore_cons_iff {p q : Piece} {more : List Piece} {trailing : Nat}
    (wf : q.lexeme.WellFormed) :
    p.lexeme.EndsBefore (textOf (q :: more) trailing) ↔ p.Apart q := by
  rw [textOf, List.flatMap_cons, List.append_assoc]
  exact endsBefore_text_iff wf _

/-- A lexeme may stand in front of the pieces that it ends before. -/
theorem Readable.cons {p : Piece} {pieces : List Piece} {after : List Char} (h : Readable pieces)
    (wf : p.lexeme.WellFormed) (ends : p.lexeme.EndsBefore (pieces.flatMap Piece.text ++ after)) :
    Readable (p :: pieces) := by
  refine ⟨List.forall_mem_cons.mpr ⟨wf, h.wellFormed⟩, ?_⟩
  cases pieces with
  | nil => exact .singleton p
  | cons q later =>
      rw [List.flatMap_cons, List.append_assoc,
        endsBefore_text_iff (h.wellFormed q (by simp))] at ends
      exact .cons_cons ends h.apart

theorem endsBefore_trailing (p : Piece) (trailing : Nat) :
    p.lexeme.EndsBefore (textOf [] trailing) := by
  cases trailing with
  | zero => exact p.lexeme.endsBefore_nil
  | succ n => exact p.lexeme.endsBefore_space _

/-- The lexeme of a piece ends where the next piece or the end of the text begins. -/
theorem Readable.endsBefore {p : Piece} {more : List Piece} (h : Readable (p :: more))
    (trailing : Nat) : p.lexeme.EndsBefore (textOf more trailing) := by
  cases more with
  | nil => exact endsBefore_trailing p trailing
  | cons q later =>
      rw [endsBefore_cons_iff (h.wellFormed q (by simp))]
      exact (List.isChain_cons_cons.mp h.apart).1

/-! ## One pull -/

theorem takeWhile_spaces {spaces : Nat} {after : List Char} (stop : ' ' ∉ after.head?) :
    (List.replicate spaces ' ' ++ after).takeWhile (· = ' ') = List.replicate spaces ' ' := by
  refine takeWhile_append_of_head (by simp) fun c hc => ?_
  rw [decide_eq_false_iff_not]
  rintro rfl
  exact stop hc

theorem dropWhile_spaces {spaces : Nat} {after : List Char} (stop : ' ' ∉ after.head?) :
    (List.replicate spaces ' ' ++ after).dropWhile (· = ' ') = after := by
  refine dropWhile_append_of_head (by simp) fun c hc => ?_
  rw [decide_eq_false_iff_not]
  rintro rfl
  exact stop hc

theorem skipSpaces_replicate (spaces offset : Nat) {after : List Char} (stop : ' ' ∉ after.head?) :
    Lexer.skipSpaces ⟨List.replicate spaces ' ' ++ after, offset⟩ = ⟨after, offset + spaces⟩ := by
  rw [Lexer.skipSpaces, takeWhile_spaces stop, dropWhile_spaces stop, List.length_replicate]

/-- What a lexer skips is spaces, and no space is left in front. -/
theorem Lexer.exists_skipSpaces (l : Lexer) :
    ∃ spaces, l.rest = List.replicate spaces ' ' ++ l.skipSpaces.rest ∧
      l.skipSpaces.offset = l.offset + spaces := by
  refine ⟨(l.rest.takeWhile (· = ' ')).length, ?_, rfl⟩
  have spaces : l.rest.takeWhile (· = ' ') =
      List.replicate (l.rest.takeWhile (· = ' ')).length ' ' := by
    rw [List.eq_replicate_iff]
    exact ⟨rfl, fun c hc => by simpa using of_mem_takeWhile c hc⟩
  rw [← spaces]
  exact List.takeWhile_append_dropWhile.symm

/-- A pull reads the lexeme that a text begins with after its spaces. -/
theorem next_piece {p : Piece} {after : List Char} (offset : Nat) (wf : p.lexeme.WellFormed)
    (ends : p.lexeme.EndsBefore after) :
    Lexer.next ⟨List.replicate p.spaces ' ' ++ (p.lexeme.spelling ++ after), offset⟩ =
      (.token ⟨p.lexeme, offset + p.spaces⟩, ⟨after, offset + p.text.length⟩) := by
  obtain ⟨c, more, spelled, noSpace, -⟩ := wf.exists_first
  have stop : ' ' ∉ (p.lexeme.spelling ++ after).head? := by
    rw [spelled]
    simpa using noSpace
  rw [Lexer.next, skipSpaces_replicate _ _ stop, p.length_text, ← Nat.add_assoc]
  simp only [spelled, List.cons_append, scan_of_wellFormed wf ends spelled]

/-- A token that a pull gives stands, after some spaces, at the front of the text. -/
theorem Lexer.exists_piece_of_next {l after : Lexer} {t : Token} (h : l.next = (.token t, after)) :
    ∃ p : Piece, t = ⟨p.lexeme, l.offset + p.spaces⟩ ∧ p.lexeme.WellFormed ∧
      p.lexeme.EndsBefore after.rest ∧ after.offset = l.offset + p.text.length ∧
      l.rest = List.replicate p.spaces ' ' ++ (p.lexeme.spelling ++ after.rest) := by
  obtain ⟨spaces, whole, offset⟩ := l.exists_skipSpaces
  unfold Lexer.next at h
  dsimp only at h
  split at h
  · cases h
  · next c rest hr =>
      split at h
      · next x following hs =>
          cases h
          obtain ⟨wf, ends, spelled⟩ := scan_eq_ok_iff.mp hs
          refine ⟨⟨spaces, x⟩, by rw [offset], wf, ends, ?_, ?_⟩
          · rw [Piece.length_text, offset, Nat.add_assoc]
          · rw [whole, hr, ← spelled]
      · cases h

theorem next_trailing (trailing offset : Nat) :
    Lexer.next ⟨List.replicate trailing ' ', offset⟩ = (.done, ⟨[], offset + trailing⟩) := by
  have skipped : Lexer.skipSpaces ⟨List.replicate trailing ' ' ++ [], offset⟩ =
      ⟨[], offset + trailing⟩ := skipSpaces_replicate trailing offset (by simp)
  rw [List.append_nil] at skipped
  rw [Lexer.next, skipped]

theorem Lexer.exists_trailing_of_next {l after : Lexer} (h : l.next = (.done, after)) :
    ∃ trailing, l.rest = List.replicate trailing ' ' := by
  obtain ⟨spaces, whole, -⟩ := l.exists_skipSpaces
  unfold Lexer.next at h
  dsimp only at h
  split at h
  · next hr => exact ⟨spaces, by rw [whole, hr, List.append_nil]⟩
  · split at h <;> cases h

/-! ## All tokens -/

theorem Lexer.tokens_of_done {l after : Lexer} (h : l.next = (.done, after)) :
    l.tokens = .ok [] := by
  rw [Lexer.tokens]
  split <;> simp_all

theorem Lexer.tokens_of_token {l after : Lexer} {t : Token} (h : l.next = (.token t, after)) :
    l.tokens = after.tokens.map (t :: ·) := by
  rw [Lexer.tokens]
  split
  · simp_all
  · simp_all
  · next t' after' h' =>
      rw [h] at h'
      cases h'
      cases after.tokens <;> rfl

/-- Readable pieces are read back, each as the token it is. -/
theorem tokens_textOf {pieces : List Piece} (readable : Readable pieces) (trailing offset : Nat) :
    Lexer.tokens ⟨textOf pieces trailing, offset⟩ = .ok (tokensOf offset pieces) := by
  induction pieces generalizing offset with
  | nil => exact Lexer.tokens_of_done (next_trailing trailing offset)
  | cons p more ih =>
      have pulled := next_piece offset (readable.wellFormed p (by simp))
        (readable.endsBefore trailing)
      rw [textOf_cons, Lexer.tokens_of_token pulled, ih readable.tail]
      rfl

/-- A text that is read to its end is a writing of its tokens. -/
theorem Lexer.exists_readable_of_tokens {l : Lexer} {ts : List Token} (h : l.tokens = .ok ts) :
    ∃ pieces trailing, Readable pieces ∧ l.rest = textOf pieces trailing ∧
      tokensOf l.offset pieces = ts := by
  fun_induction Lexer.tokens l generalizing ts with
  | case1 l after hn =>
      cases h
      obtain ⟨trailing, whole⟩ := Lexer.exists_trailing_of_next hn
      exact ⟨[], trailing, ⟨by simp, .nil⟩, whole, rfl⟩
  | case2 => cases h
  | case3 l t after hn _ us hs ih =>
      cases h
      obtain ⟨p, token, wf, ends, offset, whole⟩ := Lexer.exists_piece_of_next hn
      obtain ⟨pieces, trailing, readable, rest, tokens⟩ := ih hs
      rw [rest] at ends
      refine ⟨p :: pieces, trailing, readable.cons wf ends, ?_, ?_⟩
      · rw [textOf_cons, whole, rest]
      · rw [tokensOf, token, ← tokens, offset]
  | case4 => cases h

/-! ## Reading and writing are inverse -/

/-- Tokens and their places determine the pieces. -/
theorem tokensOf_inj {offset : Nat} {pieces others : List Piece}
    (h : tokensOf offset pieces = tokensOf offset others) : pieces = others := by
  induction pieces generalizing offset others with
  | nil =>
      cases others with
      | nil => rfl
      | cons q later => cases h
  | cons p more ih =>
      cases others with
      | nil => cases h
      | cons q later =>
          rcases p with ⟨spaces, lexeme⟩
          rcases q with ⟨spaces', lexeme'⟩
          simp only [tokensOf, List.cons.injEq, Token.mk.injEq] at h
          obtain ⟨⟨rfl, place⟩, rest⟩ := h
          obtain rfl : spaces = spaces' := by omega
          rw [ih rest]

theorem tokenize_text {w : Writing} (proper : w.Proper) :
    tokenize (String.ofList w.text) = .ok w.tokens := by
  rw [tokenize, Lexer.read, String.toList_ofList]
  exact tokens_textOf proper w.trailing 0

theorem Writing.Proper.unique {v w : Writing} (hv : v.Proper) (hw : w.Proper)
    (h : v.text = w.text) : v = w := by
  have tokens : v.tokens = w.tokens := by
    have same := tokenize_text hv
    rw [h, tokenize_text hw] at same
    exact (Except.ok.inj same).symm
  rcases v with ⟨pieces, trailing⟩
  rcases w with ⟨others, trailing'⟩
  obtain rfl : pieces = others := tokensOf_inj tokens
  -- the tokens say nothing about the spaces at the end; the length of the text does
  have length := congrArg List.length h
  simp only [Writing.text, textOf, List.length_append, List.length_replicate] at length
  obtain rfl : trailing = trailing' := by omega
  rfl

/-- **Tokenizing is the inverse of writing out.** A text has the tokens `ts` exactly if it is a
proper writing of them, and no text has two proper writings. -/
theorem tokenize_eq_ok_iff :
    (∀ source ts, tokenize source = .ok ts ↔
      ∃ w : Writing, w.Proper ∧ w.text = source.toList ∧ w.tokens = ts) ∧
    ∀ v w : Writing, v.Proper → w.Proper → v.text = w.text → v = w := by
  refine ⟨fun source ts => ?_, fun v w => Writing.Proper.unique⟩
  constructor
  · intro h
    obtain ⟨pieces, trailing, readable, whole, tokens⟩ := Lexer.exists_readable_of_tokens h
    exact ⟨⟨pieces, trailing⟩, readable, whole.symm, tokens⟩
  · rintro ⟨w, proper, whole, rfl⟩
    rw [← tokenize_text proper, whole, String.ofList_toList]

end Reckoner
