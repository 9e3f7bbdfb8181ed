import Reckoner.Proofs.Parser.OnDemand

/-!
# Blanks between tokens

A lexer skips spaces and no other blanks, and no lexeme begins with one or goes on with one. So a
tab, a line break or a wide space ends the lexeme in front of it and is a fault where it stands
(`breaksAt_of_isBlank`). Whether the parser comes that far depends on the text in front
(`parse_of_breaksAt`). Around a text blanks do no harm, because they are stripped off.
-/

namespace Reckoner

open Reckoner.Text

/-! ## Stripping -/

namespace Text

/-- What is left of a text neither begins nor ends with a character that is trimmed. -/
theorem ends_trimmed (p : Char → Bool) (cs : List Char) :
    (∀ c ∈ (trimmed p cs).head?, p c = false) ∧
      ∀ c ∈ (trimmed p cs).getLast?, p c = false := by
  constructor
  · intro c first
    obtain ⟨more, begins⟩ := List.head?_eq_some_iff.mp first
    -- trimming at the end leaves a front of what trimming at the beginning has left
    have front : trimmed p cs <+: cs.dropWhile p := by
      rw [trimmed, ← List.reverse_suffix, List.reverse_reverse]
      exact List.dropWhile_suffix p
    obtain ⟨after, whole⟩ := front
    refine head_dropWhile_eq_false p cs c ?_
    rw [← whole, begins]
    rfl
  · intro c last
    rw [trimmed, List.getLast?_reverse] at last
    exact head_dropWhile_eq_false p _ c last

end Text

/-! ## Blanks are apart from lexemes -/

section

variable {c : Char}

theorem Symbol.isBlank_char (s : Symbol) : isBlank s.char = false := by
  cases s <;> decide

/-- Every lexeme ends before a blank. -/
theorem Lexeme.endsBefore_of_isBlank (x : Lexeme) {after : List Char}
    (blank : ∀ c ∈ after.head?, isBlank c = true) : x.EndsBefore after := by
  cases x with
  | number =>
      intro c first
      have isBlank := blank c first
      rw [isNumberPart, isDigit_eq_false_of_isBlank isBlank, Bool.false_or, beq_eq_false_iff_ne]
      exact ne_of_class isBlank (by decide)
  | word => exact fun c first => isLetter_eq_false_of_isBlank (blank c first)
  | quoted => trivial
  | symbol => trivial

/-- No lexeme begins with a blank. -/
theorem unreadable_of_isBlank (blank : isBlank c = true) (other : c ≠ ' ') (after : List Char) :
    Unreadable (c :: after) (.unknownCharacter c) (LexicalCause.unknownCharacter c).message 0 := by
  refine .unknownCharacter other (isDigit_eq_false_of_isBlank blank)
    (isLetter_eq_false_of_isBlank blank) ?_ fun s => ?_
  · exact ne_of_class blank (by decide)
  · exact ne_of_class blank s.isBlank_char

end

/-! ## Where a text breaks -/

section

variable {front behind : List Char} {c : Char} {ts : List Token}

/-- **A blank that is no space breaks a text where it stands**, if the text in front of it is read
to its end. -/
theorem breaksAt_of_isBlank (blank : isBlank c = true) (other : c ≠ ' ')
    (read : tokenize (String.ofList front) = .ok ts) :
    BreaksAt (String.ofList (front ++ c :: behind)) front (c :: behind)
      ⟨.unknownCharacter c, front.length⟩ := by
  obtain ⟨pieces, spaces, readable, text, tokens⟩ := Lexer.exists_readable_of_tokens read
  obtain rfl : front = textOf pieces spaces := String.toList_ofList.symm.trans text
  have ends (p : Piece) : p.lexeme.EndsBefore (List.replicate spaces ' ' ++ c :: behind) := by
    refine p.lexeme.endsBefore_of_isBlank fun d first => ?_
    cases spaces with
    | zero =>
        cases first
        exact blank
    | succ n =>
        cases first
        decide
  have pulled := Lexer.pulls_pieces readable (fun p _ => ends p) 0
  have unreadable := unreadable_of_isBlank blank other behind
  have stream := pulled.stream_eq
  rw [Lexer.stream_of_fault (Lexer.next_of_unreadable unreadable _ _), List.append_nil,
    ← List.append_assoc] at stream
  refine ⟨String.toList_ofList.symm, ?_, 0, unreadable, rfl⟩
  rw [read, Lexer.read, String.toList_ofList, textOf, stream]
  exact congrArg Except.ok tokens.symm

theorem BreaksAt.tokenize_eq {source : String} {f : LexicalFault}
    (h : BreaksAt source front behind f) : tokenize source = .error f := by
  rw [tokenize, Lexer.tokens_eq_stream, Lexer.stream_fault?_eq_some_iff.mpr ⟨_, _, h⟩]

/-- The fault of a text that breaks is met if the parser takes all tokens in front of it. Otherwise
the text in front decides. -/
theorem parse_of_breaksAt {source : String} {f : LexicalFault}
    (h : BreaksAt source front behind f) (read : tokenize (String.ofList front) = .ok ts) :
    (consumed (String.ofList front) = ts → parse source = .error (.lexical f)) ∧
      (consumed (String.ofList front) ≠ ts → parse source = parse (String.ofList front)) := by
  have fault := Lexer.stream_fault?_eq_some_iff.mpr ⟨_, _, h⟩
  have tokens : (Lexer.read source).stream.tokens = ts := Except.ok.inj (h.read.symm.trans read)
  rw [Ne, consumed_eq_iff read, parse_eq_readStream source, fault, tokens]
  constructor
  · intro all
    obtain ⟨last, led⟩ := Option.isSome_iff_exists.mp all
    exact Parser.readStream_of_take? led _ f
  · intro left
    have refused : Parser.State.start.take? ts = none := by simpa using left
    have agree := Parser.readStream_append refused source.length (String.ofList front).length
      (some f) none [] []
    rw [List.append_nil] at agree
    rw [agree, parse_of_tokenize read]

end

end Reckoner
