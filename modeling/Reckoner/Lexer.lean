import Reckoner.Text.Digit
import Reckoner.Text.Letter
import Reckoner.Token

/-!
# The lexer

A lexer is a place in a text: what is left of it, and how far it stands from the start. Each pull
skips spaces, and only spaces, and takes the lexeme that begins there: a symbol; a digit with all
digits and points after it; a quote up to the next quote; or a run of letters. A pull that finds no
lexeme leaves the lexer where the fault is, so that every later pull finds it again.
-/

namespace Reckoner

open Reckoner.Text

/-! ## Faults -/

/-- Why no lexeme begins at a place. -/
inductive LexicalCause
  | secondPoint
  | openQuote
  | unknownCharacter (c : Char)
deriving DecidableEq, Repr

def LexicalCause.message : LexicalCause → String
  | .secondPoint => "Invalid number format: multiple decimal points"
  | .openQuote => "Unterminated string"
  | .unknownCharacter c => "Unknown character: " ++ quoted c.toString

structure LexicalFault where
  cause : LexicalCause
  position : Nat
deriving DecidableEq, Repr

/-! ## One lexeme -/

/-- The offset of the second point of a run of digits and points, if there is one. -/
def secondPoint? (run : List Char) : Option Nat :=
  let whole := run.takeWhile (· ≠ '.')
  let fraction := (run.dropWhile (· ≠ '.')).drop 1
  if '.' ∈ fraction then some (whole.length + 1 + (fraction.takeWhile (· ≠ '.')).length) else none

/-- Digits of any script and the decimal point. -/
def isNumberPart (c : Char) : Bool := isDigit c || c == '.'

/-- The lexeme at the front of a text that begins with `c`, and what follows it. A fault comes with
its distance from `c`. -/
def scan (c : Char) (rest : List Char) : Except (LexicalCause × Nat) (Lexeme × List Char) :=
  match Symbol.ofChar? c with
  | some s => .ok (.symbol s, rest)
  | none =>
      if isDigit c then
        let run := c :: rest.takeWhile isNumberPart
        match secondPoint? run with
        | some k => .error (.secondPoint, k)
        | none => .ok (.number (String.ofList run), rest.dropWhile isNumberPart)
      else if c = '"' then
        match rest.dropWhile (· ≠ '"') with
        | [] => .error (.openQuote, 0)
        | _ :: afterQuote => .ok (.quoted (String.ofList (rest.takeWhile (· ≠ '"'))), afterQuote)
      else if isLetter c then
        .ok (.word (String.ofList (c :: rest.takeWhile isLetter)), rest.dropWhile isLetter)
      else .error (.unknownCharacter c, 0)

/-- A lexeme begins with the character it was found at, and with what follows it makes up the whole
text: nothing is dropped or added. -/
theorem exists_spelling_of_scan {c : Char} {rest after : List Char} {x : Lexeme}
    (h : scan c rest = .ok (x, after)) :
    ∃ more, x.spelling = c :: more ∧ more ++ after = rest := by
  unfold scan at h
  split at h
  · next s hs =>
    cases h
    exact ⟨[], by simp [Lexeme.spelling, Symbol.char_of_ofChar? hs], rfl⟩
  · split at h
    · dsimp only at h
      split at h
      · cases h
      · cases h
        exact ⟨_, by simp [Lexeme.spelling], List.takeWhile_append_dropWhile⟩
    · split at h
      · next hq =>
        split at h
        · cases h
        · next q afterQuote hd =>
          cases h
          have isQuote : q = '"' := by
            have := List.head?_dropWhile_not (fun x : Char => decide (x ≠ '"')) rest
            rw [hd] at this
            simpa using this
          refine ⟨rest.takeWhile (· ≠ '"') ++ ['"'], by simp [Lexeme.spelling, hq], ?_⟩
          have whole := List.takeWhile_append_dropWhile (p := fun x => decide (x ≠ '"')) (l := rest)
          rw [hd, isQuote] at whole
          rw [List.append_assoc]
          exact whole
      · split at h
        · cases h
          exact ⟨_, by simp [Lexeme.spelling], List.takeWhile_append_dropWhile⟩
        · cases h

theorem spelling_append_of_scan {c : Char} {rest after : List Char} {x : Lexeme}
    (h : scan c rest = .ok (x, after)) : x.spelling ++ after = c :: rest := by
  rcases exists_spelling_of_scan h with ⟨more, spelled, whole⟩
  rw [spelled, List.cons_append, whole]

/-! ## The cursor -/

/-- A place in a text: the characters from there on, and the number of those before. -/
structure Lexer where
  rest : List Char
  offset : Nat
deriving DecidableEq, Repr

/-- A lexer that was given no text yet. -/
def Lexer.empty : Lexer := ⟨[], 0⟩

/-- The lexer at the start of a text. -/
def Lexer.read (source : String) : Lexer := ⟨source.toList, 0⟩

/-- What a pull gives. -/
inductive Pull
  | done
  | token (t : Token)
  | fault (f : LexicalFault)
deriving DecidableEq, Repr

/-- The lexer past the spaces at its place. -/
def Lexer.skipSpaces (l : Lexer) : Lexer :=
  ⟨l.rest.dropWhile (· = ' '), l.offset + (l.rest.takeWhile (· = ' ')).length⟩

/-- One pull: the next token, and the lexer after it. -/
def Lexer.next (l : Lexer) : Pull × Lexer :=
  let here := l.skipSpaces
  match here.rest with
  | [] => (.done, here)
  | c :: rest =>
      match scan c rest with
      | .ok (x, after) => (.token ⟨x, here.offset⟩, ⟨after, here.offset + x.spelling.length⟩)
      | .error (cause, distance) => (.fault ⟨cause, here.offset + distance⟩, here)

theorem Lexer.length_skipSpaces_le (l : Lexer) : l.skipSpaces.rest.length ≤ l.rest.length :=
  (List.dropWhile_sublist _).length_le

/-- A pull takes the spelling of its token, and any spaces before it, off the text. -/
theorem Lexer.length_next {l after : Lexer} {t : Token} (h : l.next = (.token t, after)) :
    after.rest.length + t.lexeme.spelling.length ≤ l.rest.length ∧
      0 < t.lexeme.spelling.length := by
  have shorter := l.length_skipSpaces_le
  unfold Lexer.next at h
  dsimp only at h
  split at h
  · cases h
  · next c rest hr =>
    split at h
    · next x following hs =>
      cases h
      rcases exists_spelling_of_scan hs with ⟨more, spelled, whole⟩
      rw [hr, ← whole] at shorter
      simp only [spelled, List.length_cons, List.length_append] at shorter ⊢
      omega
    · cases h

theorem Lexer.length_next_lt {l after : Lexer} {t : Token} (h : l.next = (.token t, after)) :
    after.rest.length < l.rest.length := by
  have := Lexer.length_next h
  omega

/-! ## All tokens -/

/-- All tokens from a place on, or the first fault. -/
def Lexer.tokens (l : Lexer) : Except LexicalFault (List Token) :=
  match h : l.next with
  | (.done, _) => .ok []
  | (.fault f, _) => .error f
  | (.token t, after) =>
      have := Lexer.length_next_lt h
      match after.tokens with
      | .ok ts => .ok (t :: ts)
      | .error f => .error f
termination_by l.rest.length

/-- All tokens of a text, or its first lexical fault. -/
def tokenize (source : String) : Except LexicalFault (List Token) := (Lexer.read source).tokens

end Reckoner
