import Reckoner.Lexer
import Reckoner.Proofs.Text.Classes
import Reckoner.Proofs.Text.Runs

/-!
# What one pull takes off a text

A lexeme is read where a text begins with its spelling and does not go on with characters that the
lexeme would swallow: digits and points after a number, letters after a word. `scan_eq_ok_iff` says
that the scanner reads exactly these.
-/

namespace Reckoner

open Reckoner.Text

/-! ## Well-formed lexemes -/

/-- A number is a digit followed by digits and at most one point; a word is a run of letters, at
least one; a quoted text has no quote inside. -/
def Lexeme.WellFormed : Lexeme → Prop
  | .number digits =>
      ∃ first more, digits.toList = first :: more ∧ isDigit first = true ∧
        (∀ c ∈ more, isDigit c = true ∨ c = '.') ∧ more.count '.' ≤ 1
  | .word name => name ≠ "" ∧ ∀ c ∈ name.toList, isLetter c = true
  | .quoted inner => '"' ∉ inner.toList
  | .symbol _ => True

/-- The text that follows a lexeme does not begin with a character that belongs to it. -/
def Lexeme.EndsBefore : Lexeme → List Char → Prop
  | .number _, after => ∀ c ∈ after.head?, isNumberPart c = false
  | .word _, after => ∀ c ∈ after.head?, isLetter c = false
  | .quoted _, _ => True
  | .symbol _, _ => True

/-! ## The class of a first character -/

theorem Symbol.isDigit_char (s : Symbol) : isDigit s.char = false := by
  cases s <;> decide

theorem Symbol.isLetter_char (s : Symbol) : isLetter s.char = false := by
  cases s <;> decide

theorem Symbol.isNumberPart_char (s : Symbol) : isNumberPart s.char = false := by
  cases s <;> decide

theorem isNumberPart_eq_false_of_isLetter {c : Char} (h : isLetter c = true) :
    isNumberPart c = false := by
  rw [isNumberPart, isDigit_eq_false_of_isLetter h, Bool.false_or, beq_eq_false_iff_ne]
  exact ne_of_class h (by decide)

theorem Symbol.ofChar?_of_isDigit {c : Char} (h : isDigit c = true) :
    Symbol.ofChar? c = none := by
  rw [Option.eq_none_iff_forall_ne_some]
  intro s hs
  rw [← Symbol.char_of_ofChar? hs, Symbol.isDigit_char] at h
  cases h

theorem Symbol.ofChar?_of_isLetter {c : Char} (h : isLetter c = true) :
    Symbol.ofChar? c = none := by
  rw [Option.eq_none_iff_forall_ne_some]
  intro s hs
  rw [← Symbol.char_of_ofChar? hs, Symbol.isLetter_char] at h
  cases h

/-! ## Runs of digits and points -/

/-- A run has a second point exactly if it has more than one point. -/
theorem secondPoint?_eq_none_iff {run : List Char} :
    secondPoint? run = none ↔ run.count '.' ≤ 1 := by
  have whole : (run.takeWhile (· ≠ '.')).count '.' = 0 := by
    rw [List.count_eq_zero]
    intro mem
    simpa using of_mem_takeWhile _ mem
  have split := List.takeWhile_append_dropWhile (p := fun x => decide (x ≠ '.')) (l := run)
  have total : run.count '.' = (run.dropWhile (· ≠ '.')).count '.' := by
    rw [← split, List.count_append, whole, split, Nat.zero_add]
  simp only [secondPoint?]
  cases rest : run.dropWhile (· ≠ '.') with
  | nil =>
      rw [total, rest]
      simp
  | cons point fraction =>
      have isPoint : point = '.' := by
        have stop := head_dropWhile_eq_false (fun x => decide (x ≠ '.')) run point
        rw [rest] at stop
        simpa using stop rfl
      subst isPoint
      rw [total, rest, List.count_cons_self, List.drop_succ_cons, List.drop_zero]
      by_cases again : '.' ∈ fraction
      · have := List.count_pos_iff.mpr again
        simp only [again, if_true, reduceCtorEq, false_iff]
        omega
      · simp [again, List.count_eq_zero_of_not_mem again]

theorem mem_isNumberPart_iff {c : Char} : isNumberPart c = true ↔ isDigit c = true ∨ c = '.' := by
  simp [isNumberPart]

theorem isDigit_ne_point {c : Char} (h : isDigit c = true) : c ≠ '.' :=
  ne_of_class h (by decide)

/-! ## The scanner -/

theorem scan_symbol (s : Symbol) (after : List Char) :
    scan s.char after = .ok (.symbol s, after) := by
  rw [scan, Symbol.ofChar?_char]

theorem scan_number {first : Char} {more after : List Char} (digit : isDigit first = true)
    (inside : ∀ c ∈ more, isNumberPart c = true) (points : more.count '.' ≤ 1)
    (stop : ∀ c ∈ after.head?, isNumberPart c = false) :
    scan first (more ++ after) = .ok (.number (String.ofList (first :: more)), after) := by
  have noSecond : secondPoint? (first :: more) = none := by
    rw [secondPoint?_eq_none_iff, List.count_cons_of_ne (isDigit_ne_point digit)]
    exact points
  simp only [scan, Symbol.ofChar?_of_isDigit digit, digit, if_true,
    takeWhile_append_of_head inside stop, dropWhile_append_of_head inside stop, noSecond]

theorem scan_quoted {inner after : List Char} (closed : '"' ∉ inner) :
    scan '"' (inner ++ '"' :: after) = .ok (.quoted (String.ofList inner), after) := by
  have inside : ∀ c ∈ inner, decide (c ≠ '"') = true := by
    intro c hc
    rw [decide_eq_true_eq]
    rintro rfl
    exact closed hc
  have stop : ∀ c ∈ ('"' :: after).head?, decide (c ≠ '"') = false := by simp
  have noDigit : isDigit '"' = false := by decide
  have noSymbol : Symbol.ofChar? '"' = none := rfl
  simp only [scan, noSymbol, noDigit, takeWhile_append_of_head inside stop,
    dropWhile_append_of_head inside stop, if_true, Bool.false_eq_true, if_false]

theorem scan_word {first : Char} {more after : List Char} (letter : isLetter first = true)
    (inside : ∀ c ∈ more, isLetter c = true) (stop : ∀ c ∈ after.head?, isLetter c = false) :
    scan first (more ++ after) = .ok (.word (String.ofList (first :: more)), after) := by
  have noQuote : first ≠ '"' := ne_of_class letter (by decide)
  simp only [scan, Symbol.ofChar?_of_isLetter letter, isDigit_eq_false_of_isLetter letter, letter,
    noQuote, takeWhile_append_of_head inside stop, dropWhile_append_of_head inside stop, if_true,
    if_false, Bool.false_eq_true]

/-- A well-formed lexeme is read off the front of every text that it ends in. -/
theorem scan_of_wellFormed {x : Lexeme} {c : Char} {more after : List Char} (wf : x.WellFormed)
    (ends : x.EndsBefore after) (spelled : x.spelling = c :: more) :
    scan c (more ++ after) = .ok (x, after) := by
  cases x with
  | number digits =>
      obtain ⟨first, tail, shape, digit, inside, points⟩ := wf
      rw [Lexeme.spelling, shape] at spelled
      cases spelled
      rw [scan_number digit (fun d hd => mem_isNumberPart_iff.mpr (inside d hd)) points ends,
        ← shape, String.ofList_toList]
  | word name =>
      obtain ⟨-, letters⟩ := wf
      rw [Lexeme.spelling] at spelled
      rw [spelled] at letters
      rw [scan_word (letters c (by simp)) (fun d hd => letters d (by simp [hd])) ends, ← spelled,
        String.ofList_toList]
  | quoted inner =>
      cases spelled
      show scan '"' (inner.toList ++ ['"'] ++ after) = _
      rw [List.append_assoc, List.singleton_append, scan_quoted wf, String.ofList_toList]
  | symbol s =>
      cases spelled
      exact scan_symbol s after

/-- What the scanner reads is well-formed, and nothing that belongs to it is left behind. -/
theorem wellFormed_of_scan {c : Char} {rest after : List Char} {x : Lexeme}
    (h : scan c rest = .ok (x, after)) : x.WellFormed ∧ x.EndsBefore after := by
  unfold scan at h
  -- the scanner asks for a symbol, a digit, a quote and a letter, in this order
  split at h
  · cases h
    exact ⟨trivial, trivial⟩
  · split at h
    · next digit =>
        dsimp only at h
        split at h
        · cases h
        · next points =>
            cases h
            rw [secondPoint?_eq_none_iff, List.count_cons_of_ne (isDigit_ne_point digit)] at points
            refine ⟨⟨c, _, String.toList_ofList, digit, ?_, points⟩, head_dropWhile_eq_false _ _⟩
            exact fun d hd => mem_isNumberPart_iff.mp (of_mem_takeWhile d hd)
    · split at h
      · split at h
        · cases h
        · cases h
          refine ⟨?_, trivial⟩
          rw [Lexeme.WellFormed, String.toList_ofList]
          intro mem
          simpa using of_mem_takeWhile _ mem
      · split at h
        · next letter =>
            cases h
            refine ⟨⟨?_, ?_⟩, head_dropWhile_eq_false _ _⟩
            · rw [← String.ofList_nil, Ne, String.ofList_inj]
              exact List.cons_ne_nil _ _
            · rw [String.toList_ofList, List.forall_mem_cons]
              exact ⟨letter, of_mem_takeWhile⟩
        · cases h

/-- **The scanner, exactly.** It reads the well-formed lexemes that the text begins with and that
end where it goes on. -/
theorem scan_eq_ok_iff {c : Char} {rest after : List Char} {x : Lexeme} :
    scan c rest = .ok (x, after) ↔
      x.WellFormed ∧ x.EndsBefore after ∧ x.spelling ++ after = c :: rest := by
  constructor
  · intro h
    obtain ⟨wf, ends⟩ := wellFormed_of_scan h
    exact ⟨wf, ends, spelling_append_of_scan h⟩
  · rintro ⟨wf, ends, whole⟩
    cases spelled : x.spelling with
    | nil =>
        -- no well-formed lexeme is empty
        exfalso
        cases x with
        | number digits => obtain ⟨first, tail, shape, -⟩ := wf; simp_all [Lexeme.spelling]
        | word name => simp_all [Lexeme.spelling, Lexeme.WellFormed]
        | quoted inner => cases spelled
        | symbol s => cases spelled
    | cons first more =>
        rw [spelled, List.cons_append] at whole
        cases whole
        exact scan_of_wellFormed wf ends spelled

end Reckoner
