import Reckoner.Text.Letter
import Reckoner.Text.Quoted
import Reckoner.Proofs.Json.Layout

/-!
# Texts on one line

Unicode has ten characters that end a line. Letters, printable ASCII and all characters that count
as printable are none of them, so a text between marks stands on one line whatever it holds
(`onOneLine_quoted`). A text that is put together from parts is on one line if its parts are.
-/

namespace Reckoner

open Json

namespace Text

/-- The characters at which a text falls into lines. -/
def lineEnds : List Char :=
  ['\n', '\x0b', '\x0c', '\r', '\x1c', '\x1d', '\x1e', '\u0085', '\u2028', '\u2029']

/-- A class without line ends. -/
theorem not_mem_lineEnds {p : Char → Bool} (apart : lineEnds.all (!p ·) = true) {c : Char}
    (h : p c = true) : c ∉ lineEnds := by
  intro mem
  have outside := List.all_eq_true.mp apart c mem
  rw [h] at outside
  cases outside

theorem not_mem_lineEnds_of_inAscii {c : Char} (h : InAscii c) : c ∉ lineEnds :=
  not_mem_lineEnds (p := fun d => decide (InAscii d)) (by decide) (decide_eq_true h)

theorem not_mem_lineEnds_of_isPrintable {c : Char} (h : isPrintable c = true) : c ∉ lineEnds :=
  not_mem_lineEnds (by decide +kernel) h

theorem not_mem_lineEnds_of_isLetter {c : Char} (h : isLetter c = true) : c ∉ lineEnds :=
  not_mem_lineEnds (by decide +kernel) h

end Text

open Text

/-- No character of the text ends a line. -/
def OnOneLine (s : String) : Prop := ∀ c ∈ s.toList, c ∉ lineEnds

instance (s : String) : Decidable (OnOneLine s) :=
  List.decidableBAll (· ∉ lineEnds) s.toList

theorem OnOneLine.append {s t : String} (hs : OnOneLine s) (ht : OnOneLine t) :
    OnOneLine (s ++ t) := by
  intro c hc
  rw [String.toList_append] at hc
  rcases List.mem_append.mp hc with mem | mem
  · exact hs c mem
  · exact ht c mem

/-! ## Parts of messages -/

theorem onOneLine_text (x : Float) : OnOneLine (Number.text x) :=
  fun c hc => not_mem_lineEnds_of_inAscii (inAscii_of_isTextual (Number.isTextual_text x c hc))

theorem onOneLine_toString (n : Nat) : OnOneLine (toString n) := by
  intro c hc
  have digit : c.isDigit = true := by
    rw [Nat.toString_eq_repr, Nat.toList_repr] at hc
    exact Number.isDigit_of_mem_toDigits c hc
  exact not_mem_lineEnds_of_inAscii (inAscii_of_isTextual (Number.isTextual_of_isDigit digit))

/-- A backslash and one more character. -/
theorem inAscii_pair {c : Char} (ascii : InAscii c) : ∀ d ∈ ['\\', c], InAscii d := by
  rw [List.forall_mem_cons, List.forall_mem_singleton]
  exact ⟨by decide, ascii⟩

/-- A code point behind a backslash and a letter. -/
theorem inAscii_codePoint {letter : Char} (ascii : InAscii letter) (width n : Nat) :
    ∀ d ∈ '\\' :: letter :: hex width n, InAscii d := by
  rw [List.forall_mem_cons, List.forall_mem_cons]
  exact ⟨by decide, ascii, inAscii_hex width n⟩

/-- A character between marks is printable, or it is written in printable ASCII. -/
theorem escaped_eq_or_inAscii {mark : Char} (ascii : InAscii mark) (c : Char) :
    Text.escaped mark c = [c] ∧ isPrintable c = true ∨
      ∀ d ∈ Text.escaped mark c, InAscii d := by
  rw [Text.escaped]
  split
  · next stands =>
      refine .inr ?_
      rcases stands with rfl | rfl
      · exact inAscii_pair ascii
      · exact inAscii_pair (by decide)
  · split
    · exact .inr (inAscii_pair (by decide))
    · split
      · exact .inr (inAscii_pair (by decide))
      · split
        · exact .inr (inAscii_pair (by decide))
        · split
          · next printable => exact .inl ⟨rfl, printable⟩
          · split
            · exact .inr (inAscii_codePoint (by decide) 2 _)
            · split
              · exact .inr (inAscii_codePoint (by decide) 4 _)
              · exact .inr (inAscii_codePoint (by decide) 8 _)

theorem inAscii_quoteMark (cs : List Char) : InAscii (quoteMark cs) := by
  rw [quoteMark]
  split <;> decide

/-- **A text between marks is on one line, whatever it holds.** -/
theorem onOneLine_quoted (s : String) : OnOneLine (quoted s) := by
  have mark := inAscii_quoteMark s.toList
  intro c hc
  rw [quoted, String.toList_ofList, List.cons_append, List.mem_cons, List.mem_append,
    List.mem_singleton, List.mem_flatMap] at hc
  rcases hc with rfl | ⟨d, -, mem⟩ | rfl
  · exact not_mem_lineEnds_of_inAscii mark
  · rcases escaped_eq_or_inAscii mark d with ⟨itself, printable⟩ | ascii
    · rw [itself, List.mem_singleton] at mem
      rw [mem]
      exact not_mem_lineEnds_of_isPrintable printable
    · exact not_mem_lineEnds_of_inAscii (ascii c mem)
  · exact not_mem_lineEnds_of_inAscii mark

end Reckoner
