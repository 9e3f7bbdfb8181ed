import Reckoner.Text.Ranges

/-!
# Blank characters

Blanks stand around a text and are no part of it: spaces of every width, line and page breaks, and
the four information separators.
-/

namespace Reckoner.Text

/-- The code points that count as blank. -/
def blankRanges : Ranges :=
  [(0x9, 0xd), (0x1c, 0x20), (0x85, 0x85), (0xa0, 0xa0), (0x1680, 0x1680), (0x2000, 0x200a),
   (0x2028, 0x2029), (0x202f, 0x202f), (0x205f, 0x205f), (0x3000, 0x3000)]

def isBlank (c : Char) : Bool := blankRanges.covers c.toNat

/-- The text without the characters of a class at its two ends; what stands inside is kept. -/
def trimmed (p : Char → Bool) (cs : List Char) : List Char :=
  ((cs.dropWhile p).reverse.dropWhile p).reverse

/-- The text without the blanks at its two ends. -/
def strip (s : String) : String := String.ofList (trimmed isBlank s.toList)

/-- The text between the two ends is a stretch of the whole, with only the class around it. -/
theorem exists_append_trimmed (p : Char → Bool) (cs : List Char) :
    ∃ before after, cs = before ++ trimmed p cs ++ after ∧
      before.all p = true ∧ after.all p = true := by
  refine ⟨cs.takeWhile p, (((cs.dropWhile p).reverse.takeWhile p)).reverse, ?_, ?_, ?_⟩
  · rw [trimmed, List.append_assoc, ← List.reverse_append, List.takeWhile_append_dropWhile,
      List.reverse_reverse, List.takeWhile_append_dropWhile]
  · exact List.all_takeWhile
  · rw [List.all_reverse]
    exact List.all_takeWhile

end Reckoner.Text
