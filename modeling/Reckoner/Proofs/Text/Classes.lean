import Reckoner.Text.Blank
import Reckoner.Text.Digit
import Reckoner.Text.Letter

/-!
# Digits, letters and blanks are apart

The class of a first character decides what kind of lexeme begins there, so the classes have to be
disjoint over all of Unicode. Digits and letters are tables in rising order, and one pass along the
two side by side settles it. The blanks are few enough to be asked one by one.
-/

namespace Reckoner.Text

/-! ## Digits and letters -/

/-- Whether no run of ten code points from a listed zero on meets a range. Ranges that end before a
zero are left behind: the later zeros are larger. -/
def apart : List Nat → Ranges → Bool
  | [], _ => true
  | first :: later, table =>
      let onward := table.dropWhile (·.2 < first)
      onward.head?.all (first + 10 ≤ ·.1) && apart later onward

theorem zeros_apart_letterRanges : apart zeros letterRanges = true := by
  decide +kernel

/-- Ranges that end before a code point do not matter to the search for it. -/
theorem covers_dropWhile {n bound : Nat} (le : bound ≤ n) (table : Ranges)
    (h : table.covers n = true) : Ranges.covers (table.dropWhile (·.2 < bound)) n = true := by
  induction table with
  | nil => exact h
  | cons r later ih =>
      obtain ⟨first, last⟩ := r
      by_cases below : last < bound
      · rw [List.dropWhile_cons_of_pos (by simpa using below)]
        rw [Ranges.covers] at h
        split at h
        · cases h
        · have past : ¬ n ≤ last := by omega
          exact ih (by simpa [past] using h)
      · rw [List.dropWhile_cons_of_neg (by simpa using below)]
        exact h

theorem covers_eq_false_of_apart {zeros : List Nat} {table : Ranges} {n d : Nat}
    (h : apart zeros table = true) (hd : digitAmong n zeros = some d) :
    table.covers n = false := by
  refine Bool.eq_false_iff.mpr fun covered => ?_
  induction zeros generalizing table with
  | nil => simp [digitAmong] at hd
  | cons first later ih =>
      rw [apart, Bool.and_eq_true] at h
      rw [digitAmong] at hd
      split at hd
      · simp at hd
      · next notBelow =>
          have onward := covers_dropWhile (Nat.not_lt.mp notBelow) table covered
          split at hd
          · next inside =>
              -- the first range left begins past the run of ten
              obtain ⟨apartHere, -⟩ := h
              cases rest : table.dropWhile (·.2 < first) with
              | nil => rw [rest] at onward; simp [Ranges.covers] at onward
              | cons r more =>
                  rw [rest] at onward apartHere
                  have begins : first + 10 ≤ r.1 := by simpa using apartHere
                  have below : n < r.1 := by omega
                  simp [Ranges.covers, below] at onward
          · exact ih h.2 hd onward

theorem isLetter_eq_false_of_isDigit {c : Char} (h : isDigit c = true) : isLetter c = false := by
  obtain ⟨d, hd⟩ := Option.isSome_iff_exists.mp h
  exact covers_eq_false_of_apart zeros_apart_letterRanges hd

theorem isDigit_eq_false_of_isLetter {c : Char} (h : isLetter c = true) : isDigit c = false := by
  refine Bool.eq_false_iff.mpr fun digit => ?_
  rw [isLetter_eq_false_of_isDigit digit] at h
  cases h

/-! ## Blanks -/

/-- What holds of all code points in the ranges holds of every code point they cover. -/
theorem Ranges.of_covers {table : Ranges} {p : Nat → Bool}
    (each : table.all fun r => (List.range' r.1 (r.2 + 1 - r.1)).all p) {n : Nat}
    (h : table.covers n = true) : p n = true := by
  obtain ⟨r, mem, bounds⟩ := Ranges.exists_mem_of_covers h
  refine List.all_eq_true.mp (List.all_eq_true.mp each r mem) n ?_
  rw [List.mem_range'_1]
  omega

section

variable {c : Char}

theorem isLetter_eq_false_of_isBlank (h : isBlank c = true) : isLetter c = false := by
  have apart : (!letterRanges.covers c.toNat) = true :=
    Ranges.of_covers (p := fun n => !letterRanges.covers n) (by decide +kernel) h
  rwa [Bool.not_eq_true'] at apart

theorem isDigit_eq_false_of_isBlank (h : isBlank c = true) : isDigit c = false := by
  have apart : (digitAmong c.toNat zeros).isNone = true :=
    Ranges.of_covers (p := fun n => (digitAmong n zeros).isNone) (by decide +kernel) h
  rw [isDigit, digitValue?, Option.isNone_iff_eq_none.mp apart]
  rfl

end

end Reckoner.Text
