/-!
# Sets of code points as sorted ranges

A character property is a table of ranges, both ends included, in rising order. A search walks the
table and stops at the first range that begins past the code point.
-/

namespace Reckoner.Text

/-- Ranges of code points, first and last included, in rising order and disjoint. -/
abbrev Ranges := List (Nat × Nat)

/-- Whether the code point `n` lies in one of the ranges. -/
def Ranges.covers : Ranges → Nat → Bool
  | [], _ => false
  | (first, last) :: later, n =>
      if n < first then false else n ≤ last || covers later n

/-- What the search finds is there: the code point lies between the ends of a listed range. -/
theorem Ranges.exists_mem_of_covers {table : Ranges} {n : Nat} (h : table.covers n = true) :
    ∃ r ∈ table, r.1 ≤ n ∧ n ≤ r.2 := by
  induction table with
  | nil => simp [covers] at h
  | cons r later ih =>
    rcases r with ⟨first, last⟩
    by_cases below : n < first
    · simp [covers, below] at h
    · by_cases inside : n ≤ last
      · exact ⟨(first, last), by simp, by omega, inside⟩
      · simp [covers, below, inside] at h
        rcases ih h with ⟨r, mem, bounds⟩
        exact ⟨r, by simp [mem], bounds⟩

end Reckoner.Text
