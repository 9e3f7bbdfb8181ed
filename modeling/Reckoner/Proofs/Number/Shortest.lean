import Mathlib.Order.Monotone.Basic
import Reckoner.Number.Shortest

/-!
# The decimal that is found rounds back

The magnitudes that patterns stand for grow with the patterns, so the intervals of decimals that
round to them follow each other and meet at their ends at most. An end belongs to the interval of
the even pattern, and of two neighbours only one is even: no decimal rounds to two patterns
(`eq_of_roundsTo`). Every interval is wide enough for a point of the finest grid, so the search
always ends with a decimal that rounds to its pattern (`exists_shortest`).
-/

namespace Reckoner.Number

/-! ## Magnitudes grow with their patterns -/

theorem units_lt_units_succ (b : Nat) : units b < units (b + 1) := by
  have positive : 0 < Nat.pow 2 52 := Nat.pow_pos (by decide)
  simp only [units]
  generalize Nat.pow 2 52 = step at positive
  by_cases subnormal : b + 1 < step
  · rw [if_pos (by omega), if_pos subnormal]
    exact Nat.lt_succ_self b
  · rw [if_neg subnormal]
    by_cases last : b < step
    · -- from the last subnormal magnitude to the first normal one
      obtain rfl : step = b + 1 := by omega
      simp [Nat.div_self]
    · rw [if_neg last]
      have whole := Nat.div_add_mod b step
      have inside := Nat.mod_lt b positive
      have normal : 0 < b / step := Nat.div_pos (Nat.not_lt.mp last) positive
      by_cases carries : b % step + 1 = step
      · -- the next power of two
        have next : b + 1 = step * (b / step + 1) := by rw [Nat.mul_add]; omega
        obtain ⟨e, he⟩ := Nat.exists_eq_succ_of_ne_zero normal.ne'
        have grows : Nat.pow 2 (e + 1) = 2 * Nat.pow 2 e := Nat.pow_succ'
        have power : 0 < Nat.pow 2 e := Nat.pow_pos (by decide)
        rw [next, Nat.mul_mod_right, Nat.mul_div_cancel_left _ positive, Nat.add_zero,
          Nat.add_sub_cancel, he, Nat.succ_sub_one, Nat.succ_eq_add_one, grows, ← Nat.mul_assoc]
        exact Nat.mul_lt_mul_of_pos_right (by omega) power
      · have next : b + 1 = step * (b / step) + (b % step + 1) := by omega
        have rest : b % step + 1 < step := by omega
        have power : 0 < Nat.pow 2 (b / step - 1) := Nat.pow_pos (by decide)
        rw [next, Nat.mul_add_mod, Nat.mod_eq_of_lt rest, Nat.mul_add_div positive,
          Nat.div_eq_of_lt rest, Nat.add_zero]
        exact Nat.mul_lt_mul_of_pos_right (by omega) power

theorem units_strictMono : StrictMono units := strictMono_nat_of_lt_succ units_lt_units_succ

/-! ## Intervals -/

/-- What a half of 2 ^ -1074 is multiplied by to be compared with decimals. -/
@[irreducible]
def decimalScale : Nat := Nat.pow 10 324

/-- What a half of 10 ^ -324 is multiplied by to be compared with doubles. -/
@[irreducible]
def binaryScale : Nat := Nat.pow 2 1074

theorem decimalScale_pos : 0 < decimalScale := by decide +kernel

theorem binaryScale_pos : 0 < binaryScale := by decide +kernel

/-- The finest grid is finer than the gaps between doubles. -/
theorem two_mul_binaryScale_le : 2 * binaryScale ≤ decimalScale := by decide +kernel

/-- Twice a point of a grid, counted in 2 ^ -1074 and 10 ^ -324. -/
def point (g c : Nat) : Nat := 2 * (c * Nat.pow 10 g * binaryScale)

section

variable {b b' g g' c c' : Nat}

theorem roundsTo_eq (b g c : Nat) :
    roundsTo b g c =
      if b % 2 = 0 then
        (units (b - 1) + units b) * decimalScale ≤ point g c &&
          point g c ≤ (units b + units (b + 1)) * decimalScale
      else
        (units (b - 1) + units b) * decimalScale < point g c &&
          point g c < (units b + units (b + 1)) * decimalScale := by
  unfold point decimalScale binaryScale
  rfl

/-- A decimal that rounds to a pattern lies between the middles of the gaps beside it, and not on
them if the pattern is odd. -/
theorem roundsTo_iff :
    roundsTo b g c = true ↔
      if b % 2 = 0 then
        (units (b - 1) + units b) * decimalScale ≤ point g c ∧
          point g c ≤ (units b + units (b + 1)) * decimalScale
      else
        (units (b - 1) + units b) * decimalScale < point g c ∧
          point g c < (units b + units (b + 1)) * decimalScale := by
  rw [roundsTo_eq]
  split
  · rw [Bool.and_eq_true, decide_eq_true_eq, decide_eq_true_eq]
  · rw [Bool.and_eq_true, decide_eq_true_eq, decide_eq_true_eq]

/-- The interval of a pattern ends before that of a larger one begins, or where it begins. -/
theorem not_lt_of_roundsTo (h : roundsTo b g c = true) (h' : roundsTo b' g' c' = true)
    (same : point g c = point g' c') : ¬ b < b' := by
  intro lt
  rw [roundsTo_iff] at h h'
  rw [← same] at h'
  have lower : units b ≤ units (b' - 1) := units_strictMono.monotone (by omega)
  have upper : units (b + 1) ≤ units b' := units_strictMono.monotone lt
  have apart : (units b + units (b + 1)) * decimalScale ≤
      (units (b' - 1) + units b') * decimalScale :=
    Nat.mul_le_mul_right _ (Nat.add_le_add lower upper)
  split at h
  · split at h'
    · -- two even patterns are no neighbours, so their intervals do not even meet
      have further : units (b + 1) < units b' := units_strictMono (by omega)
      have strict : (units b + units (b + 1)) * decimalScale <
          (units (b' - 1) + units b') * decimalScale :=
        Nat.mul_lt_mul_of_pos_right (by omega) decimalScale_pos
      omega
    · omega
  · split at h' <;> omega

/-- **No decimal rounds to two magnitudes.** -/
theorem eq_of_roundsTo (h : roundsTo b g c = true) (h' : roundsTo b' g' c' = true)
    (same : point g c = point g' c') : b = b' := by
  have notBelow := not_lt_of_roundsTo h h' same
  have notAbove := not_lt_of_roundsTo h' h same.symm
  omega

theorem pos_of_roundsTo (positive : 0 < b) (h : roundsTo b g c = true) : 0 < c := by
  refine Nat.pos_of_ne_zero ?_
  rintro rfl
  have below : units 0 < units b := units_strictMono positive
  have low : 0 < (units (b - 1) + units b) * decimalScale :=
    Nat.mul_pos (by omega) decimalScale_pos
  rw [roundsTo_iff, point, Nat.zero_mul, Nat.zero_mul] at h
  split at h <;> omega

/-! ## The search -/

theorem gridPoint?_eq (b g : Nat) :
    gridPoint? b g =
      let value := units b * decimalScale
      let step := Nat.pow 10 g * binaryScale
      match roundsTo b g (value / step), roundsTo b g (value / step + 1) with
      | true, true => some (roundQuotient value step)
      | true, false => some (value / step)
      | false, true => some (value / step + 1)
      | false, false => none := by
  unfold decimalScale binaryScale
  rfl

theorem roundQuotient_eq_or (n d : Nat) :
    roundQuotient n d = n / d ∨ roundQuotient n d = n / d + 1 := by
  rw [roundQuotient]
  split
  · exact .inl rfl
  · exact .inr rfl

theorem roundsTo_of_gridPoint? (h : gridPoint? b g = some c) : roundsTo b g c = true := by
  rw [gridPoint?_eq] at h
  dsimp only at h
  split at h
  · next below above =>
      cases h
      rcases roundQuotient_eq_or (units b * decimalScale) (Nat.pow 10 g * binaryScale)
        with near | near
      · rw [near]
        exact below
      · rw [near]
        exact above
  · next below _ =>
      cases h
      exact below
  · next _ above =>
      cases h
      exact above
  · cases h

/-- Every interval has a point of the finest grid. -/
theorem exists_gridPoint?_zero (positive : 0 < b) : ∃ c, gridPoint? b 0 = some c := by
  have found : roundsTo b 0 (units b * decimalScale / binaryScale) = true := by
    have below : units (b - 1) + 1 ≤ units b := units_strictMono (by omega)
    have above := units_lt_units_succ b
    have quotient := Nat.div_add_mod (units b * decimalScale) binaryScale
    have rest := Nat.mod_lt (units b * decimalScale) binaryScale_pos
    have fine := two_mul_binaryScale_le
    have one : Nat.pow 10 0 = 1 := rfl
    have low : (units (b - 1) + units b) * decimalScale + decimalScale ≤
        2 * (units b * decimalScale) := by
      have := Nat.mul_le_mul_right decimalScale below
      rw [Nat.add_mul] at this ⊢
      omega
    have high : 2 * (units b * decimalScale) < (units b + units (b + 1)) * decimalScale := by
      have := Nat.mul_lt_mul_of_pos_right above decimalScale_pos
      rw [Nat.add_mul]
      omega
    rw [roundsTo_iff, point, one, Nat.mul_one,
      Nat.mul_comm (units b * decimalScale / binaryScale) binaryScale]
    split <;> omega
  have grid : Nat.pow 10 0 * binaryScale = binaryScale := Nat.one_mul _
  rw [gridPoint?_eq, grid]
  dsimp only
  rw [found]
  split
  · exact ⟨_, rfl⟩
  · exact ⟨_, rfl⟩
  · exact ⟨_, rfl⟩
  · next lost _ => cases lost

theorem roundsTo_coarsest (positive : 0 < b) (g : Nat) :
    roundsTo b (coarsest b g).2 (coarsest b g).1 = true := by
  induction g with
  | zero =>
      obtain ⟨c, hc⟩ := exists_gridPoint?_zero positive
      rw [coarsest, hc]
      exact roundsTo_of_gridPoint? hc
  | succ g ih =>
      rw [coarsest]
      split
      · next c hc => exact roundsTo_of_gridPoint? hc
      · exact ih

/-- **The search ends with a decimal that rounds to its pattern.** -/
theorem exists_shortest (positive : 0 < b) :
    ∃ g c : Nat, shortest b = ⟨c, g - 324⟩ ∧ roundsTo b g c = true := by
  refine ⟨_, _, ?_, roundsTo_coarsest positive (coarseGrid b)⟩
  rw [shortest]

end

end Reckoner.Number
