import Mathlib
import Reckoner.Number.Text
import Reckoner.Proofs.Number.Shortest
import Reckoner.Proofs.Text.Runs

/-!
# Numbers by their texts

The text of a decimal is read back in two steps: the letter e ends the digits, and the point among
them tells how many belong to the fraction. Whatever layout was chosen, what is read is the value of
the decimal (`writtenValue_text`). Two magnitudes with one text therefore have decimals of one
value, and no decimal rounds to two magnitudes; the sign stands in front, and the names of the
values that no digits write begin with letters. So the text of a number tells the number
(`text_injective`).
-/

namespace Reckoner.Number

/-! ## Values -/

/-- The number that a decimal stands for. -/
def Decimal.value (x : Decimal) : ℚ := x.digits * 10 ^ x.exponent

/-- The number that digits around at most one point write. -/
def fixedValue (cs : List Char) : ℚ :=
  Nat.ofDigitChars 10 (cs.filter (· ≠ '.')) 0 / 10 ^ ((cs.dropWhile (· ≠ '.')).drop 1).length

/-- The exponent that a sign and digits write. -/
def exponentValue : List Char → ℤ
  | '-' :: ds => -(Nat.ofDigitChars 10 ds 0 : ℤ)
  | cs => Nat.ofDigitChars 10 (cs.drop 1) 0

/-- The number that a text writes: the exponent follows the letter e. -/
def writtenValue (cs : List Char) : ℚ :=
  fixedValue (cs.takeWhile (· ≠ 'e')) * 10 ^ exponentValue ((cs.dropWhile (· ≠ 'e')).drop 1)

section

variable {ds whole fraction cs : List Char}

theorem isDigit_of_mem_replicate (n : Nat) : ∀ d ∈ List.replicate n '0', d.isDigit = true := by
  intro d hd
  rw [List.eq_of_mem_replicate hd]
  rfl

theorem isDigit_of_mem_append (inWhole : ∀ d ∈ whole, d.isDigit = true)
    (inFraction : ∀ d ∈ fraction, d.isDigit = true) :
    ∀ d ∈ whole ++ fraction, d.isDigit = true := by
  intro d hd
  rcases List.mem_append.mp hd with h | h
  · exact inWhole d h
  · exact inFraction d h

theorem filter_ne_point (digits : ∀ d ∈ ds, d.isDigit = true) : ds.filter (· ≠ '.') = ds := by
  rw [List.filter_eq_self]
  exact forall_ne_of_not_mem (not_mem_of_class digits rfl)

theorem fixedValue_digits (digits : ∀ d ∈ ds, d.isDigit = true) :
    fixedValue ds = Nat.ofDigitChars 10 ds 0 := by
  rw [fixedValue, filter_ne_point digits,
    dropWhile_ne_of_not_mem (not_mem_of_class digits rfl), List.drop_nil, List.length_nil, pow_zero,
    div_one]

theorem fixedValue_point (inWhole : ∀ d ∈ whole, d.isDigit = true)
    (inFraction : ∀ d ∈ fraction, d.isDigit = true) :
    fixedValue (whole ++ '.' :: fraction) =
      Nat.ofDigitChars 10 (whole ++ fraction) 0 / 10 ^ fraction.length := by
  have others : ('.' :: fraction).filter (· ≠ '.') = fraction.filter (· ≠ '.') :=
    List.filter_cons_of_neg (by decide)
  rw [fixedValue, dropWhile_ne_append (not_mem_of_class inWhole rfl), List.filter_append, others,
    filter_ne_point inWhole, filter_ne_point inFraction, List.drop_one, List.tail_cons]

/-! ## Exponents -/

theorem isDigit_of_mem_toDigits {n : Nat} : ∀ d ∈ Nat.toDigits 10 n, d.isDigit = true :=
  fun _ hd => Nat.isDigit_of_mem_toDigits (by decide) (by decide) hd

theorem isDigit_of_mem_paddedDigits {width n : Nat} :
    ∀ d ∈ paddedDigits width n, d.isDigit = true :=
  isDigit_of_mem_append (isDigit_of_mem_replicate _) isDigit_of_mem_toDigits

theorem ofDigitChars_paddedDigits (width n : Nat) :
    Nat.ofDigitChars 10 (paddedDigits width n) 0 = n := by
  rw [paddedDigits, Nat.ofDigitChars_append, Nat.ofDigitChars_replicate_zero, Nat.mul_zero,
    Nat.ofDigitChars_ten_toDigits]

theorem exponentValue_exponentPart (place : ℤ) :
    exponentValue ((exponentPart place).drop 1) = place := by
  rw [exponentPart, List.drop_one, List.tail_cons]
  by_cases negative : place < 0
  · rw [if_pos negative, exponentValue, ofDigitChars_paddedDigits]
    omega
  · rw [if_neg negative, exponentValue, List.drop_one, List.tail_cons, ofDigitChars_paddedDigits]
    · omega
    · intro ds h
      cases h

theorem writtenValue_of_not_mem (h : 'e' ∉ cs) : writtenValue cs = fixedValue cs := by
  have zero : exponentValue [] = 0 := rfl
  rw [writtenValue, takeWhile_ne_of_not_mem h, dropWhile_ne_of_not_mem h, List.drop_nil, zero,
    zpow_zero, mul_one]

theorem writtenValue_append_exponentPart (h : 'e' ∉ cs) (place : ℤ) :
    writtenValue (cs ++ exponentPart place) = fixedValue cs * 10 ^ place := by
  have exponent := exponentValue_exponentPart place
  rw [exponentPart] at exponent ⊢
  rw [writtenValue, takeWhile_ne_append h, dropWhile_ne_append h, exponent]

/-! ## Layouts -/

theorem e_not_mem_point (inWhole : ∀ d ∈ whole, d.isDigit = true)
    (inFraction : ∀ d ∈ fraction, d.isDigit = true) : 'e' ∉ whole ++ '.' :: fraction := by
  rw [List.mem_append, List.mem_cons]
  rintro (mem | point | mem)
  · exact not_mem_of_class inWhole rfl mem
  · exact absurd point (by decide)
  · exact not_mem_of_class inFraction rfl mem

theorem writtenValue_scientific (digits : ∀ d ∈ ds, d.isDigit = true) (nonempty : ds ≠ [])
    (place : ℤ) :
    writtenValue (scientific ds place) =
      Nat.ofDigitChars 10 ds 0 * 10 ^ (place - ds.length + 1) := by
  match ds with
  | [] => exact absurd rfl nonempty
  | [d] =>
      have one := writtenValue_append_exponentPart (not_mem_of_class digits rfl) place
      rw [fixedValue_digits digits] at one
      rw [scientific, ← List.singleton_append, one, List.length_singleton]
      congr 2
      push_cast
      ring
  | d :: next :: more =>
      have inWhole : ∀ c ∈ [d], c.isDigit = true := fun c hc => digits c (by simp_all)
      have inFraction : ∀ c ∈ next :: more, c.isDigit = true :=
        fun c hc => digits c (List.mem_cons_of_mem d hc)
      have pointed := writtenValue_append_exponentPart (e_not_mem_point inWhole inFraction) place
      rw [fixedValue_point inWhole inFraction] at pointed
      have shape : scientific (d :: next :: more) place =
          [d] ++ '.' :: next :: more ++ exponentPart place := rfl
      have length : place - (d :: next :: more).length + 1 = place - (next :: more).length := by
        rw [List.length_cons]
        push_cast
        ring
      rw [shape, pointed, length, zpow_sub₀ (by norm_num), zpow_natCast, List.singleton_append]
      ring

theorem writtenValue_writtenOut (digits : ∀ d ∈ ds, d.isDigit = true) (place : Nat) :
    writtenValue (writtenOut ds place) =
      Nat.ofDigitChars 10 ds 0 * 10 ^ ((place : ℤ) - ds.length + 1) := by
  by_cases short : ds.length ≤ place + 1
  · -- zeros are put behind the digits, and one zero is the fraction
    obtain ⟨zeros, hz⟩ := Nat.exists_eq_add_of_le short
    have shape : writtenOut ds place = (ds ++ List.replicate zeros '0') ++ '.' :: ['0'] := by
      simp only [writtenOut]
      rw [List.take_of_length_le short, List.drop_eq_nil_of_le short]
      simp [hz]
    have inWhole := isDigit_of_mem_append digits (isDigit_of_mem_replicate zeros)
    have inFraction : ∀ d ∈ ['0'], d.isDigit = true := isDigit_of_mem_replicate 1
    have exponent : (place : ℤ) - ds.length + 1 = zeros := by omega
    rw [shape, writtenValue_of_not_mem (e_not_mem_point inWhole inFraction),
      fixedValue_point inWhole inFraction, exponent, zpow_natCast, List.append_assoc,
      ← List.replicate_succ', Nat.ofDigitChars_append, Nat.ofDigitChars_replicate_zero,
      List.length_singleton, pow_one]
    push_cast
    ring
  · have shape : writtenOut ds place = ds.take (place + 1) ++ '.' :: ds.drop (place + 1) := by
      have full : (ds.take (place + 1)).length = place + 1 := List.length_take_of_le (by omega)
      have fraction : ds.drop (place + 1) ≠ [] := by
        rw [Ne, List.drop_eq_nil_iff]
        omega
      simp only [writtenOut]
      rw [full, Nat.sub_self, List.replicate_zero, List.append_nil,
        if_neg (by simpa using fraction)]
    have inWhole : ∀ d ∈ ds.take (place + 1), d.isDigit = true :=
      fun d hd => digits d (List.mem_of_mem_take hd)
    have inFraction : ∀ d ∈ ds.drop (place + 1), d.isDigit = true :=
      fun d hd => digits d (List.mem_of_mem_drop hd)
    have exponent : (place : ℤ) - ds.length + 1 = -((ds.length - (place + 1) : ℕ) : ℤ) := by omega
    rw [shape, writtenValue_of_not_mem (e_not_mem_point inWhole inFraction),
      fixedValue_point inWhole inFraction, List.take_append_drop, List.length_drop, exponent,
      zpow_neg, zpow_natCast, div_eq_mul_inv]

theorem writtenValue_leadingZeros (digits : ∀ d ∈ ds, d.isDigit = true) (zeros : Nat) :
    writtenValue ('0' :: '.' :: List.replicate zeros '0' ++ ds) =
      Nat.ofDigitChars 10 ds 0 * 10 ^ (-(zeros : ℤ) - ds.length) := by
  have inWhole : ∀ d ∈ ['0'], d.isDigit = true := isDigit_of_mem_replicate 1
  have inFraction := isDigit_of_mem_append (isDigit_of_mem_replicate zeros) digits
  have shape : '0' :: '.' :: List.replicate zeros '0' ++ ds =
      ['0'] ++ '.' :: (List.replicate zeros '0' ++ ds) := rfl
  have value : Nat.ofDigitChars 10 (['0'] ++ (List.replicate zeros '0' ++ ds)) 0 =
      Nat.ofDigitChars 10 ds 0 := by
    rw [← List.append_assoc, ← List.replicate_one, List.replicate_append_replicate,
      Nat.ofDigitChars_append, Nat.ofDigitChars_replicate_zero, Nat.mul_zero]
  have exponent : -(zeros : ℤ) - ds.length = -((zeros + ds.length : ℕ) : ℤ) := by
    push_cast
    ring
  rw [shape, writtenValue_of_not_mem (e_not_mem_point inWhole inFraction),
    fixedValue_point inWhole inFraction, value, exponent, List.length_append,
    List.length_replicate, zpow_neg, zpow_natCast, div_eq_mul_inv]

/-- **The text of a decimal writes its value, in each of the layouts.** -/
theorem writtenValue_text (x : Decimal) : writtenValue x.text = x.value := by
  have digits : ∀ d ∈ Nat.toDigits 10 x.digits, d.isDigit = true := isDigit_of_mem_toDigits
  have nonempty : Nat.toDigits 10 x.digits ≠ [] := Nat.toDigits_ne_nil
  have whole : Nat.ofDigitChars 10 (Nat.toDigits 10 x.digits) 0 = x.digits :=
    Nat.ofDigitChars_ten_toDigits
  rw [Decimal.text, Decimal.value]
  generalize Nat.toDigits 10 x.digits = ds at digits nonempty whole
  split
  · rw [writtenValue_scientific digits nonempty, whole]
    congr 2
    ring
  · split
    · next positional =>
        rw [writtenValue_writtenOut digits, whole, Int.toNat_of_nonneg positional]
        congr 2
        ring
    · next below =>
        rw [writtenValue_leadingZeros digits, whole]
        congr 2
        omega

end

/-! ## Characters -/

/-- Letters, digits, points and signs: no other characters stand in the text of a number. -/
def isTextual (c : Char) : Bool := c.isAlphanum || c = '.' || c = '+' || c = '-'

section

variable {ds : List Char}

theorem isTextual_of_isDigit {c : Char} (h : c.isDigit = true) : isTextual c = true := by
  simp [isTextual, Char.isAlphanum, h]

theorem isTextual_exponentPart (place : ℤ) : ∀ c ∈ exponentPart place, isTextual c = true := by
  intro c hc
  rw [exponentPart, List.mem_cons, List.mem_cons] at hc
  rcases hc with rfl | rfl | digit
  · decide
  · split <;> decide
  · exact isTextual_of_isDigit (isDigit_of_mem_paddedDigits c digit)

theorem isTextual_scientific (digits : ∀ d ∈ ds, d.isDigit = true) (place : ℤ) :
    ∀ c ∈ scientific ds place, isTextual c = true := by
  intro c hc
  have inDigits : c ∈ ds → isTextual c = true := fun mem => isTextual_of_isDigit (digits c mem)
  have inExponent := isTextual_exponentPart place c
  match ds with
  | [] => exact inExponent hc
  | [d] =>
      rcases List.mem_cons.mp hc with rfl | mem
      · exact inDigits List.mem_cons_self
      · exact inExponent mem
  | d :: next :: more =>
      rw [scientific, List.cons_append, List.mem_cons, List.cons_append, List.mem_cons,
        List.mem_append] at hc
      rcases hc with rfl | rfl | mem | mem
      · exact inDigits List.mem_cons_self
      · decide
      · exact inDigits (List.mem_cons_of_mem d mem)
      · exact inExponent mem
      · intro h
        cases h

theorem isTextual_writtenOut (digits : ∀ d ∈ ds, d.isDigit = true) (place : Nat) :
    ∀ c ∈ writtenOut ds place, isTextual c = true := by
  intro c hc
  simp only [writtenOut] at hc
  rw [List.mem_append, List.mem_append, List.mem_cons] at hc
  rcases hc with (mem | zero) | rfl | mem
  · exact isTextual_of_isDigit (digits c (List.mem_of_mem_take mem))
  · rw [List.eq_of_mem_replicate zero]
    decide
  · decide
  · split at mem
    · rw [List.mem_singleton.mp mem]
      decide
    · exact isTextual_of_isDigit (digits c (List.mem_of_mem_drop mem))

theorem isTextual_leadingZeros (digits : ∀ d ∈ ds, d.isDigit = true) (zeros : Nat) :
    ∀ c ∈ '0' :: '.' :: List.replicate zeros '0' ++ ds, isTextual c = true := by
  intro c hc
  rw [List.cons_append, List.cons_append, List.mem_cons, List.mem_cons, List.mem_append] at hc
  rcases hc with rfl | rfl | zero | mem
  · decide
  · decide
  · rw [List.eq_of_mem_replicate zero]
    decide
  · exact isTextual_of_isDigit (digits c mem)

theorem Decimal.isTextual_text (x : Decimal) : ∀ c ∈ x.text, isTextual c = true := by
  have digits : ∀ d ∈ Nat.toDigits 10 x.digits, d.isDigit = true := isDigit_of_mem_toDigits
  rw [Decimal.text]
  split
  · exact isTextual_scientific digits _
  · split
    · exact isTextual_writtenOut digits _
    · exact isTextual_leadingZeros digits _

/-- The text of a decimal begins with a digit. -/
theorem Decimal.exists_digit_text (x : Decimal) :
    ∃ d more, x.text = d :: more ∧ d.isDigit = true := by
  obtain ⟨d, more, hd⟩ := List.exists_cons_of_ne_nil (@Nat.toDigits_ne_nil x.digits 10)
  have digit : d.isDigit = true := isDigit_of_mem_toDigits d (by rw [hd]; exact List.mem_cons_self)
  rw [Decimal.text, hd]
  split
  · cases more with
    | nil => exact ⟨d, _, rfl, digit⟩
    | cons next more => exact ⟨d, _, rfl, digit⟩
  · split
    · exact ⟨d, _, rfl, digit⟩
    · exact ⟨'0', _, rfl, rfl⟩

theorem isTextual_magnitudeText (b : Nat) : ∀ c ∈ magnitudeText b, isTextual c = true := by
  rw [magnitudeText]
  split
  · exact List.all_eq_true.mp rfl
  · split
    · exact List.all_eq_true.mp rfl
    · exact (shortest b).isTextual_text

end

/-! ## Numbers -/

/-- Decimals of one value are one point, whatever grids they were found on. -/
theorem point_eq_of_value_eq {c g c' g' : Nat}
    (h : (⟨c, g - 324⟩ : Decimal).value = (⟨c', g' - 324⟩ : Decimal).value) :
    point g c = point g' c' := by
  simp only [Decimal.value] at h
  generalize (324 : ℤ) = finest at h
  rw [zpow_sub₀ (by norm_num), zpow_sub₀ (by norm_num), ← mul_div_assoc, ← mul_div_assoc] at h
  have power : (10 : ℚ) ^ finest ≠ 0 := zpow_ne_zero _ (by norm_num)
  have same := (div_left_inj' power).mp h
  rw [zpow_natCast, zpow_natCast] at same
  have counts : c * 10 ^ g = c' * 10 ^ g' := by exact_mod_cast same
  rw [point, point, Nat.pow_eq, Nat.pow_eq, counts]

theorem value_pos_of_digits_pos {x : Decimal} (h : 0 < x.digits) : 0 < x.value := by
  rw [Decimal.value]
  exact mul_pos (by exact_mod_cast h) (zpow_pos (by norm_num) _)

theorem magnitudeText_of_finite {b : Nat} (positive : b ≠ 0) (finite : b ≠ infinityPattern) :
    ∃ g c : Nat, magnitudeText b = (⟨c, g - 324⟩ : Decimal).text ∧ roundsTo b g c = true ∧
      0 < c := by
  obtain ⟨g, c, hs, rounds⟩ := exists_shortest (Nat.pos_of_ne_zero positive)
  refine ⟨g, c, ?_, rounds, pos_of_roundsTo (Nat.pos_of_ne_zero positive) rounds⟩
  rw [magnitudeText, if_neg positive, if_neg finite, hs]

theorem exists_digit_magnitudeText {b : Nat} (finite : b ≠ infinityPattern) :
    ∃ d more, magnitudeText b = d :: more ∧ d.isDigit = true := by
  by_cases zero : b = 0
  · subst zero
    exact ⟨'0', ['.', '0'], rfl, rfl⟩
  · obtain ⟨g, c, written, -⟩ := magnitudeText_of_finite zero finite
    rw [written]
    exact Decimal.exists_digit_text _

theorem magnitudeText_infinityPattern : magnitudeText infinityPattern = ['i', 'n', 'f'] := by
  rw [magnitudeText, if_neg (by decide), if_pos rfl]

theorem eq_infinityPattern_of_text {b : Nat}
    (h : magnitudeText infinityPattern = magnitudeText b) : infinityPattern = b := by
  by_contra finite
  obtain ⟨d, more, first, digit⟩ := exists_digit_magnitudeText (Ne.symm finite)
  rw [first, magnitudeText_infinityPattern] at h
  cases h
  exact absurd digit (by decide)

theorem eq_zero_of_text {b : Nat} (finite : b ≠ infinityPattern)
    (h : magnitudeText 0 = magnitudeText b) : 0 = b := by
  by_contra positive
  obtain ⟨g, c, written, -, digits⟩ := magnitudeText_of_finite (Ne.symm positive) finite
  have zero : writtenValue (magnitudeText 0) = 0 := by
    have inWhole : ∀ d ∈ ['0'], d.isDigit = true := isDigit_of_mem_replicate 1
    have shape : magnitudeText 0 = ['0'] ++ '.' :: ['0'] := rfl
    have nothing : Nat.ofDigitChars 10 (['0'] ++ ['0']) 0 = 0 := rfl
    rw [shape, writtenValue_of_not_mem (e_not_mem_point inWhole inWhole),
      fixedValue_point inWhole inWhole, nothing, Nat.cast_zero, zero_div]
  have value : 0 < (⟨c, g - 324⟩ : Decimal).value := value_pos_of_digits_pos digits
  rw [h, written, writtenValue_text] at zero
  exact value.ne' zero

/-- **The text of a magnitude tells the magnitude.** -/
theorem magnitudeText_injective : Function.Injective magnitudeText := by
  intro b b' h
  by_cases infinite : b = infinityPattern
  · subst infinite
    exact eq_infinityPattern_of_text h
  by_cases infinite' : b' = infinityPattern
  · subst infinite'
    exact (eq_infinityPattern_of_text h.symm).symm
  by_cases zero : b = 0
  · subst zero
    exact eq_zero_of_text infinite' h
  by_cases zero' : b' = 0
  · subst zero'
    exact (eq_zero_of_text infinite h.symm).symm
  obtain ⟨g, c, written, rounds, -⟩ := magnitudeText_of_finite zero infinite
  obtain ⟨g', c', written', rounds', -⟩ := magnitudeText_of_finite zero' infinite'
  refine eq_of_roundsTo rounds rounds' (point_eq_of_value_eq ?_)
  rw [← writtenValue_text, ← writtenValue_text, ← written, ← written', h]

/-- The text of a magnitude begins neither with a sign nor as the name of the undefined value. -/
theorem exists_first_magnitudeText (b : Nat) :
    ∃ d more, magnitudeText b = d :: more ∧ d ≠ '-' ∧ d ≠ 'n' := by
  by_cases infinite : b = infinityPattern
  · subst infinite
    exact ⟨'i', ['n', 'f'], magnitudeText_infinityPattern, by decide, by decide⟩
  · obtain ⟨d, more, first, digit⟩ := exists_digit_magnitudeText infinite
    refine ⟨d, more, first, ?_, ?_⟩
    · rintro rfl
      exact absurd digit (by decide)
    · rintro rfl
      exact absurd digit (by decide)

theorem eq_of_toBits_eq {x y : Float} (h : x.toBits = y.toBits) : x = y := by
  cases x with
  | ofModel x =>
      cases y with
      | ofModel y =>
          cases x
          cases y
          simp_all [Float.toBits]

theorem eq_of_pattern_eq {x y : Float} (sign : isNegative x = isNegative y)
    (same : pattern x = pattern y) : x = y := by
  refine eq_of_toBits_eq ?_
  have inRange := x.toBits.toNat_lt
  have inRange' := y.toBits.toNat_lt
  rw [← UInt64.toNat_inj]
  simp only [isNegative, pattern, Nat.pow_eq, decide_eq_decide] at sign same
  omega

/-- Valid patterns hold one undefined value. -/
theorem toBits_of_isNaN {x : Float} (h : x.isNaN = true) :
    x.toBits.toBitVec =
      Float.Model.UnpackedFloat.packedNaN Float.Model.Format.binary64 := by
  have named : (Float.Model.UnpackedFloat.unpack Float.Model.Format.binary64
      x.toModel.toBits.toBitVec).isNaN = true := h
  rw [Float.Model.UnpackedFloat.unpack] at named
  dsimp only at named
  split at named
  · next exponent =>
      split at named
      · cases named
      · next mantissa => exact x.toModel.valid.eq_packedNaN exponent mantissa
  · split at named
    · split at named <;> cases named
    · cases named

theorem eq_of_isNaN {x y : Float} (hx : x.isNaN = true) (hy : y.isNaN = true) : x = y := by
  refine eq_of_toBits_eq ?_
  rw [← UInt64.toBitVec_inj, toBits_of_isNaN hx, toBits_of_isNaN hy]

/-! ## Signs and names -/

/-- A number as its sign and its magnitude in the notation `f`; the undefined value has a name. -/
def spelled (name : List Char) (f : Nat → List Char) (x : Float) : List Char :=
  if x.isNaN then name else (if isNegative x then ['-'] else []) ++ f (pattern x)

section

variable {name : List Char} {f : Nat → List Char}

theorem signed_inj {b b' : Nat} {negative negative' : Bool} (injective : Function.Injective f)
    (first : ∀ b, ∃ d more, f b = d :: more ∧ d ≠ '-')
    (h : (if negative then ['-'] else []) ++ f b = (if negative' then ['-'] else []) ++ f b') :
    negative = negative' ∧ b = b' := by
  obtain ⟨d, more, hb, noSign⟩ := first b
  obtain ⟨d', more', hb', noSign'⟩ := first b'
  cases negative with
  | false =>
      cases negative' with
      | false => exact ⟨rfl, injective h⟩
      | true =>
          rw [hb] at h
          exact absurd (List.cons.inj h).1 noSign
  | true =>
      cases negative' with
      | false =>
          rw [hb'] at h
          exact absurd (List.cons.inj h).1.symm noSign'
      | true => exact ⟨rfl, injective (List.cons.inj h).2⟩

/-- A notation for magnitudes whose texts are distinct, and begin neither with a sign nor as the
name of the undefined value, tells numbers apart. -/
theorem spelled_injective (injective : Function.Injective f)
    (first : ∀ b, ∃ d more, f b = d :: more ∧ d ≠ '-' ∧ d ∉ name.head?)
    (noSign : '-' ∉ name.head?) : Function.Injective (spelled name f) := by
  have unsigned : ∀ b, ∃ d more, f b = d :: more ∧ d ≠ '-' := by
    intro b
    obtain ⟨d, more, hb, unsigned, -⟩ := first b
    exact ⟨d, more, hb, unsigned⟩
  have unnamed : ∀ (negative : Bool) (b : Nat),
      name ≠ (if negative then ['-'] else []) ++ f b := by
    intro negative b h
    obtain ⟨d, more, hb, -, other⟩ := first b
    rw [h, hb] at noSign other
    cases negative with
    | false => exact other rfl
    | true => exact noSign rfl
  intro x y h
  rw [spelled, spelled] at h
  by_cases hx : x.isNaN = true
  · by_cases hy : y.isNaN = true
    · exact eq_of_isNaN hx hy
    · rw [if_pos hx, if_neg hy] at h
      exact absurd h (unnamed _ _)
  · by_cases hy : y.isNaN = true
    · rw [if_neg hx, if_pos hy] at h
      exact absurd h.symm (unnamed _ _)
    · rw [if_neg hx, if_neg hy] at h
      obtain ⟨sign, same⟩ := signed_inj injective unsigned h
      exact eq_of_pattern_eq sign same

theorem isTextual_spelled (inName : ∀ c ∈ name, isTextual c = true)
    (inMagnitude : ∀ b, ∀ c ∈ f b, isTextual c = true) (x : Float) :
    ∀ c ∈ spelled name f x, isTextual c = true := by
  rw [spelled]
  split
  · exact inName
  · intro c hc
    rcases List.mem_append.mp hc with sign | mem
    · split at sign
      · rw [List.mem_singleton.mp sign]
        decide
      · cases sign
    · exact inMagnitude _ c mem

end

theorem toList_text (x : Float) : (text x).toList = spelled "nan".toList magnitudeText x := by
  rw [text, spelled]
  split
  · rfl
  · exact String.toList_ofList

theorem isTextual_text (x : Float) : ∀ c ∈ (text x).toList, isTextual c = true := by
  rw [toList_text]
  exact isTextual_spelled (List.all_eq_true.mp rfl) isTextual_magnitudeText x

/-- **The text of a number tells the number.** -/
theorem text_injective : Function.Injective text := by
  have spells : Function.Injective (spelled "nan".toList magnitudeText) := by
    refine spelled_injective magnitudeText_injective ?_ (by decide)
    intro b
    obtain ⟨d, more, first, noSign, noName⟩ := exists_first_magnitudeText b
    exact ⟨d, more, first, noSign, fun h => noName (Option.some.inj h).symm⟩
  intro x y h
  refine spells ?_
  rw [← toList_text, ← toList_text, h]

end Reckoner.Number
