import Reckoner.Proofs.Number.Text

/-!
# Doubles from their patterns

The double without sign that has a given pattern has that pattern: a double is its bits, and up to
infinity all bits are those of a value. Taking a double apart into sign, exponent and mantissa and
putting it together again gives the same bits (`pack_unpack`), unless it is one of the many patterns
of the undefined value, which all become one. So the text of such a double is that of its pattern.
-/

namespace Reckoner.Number

open Float.Model
open Float.Model.UnpackedFloat hiding pack unpack

/-! ## Taking a double apart and putting it together -/

theorem packComponents_unpack (v : BitVec Format.binary64.numBits) :
    packComponents .binary64 (Sign.ofBitVec (unpackSign v)) (unpackExponent v)
      (unpackMantissa v) = v := by
  have sign : ∀ w : BitVec 1, (Sign.ofBitVec w).toBitVec = w := by decide
  rw [packComponents, sign]
  ext i hi
  simp only [unpackSign, unpackExponent, unpackMantissa]
  grind

/-- The leading bit of a mantissa stands in front of the bits that are kept. -/
theorem toNat_one_append (m : BitVec 52) : (1#1 ++ m).toNat = 2 ^ 52 + m.toNat := by
  rw [BitVec.toNat_append, BitVec.toNat_ofNat, ← Nat.shiftLeft_add_eq_or_of_lt m.isLt]
  rfl

/-- A finite magnitude is put together from its exponent, shifted to begin at zero, and its
mantissa; one that does not have all 53 bits has the exponent zero. -/
theorem pack_finite (sign : Sign) {m k : Nat} (positive : 0 < m) {e : Int}
    (shifted : e + 1075 = k) (inRange : k + 1 < 2048) :
    UnpackedFloat.pack .binary64 (.finite sign m e positive) =
      if m.log2 = 52 then packComponents .binary64 sign (BitVec.ofNat _ k) (BitVec.ofNat _ m)
      else packComponents .binary64 sign 0#_ (BitVec.ofNat _ m) := by
  have biased : (e + (Format.binary64.exponentBias : Int) +
      (Format.binary64.mantissaBitsWithoutImplicit : Int)).toNat = k := by
    have bias : (Format.binary64.exponentBias : Int) = 1023 := rfl
    have width : (Format.binary64.mantissaBitsWithoutImplicit : Int) = 52 := rfl
    omega
  have noOverflow : ¬2 ^ Format.binary64.exponentBits ≤ k + 1 := by
    have size : 2 ^ Format.binary64.exponentBits = 2048 := rfl
    omega
  have full : m.log2 + 1 = Format.binary64.mantissaBits ↔ m.log2 = 52 := by
    have width : Format.binary64.mantissaBits = 53 := rfl
    omega
  simp only [UnpackedFloat.pack, biased, noOverflow, full, if_false]

theorem pack_unpack {v : BitVec Format.binary64.numBits} (valid : Format.binary64.Valid v) :
    UnpackedFloat.pack .binary64 (UnpackedFloat.unpack .binary64 v) = v := by
  have whole := packComponents_unpack v
  have mantissaLt : (unpackMantissa v).toNat < 2 ^ 52 := (unpackMantissa v).isLt
  have exponentLt : (unpackExponent v).toNat < 2 ^ 11 := (unpackExponent v).isLt
  have bias : (Format.binary64.exponentBias : Int) = 1023 := rfl
  have width : (Format.binary64.mantissaBitsWithoutImplicit : Int) = 52 := rfl
  rw [UnpackedFloat.unpack]
  dsimp only
  split
  · next exponent =>
      split
      · next mantissa => rwa [exponent, mantissa] at whole
      · next mantissa => exact (valid.eq_packedNaN exponent mantissa).symm
  · next finite =>
      split
      · next exponent =>
          split
          · next mantissa => rwa [exponent, mantissa] at whole
          · next mantissa =>
              -- a mantissa without the leading bit is too short for any other exponent
              have zero : (unpackExponent v).toNat = 0 := by rw [exponent]; rfl
              have positive : (unpackMantissa v).toNat ≠ 0 :=
                fun none => mantissa (BitVec.eq_of_toNat_eq none)
              have short : (unpackMantissa v).toNat.log2 ≠ 52 :=
                Nat.ne_of_lt ((Nat.log2_lt positive).mpr mantissaLt)
              rw [pack_finite (k := 1) _ _ (by omega) (by omega), if_neg short, BitVec.ofNat_toNat,
                BitVec.setWidth_eq, ← exponent, whole]
      · next normal =>
          have below : (unpackExponent v).toNat ≠ 2047 :=
            fun top => finite (BitVec.eq_of_toNat_eq top)
          have full : (2 ^ 52 + (unpackMantissa v).toNat).log2 = 52 := by
            rw [Nat.log2_eq_iff (by omega)]
            omega
          have kept : BitVec.ofNat 52 (2 ^ 52 + (unpackMantissa v).toNat) = unpackMantissa v := by
            refine BitVec.eq_of_toNat_eq ?_
            rw [BitVec.toNat_ofNat]
            omega
          rw [pack_finite (k := (unpackExponent v).toNat) _ _ (by omega) (by omega),
            toNat_one_append, if_pos full, BitVec.ofNat_toNat, BitVec.setWidth_eq, kept, whole]

/-! ## Magnitudes -/

section

variable {b : Nat}

theorem valid_of_le (le : b ≤ infinityPattern) :
    Format.binary64.Valid (UInt64.ofNat b).toBitVec := by
  refine ⟨fun exponent mantissa => absurd (BitVec.eq_of_toNat_eq ?_) mantissa⟩
  have top := congrArg BitVec.toNat exponent
  simp [unpackExponent, unpackMantissa, infinityPattern] at top le ⊢
  omega

theorem toBits_ofPattern (le : b ≤ infinityPattern) :
    (ofPattern b).toBits = UInt64.ofNat b := by
  have same := pack_unpack (valid_of_le le)
  show UInt64.ofBitVec (UnpackedFloat.pack .binary64
    (UnpackedFloat.unpack .binary64 (UInt64.ofNat b).toBitVec)) = _
  rw [same]

theorem toNat_toBits_ofPattern (le : b ≤ infinityPattern) : (ofPattern b).toBits.toNat = b := by
  rw [toBits_ofPattern le, UInt64.toNat_ofNat', Nat.mod_eq_of_lt]
  exact Nat.lt_of_le_of_lt le (by decide)

theorem pattern_ofPattern (le : b ≤ infinityPattern) : pattern (ofPattern b) = b := by
  rw [pattern, toNat_toBits_ofPattern le, Nat.mod_eq_of_lt]
  exact Nat.lt_of_le_of_lt le (by decide)

theorem isNegative_ofPattern (le : b ≤ infinityPattern) : isNegative (ofPattern b) = false := by
  rw [isNegative, toNat_toBits_ofPattern le, decide_eq_false_iff_not, Nat.not_le]
  exact Nat.lt_of_le_of_lt le (by decide)

theorem isNaN_ofPattern (le : b ≤ infinityPattern) : (ofPattern b).isNaN = false := by
  refine Bool.eq_false_iff.mpr fun undefined => ?_
  have bits := congrArg BitVec.toNat (toBits_of_isNaN undefined)
  have same : (ofPattern b).toBits.toBitVec.toNat = b := toNat_toBits_ofPattern le
  have beyond : infinityPattern < (packedNaN Format.binary64).toNat := by decide
  rw [same] at bits
  omega

theorem ofPattern_eq_infinity_iff (le : b ≤ infinityPattern) :
    ofPattern b = infinity ↔ b = infinityPattern := by
  constructor
  · intro same
    rw [← pattern_ofPattern le, same]
    exact pattern_ofPattern (Nat.le_refl _)
  · rintro rfl
    rfl

/-- The text of a double without sign is that of its pattern. -/
theorem toList_text_ofPattern (le : b ≤ infinityPattern) :
    (text (ofPattern b)).toList = magnitudeText b := by
  rw [toList_text, spelled, isNaN_ofPattern le, isNegative_ofPattern le, pattern_ofPattern le]
  rfl

end

end Reckoner.Number
