import DiagramSketch.Proofs.Number.Spelling

/-!
# Whole numbers that keep their digits

Up to 53 bits a whole number is a double-precision number, so that an attribute spells it with just
its digits; and no two integers have the same digits.
-/

namespace DiagramSketch.Number

theorem digits_injective {value other : Nat} (same : digits value = digits other) :
    value = other := by
  calc
    value = Nat.ofDigitChars 10 (digits value) 0 := Nat.ofDigitChars_ten_toDigits.symm
    _ = Nat.ofDigitChars 10 (digits other) 0 := by rw [same]
    _ = other := Nat.ofDigitChars_ten_toDigits

theorem sign_not_mem_digits (value : Nat) : '-' ∉ digits value := by
  intro member
  have digit := Nat.isDigit_of_mem_toDigits (by decide) (by decide) member
  exact absurd digit (by decide)

theorem signedDigits_injective {value other : Int}
    (same : signedDigits value = signedDigits other) : value = other := by
  unfold signedDigits at same
  split at same <;> split at same
  · have magnitudes := digits_injective (List.cons.inj same).2
    omega
  · exact absurd (same ▸ List.mem_cons_self) (sign_not_mem_digits _)
  · exact absurd (same.symm ▸ List.mem_cons_self) (sign_not_mem_digits _)
  · have magnitudes := digits_injective same
    omega

namespace Binary64

/-- A value that is a whole number of its units is not changed by rounding. -/
theorem nearest_of_units {value : Rat} (count : Int)
    (units : value = count * (2 : Rat) ^ unitExponent |value|) : nearest value = value := by
  unfold nearest
  split
  · next zero => exact zero.symm
  · have unitNonzero : (2 : Rat) ^ unitExponent |value| ≠ 0 := zpow_ne_zero _ two_ne_zero
    have scaled : value / 2 ^ unitExponent |value| = count := (div_eq_iff unitNonzero).mpr units
    simp only [ratAbs_eq_abs, scaled, roundHalfEven_intCast]
    exact units.symm

theorem nearest_intCast {value : Int} (small : |value| < 2 ^ 53) :
    nearest (value : Rat) = value := by
  rcases eq_or_ne value 0 with rfl | nonzero
  · rfl
  · have positive : (0 : Rat) < |(value : Rat)| := abs_pos.mpr (Int.cast_ne_zero.mpr nonzero)
    have below : |(value : Rat)| < (2 : Rat) ^ (53 : Int) := by
      have cast : |(value : Rat)| < 2 ^ 53 := by exact_mod_cast small
      exact cast
    have exponent := (floorLog2_lt_iff positive 53).mpr below
    -- The unit is a power of one half, so the value is a multiple of it.
    obtain ⟨places, unit⟩ : ∃ places : Nat, unitExponent |(value : Rat)| = -(places : Int) :=
      ⟨(-unitExponent |(value : Rat)|).toNat, by unfold unitExponent; omega⟩
    refine nearest_of_units (value * 2 ^ places) ?_
    rw [unit, zpow_neg, zpow_natCast]
    push_cast
    rw [mul_assoc, mul_inv_cancel₀ (pow_ne_zero _ two_ne_zero), mul_one]

theorem formatFinite_intCast (value : Int) : formatFinite (value : Rat) = signedDigits value := by
  have close : isCloseTo (value : Rat) value = true := by simp [isCloseTo]
  simp only [formatFinite, roundHalfEven_intCast, close, if_true]

end Binary64

theorem fits_intCast {value : Int} (small : |value| < 2 ^ 53) : Fits (value : Rat) := by
  have cast : |(value : Rat)| < 2 ^ 53 := by exact_mod_cast small
  exact fits_of_abs_le (cast.le.trans (pow_le_pow_right₀ one_le_two (by norm_num)))

/-- A whole number of at most 53 bits is spelled with its digits. -/
theorem formatRounded_intCast {value : Int} (small : |value| < 2 ^ 53) :
    (ofRat (value : Rat)).formatRounded = .ok (signedDigits value) := by
  have rounded : (whole value).toBinary64 = .ok (.finite value) := by
    rw [toBinary64, Binary64.ofRat_of_fits (fits_intCast small), Binary64.nearest_intCast small]
    rfl
  rw [ofRat_intCast, formatRounded]
  refine bind_eq_ok_iff.mpr ⟨_, rounded, ?_⟩
  rw [Binary64.format, Binary64.formatFinite_intCast]

/-- Two whole numbers of at most 53 bits that are spelled alike are the same. -/
theorem eq_of_formatRounded {value other : Int} (small : |value| < 2 ^ 53)
    (smallToo : |other| < 2 ^ 53)
    (same : (ofRat (value : Rat)).formatRounded = (ofRat (other : Rat)).formatRounded) :
    value = other := by
  rw [formatRounded_intCast small, formatRounded_intCast smallToo, Except.ok.injEq] at same
  exact signedDigits_injective same

end DiagramSketch.Number
