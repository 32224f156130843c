import DiagramSketch.Proofs.Number.Decimals
import DiagramSketch.Proofs.Number.Order

/-!
# How far a spelling is off

Rounding to double precision changes a value by a tiny part of it, so that the billionth by which a
value may differ from a whole number is one in effect.  A spelling is off by half a thousandth, or
by the part of the value by which it may be as good as whole; halves are spelled as they are.
-/

namespace DiagramSketch.Number

namespace Binary64

/-! ## The error of rounding -/

theorem abs_nearest_sub_le (value : Rat) :
    |nearest value - value| ≤ 2 ^ unitExponent |value| / 2 := by
  have unitPositive : (0 : Rat) < 2 ^ unitExponent |value| := zpow_pos two_pos _
  rcases eq_or_ne value 0 with rfl | nonzero
  · rw [nearest_zero, sub_zero, abs_zero]
    exact (half_pos (zpow_pos two_pos _)).le
  · set unit : Rat := 2 ^ unitExponent |value| with unitIs
    have near := (roundHalfEven_spec (value / unit)).1
    have scaled : nearest value - value = (roundHalfEven (value / unit) - value / unit) * unit := by
      rw [nearest_eq nonzero, ← unitIs, sub_mul, div_mul_cancel₀ value unitPositive.ne']
    calc |nearest value - value|
        _ = |value / unit - roundHalfEven (value / unit)| * unit := by
          rw [scaled, abs_mul, abs_of_pos unitPositive, abs_sub_comm]
        _ ≤ 1 / 2 * unit := mul_le_mul_of_nonneg_right near unitPositive.le
        _ = unit / 2 := by ring

/-- The largest relative error where no value is too small for it. -/
def roundoff : Rat :=
  1 / 2 ^ 53

theorem abs_nearest_sub_le_roundoff {value : Rat} {exponent : Int}
    (large : (2 : Rat) ^ exponent ≤ value) (enough : -1022 ≤ exponent) :
    |nearest value - value| ≤ roundoff * value := by
  have positive : 0 < value := (zpow_pos two_pos _).trans_le large
  obtain ⟨unit, -⟩ := unitExponent_of_le positive large enough
  have small : (2 : Rat) ^ unitExponent value / 2 ≤ roundoff * value := by
    have power : (2 : Rat) ^ unitExponent value = 2 ^ floorLog2 value / 2 ^ 52 := by
      rw [unit, zpow_sub₀ two_ne_zero]
      rfl
    have lower := (floorLog2_bounds positive).1
    rw [power, roundoff]
    linarith
  have error := abs_nearest_sub_le value
  rw [abs_of_pos positive] at error
  exact error.trans small

/-! ## As good as whole -/

theorem abs_closeness_sub_le : |closeness - 1 / 10 ^ 9| ≤ roundoff / 10 ^ 9 := by
  have large : (2 : Rat) ^ (-30 : Int) ≤ 1 / 10 ^ 9 := by norm_num
  have error := abs_nearest_sub_le_roundoff large (by decide)
  have same : nearest (1 / 10 ^ 9) = closeness := by
    rw [closeness]
    norm_num
  rw [same] at error
  exact error.trans (le_of_eq (by ring))

/-- A billionth of a number that is not small is no more than that by far when it is rounded. -/
theorem nearest_closeness_mul_le {size : Rat} (large : 1 ≤ size) :
    nearest (closeness * size) ≤ 9 / 8 * (size / 10 ^ 9) := by
  obtain ⟨lower, upper⟩ := abs_le.mp abs_closeness_sub_le
  rw [roundoff] at lower upper
  have normal : (2 : Rat) ^ (-31 : Int) ≤ closeness * size := by
    have start : (2 : Rat) ^ (-31 : Int) ≤ closeness := by
      norm_num at lower ⊢
      linarith
    exact start.trans (le_mul_of_one_le_right ((zpow_pos two_pos _).le.trans start) large)
  have error := (abs_le.mp (abs_nearest_sub_le_roundoff normal (by decide))).2
  have product : closeness * size ≤ (1 + roundoff) * (size / 10 ^ 9) := by
    have scaled := mul_le_mul_of_nonneg_right upper (zero_le_one.trans large)
    rw [roundoff]
    linarith
  calc nearest (closeness * size)
      _ ≤ (1 + roundoff) * (closeness * size) := by linarith
      _ ≤ (1 + roundoff) * ((1 + roundoff) * (size / 10 ^ 9)) :=
        mul_le_mul_of_nonneg_left product (by norm_num [roundoff])
      _ ≤ 9 / 8 * (size / 10 ^ 9) := by
        rw [← mul_assoc]
        refine mul_le_mul_of_nonneg_right (by norm_num [roundoff]) ?_
        exact div_nonneg (zero_le_one.trans large) (by norm_num)

theorem closeness_nonneg : 0 ≤ closeness :=
  nearest_nonneg (by norm_num)

theorem abs_roundHalfEven_le (value : Rat) : |(roundHalfEven value : Rat)| ≤ |value| + 1 / 2 := by
  have near := (roundHalfEven_spec value).1
  rw [abs_sub_comm] at near
  have apart := abs_add_le ((roundHalfEven value : Rat) - value) value
  rw [sub_add_cancel] at apart
  linarith

/-- What is as good as whole differs from this by a billionth of it, and little more. -/
theorem abs_sub_le_of_isCloseTo {value : Rat} (close : isCloseTo value (roundHalfEven value)) :
    |(roundHalfEven value : Rat) - value| ≤ 9 / 8 * ((|value| + 1) / 10 ^ 9) := by
  have large : 1 ≤ |value| + 1 := le_add_of_nonneg_left (abs_nonneg value)
  have wide {size : Rat} (small : size ≤ |value| + 1) :
      nearest (closeness * size) ≤ 9 / 8 * ((|value| + 1) / 10 ^ 9) :=
    (nearest_monotone (mul_le_mul_of_nonneg_left small closeness_nonneg)).trans
      (nearest_closeness_mul_le large)
  simp only [isCloseTo, ratAbs_eq_abs, Bool.or_eq_true, beq_iff_eq, decide_eq_true_eq] at close
  rcases close with (same | ofWhole) | ofValue
  · rw [← same, sub_self, abs_zero]
    exact mul_nonneg (by norm_num) (div_nonneg (zero_le_one.trans large) (by norm_num))
  · exact ofWhole.trans (wide (by linarith [abs_roundHalfEven_le value]))
  · exact ofValue.trans (wide (le_add_of_nonneg_right zero_le_one))

/-! ## Spellings -/

theorem cast_thousandthCount (value : Rat) :
    (thousandthCount value : Rat) = roundHalfEven (1000 * |value|) := by
  have nonneg : 0 ≤ roundHalfEven (1000 * |value|) :=
    le_roundHalfEven (by simp)
  rw [thousandthCount, ratAbs_eq_abs]
  exact_mod_cast Int.toNat_of_nonneg nonneg

/-- A magnitude that is given the sign of a value is as far from this as without the signs. -/
theorem abs_signed_sub {value magnitude : Rat} :
    |(if value < 0 then -magnitude else magnitude) - value| = |(magnitude - |value|)| := by
  split
  · next negative =>
      rw [abs_of_neg negative, ← abs_neg]
      congr 1
      ring
  · next nonneg => rw [abs_of_nonneg (not_lt.mp nonneg)]

/-- The spelling of a value is that of one near by. -/
theorem exists_spells_formatFinite (value : Rat) : ∃ spelled, Spells (formatFinite value) spelled ∧
    |spelled - value| ≤ max (1 / 2000) (2 / 10 ^ 9 * |value|) := by
  simp only [formatFinite]
  split
  · next close =>
      refine ⟨_, spells_signedDigits _, (abs_sub_le_of_isCloseTo close).trans ?_⟩
      rcases le_total |value| 2 with small | large
      · exact le_max_of_le_left (by linarith)
      · exact le_max_of_le_right (by linarith)
  · refine ⟨_, spells_thousandths value, le_max_of_le_left ?_⟩
    have near := (roundHalfEven_spec (1000 * |value|)).1
    rw [abs_signed_sub, cast_thousandthCount]
    rw [abs_le] at near ⊢
    constructor <;> linarith

-- The zero of a whole number stays where rounding to thousandths leads to one.
example : formatFinite (99996 / 10000) = "10".toList := by decide +kernel

/-- A whole number of thousandths is spelled as it is. -/
theorem spells_thousandths_of_count {value : Rat} {count : Int} (exact : 1000 * value = count) :
    Spells (thousandths value) value := by
  have magnitude : 1000 * |value| = (|count| : Int) := by
    rw [Int.cast_abs, ← exact, abs_mul, abs_of_pos (by norm_num : (0 : Rat) < 1000)]
  have counted : (thousandthCount value : Rat) = 1000 * |value| := by
    rw [cast_thousandthCount, magnitude, roundHalfEven_intCast]
  have same : (if value < 0 then -((thousandthCount value : Rat) / 1000)
      else (thousandthCount value : Rat) / 1000) = value := by
    rw [← sub_eq_zero, ← abs_eq_zero, abs_signed_sub, counted, abs_eq_zero]
    ring
  have spells := spells_thousandths value
  rwa [same] at spells

/-- What is half-way between two integers is at least a half away from each integer. -/
theorem half_le_abs_sub (whole other : Int) :
    1 / 2 ≤ |(whole : Rat) - (2 * other + 1 : Int) / 2| := by
  have nonzero : 2 * whole - (2 * other + 1) ≠ 0 := by omega
  have apart : (1 : Rat) ≤ |((2 * whole - (2 * other + 1) : Int) : Rat)| := by
    exact_mod_cast Int.one_le_abs nonzero
  have double : ((2 * whole - (2 * other + 1) : Int) : Rat) =
      2 * ((whole : Rat) - (2 * other + 1 : Int) / 2) := by
    push_cast
    ring
  rw [double, abs_mul, abs_two] at apart
  linarith

/-- Halves that are not too large are spelled as they are. -/
theorem spells_formatFinite_half {halves : Int} (small : |(halves / 2 : Rat)| < 4 * 10 ^ 8) :
    Spells (formatFinite (halves / 2)) (halves / 2) := by
  rcases Int.even_or_odd' halves with ⟨whole, rfl | rfl⟩
  · have same : ((2 * whole : Int) : Rat) / 2 = whole := by
      push_cast
      ring
    rw [same, formatFinite_intCast]
    exact spells_signedDigits whole
  · set value : Rat := ((2 * whole + 1 : Int) : Rat) / 2 with valueIs
    have notClose : ¬ isCloseTo value (roundHalfEven value) = true := by
      intro close
      have near := abs_sub_le_of_isCloseTo close
      have apart := half_le_abs_sub (roundHalfEven value) whole
      linarith
    have count : 1000 * value = (500 * (2 * whole + 1) : Int) := by
      rw [valueIs]
      push_cast
      ring
    simp only [formatFinite, if_neg notClose]
    exact spells_thousandths_of_count count

end Binary64

/-! ## Numbers -/

theorem format_of_fits {value : Int} (fits : Fits value) :
    (whole value).format = .ok (signedDigits value) := by
  rw [format, toBinary64, Binary64.ofRat_of_fits fits]
  rfl

theorem format_eq_error_iff {number : Number} : (∃ fault, number.format = .error fault) ↔
    number = .binary .nan ∨ (∃ negative, number = .binary (.infinite negative)) ∨
      ∃ value : Int, number = .whole value ∧ overflowStart ≤ |(value : Rat)| := by
  cases number with
  | whole value =>
      simp only [reduceCtorEq, exists_false, false_or, whole.injEq]
      rw [exists_eq_left']
      by_cases fits : Fits value
      · rw [format_of_fits fits]
        exact iff_of_false (fun ⟨_, failure⟩ => nomatch failure) (not_le.mpr fits)
      · rw [← ofRat_intCast, format_of_not_fits fits]
        exact iff_of_true ⟨_, rfl⟩ (not_lt.mp fits)
  | binary value =>
      cases value with
      | finite value => simp [format, Binary64.format]
      | infinite negative => simp [format, Binary64.format]
      | nan => simp [format, Binary64.format]

/-- A finite value is spelled as a plain decimal number near by, and halves are spelled as they are
unless they are very large.  A whole number that fits is spelled by its digits.  Whatever is not a
number, infinite or too large has no spelling, and nothing else.  A text spells one number only. -/
theorem format_accurate :
    (∀ value : Rat, ∃ text spelled, (binary (.finite value)).format = .ok text ∧
      Spells text spelled ∧ |spelled - value| ≤ max (1 / 2000) (2 / 10 ^ 9 * |value|)) ∧
    (∀ halves : Int, |(halves / 2 : Rat)| < 4 * 10 ^ 8 →
      ∃ text, (binary (.finite (halves / 2))).format = .ok text ∧ Spells text (halves / 2)) ∧
    (∀ value : Int, Fits value →
      (whole value).format = .ok (signedDigits value) ∧ Spells (signedDigits value) value) ∧
    (∀ number : Number, (∃ fault, number.format = .error fault) ↔
      number = .binary .nan ∨ (∃ negative, number = .binary (.infinite negative)) ∨
        ∃ value : Int, number = .whole value ∧ overflowStart ≤ |(value : Rat)|) ∧
    (∀ (text : Text) (value other : Rat), Spells text value → Spells text other →
      value = other) := by
  refine ⟨?_, ?_, ?_, ?_, ?_⟩
  · intro value
    obtain ⟨spelled, spells, near⟩ := Binary64.exists_spells_formatFinite value
    exact ⟨_, spelled, rfl, spells, near⟩
  · intro halves small
    exact ⟨_, rfl, Binary64.spells_formatFinite_half small⟩
  · intro value fits
    exact ⟨format_of_fits fits, spells_signedDigits value⟩
  · intro number
    exact format_eq_error_iff
  · intro text value other spells spellsToo
    exact spells.unique spellsToo

/-- A negative half, and a whole number with more digits than a double keeps. -/
theorem format_accurate_half_and_long_whole :
    |((-7 : Int) / 2 : Rat)| < 4 * 10 ^ 8 ∧
      (∃ text, (binary (.finite ((-7 : Int) / 2))).format = .ok text ∧
        Spells text ((-7 : Int) / 2)) ∧
      Fits ((10 ^ 30 + 1 : Int) : Rat) ∧
      (whole (10 ^ 30 + 1)).format = .ok (signedDigits (10 ^ 30 + 1)) := by
  have small : |((-7 : Int) / 2 : Rat)| < 4 * 10 ^ 8 := by norm_num [abs_div]
  have fits : Fits ((10 ^ 30 + 1 : Int) : Rat) := fits_of_abs_le (by norm_num)
  exact ⟨small, format_accurate.2.1 (-7) small, fits, (format_accurate.2.2.1 _ fits).1⟩

end DiagramSketch.Number
