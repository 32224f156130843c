import DiagramSketch.Number.Format
import Mathlib

/-!
# Where numbers become too large

A rational rounds to a double-precision number exactly when it lies below the midpoint between
the largest of these numbers and the next power of two: `le_abs_nearest_iff_overflow`.  A number of
a drawing has a spelling exactly when it fits in this sense.
-/

namespace DiagramSketch.Number

/-- Half the distance of the largest double-precision number to the next power of two, below that
power. Values from here on round to it. -/
def overflowStart : Rat :=
  2 ^ (1024 : Nat) - 2 ^ (970 : Nat)

theorem ratAbs_eq_abs (value : Rat) : value.abs = |value| := by
  rcases le_total 0 value with nonneg | nonpos
  · rw [Rat.abs_of_nonneg nonneg, abs_of_nonneg nonneg]
  · rw [Rat.abs_of_nonpos nonpos, abs_of_nonpos nonpos]

/-- A whole number lies between the two powers of two that its logarithm tells. -/
theorem log2_bounds {count : Nat} (some : count ≠ 0) :
    (2 : Rat) ^ (count.log2 : Int) ≤ count ∧
      (count : Rat) < (2 : Rat) ^ ((count.log2 : Int) + 1) := by
  have lower : 2 ^ count.log2 ≤ count := Nat.log2_self_le some
  have upper : count < 2 ^ (count.log2 + 1) := Nat.lt_log2_self
  constructor
  · exact_mod_cast lower
  · exact_mod_cast upper

theorem floorLog2_bounds {value : Rat} (positive : 0 < value) :
    (2 : Rat) ^ floorLog2 value ≤ value ∧ value < (2 : Rat) ^ (floorLog2 value + 1) := by
  set count : Nat := value.num.natAbs with countIs
  have denPositive : (0 : Rat) < value.den := by exact_mod_cast value.den_pos
  have numPositive : 0 < value.num := Rat.num_pos.mpr positive
  have fraction : value * value.den = count := by
    have magnitude : (count : Int) = value.num := Int.natAbs_of_nonneg numPositive.le
    rw [Rat.mul_den_eq_num, ← magnitude]
    rfl
  have counted : count ≠ 0 := by omega
  obtain ⟨countLower, countUpper⟩ := log2_bounds counted
  obtain ⟨denLower, denUpper⟩ := log2_bounds value.den_nz
  -- Dividing the bounds of the numerator by those of the denominator leaves two candidates.
  have above : value < (2 : Rat) ^ ((count.log2 : Int) - value.den.log2 + 1) := by
    have power : (2 : Rat) ^ ((count.log2 : Int) - value.den.log2 + 1) * 2 ^ (value.den.log2 : Int)
        = 2 ^ ((count.log2 : Int) + 1) := by
      rw [← zpow_add₀ two_ne_zero]
      congr 1
      ring
    have scaled := mul_le_mul_of_nonneg_left denLower
      (zpow_nonneg (zero_le_two (α := Rat)) ((count.log2 : Int) - value.den.log2 + 1))
    nlinarith
  have below : (2 : Rat) ^ ((count.log2 : Int) - value.den.log2 - 1) < value := by
    have power : (2 : Rat) ^ ((count.log2 : Int) - value.den.log2 - 1)
        * 2 ^ ((value.den.log2 : Int) + 1) = 2 ^ (count.log2 : Int) := by
      rw [← zpow_add₀ two_ne_zero]
      congr 1
      ring
    have scaled := mul_lt_mul_of_pos_left denUpper
      (zpow_pos (zero_lt_two (α := Rat)) ((count.log2 : Int) - value.den.log2 - 1))
    nlinarith
  unfold floorLog2
  simp only [← countIs]
  split
  · next small => exact ⟨below.le, by simpa using small⟩
  · next large => exact ⟨not_lt.mp large, above⟩

theorem floorLog2_lt_iff {value : Rat} (positive : 0 < value) (exponent : Int) :
    floorLog2 value < exponent ↔ value < (2 : Rat) ^ exponent := by
  obtain ⟨lower, upper⟩ := floorLog2_bounds positive
  constructor
  · intro less
    exact upper.trans_le (zpow_le_zpow_right₀ one_le_two (by omega))
  · intro less
    exact (zpow_lt_zpow_iff_right₀ one_lt_two).mp (lower.trans_lt less)

/-- Rounding goes to an integer at most a half away, and where it is a half away to an even one. -/
theorem roundHalfEven_spec (value : Rat) :
    |value - roundHalfEven value| ≤ 1 / 2 ∧
      (|value - roundHalfEven value| = 1 / 2 → roundHalfEven value % 2 = 0) := by
  have lower : (value.floor : Rat) ≤ value := Rat.floor_le value
  have upper : value < value.floor + 1 := by exact_mod_cast Rat.lt_floor_add_one value
  simp only [roundHalfEven]
  split_ifs with small large tie
  · rw [abs_of_nonneg (by linarith)]
    exact ⟨by linarith, fun half => absurd half (by linarith)⟩
  · push_cast
    rw [abs_of_nonpos (by linarith)]
    exact ⟨by linarith, fun half => absurd half (by linarith)⟩
  · rw [abs_of_nonneg (by linarith)]
    exact ⟨by linarith, fun _ => tie⟩
  · push_cast
    rw [abs_of_nonpos (by linarith)]
    exact ⟨by linarith, fun _ => by omega⟩

theorem le_roundHalfEven_iff {whole : Int} (even : whole % 2 = 0) (value : Rat) :
    whole ≤ roundHalfEven value ↔ (whole : Rat) - 1 / 2 ≤ value := by
  obtain ⟨near, tie⟩ := roundHalfEven_spec value
  rw [abs_le] at near
  constructor
  · intro reached
    have cast : (whole : Rat) ≤ roundHalfEven value := by exact_mod_cast reached
    linarith
  · intro close
    by_contra short
    have before : roundHalfEven value ≤ whole - 1 := by omega
    have cast : (roundHalfEven value : Rat) ≤ whole - 1 := by exact_mod_cast before
    have equal : (roundHalfEven value : Rat) = whole - 1 := by linarith
    have half : |value - roundHalfEven value| = 1 / 2 := by
      rw [abs_of_nonneg (by linarith)]
      linarith
    have whole' : roundHalfEven value = whole - 1 := by exact_mod_cast equal
    have := tie half
    omega

theorem roundHalfEven_le_iff {whole : Int} (even : whole % 2 = 0) (value : Rat) :
    roundHalfEven value ≤ whole ↔ value ≤ (whole : Rat) + 1 / 2 := by
  obtain ⟨near, tie⟩ := roundHalfEven_spec value
  rw [abs_le] at near
  constructor
  · intro reached
    have cast : (roundHalfEven value : Rat) ≤ whole := by exact_mod_cast reached
    linarith
  · intro close
    by_contra beyond
    have after : whole + 1 ≤ roundHalfEven value := by omega
    have cast : (whole : Rat) + 1 ≤ roundHalfEven value := by exact_mod_cast after
    have equal : (roundHalfEven value : Rat) = whole + 1 := by linarith
    have half : |value - roundHalfEven value| = 1 / 2 := by
      rw [abs_of_nonpos (by linarith)]
      linarith
    have whole' : roundHalfEven value = whole + 1 := by exact_mod_cast equal
    have := tie half
    omega

/-- The magnitude of what a value is rounded to reaches an even number half below it. -/
theorem le_abs_roundHalfEven_iff {whole : Int} (even : whole % 2 = 0)
    (value : Rat) : whole ≤ |roundHalfEven value| ↔ (whole : Rat) - 1 / 2 ≤ |value| := by
  have negated : (-whole) % 2 = 0 := by omega
  rw [le_abs, le_abs, le_neg, le_roundHalfEven_iff even, roundHalfEven_le_iff negated]
  push_cast
  constructor
  · rintro (above | below)
    · exact .inl above
    · exact .inr (by linarith)
  · rintro (above | below)
    · exact .inl above
    · exact .inr (by linarith)

namespace Binary64

theorem abs_nearest {value : Rat} (nonzero : value ≠ 0) :
    |nearest value| = (|roundHalfEven (value / 2 ^ unitExponent |value|)| : Int)
      * (2 : Rat) ^ unitExponent |value| := by
  have unitPositive : (0 : Rat) < 2 ^ unitExponent |value| := zpow_pos two_pos _
  simp only [nearest, if_neg nonzero, ratAbs_eq_abs]
  rw [abs_mul, abs_of_pos unitPositive, Int.cast_abs]

/-- How many units a value has decides whether it reaches an even number of them by rounding. -/
theorem le_abs_nearest_iff {value : Rat} (nonzero : value ≠ 0) {count : Int}
    (even : count % 2 = 0) :
    count * (2 : Rat) ^ unitExponent |value| ≤ |nearest value| ↔
      ((count : Rat) - 1 / 2) * 2 ^ unitExponent |value| ≤ |value| := by
  have unitPositive : (0 : Rat) < 2 ^ unitExponent |value| := zpow_pos two_pos _
  rw [abs_nearest nonzero, mul_le_mul_iff_left₀ unitPositive, Int.cast_le,
    le_abs_roundHalfEven_iff even, abs_div, abs_of_pos unitPositive,
    le_div_iff₀ unitPositive]

theorem unitExponent_of_le {magnitude : Rat} {exponent : Int} (positive : 0 < magnitude)
    (large : (2 : Rat) ^ exponent ≤ magnitude) (enough : -1022 ≤ exponent) :
    unitExponent magnitude = floorLog2 magnitude - 52 ∧ exponent ≤ floorLog2 magnitude := by
  have reached : ¬ floorLog2 magnitude < exponent := by
    rw [floorLog2_lt_iff positive]
    exact not_lt.mpr large
  unfold unitExponent
  omega

/-- The powers of two about the largest double-precision number, by the half of its unit. -/
theorem exists_halfUnit : ∃ half : Rat, 0 < half ∧ (2 : Rat) ^ (971 : Int) = 2 * half ∧
    (2 : Rat) ^ (1023 : Int) = 2 ^ 53 * half ∧ (2 : Rat) ^ (1024 : Nat) = 2 ^ 54 * half ∧
    overflowStart = 2 ^ 54 * half - half := by
  have last : (2 : Rat) ^ (1024 : Nat) = 2 ^ 54 * 2 ^ (970 : Nat) := pow_add 2 54 970
  refine ⟨2 ^ (970 : Nat), pow_pos two_pos _, ?_, ?_, last, ?_⟩
  · exact (zpow_natCast 2 971).trans (pow_succ' 2 970)
  · exact (zpow_natCast 2 1023).trans (pow_add 2 53 970)
  · rw [overflowStart, last]

theorem abs_nearest_lt_of_small {value : Rat} (nonzero : value ≠ 0)
    (small : |value| < (2 : Rat) ^ (1023 : Int)) : |nearest value| < (2 : Rat) ^ (1024 : Nat) := by
  have exponent : unitExponent |value| ≤ 970 := by
    have bound := (floorLog2_lt_iff (abs_pos.mpr nonzero) 1023).mpr small
    unfold unitExponent
    omega
  set unit : Int := unitExponent |value| with unitIs
  obtain ⟨places, placesIs⟩ : ∃ places : Nat, (places : Int) = 1023 - unit :=
    ⟨(1023 - unit).toNat, by omega⟩
  have count : ((2 ^ (places + 1) : Int) : Rat) * 2 ^ unit = 2 ^ (1024 : Nat) := by
    push_cast
    rw [← zpow_natCast, ← zpow_natCast, ← zpow_add₀ two_ne_zero]
    congr 1
    push_cast
    omega
  obtain ⟨half, positive, -, before, last, -⟩ := exists_halfUnit
  have unitSmall : (2 : Rat) ^ unit ≤ 2 ^ (1023 : Int) :=
    zpow_le_zpow_right₀ one_le_two (by omega)
  by_contra reached
  rw [not_lt, ← count, unitIs, le_abs_nearest_iff nonzero (by rw [pow_succ]; omega), ← unitIs,
    sub_mul, count, last] at reached
  rw [before] at small unitSmall
  linarith only [small, unitSmall, reached, positive]

/-- In the last binary order of magnitude the overflow begins at the last half unit. -/
theorem le_abs_nearest_iff_of_last {value : Rat} (large : (2 : Rat) ^ (1023 : Int) ≤ |value|)
    (bounded : |value| < (2 : Rat) ^ (1024 : Nat)) :
    (2 : Rat) ^ (1024 : Nat) ≤ |nearest value| ↔ overflowStart ≤ |value| := by
  obtain ⟨half, -, unitPower, -, last, start⟩ := exists_halfUnit
  have positive : 0 < |value| := (zpow_pos two_pos _).trans_le large
  have upper := (floorLog2_lt_iff positive 1024).mpr bounded
  obtain ⟨exponent, lower⟩ := unitExponent_of_le positive large (by norm_num)
  have unit : unitExponent |value| = 971 := by omega
  have count : ((2 ^ 53 : Int) : Rat) * 2 ^ unitExponent |value| = 2 ^ (1024 : Nat) := by
    rw [unit, unitPower, last]
    push_cast
    ring
  have midpoint : overflowStart = (((2 ^ 53 : Int) : Rat) - 1 / 2) * 2 ^ unitExponent |value| := by
    rw [sub_mul, count, unit, unitPower, start, last]
    ring
  rw [← count, le_abs_nearest_iff (abs_pos.mp positive) (by norm_num), midpoint]

theorem le_abs_nearest_of_large {value : Rat} (large : (2 : Rat) ^ (1024 : Nat) ≤ |value|) :
    (2 : Rat) ^ (1024 : Nat) ≤ |nearest value| := by
  rw [← zpow_natCast] at large ⊢
  have positive : 0 < |value| := (zpow_pos two_pos _).trans_le large
  obtain ⟨exponent, lower⟩ := unitExponent_of_le positive large (by norm_num)
  have count : ((2 ^ 52 : Int) : Rat) * 2 ^ unitExponent |value| = 2 ^ floorLog2 |value| := by
    have power : ((2 ^ 52 : Int) : Rat) = 2 ^ (52 : Int) := by norm_num
    rw [power, exponent, ← zpow_add₀ two_ne_zero]
    congr 1
    omega
  have reached : ((2 ^ 52 : Int) : Rat) * 2 ^ unitExponent |value| ≤ |nearest value| := by
    rw [le_abs_nearest_iff (abs_pos.mp positive) (by norm_num), sub_mul, count]
    have unitPositive : (0 : Rat) < 2 ^ unitExponent |value| := zpow_pos two_pos _
    have bound := (floorLog2_bounds positive).1
    linarith
  rw [count] at reached
  exact (zpow_le_zpow_right₀ one_le_two lower).trans reached

/-- A value overflows exactly from the midpoint above the largest double-precision number on. -/
theorem le_abs_nearest_iff_overflow (value : Rat) :
    (2 : Rat) ^ (1024 : Nat) ≤ |nearest value| ↔ overflowStart ≤ |value| := by
  obtain ⟨half, positive, -, before, last, start⟩ := exists_halfUnit
  by_cases nonzero : value = 0
  · have neither : ¬ (2 : Rat) ^ (1024 : Nat) ≤ 0 ∧ ¬ overflowStart ≤ 0 := by
      rw [start, last]
      constructor <;> intro reached <;> linarith only [reached, positive]
    simp only [nonzero, nearest, abs_zero, if_pos, neither.1, neither.2]
  · rcases lt_or_ge |value| (2 ^ (1023 : Int)) with small | large
    · have below := abs_nearest_lt_of_small nonzero small
      have short : ¬ overflowStart ≤ |value| := by
        rw [before] at small
        rw [start]
        intro reached
        linarith only [reached, small, positive]
      simp only [short, iff_false, not_le, below]
    · rcases lt_or_ge |value| (2 ^ (1024 : Nat)) with bounded | beyond
      · exact le_abs_nearest_iff_of_last large bounded
      · refine ⟨fun _ => ?_, fun _ => le_abs_nearest_of_large beyond⟩
        rw [last] at beyond
        rw [start]
        linarith only [beyond, positive]

end Binary64

end DiagramSketch.Number
