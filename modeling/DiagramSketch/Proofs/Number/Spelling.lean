import DiagramSketch.Proofs.Number.Overflow
import DiagramSketch.Proofs.Results

/-!
# The spelling of numbers

A number has a spelling exactly when it fits the doubles, and the spelling is made of decimal
digits, a minus sign and a point.
-/

namespace DiagramSketch.Number

/-- Values that round to a double-precision number. -/
def Fits (value : Rat) : Prop :=
  |value| < overflowStart

theorem Fits.of_abs_le {value bound : Rat} (fits : Fits bound) (small : |value| ≤ bound) :
    Fits value :=
  (small.trans (le_abs_self bound)).trans_lt fits

/-- Values up to a large power of two fit, by far. -/
theorem fits_of_abs_le {value : Rat} (small : |value| ≤ 2 ^ (200 : Nat)) : Fits value := by
  have last : (2 : Rat) ^ (1024 : Nat) = 2 ^ 54 * 2 ^ (970 : Nat) := pow_add 2 54 970
  have below : (2 : Rat) ^ (200 : Nat) ≤ 2 ^ (970 : Nat) :=
    pow_le_pow_right₀ one_le_two (by norm_num)
  have positive : (0 : Rat) < 2 ^ (970 : Nat) := pow_pos two_pos _
  rw [Fits, overflowStart, last]
  generalize (2 : Rat) ^ (970 : Nat) = unit at below positive ⊢
  linarith

namespace Binary64

theorem ofRat_of_fits {value : Rat} (fits : Fits value) :
    ofRat value = .finite (nearest value) := by
  have bounded : ¬ (2 : Rat) ^ (1024 : Nat) ≤ |nearest value| := by
    rw [le_abs_nearest_iff_overflow]
    exact not_le.mpr fits
  simp only [ofRat, ratAbs_eq_abs, if_neg bounded]

theorem ofRat_of_not_fits {value : Rat} (overflows : ¬ Fits value) :
    ofRat value = .infinite (value < 0) := by
  have reached : (2 : Rat) ^ (1024 : Nat) ≤ |nearest value| := by
    rw [le_abs_nearest_iff_overflow]
    exact not_lt.mp overflows
  simp only [ofRat, ratAbs_eq_abs, if_pos reached]

end Binary64

/-- The characters of numerals. -/
def isNumeralChar (character : Char) : Bool :=
  character.isDigit || character == '-' || character == '.'

/-- A text that spells a number. -/
def IsNumeral (text : Text) : Prop :=
  ∀ character ∈ text, isNumeralChar character = true

theorem isNumeral_digits (value : Nat) : IsNumeral (digits value) := by
  intro character member
  have digit := Nat.isDigit_of_mem_toDigits (by decide) (by decide) member
  simp [isNumeralChar, digit]

theorem IsNumeral.negative {text : Text} (numeral : IsNumeral text) : IsNumeral ('-' :: text) :=
  List.forall_mem_cons.mpr ⟨rfl, numeral⟩

theorem isNumeral_signedDigits (value : Int) : IsNumeral (signedDigits value) := by
  unfold signedDigits
  split
  · exact (isNumeral_digits _).negative
  · exact isNumeral_digits _

theorem isNumeral_thousandthDigits (count : Nat) : IsNumeral (thousandthDigits count) := by
  intro character member
  have kept : character ∈ [count / 100 % 10, count / 10 % 10, count % 10].map Nat.digitChar := by
    have inside := (List.dropWhile_sublist _).mem (List.mem_reverse.mp member)
    exact List.mem_reverse.mp inside
  obtain ⟨digit, place, rfl⟩ := List.mem_map.mp kept
  have small : digit < 10 := by
    simp only [List.mem_cons, List.not_mem_nil, or_false] at place
    omega
  simp [isNumeralChar, Nat.isDigit_digitChar, small]

theorem isNumeral_thousandths (value : Rat) : IsNumeral (thousandths value) := by
  have unsigned (whole count : Nat) :
      IsNumeral (if (thousandthDigits count).isEmpty then digits whole
        else digits whole ++ '.' :: thousandthDigits count) := by
    split
    · exact isNumeral_digits whole
    · refine List.forall_mem_append.mpr ⟨isNumeral_digits whole, ?_⟩
      exact List.forall_mem_cons.mpr ⟨rfl, isNumeral_thousandthDigits count⟩
  unfold thousandths
  simp only
  split
  · exact (unsigned _ _).negative
  · exact unsigned _ _

theorem Binary64.isNumeral_formatFinite (value : Rat) : IsNumeral (formatFinite value) := by
  unfold formatFinite
  simp only
  split
  · exact isNumeral_signedDigits _
  · exact isNumeral_thousandths value

theorem Binary64.isNumeral_of_format {value : Binary64} {text : Text}
    (spelled : value.format = .ok text) : IsNumeral text := by
  cases value with
  | finite value =>
      cases spelled
      exact isNumeral_formatFinite value
  | infinite negative => cases spelled
  | nan => cases spelled

theorem isNumeral_of_format {number : Number} {text : Text} (spelled : number.format = .ok text) :
    IsNumeral text := by
  cases number with
  | whole value =>
      obtain ⟨rounded, -, rfl⟩ := map_eq_ok_iff.mp spelled
      exact isNumeral_signedDigits value
  | binary value => exact Binary64.isNumeral_of_format spelled

theorem isNumeral_of_formatRounded {number : Number} {text : Text}
    (spelled : number.formatRounded = .ok text) : IsNumeral text := by
  obtain ⟨rounded, -, found⟩ := bind_eq_ok_iff.mp spelled
  exact Binary64.isNumeral_of_format found

theorem toBinary64_ofRat {value : Rat} (fits : Fits value) :
    ∃ rounded, (ofRat value).toBinary64 = .ok (.finite rounded) := by
  have finite := Binary64.ofRat_of_fits fits
  unfold ofRat
  split
  · next isWhole =>
      have same : ((value.num : Int) : Rat) = value := Rat.coe_int_num_of_den_eq_one isWhole
      rw [toBinary64, same, finite]
      exact ⟨_, rfl⟩
  · rw [finite]
    exact ⟨_, rfl⟩

theorem exists_formatRounded {value : Rat} (fits : Fits value) :
    ∃ text, (ofRat value).formatRounded = .ok text := by
  obtain ⟨rounded, found⟩ := toBinary64_ofRat fits
  exact ⟨_, bind_eq_ok_iff.mpr ⟨_, found, rfl⟩⟩

theorem exists_format {value : Rat} (fits : Fits value) :
    ∃ text, (ofRat value).format = .ok text := by
  obtain ⟨rounded, found⟩ := toBinary64_ofRat fits
  cases shape : ofRat value with
  | whole count =>
      rw [shape] at found
      exact ⟨_, map_eq_ok_iff.mpr ⟨_, found, rfl⟩⟩
  | binary double =>
      rw [shape] at found
      cases found
      exact ⟨_, rfl⟩

theorem Binary64.nearest_pos {value : Rat} (large : 1 ≤ value) : 0 < nearest value := by
  have positive : 0 < value := zero_lt_one.trans_le large
  have unitPositive : (0 : Rat) < 2 ^ unitExponent |value| := zpow_pos two_pos _
  have unitSmall : (2 : Rat) ^ unitExponent |value| ≤ value := by
    obtain ⟨lower, -⟩ := floorLog2_bounds positive
    rw [abs_of_pos positive, unitExponent]
    rcases le_total (floorLog2 value - 52) (-1074) with tiny | normal
    · rw [max_eq_right tiny]
      exact (zpow_le_one_of_nonpos₀ one_le_two (by norm_num)).trans large
    · rw [max_eq_left normal]
      exact (zpow_le_zpow_right₀ one_le_two (by omega)).trans lower
  have rounded : 0 < roundHalfEven (value / 2 ^ unitExponent |value|) := by
    obtain ⟨near, -⟩ := roundHalfEven_spec (value / 2 ^ unitExponent |value|)
    have count : 1 ≤ value / 2 ^ unitExponent |value| := (one_le_div unitPositive).mpr unitSmall
    rw [abs_le] at near
    have reached : (0 : Rat) < roundHalfEven (value / 2 ^ unitExponent |value|) := by linarith
    exact_mod_cast reached
  have cast : (0 : Rat) < roundHalfEven (value / 2 ^ unitExponent |value|) := by
    exact_mod_cast rounded
  simp only [nearest, if_neg positive.ne', ratAbs_eq_abs]
  exact mul_pos cast unitPositive

theorem isExtent_ofRat {value : Rat} (large : 1 ≤ value) : (ofRat value).isExtent = true := by
  have positive : 0 < value := zero_lt_one.trans_le large
  unfold ofRat
  split
  · exact decide_eq_true (Rat.num_pos.mpr positive)
  · by_cases fits : Fits value
    · rw [Binary64.ofRat_of_fits fits]
      exact decide_eq_true (Binary64.nearest_pos large)
    · rw [Binary64.ofRat_of_not_fits fits]
      simp [isExtent, positive.le]

theorem format_of_not_fits {value : Int} (overflows : ¬ Fits value) :
    (ofRat value).format = .error .wholeTooLarge := by
  rw [ofRat_intCast, format, map_eq_error_iff, toBinary64, Binary64.ofRat_of_not_fits overflows]
  rfl

end DiagramSketch.Number
