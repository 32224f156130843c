import DiagramSketch.Proofs.Number.Exact

/-!
# Rounding keeps order

Of two numbers the smaller one does not become the larger one when both are rounded to double
precision: `Binary64.nearest_monotone`.  A whole number becomes a whole number, so that an attribute
that is given one is spelled with the digits of another one.
-/

namespace DiagramSketch.Number

/-- Of two integers that are at most a half away one is the next of the other, and the value is
half-way between them. -/
theorem halfWay_of_lt {value : Rat} {first second : Int} (less : first < second)
    (near : |value - first| ≤ 1 / 2) (nearToo : |value - second| ≤ 1 / 2) :
    second = first + 1 ∧ |value - first| = 1 / 2 ∧ |value - second| = 1 / 2 := by
  have cast : (first : Rat) + 1 ≤ second := by exact_mod_cast less
  have upper := (abs_le.mp near).2
  have lower := (abs_le.mp nearToo).1
  have next : (second : Rat) = first + 1 := by linarith
  have above : value - first = 1 / 2 := by linarith
  have below : value - second = -(1 / 2) := by linarith
  refine ⟨by exact_mod_cast next, ?_, ?_⟩
  · rw [above, abs_of_pos one_half_pos]
  · rw [below, abs_neg, abs_of_pos one_half_pos]

/-- There is only one integer at most a half away that is even where it is a half away. -/
theorem roundHalfEven_eq {value : Rat} {whole : Int} (near : |value - whole| ≤ 1 / 2)
    (tie : |value - whole| = 1 / 2 → whole % 2 = 0) : roundHalfEven value = whole := by
  obtain ⟨close, even⟩ := roundHalfEven_spec value
  rcases lt_trichotomy (roundHalfEven value) whole with below | same | above
  · obtain ⟨next, half, halfToo⟩ := halfWay_of_lt below close near
    have parities := And.intro (even half) (tie halfToo)
    omega
  · exact same
  · obtain ⟨next, half, halfToo⟩ := halfWay_of_lt above near close
    have parities := And.intro (tie half) (even halfToo)
    omega

theorem roundHalfEven_neg (value : Rat) : roundHalfEven (-value) = -roundHalfEven value := by
  obtain ⟨near, tie⟩ := roundHalfEven_spec value
  have mirrored : |-value - (-roundHalfEven value : Int)| = |value - roundHalfEven value| := by
    push_cast
    rw [← abs_neg]
    congr 1
    ring
  refine roundHalfEven_eq (mirrored.trans_le near) fun half => ?_
  have even := tie (mirrored.symm.trans half)
  omega

theorem roundHalfEven_monotone : Monotone roundHalfEven := by
  intro value other le
  by_contra above
  have cast : (roundHalfEven other : Rat) + 1 ≤ roundHalfEven value := by
    exact_mod_cast not_le.mp above
  have near := abs_le.mp (roundHalfEven_spec value).1
  have nearToo := abs_le.mp (roundHalfEven_spec other).1
  -- Both values are half-way between the two integers, so they are the same.
  have same : value = other := by linarith
  exact above (same ▸ le_rfl)

theorem le_roundHalfEven {whole : Int} {value : Rat} (le : (whole : Rat) ≤ value) :
    whole ≤ roundHalfEven value := by
  rw [← roundHalfEven_intCast whole]
  exact roundHalfEven_monotone le

theorem roundHalfEven_le {whole : Int} {value : Rat} (le : value ≤ whole) :
    roundHalfEven value ≤ whole := by
  rw [← roundHalfEven_intCast whole]
  exact roundHalfEven_monotone le

namespace Binary64

theorem nearest_zero : nearest 0 = 0 :=
  if_pos rfl

theorem nearest_eq {value : Rat} (nonzero : value ≠ 0) : nearest value =
    roundHalfEven (value / 2 ^ unitExponent |value|) * (2 : Rat) ^ unitExponent |value| := by
  simp only [nearest, if_neg nonzero, ratAbs_eq_abs]

theorem nearest_neg (value : Rat) : nearest (-value) = -nearest value := by
  rcases eq_or_ne value 0 with rfl | nonzero
  · rw [neg_zero, nearest_zero, neg_zero]
  · rw [nearest_eq nonzero, nearest_eq (neg_ne_zero.mpr nonzero), abs_neg, neg_div,
      roundHalfEven_neg, Int.cast_neg, neg_mul]

theorem nearest_nonneg {value : Rat} (nonneg : 0 ≤ value) : 0 ≤ nearest value := by
  rcases eq_or_ne value 0 with rfl | nonzero
  · rw [nearest_zero]
  · have unitPositive : (0 : Rat) < 2 ^ unitExponent |value| := zpow_pos two_pos _
    have scaled : ((0 : Int) : Rat) ≤ value / 2 ^ unitExponent |value| :=
      div_nonneg nonneg unitPositive.le
    rw [nearest_eq nonzero]
    exact mul_nonneg (by exact_mod_cast le_roundHalfEven scaled) unitPositive.le

theorem unitExponent_le_of_le {value other : Rat} (positive : 0 < value) (le : value ≤ other) :
    unitExponent value ≤ unitExponent other := by
  have below := (floorLog2_lt_iff positive (floorLog2 other + 1)).mpr
    (le.trans_lt (floorLog2_bounds (positive.trans_le le)).2)
  unfold unitExponent
  omega

/-- A power of two that is a multiple of the unit is not passed by rounding. -/
theorem nearest_le_zpow {value : Rat} (positive : 0 < value) {exponent : Int}
    (multiple : unitExponent value ≤ exponent) (le : value ≤ 2 ^ exponent) :
    nearest value ≤ 2 ^ exponent := by
  have unitPositive : (0 : Rat) < 2 ^ unitExponent value := zpow_pos two_pos _
  obtain ⟨places, placesIs⟩ : ∃ places : Nat, (places : Int) = exponent - unitExponent value :=
    ⟨(exponent - unitExponent value).toNat, by omega⟩
  have count : ((2 ^ places : Int) : Rat) * 2 ^ unitExponent value = 2 ^ exponent := by
    push_cast
    rw [← zpow_natCast, placesIs, ← zpow_add₀ two_ne_zero, sub_add_cancel]
  have scaled : value / 2 ^ unitExponent value ≤ ((2 ^ places : Int) : Rat) := by
    rwa [div_le_iff₀ unitPositive, count]
  rw [nearest_eq positive.ne', abs_of_pos positive, ← count]
  exact mul_le_mul_of_nonneg_right (by exact_mod_cast roundHalfEven_le scaled) unitPositive.le

/-- From the power of two on at which their unit begins, values are rounded to no less than it. -/
theorem zpow_le_nearest {value : Rat} (positive : 0 < value)
    (normal : -1074 < unitExponent value) :
    (2 : Rat) ^ (unitExponent value + 52) ≤ nearest value := by
  have exponent : unitExponent value + 52 = floorLog2 value := by
    unfold unitExponent at normal ⊢
    omega
  have unitPositive : (0 : Rat) < 2 ^ unitExponent value := zpow_pos two_pos _
  have count : ((2 ^ 52 : Int) : Rat) * 2 ^ unitExponent value = 2 ^ (unitExponent value + 52) := by
    rw [zpow_add₀ two_ne_zero, mul_comm]
    norm_num
  have scaled : ((2 ^ 52 : Int) : Rat) ≤ value / 2 ^ unitExponent value := by
    rw [le_div_iff₀ unitPositive, count, exponent]
    exact (floorLog2_bounds positive).1
  rw [nearest_eq positive.ne', abs_of_pos positive, ← count]
  exact mul_le_mul_of_nonneg_right (by exact_mod_cast le_roundHalfEven scaled) unitPositive.le

theorem nearest_le_of_pos {value other : Rat} (positive : 0 < value) (le : value ≤ other) :
    nearest value ≤ nearest other := by
  have positiveToo := positive.trans_le le
  rcases (unitExponent_le_of_le positive le).lt_or_eq with less | same
  · -- A power of two that both units divide stands between the two.
    have normal : -1074 < unitExponent other := lt_of_le_of_lt (le_max_right _ _) less
    have below : value ≤ (2 : Rat) ^ (unitExponent other + 52) := by
      have smaller : floorLog2 value < unitExponent other + 52 := by
        unfold unitExponent at less normal ⊢
        omega
      exact ((floorLog2_lt_iff positive _).mp smaller).le
    exact (nearest_le_zpow positive (by omega) below).trans (zpow_le_nearest positiveToo normal)
  · have unitPositive : (0 : Rat) < 2 ^ unitExponent value := zpow_pos two_pos _
    have rounded := roundHalfEven_monotone (div_le_div_of_nonneg_right le unitPositive.le)
    rw [nearest_eq positive.ne', nearest_eq positiveToo.ne', abs_of_pos positive,
      abs_of_pos positiveToo, ← same]
    exact mul_le_mul_of_nonneg_right (by exact_mod_cast rounded) unitPositive.le

theorem nearest_monotone : Monotone nearest := by
  intro value other le
  rcases lt_trichotomy value 0 with negative | rfl | positive
  · rcases lt_or_ge other 0 with negativeToo | nonneg
    · have mirrored := nearest_le_of_pos (neg_pos.mpr negativeToo) (neg_le_neg le)
      rwa [nearest_neg, nearest_neg, neg_le_neg_iff] at mirrored
    · have below := nearest_nonneg (neg_pos.mpr negative).le
      rw [nearest_neg] at below
      exact (neg_nonneg.mp below).trans (nearest_nonneg nonneg)
  · rw [nearest_zero]
    exact nearest_nonneg le
  · exact nearest_le_of_pos positive le

/-- A whole number is rounded to a whole number. -/
theorem exists_nearest_intCast (value : Int) : ∃ whole : Int, nearest (value : Rat) = whole := by
  rcases lt_or_ge |value| (2 ^ 53) with small | large
  · exact ⟨value, nearest_intCast small⟩
  · have magnitude : (2 : Rat) ^ (53 : Int) ≤ |(value : Rat)| := by
      have cast : (2 : Rat) ^ 53 ≤ |(value : Rat)| := by exact_mod_cast large
      exact cast
    have positive : 0 < |(value : Rat)| := (zpow_pos two_pos _).trans_le magnitude
    obtain ⟨exponent, lower⟩ := unitExponent_of_le positive magnitude (by norm_num)
    -- The unit is a whole number itself.
    obtain ⟨places, unit⟩ : ∃ places : Nat, unitExponent |(value : Rat)| = places :=
      ⟨(unitExponent |(value : Rat)|).toNat, by omega⟩
    refine ⟨roundHalfEven (value / 2 ^ places) * 2 ^ places, ?_⟩
    rw [nearest_eq (abs_pos.mp positive), unit, zpow_natCast]
    push_cast
    rfl

end Binary64

/-- A whole number that is spelled at all is spelled with the digits of what it is rounded to. -/
theorem formatRounded_intCast_eq_ok_iff {value : Int} {text : Text} :
    (ofRat (value : Rat)).formatRounded = .ok text ↔ Fits (value : Rat) ∧
      ∃ whole : Int, Binary64.nearest (value : Rat) = whole ∧ text = signedDigits whole := by
  obtain ⟨whole, rounded⟩ := Binary64.exists_nearest_intCast value
  rw [ofRat_intCast, formatRounded, toBinary64]
  by_cases fits : Fits (value : Rat)
  · rw [Binary64.ofRat_of_fits fits, rounded]
    simp only [Binary64.ofWhole, Except.bind, Binary64.format, Binary64.formatFinite_intCast,
      Except.ok.injEq, Int.cast_inj, exists_eq_left', fits, true_and, eq_comm]
  · rw [Binary64.ofRat_of_not_fits fits]
    exact iff_of_false (fun failure => by cases failure) fun spelled => fits spelled.1

end DiagramSketch.Number
