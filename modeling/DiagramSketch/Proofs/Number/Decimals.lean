import DiagramSketch.Proofs.Number.Exact

/-!
# Decimal numbers

What a text of digits with a point and at most three decimals spells: a text is that of one plain
decimal number only, and both spellings of numbers are texts of such.
-/

namespace DiagramSketch.Number

/-- A decimal number in parts: its sign, the digits before the point, and those behind it.  Where
there are none behind it there is no point. -/
structure Decimal where
  isNegative : Bool
  whole : Text
  fraction : Text
deriving DecidableEq, Repr

/-- The value of digits behind a point. -/
def fractionValue : Text → Rat
  | [] => 0
  | digit :: digits => ((digit.toNat - '0'.toNat : Nat) + fractionValue digits) / 10

namespace Decimal

/-- The number without its sign, as it is written. -/
def unsigned (decimal : Decimal) : Text :=
  if decimal.fraction.isEmpty then decimal.whole else decimal.whole ++ '.' :: decimal.fraction

def text (decimal : Decimal) : Text :=
  if decimal.isNegative then '-' :: decimal.unsigned else decimal.unsigned

def magnitude (decimal : Decimal) : Rat :=
  Nat.ofDigitChars 10 decimal.whole 0 + fractionValue decimal.fraction

def value (decimal : Decimal) : Rat :=
  if decimal.isNegative then -decimal.magnitude else decimal.magnitude

/-- There are digits before the point, without superfluous zeros, and at most three behind it, the
last of which is no zero. -/
structure IsPlain (decimal : Decimal) : Prop where
  whole : ∀ character ∈ decimal.whole, character.isDigit = true
  nonempty : decimal.whole ≠ []
  leading : decimal.whole.head? = some '0' → decimal.whole = ['0']
  fraction : ∀ character ∈ decimal.fraction, character.isDigit = true
  short : decimal.fraction.length ≤ 3
  last : decimal.fraction.getLast? ≠ some '0'

variable {decimal other : Decimal}

/-! ## One text, one number -/

theorem not_mem_of_isDigit {digits : Text} (all : ∀ character ∈ digits, character.isDigit = true)
    (sign : Char) (noDigit : sign.isDigit = false) : sign ∉ digits := by
  intro member
  rw [all sign member] at noDigit
  cases noDigit

/-- The digits before the point end at it. -/
theorem IsPlain.takeWhile_unsigned (plain : decimal.IsPlain) :
    decimal.unsigned.takeWhile (· != '.') = decimal.whole := by
  have digits : ∀ character ∈ decimal.whole, (character != '.') = true := by
    intro character member
    rw [bne_iff_ne]
    rintro rfl
    exact not_mem_of_isDigit plain.whole '.' rfl member
  unfold unsigned
  split
  · exact List.takeWhile_eq_self_iff.mpr digits
  · rw [List.takeWhile_append_of_pos digits, List.takeWhile_cons_of_neg (by decide),
      List.append_nil]

theorem IsPlain.eq_of_unsigned (plain : decimal.IsPlain) (otherPlain : other.IsPlain)
    (same : decimal.unsigned = other.unsigned) :
    decimal.whole = other.whole ∧ decimal.fraction = other.fraction := by
  have whole : decimal.whole = other.whole := by
    rw [← plain.takeWhile_unsigned, same, otherPlain.takeWhile_unsigned]
  refine ⟨whole, ?_⟩
  unfold unsigned at same
  rw [whole] at same
  split at same <;> split at same
  · next none noneToo =>
      rw [List.isEmpty_iff.mp none, List.isEmpty_iff.mp noneToo]
  · exact absurd (List.self_eq_append_right.mp same) (List.cons_ne_nil _ _)
  · exact absurd (List.append_right_eq_self.mp same) (List.cons_ne_nil _ _)
  · exact (List.cons.inj (List.append_cancel_left same)).2

theorem IsPlain.sign_not_mem (plain : decimal.IsPlain) : '-' ∉ decimal.unsigned := by
  have whole := not_mem_of_isDigit plain.whole '-' rfl
  have fraction := not_mem_of_isDigit plain.fraction '-' rfl
  unfold unsigned
  split
  · exact whole
  · simp [whole, fraction]

/-- A text is that of one plain decimal number only. -/
theorem IsPlain.eq_of_text (plain : decimal.IsPlain) (otherPlain : other.IsPlain)
    (same : decimal.text = other.text) : decimal = other := by
  have signs : decimal.isNegative = other.isNegative ∧ decimal.unsigned = other.unsigned := by
    unfold text at same
    split at same <;> split at same
    · next minus minusToo => exact ⟨minus.trans minusToo.symm, (List.cons.inj same).2⟩
    · exact absurd (same ▸ List.mem_cons_self) otherPlain.sign_not_mem
    · exact absurd (same ▸ List.mem_cons_self) plain.sign_not_mem
    · next plus plusToo =>
        exact ⟨(Bool.eq_false_of_not_eq_true plus).trans
          (Bool.eq_false_of_not_eq_true plusToo).symm, same⟩
  obtain ⟨whole, fraction⟩ := plain.eq_of_unsigned otherPlain signs.2
  cases decimal
  cases other
  rw [mk.injEq]
  exact ⟨signs.1, whole, fraction⟩

end Decimal

/-- The text is that of a plain decimal number with the value. -/
def Spells (text : Text) (value : Rat) : Prop :=
  ∃ decimal : Decimal, decimal.IsPlain ∧ decimal.text = text ∧ decimal.value = value

theorem Spells.unique {text : Text} {value other : Rat} (spells : Spells text value)
    (spellsToo : Spells text other) : value = other := by
  obtain ⟨decimal, plain, written, rfl⟩ := spells
  obtain ⟨decimalToo, plainToo, writtenToo, rfl⟩ := spellsToo
  rw [plain.eq_of_text plainToo (written.trans writtenToo.symm)]

/-! ## Whole numbers -/

theorem isDigit_of_mem_digits {value : Nat} {character : Char} (member : character ∈ digits value) :
    character.isDigit = true :=
  Nat.isDigit_of_mem_toDigits (by decide) (by decide) member

theorem head?_digits {value : Nat} (positive : 0 < value) : (digits value).head? ≠ some '0' := by
  unfold digits
  induction value using Nat.strong_induction_on with
  | _ value induction =>
      by_cases small : value < 10
      · rw [Nat.toDigits_of_lt_base small, List.head?_cons]
        intro zero
        have none := Nat.digitChar_eq_zero.mp (Option.some.inj zero)
        omega
      · have large : 10 ≤ value := not_lt.mp small
        rw [Nat.toDigits_of_base_le (by decide) large,
          List.head?_append_of_ne_nil _ Nat.toDigits_ne_nil]
        exact induction (value / 10) (Nat.div_lt_self positive (by decide)) (by omega)

theorem digits_of_head? {value : Nat} (zero : (digits value).head? = some '0') :
    digits value = ['0'] := by
  rcases Nat.eq_zero_or_pos value with rfl | positive
  · exact Nat.toDigits_zero 10
  · exact absurd zero (head?_digits positive)

theorem ofDigitChars_digits (value : Nat) : Nat.ofDigitChars 10 (digits value) 0 = value :=
  Nat.ofDigitChars_ten_toDigits

/-- A whole number is spelled as it is. -/
theorem spells_signedDigits (value : Int) : Spells (signedDigits value) value := by
  refine ⟨{ isNegative := value < 0, whole := digits value.natAbs, fraction := [] }, ?_, ?_, ?_⟩
  · constructor
    case whole => exact fun _ => isDigit_of_mem_digits
    case nonempty => exact Nat.toDigits_ne_nil
    case leading => exact digits_of_head?
    case fraction => exact List.forall_mem_nil _
    case short => exact Nat.zero_le 3
    case last => exact nofun
  · simp [Decimal.text, Decimal.unsigned, signedDigits]
  · simp only [Decimal.value, Decimal.magnitude, ofDigitChars_digits, fractionValue, add_zero,
      decide_eq_true_eq, Nat.cast_natAbs]
    split
    · next negative => rw [abs_of_neg negative, Int.cast_neg, neg_neg]
    · next nonneg => rw [abs_of_nonneg (not_lt.mp nonneg)]

/-! ## Thousandths -/

theorem fractionValue_append_zero (digits : Text) :
    fractionValue (digits ++ ['0']) = fractionValue digits := by
  induction digits with
  | nil => simp [fractionValue]
  | cons digit digits induction => rw [List.cons_append, fractionValue, induction, fractionValue]

theorem withoutLastZeros_append (numeral : Text) (last : Char) :
    withoutLastZeros (numeral ++ [last]) =
      if last = '0' then withoutLastZeros numeral else numeral ++ [last] := by
  unfold withoutLastZeros
  rw [List.reverse_append, List.reverse_singleton, List.singleton_append, List.dropWhile_cons]
  by_cases zero : last = '0' <;> simp [zero]

theorem fractionValue_withoutLastZeros (numeral : Text) :
    fractionValue (withoutLastZeros numeral) = fractionValue numeral := by
  induction numeral using List.reverseRecOn with
  | nil => rfl
  | append_singleton numeral last induction =>
      rw [withoutLastZeros_append]
      split
      · next zero => rw [induction, zero, fractionValue_append_zero]
      · rfl

theorem withoutLastZeros_isPrefix (numeral : Text) : withoutLastZeros numeral <+: numeral := by
  unfold withoutLastZeros
  rw [← List.reverse_suffix, List.reverse_reverse]
  exact List.dropWhile_suffix _

theorem getLast?_withoutLastZeros (numeral : Text) :
    (withoutLastZeros numeral).getLast? ≠ some '0' := by
  induction numeral using List.reverseRecOn with
  | nil => exact nofun
  | append_singleton numeral last induction =>
      rw [withoutLastZeros_append]
      split
      · exact induction
      · next other =>
          rw [List.getLast?_concat]
          exact fun zero => other (Option.some.inj zero)

theorem fractionValue_thousandthDigits {count : Nat} (small : count < 1000) :
    fractionValue (thousandthDigits count) = count / 1000 := by
  have digit (value : Nat) : (Nat.digitChar (value % 10)).toNat - '0'.toNat = value % 10 :=
    Nat.toNat_digitChar_sub_48_of_lt_ten (Nat.mod_lt value (by decide))
  have parts : (count : Rat) = 100 * (count / 100 % 10 : Nat) + 10 * (count / 10 % 10 : Nat) +
      (count % 10 : Nat) := by
    have whole : count = 100 * (count / 100 % 10) + 10 * (count / 10 % 10) + count % 10 := by omega
    exact_mod_cast whole
  rw [thousandthDigits, fractionValue_withoutLastZeros]
  simp only [List.map_cons, List.map_nil, fractionValue, digit]
  rw [parts]
  ring

/-- A number of thousandths with a sign. -/
def Decimal.ofThousandths (isNegative : Bool) (count : Nat) : Decimal :=
  { isNegative, whole := digits (count / 1000), fraction := thousandthDigits (count % 1000) }

theorem Decimal.isPlain_ofThousandths (isNegative : Bool) (count : Nat) :
    (ofThousandths isNegative count).IsPlain := by
  have kept := withoutLastZeros_isPrefix
    ([count % 1000 / 100 % 10, count % 1000 / 10 % 10, count % 1000 % 10].map Nat.digitChar)
  constructor
  case whole => exact fun _ => isDigit_of_mem_digits
  case nonempty => exact Nat.toDigits_ne_nil
  case leading => exact digits_of_head?
  case fraction =>
    intro character member
    obtain ⟨digit, place, rfl⟩ := List.mem_map.mp (kept.subset member)
    have small : digit < 10 := by
      simp only [List.mem_cons, List.not_mem_nil, or_false] at place
      omega
    simp [Nat.isDigit_digitChar, small]
  case short => exact kept.length_le
  case last => exact getLast?_withoutLastZeros _

theorem Decimal.magnitude_ofThousandths (isNegative : Bool) (count : Nat) :
    (ofThousandths isNegative count).magnitude = count / 1000 := by
  have parts : (count : Rat) = 1000 * (count / 1000 : Nat) + (count % 1000 : Nat) := by
    exact_mod_cast (Nat.div_add_mod count 1000).symm
  rw [magnitude, ofThousandths, ofDigitChars_digits,
    fractionValue_thousandthDigits (Nat.mod_lt count (by decide))]
  rw [parts]
  ring

/-- The number of thousandths nearest to the value, without its sign. -/
def thousandthCount (value : Rat) : Nat :=
  (roundHalfEven (1000 * value.abs)).toNat

theorem spells_thousandths (value : Rat) : Spells (thousandths value)
    (if value < 0 then -(thousandthCount value / 1000) else thousandthCount value / 1000) := by
  refine ⟨.ofThousandths (value < 0) (thousandthCount value),
    Decimal.isPlain_ofThousandths _ _, ?_, ?_⟩
  · by_cases negative : value < 0
    all_goals
      simp [Decimal.text, Decimal.unsigned, Decimal.ofThousandths, thousandths, thousandthCount,
        negative]
  · rw [Decimal.value, Decimal.magnitude_ofThousandths]
    simp only [Decimal.ofThousandths, decide_eq_true_eq]

end DiagramSketch.Number
