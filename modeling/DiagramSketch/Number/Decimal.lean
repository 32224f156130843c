import DiagramSketch.Number.Rounding
import DiagramSketch.Text.Basic

/-!
# Decimal numerals

The spelling of whole numbers, and of rationals rounded to thousandths. Neither has an
exponent or superfluous zeros.
-/

namespace DiagramSketch.Number

/-- The decimal digits of a natural number, without leading zeros. -/
def digits (value : Nat) : Text :=
  Nat.toDigits 10 value

/-- An integer in decimal digits, after a minus sign when it is negative. -/
def signedDigits (value : Int) : Text :=
  if value < 0 then '-' :: digits value.natAbs else digits value.natAbs

/-- The digits before the zeros at the end. -/
def withoutLastZeros (numeral : Text) : Text :=
  (numeral.reverse.dropWhile (· == '0')).reverse

/-- The three digits of a number of thousandths, without the zeros at their end. -/
def thousandthDigits (count : Nat) : Text :=
  withoutLastZeros ([count / 100 % 10, count / 10 % 10, count % 10].map Nat.digitChar)

/-- The value rounded to thousandths, a half going to the even neighbour. A negative value
keeps its sign even where no digit other than zero is left. -/
def thousandths (value : Rat) : Text :=
  let count := (roundHalfEven (1000 * value.abs)).toNat
  let whole := digits (count / 1000)
  let fraction := thousandthDigits (count % 1000)
  let unsigned := if fraction.isEmpty then whole else whole ++ '.' :: fraction
  if value < 0 then '-' :: unsigned else unsigned

end DiagramSketch.Number
