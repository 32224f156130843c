import DiagramSketch.Number.Binary64
import DiagramSketch.Number.Decimal

/-!
# The shortest numeral of a double

The fewest significant digits that read back as a double-precision number, and their
layout. Of several numerals with so many digits, the one nearest to the number is taken.
-/

namespace DiagramSketch.Number

/-- A number of powers of ten. -/
structure Scaled where
  count : Nat
  exponent : Int
deriving DecidableEq, Repr

namespace Scaled

/-- The value of a number of powers of ten. -/
def value (scaled : Scaled) : Rat :=
  scaled.count * (10 : Rat) ^ scaled.exponent

/-- The digits that count: those of the number without the zeros at their end. -/
def significant (scaled : Scaled) : Text :=
  withoutLastZeros (digits scaled.count)

/-- How many digits of the value stand before its point. None do when it is not positive: then so
many zeros stand behind the point. -/
def point (scaled : Scaled) : Int :=
  (digits scaled.count).length + scaled.exponent

end Scaled

/-- The exponent of the largest power of ten that is not above a positive value. -/
def floorLog10 (value : Rat) : Int :=
  let estimate : Int := ((digits value.num.natAbs).length : Int) - (digits value.den).length
  if value < (10 : Rat) ^ estimate then estimate - 1 else estimate

/-- The two multiples of a power of ten between which a positive value lies, the nearer one first;
of two that are equally near, the even one. -/
def neighbours (value : Rat) (exponent : Int) : List Scaled :=
  let count := value / (10 : Rat) ^ exponent
  let nearer := roundHalfEven count
  let other := if (nearer : Rat) ≤ count then nearer + 1 else nearer - 1
  [{ count := nearer.toNat, exponent }, { count := other.toNat, exponent }]

/-- The shortest numeral of a positive double-precision number. Seventeen digits tell any two of
these numbers apart. -/
def shortest (value : Rat) : Scaled :=
  let candidates := (List.range 17).flatMap fun (further : Nat) =>
    neighbours value (floorLog10 value - (further : Int))
  (candidates.find? fun scaled => Binary64.nearest scaled.value == value).getD
    { count := value.floor.toNat, exponent := 0 }

/-- Digits with the point at its place, and at least one digit on either side of it. -/
def positional (significant : Text) (point : Int) : Text :=
  let whole := significant.take point.toNat
    ++ List.replicate (point.toNat - significant.length) '0'
  let fraction := List.replicate (-point).toNat '0' ++ significant.drop point.toNat
  (if whole.isEmpty then ['0'] else whole) ++ '.' :: (if fraction.isEmpty then ['0'] else fraction)

/-- Digits with the point after the first one, and the exponent that makes up for this: its sign
and at least two digits. -/
def exponential (significant : Text) (point : Int) : Text :=
  let fraction := significant.drop 1
  let mantissa :=
    if fraction.isEmpty then significant.take 1 else significant.take 1 ++ '.' :: fraction
  let exponent := point - 1
  let places := digits exponent.natAbs
  mantissa ++ 'e' :: (if exponent < 0 then '-' else '+')
    :: (if places.length = 1 then '0' :: places else places)

/-- A finite value as it stands in a text. Below 0.0001, and from the seventeenth digit before the
point on, it has an exponent. -/
def displayFinite (value : Rat) : Text :=
  if value = 0 then "0.0"
  else
    let numeral := shortest value.abs
    let unsigned :=
      if -4 < numeral.point ∧ numeral.point ≤ 16 then
        positional numeral.significant numeral.point
      else exponential numeral.significant numeral.point
    if value < 0 then '-' :: unsigned else unsigned

end DiagramSketch.Number
