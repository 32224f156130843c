import DiagramSketch.Fault

/-!
# The spelling of numbers in a document

A number that is as good as whole is written in digits only; all others get at most three
decimals. What counts as good is relative: a billionth of the larger of the two numbers.
-/

namespace DiagramSketch.Number

namespace Binary64

/-- A billionth, as a double-precision number. -/
def closeness : Rat :=
  nearest (1 / 1000000000)

/-- Whether the value is as good as the integer: it differs from it by no more than a billionth
of either, the billionth being rounded to double precision. -/
def isCloseTo (value : Rat) (whole : Int) : Bool :=
  let distance := ((whole : Rat) - value).abs
  value == whole || distance ≤ nearest (closeness * (whole : Rat).abs)
    || distance ≤ nearest (closeness * value.abs)

/-- The spelling of a finite value. -/
def formatFinite (value : Rat) : Text :=
  let whole := roundHalfEven value
  if isCloseTo value whole then signedDigits whole else thousandths value

/-- The spelling of a double-precision number. -/
def format : Binary64 → Except Fault Text
  | finite value => .ok (formatFinite value)
  | infinite _ => .error .infinite
  | nan => .error .notANumber

end Binary64

/-- The numeral of a whole number, unless it is too long to be written. -/
def numeral (value : Int) : Except Fault Text :=
  if Fault.numeralLimit < (digits value.natAbs).length then .error .numberTooLong
  else .ok (signedDigits value)

/-- What a whole number was rounded to, which has to be finite. -/
def Binary64.ofWhole : Binary64 → Except Fault Binary64
  | finite rounded => .ok (finite rounded)
  | infinite _ | nan => .error .wholeTooLarge

/-- The double-precision number that stands for the number. -/
def toBinary64 : Number → Except Fault Binary64
  | whole value => (Binary64.ofRat value).ofWhole
  | binary value => .ok value

/-- The spelling of a number. A whole number keeps all its digits, but is refused where no
double-precision number stands for it. -/
def format : Number → Except Fault Text
  | whole value => (whole value).toBinary64.map fun _ => signedDigits value
  | binary value => value.format

/-- The spelling of a number in an attribute: it is rounded to double precision first. -/
def formatRounded (number : Number) : Except Fault Text :=
  number.toBinary64.bind Binary64.format

end DiagramSketch.Number
