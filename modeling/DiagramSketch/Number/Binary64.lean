import DiagramSketch.Number.Rounding

/-!
# Binary floating point

A double-precision number, as far as a drawing can tell two of them apart: the sign of a
zero makes no difference. `ofRat` rounds any rational to the nearest of them, and to an
infinity from the midpoint above the largest one on.
-/

namespace DiagramSketch.Number

/-- A double-precision number. The value of a finite one is meant to be a multiple of a power
of two that fits 53 bits. -/
inductive Binary64 where
  | finite (value : Rat)
  | infinite (negative : Bool)
  | nan
deriving DecidableEq, Repr

namespace Binary64

/-- The exponent of the unit in which a positive value is rounded: 53 bits from its leading one
on, but never below the smallest unit. -/
def unitExponent (magnitude : Rat) : Int :=
  max (floorLog2 magnitude - 52) (-1074)

/-- The nearest multiple of the unit. -/
def nearest (value : Rat) : Rat :=
  if value = 0 then 0
  else
    let unit : Rat := 2 ^ unitExponent value.abs
    roundHalfEven (value / unit) * unit

/-- The double-precision number nearest to the value; of two that are equally near, the one whose
last bit is zero. -/
def ofRat (value : Rat) : Binary64 :=
  let rounded := nearest value
  if (2 : Rat) ^ (1024 : Nat) ≤ rounded.abs then infinite (value < 0) else finite rounded

end Binary64

end DiagramSketch.Number
