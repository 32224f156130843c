/-!
# Rounding rationals

Rounding to the nearest integer, where a number half-way between two integers goes to
the even one, and the binary order of magnitude of a positive rational.
-/

namespace DiagramSketch.Number

/-- The integer nearest to the value; of two that are equally near, the even one. -/
def roundHalfEven (value : Rat) : Int :=
  let below := value.floor
  let excess := 2 * (value - below)
  if excess < 1 then below
  else if 1 < excess then below + 1
  else if below % 2 = 0 then below else below + 1

/-- The exponent of the largest power of two that is not above a positive value. -/
def floorLog2 (value : Rat) : Int :=
  let estimate : Int := (value.num.natAbs.log2 : Int) - (value.den.log2 : Int)
  if value < (2 : Rat) ^ estimate then estimate - 1 else estimate

@[simp] theorem roundHalfEven_intCast (whole : Int) : roundHalfEven (whole : Rat) = whole := by
  simp only [roundHalfEven, Rat.floor_intCast, Rat.sub_self, Rat.mul_zero]
  rw [if_pos (by decide)]

end DiagramSketch.Number
