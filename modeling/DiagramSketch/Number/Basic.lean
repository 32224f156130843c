import DiagramSketch.Number.Shortest

/-!
# Numbers of a drawing

A coordinate is either a whole number of any size or a double-precision number. Whole
numbers keep all their digits until they are compared or combined with a double.
-/

namespace DiagramSketch

/-- A coordinate, an extent or any other number of a drawing. -/
inductive Number where
  | whole (value : Int)
  | binary (value : Number.Binary64)
deriving DecidableEq, Repr

namespace Number

/-- An integer stays whole; any other rational becomes the nearest double. -/
def ofRat (value : Rat) : Number :=
  if value.den = 1 then whole value.num else binary (.ofRat value)

/-- Whether the number is above zero or is not a number at all. -/
def isExtent : Number → Bool
  | whole value => 0 < value
  | binary (.finite value) => 0 < value
  | binary (.infinite negative) => !negative
  | binary .nan => true

/-- Whether the number is zero. -/
def isZero : Number → Bool
  | whole value => value == 0
  | binary (.finite value) => value == 0
  | binary _ => false

/-- The number as it stands in a text. -/
def display : Number → Text
  | whole value => signedDigits value
  | binary (.finite value) => displayFinite value
  | binary (.infinite true) => "-inf"
  | binary (.infinite false) => "inf"
  | binary .nan => "nan"

theorem ofRat_intCast (value : Int) : ofRat (value : Rat) = whole value := by
  simp [ofRat]

end Number

end DiagramSketch
