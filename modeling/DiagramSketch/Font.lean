import DiagramSketch.Fault

/-!
# Fonts

How wide labels are is told by a font. Which one it is does not matter to a layout, so every
layout takes the font that its labels are measured with.
-/

namespace DiagramSketch

/-- What labels are measured with. -/
structure Font where
  /-- The length of a text at a size in whole pixels, or the message about a text that cannot be
  measured. -/
  length : Nat → Text → Except Text Rat

namespace Font

/-- The measured width of a text. -/
def width (font : Font) (pixels : Nat) (text : Text) : Except Fault Rat :=
  (font.length pixels text).mapError .unmeasured

/-- The pixel size for a size: it is rounded, and is at least one. -/
def pixelSize : Number → Except Fault Nat
  | .whole size => .ok (max 1 size.toNat)
  | .binary (.finite size) => .ok (max 1 (Number.roundHalfEven size).toNat)
  | .binary (.infinite _) => .error .infinite
  | .binary .nan => .error .notANumber

/-- The measured width of a text at any size. -/
def measure (font : Font) (text : Text) (size : Number) : Except Fault Rat :=
  (pixelSize size).bind fun pixels => font.width pixels text

end Font

end DiagramSketch
