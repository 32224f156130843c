import DiagramSketch.Font

/-!
# The bundled font

A font by the advances of its characters in whole pixels. A label is as wide as its characters
together: there is no kerning and there are no ligatures.
-/

namespace DiagramSketch.Font

/-- The advances of a character at the pixel sizes 1, 10, 12 and 14. -/
structure Advances where
  atOne : Nat
  atTen : Nat
  atTwelve : Nat
  atFourteen : Nat
deriving DecidableEq, Repr

/-- The advance at a pixel size: that of the largest tabulated size which is not above it. -/
def Advances.atSize (advances : Advances) (pixels : Nat) : Nat :=
  if 14 ≤ pixels then advances.atFourteen
  else if 12 ≤ pixels then advances.atTwelve
  else if 10 ≤ pixels then advances.atTen
  else advances.atOne

/-- The box that is drawn for a character without a shape of its own. -/
def missing : Advances := ⟨1, 5, 6, 7⟩

/-- The advances of the printable ASCII characters, from the space on. -/
def asciiAdvances : Array Advances :=
  #[⟨0, 2, 3, 3⟩, ⟨0, 3, 3, 3⟩, ⟨0, 3, 4, 6⟩, ⟨1, 6, 7, 8⟩, ⟨1, 7, 7, 9⟩, ⟨1, 7, 9, 11⟩,
   ⟨1, 7, 8, 9⟩, ⟨0, 1, 3, 3⟩, ⟨0, 4, 4, 5⟩, ⟨0, 3, 4, 5⟩, ⟨1, 7, 7, 9⟩, ⟨1, 7, 7, 9⟩,
   ⟨0, 2, 3, 3⟩, ⟨0, 3, 3, 4⟩, ⟨0, 2, 3, 3⟩, ⟨0, 3, 4, 4⟩, ⟨1, 6, 7, 8⟩, ⟨1, 6, 7, 8⟩,
   ⟨1, 6, 7, 8⟩, ⟨1, 6, 7, 8⟩, ⟨1, 6, 7, 8⟩, ⟨1, 6, 7, 8⟩, ⟨1, 6, 7, 8⟩, ⟨1, 6, 7, 8⟩,
   ⟨1, 6, 7, 8⟩, ⟨1, 6, 7, 8⟩, ⟨0, 2, 3, 3⟩, ⟨0, 2, 3, 3⟩, ⟨1, 6, 7, 8⟩, ⟨1, 6, 7, 8⟩,
   ⟨1, 6, 7, 8⟩, ⟨1, 4, 6, 8⟩, ⟨1, 10, 11, 12⟩, ⟨1, 6, 8, 9⟩, ⟨1, 6, 7, 10⟩, ⟨1, 7, 9, 10⟩,
   ⟨1, 7, 8, 11⟩, ⟨1, 6, 7, 9⟩, ⟨1, 6, 7, 8⟩, ⟨1, 7, 9, 10⟩, ⟨2, 8, 9, 10⟩, ⟨1, 3, 3, 4⟩,
   ⟨1, 6, 7, 8⟩, ⟨1, 6, 7, 9⟩, ⟨1, 6, 7, 9⟩, ⟨2, 9, 10, 12⟩, ⟨1, 8, 8, 10⟩, ⟨1, 7, 9, 11⟩,
   ⟨1, 6, 7, 9⟩, ⟨1, 7, 9, 11⟩, ⟨1, 6, 7, 10⟩, ⟨1, 6, 6, 8⟩, ⟨1, 6, 8, 9⟩, ⟨1, 7, 8, 10⟩,
   ⟨1, 6, 7, 9⟩, ⟨1, 10, 11, 13⟩, ⟨1, 6, 8, 9⟩, ⟨1, 6, 7, 8⟩, ⟨1, 7, 8, 9⟩, ⟨1, 3, 4, 5⟩,
   ⟨0, 3, 4, 4⟩, ⟨1, 3, 4, 4⟩, ⟨1, 6, 7, 8⟩, ⟨1, 5, 6, 7⟩, ⟨0, 3, 4, 4⟩, ⟨1, 5, 7, 8⟩,
   ⟨1, 6, 7, 9⟩, ⟨1, 5, 7, 8⟩, ⟨1, 6, 8, 9⟩, ⟨1, 6, 7, 8⟩, ⟨0, 3, 3, 4⟩, ⟨1, 6, 8, 9⟩,
   ⟨1, 7, 7, 8⟩, ⟨0, 3, 3, 3⟩, ⟨1, 3, 3, 3⟩, ⟨1, 6, 6, 7⟩, ⟨1, 3, 3, 3⟩, ⟨1, 9, 11, 11⟩,
   ⟨1, 7, 7, 8⟩, ⟨1, 5, 7, 9⟩, ⟨1, 6, 7, 9⟩, ⟨1, 6, 8, 9⟩, ⟨0, 4, 4, 4⟩, ⟨0, 4, 6, 7⟩,
   ⟨0, 3, 4, 5⟩, ⟨1, 7, 7, 8⟩, ⟨1, 5, 6, 7⟩, ⟨1, 8, 9, 11⟩, ⟨0, 5, 6, 7⟩, ⟨1, 5, 6, 7⟩,
   ⟨0, 6, 7, 8⟩, ⟨0, 3, 4, 4⟩, ⟨1, 3, 3, 4⟩, ⟨0, 3, 3, 5⟩, ⟨1, 6, 7, 8⟩]

/-- The advances of the characters beyond ASCII that have a shape of their own. -/
def otherAdvances : List (Nat × Advances) :=
  [(0x00A9, ⟨3, 8, 10, 13⟩), (0x00AB, ⟨1, 6, 7, 8⟩), (0x00B0, ⟨0, 4, 4, 5⟩),
   (0x00B1, ⟨1, 7, 7, 9⟩), (0x00B4, ⟨0, 3, 4, 4⟩), (0x00B7, ⟨0, 1, 2, 3⟩), (0x00BB, ⟨1, 6, 7, 8⟩),
   (0x2018, ⟨0, 2, 3, 3⟩), (0x2019, ⟨0, 2, 3, 3⟩), (0x201C, ⟨0, 4, 5, 6⟩), (0x201D, ⟨0, 4, 5, 6⟩),
   (0x2026, ⟨1, 6, 9, 9⟩), (0x2039, ⟨0, 4, 5, 5⟩), (0x203A, ⟨0, 4, 5, 5⟩), (0x2044, ⟨0, 2, 3, 3⟩),
   (0x2122, ⟨1, 5, 6, 8⟩), (0xFB01, ⟨1, 6, 6, 7⟩), (0xFB02, ⟨1, 6, 6, 7⟩)]

/-- The advances of a character. -/
def advances (character : Char) : Advances :=
  let code := character.toNat
  if code < 0x20 then missing
  else if code < 0x7F then asciiAdvances.getD (code - 0x20) missing
  else (otherAdvances.lookup code).getD missing

/-- The longest text that is measured. -/
def lengthLimit : Nat := 1000000

/-- The width of a text at a pixel size. -/
def advanceWidth (pixels : Nat) (text : Text) : Nat :=
  text.foldl (fun width character => width + (advances character).atSize pixels) 0

/-- The message about a text that is too long. -/
def tooLong : Text := "too many characters in string"

/-- The font by the advances of its characters. -/
def bundled : Font :=
  { length := fun pixels text =>
      if lengthLimit < text.length then .error tooLong
      else .ok (advanceWidth pixels text : Nat) }

end DiagramSketch.Font
