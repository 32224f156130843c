import DiagramSketch.Text.Basic

/-!
# Hexadecimal numerals

Numerals of a fixed width in base sixteen, with lower-case letters.
-/

namespace DiagramSketch.Text

/-- The digit for a value below sixteen. -/
def hexDigit (value : Nat) : Char :=
  Char.ofNat (if value < 10 then 48 + value else 87 + value)

/-- The last `width` hexadecimal digits of the value, with leading zeros. -/
def hexadecimal : (width value : Nat) → Text
  | 0, _ => []
  | width + 1, value => hexadecimal width (value / 16) ++ [hexDigit (value % 16)]

@[simp] theorem length_hexadecimal (width value : Nat) :
    (hexadecimal width value).length = width := by
  induction width generalizing value with
  | zero => rfl
  | succ width induction => simp [hexadecimal, induction]

end DiagramSketch.Text
