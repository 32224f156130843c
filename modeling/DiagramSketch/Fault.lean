import DiagramSketch.Number.Basic
import DiagramSketch.Text.Quoted

/-!
# Faults

Drawing a source hardly ever fails: lines that cannot be read and relations that lead
nowhere are left out. This module lists the faults that remain, by their cause, with
the message about each.
-/

namespace DiagramSketch

/-- Why a diagram cannot be read, laid out or drawn. -/
inductive Fault where
  /-- A numeral has more digits than are read. -/
  | numeralTooLong (digitCount : Nat)
  /-- A whole number has more digits than are written. -/
  | numberTooLong
  /-- A text cannot be measured. -/
  | unmeasured (message : Text)
  /-- A whole number rounds to no double-precision number. -/
  | wholeTooLarge
  /-- An infinite number has no digits. -/
  | infinite
  /-- What is not a number has no digits. -/
  | notANumber
  /-- A drawing needs a canvas that extends in both directions. -/
  | canvasNotPositive (width height : Number)
  /-- A name is given to a value although the maker of the element uses it otherwise. -/
  | nameInUse (maker name : Text)
  /-- A name opens a brace that it does not close. -/
  | unclosedBrace
  /-- No value is kept under this name. -/
  | nothingUnder (name : Text)
  /-- A list has no entry with the number that is asked for. -/
  | noEntry
  /-- No marker has this name. -/
  | unknownMarker (name : Text)
  /-- No kind of diagram has this name. -/
  | unknownKind (name : Text)
  /-- No bundled example has this name. -/
  | unknownExample (name : Text)
deriving DecidableEq, Repr

namespace Fault

/-- The length of the longest numeral that is read or written. -/
def numeralLimit : Nat := 4300

/-- The message about a fault. -/
def message : Fault → Text
  | numeralTooLong digitCount =>
      "Exceeds the limit (" ++ Number.digits numeralLimit
        ++ " digits) for integer string conversion: value has " ++ Number.digits digitCount
        ++ " digits; use sys.set_int_max_str_digits() to increase the limit"
  | numberTooLong =>
      "Exceeds the limit (" ++ Number.digits numeralLimit
        ++ " digits) for integer string conversion; use sys.set_int_max_str_digits() to increase "
        ++ "the limit"
  | unmeasured message => message
  | wholeTooLarge => "int too large to convert to float"
  | infinite => "cannot convert float infinity to integer"
  | notANumber => "cannot convert float NaN to integer"
  | canvasNotPositive width height =>
      "canvas must be positive, got " ++ width.display ++ 'x' :: height.display
  | nameInUse maker name => maker ++ "() got multiple values for argument '" ++ name ++ "'"
  | unclosedBrace => "not enough values to unpack (expected 2, got 1)"
  | nothingUnder name => Text.quoted name
  | noEntry => "tuple index out of range"
  | unknownMarker name => Text.quoted name
  | unknownKind name => Text.quoted name ++ " is not a valid DiagramKind"
  | unknownExample name => Text.quoted name

end Fault

end DiagramSketch
