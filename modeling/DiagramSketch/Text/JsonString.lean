import DiagramSketch.Text.Hexadecimal

/-!
# JSON strings in ASCII

The JSON spelling of a text that uses printable ASCII characters only: all others are
written as their UTF-16 code units, so a character beyond U+FFFF takes two.
-/

namespace DiagramSketch.Text

/-- The UTF-16 code units of a character. -/
def codeUnits (character : Char) : List Nat :=
  let code := character.toNat
  if code < 0x10000 then [code]
  else [0xD800 + (code - 0x10000) / 0x400, 0xDC00 + (code - 0x10000) % 0x400]

/-- One character inside a JSON string. -/
def jsonChar (character : Char) : Text :=
  if character == '"' || character == '\\' then ['\\', character]
  else if character == '\n' then ['\\', 'n']
  else if character == '\r' then ['\\', 'r']
  else if character == '\t' then ['\\', 't']
  else if character == '\x0c' then ['\\', 'f']
  else if character == '\x08' then ['\\', 'b']
  else if ' ' ≤ character ∧ character ≤ '~' then [character]
  else (codeUnits character).flatMap fun unit => '\\' :: 'u' :: hexadecimal 4 unit

/-- The text as a JSON string, with its quotes. -/
def jsonString (text : Text) : Text :=
  '"' :: text.flatMap jsonChar ++ ['"']

end DiagramSketch.Text
