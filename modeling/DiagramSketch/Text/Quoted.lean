import DiagramSketch.Text.Hexadecimal
import DiagramSketch.Text.Printable

/-!
# Quoted texts

A text inside a message is written between quotes, so that its ends and its control
characters can be seen. Single quotes are used, unless the text holds a single quote and
no double quote.
-/

namespace DiagramSketch.Text

/-- One character between the given quotes: the quote, the backslash and everything that is not
printable is escaped, by the shortest of the three numeric forms that holds it. -/
def quotedChar (quote character : Char) : Text :=
  let code := character.toNat
  if character == quote || character == '\\' then ['\\', character]
  else if character == '\n' then ['\\', 'n']
  else if character == '\r' then ['\\', 'r']
  else if character == '\t' then ['\\', 't']
  else if isPrintable character then [character]
  else if code < 0x100 then '\\' :: 'x' :: hexadecimal 2 code
  else if code < 0x10000 then '\\' :: 'u' :: hexadecimal 4 code
  else '\\' :: 'U' :: hexadecimal 8 code

/-- The quote that a text is written between. -/
def quoteFor (text : Text) : Char :=
  if text.contains '\'' && !text.contains '"' then '"' else '\''

/-- The text between quotes. -/
def quoted (text : Text) : Text :=
  let quote := quoteFor text
  quote :: text.flatMap (quotedChar quote) ++ [quote]

end DiagramSketch.Text
