import DiagramSketch.Text.Basic

/-!
# Letter case

Two ways to disregard case. `lowered` writes a text in lower case as far as this can
produce an ASCII letter, which is all that a search for an ASCII token can see.
`folded` maps a character to the ASCII letter that it equals when case is disregarded,
the dotted and dotless `i`, the long `s` and the Kelvin sign among them.
-/

namespace DiagramSketch.Text

/-- The lower case of an ASCII capital, and any other character itself. -/
def asciiLower (character : Char) : Char :=
  if 'A' ≤ character ∧ character ≤ 'Z' then Char.ofNat (character.toNat + 32) else character

/-- The lower case of a character where it holds an ASCII letter, and the character itself
otherwise. The Kelvin sign becomes `k`; the capital dotted `i` becomes an `i` and a combining dot
above. -/
def loweredChar (character : Char) : Text :=
  if character == '\u212A' then ['k']
  else if character == '\u0130' then ['i', '\u0307']
  else [asciiLower character]

/-- The text in lower case, as far as ASCII letters come out of it. -/
def lowered (text : Text) : Text :=
  text.flatMap loweredChar

/-- The lower-case ASCII letter that the character equals when case is disregarded, and any
other character itself. -/
def folded (character : Char) : Char :=
  if character == '\u0130' || character == '\u0131' then 'i'
  else if character == '\u017F' then 's'
  else if character == '\u212A' then 'k'
  else asciiLower character

theorem lowered_append (left right : Text) :
    lowered (left ++ right) = lowered left ++ lowered right := by
  simp [lowered]

end DiagramSketch.Text
