/-!
# Text

Source text, labels and documents are lists of characters. This module holds the
character classes that the line readers need (blanks and line breaks), trimming,
the split of a source into lines, and the search for a token inside a text.
-/

namespace DiagramSketch

/-- A text is the list of its characters. -/
abbrev Text := List Char

namespace Text

instance : Coe String Text := ⟨String.toList⟩

/-- A line ends at one of these characters: the ASCII line feed, vertical tab, form
feed, carriage return and the three information separators, next line, and the
Unicode line and paragraph separators. -/
def isLineBreak (character : Char) : Bool :=
  let code := character.toNat
  (0x0A ≤ code && code ≤ 0x0D) || (0x1C ≤ code && code ≤ 0x1E) || code == 0x85
    || code == 0x2028 || code == 0x2029

/-- Blank characters: the ASCII controls that act as white space, the space, and the
Unicode separators. The zero-width space and the byte order mark are not blank. -/
def isBlank (character : Char) : Bool :=
  let code := character.toNat
  (0x09 ≤ code && code ≤ 0x0D) || (0x1C ≤ code && code ≤ 0x20) || code == 0x85
    || code == 0xA0 || code == 0x1680 || (0x2000 ≤ code && code ≤ 0x200A)
    || code == 0x2028 || code == 0x2029 || code == 0x202F || code == 0x205F
    || code == 0x3000

theorem isBlank_of_isLineBreak {character : Char} (ends : isLineBreak character = true) :
    isBlank character = true := by
  simp only [isLineBreak, isBlank, Bool.or_eq_true, Bool.and_eq_true, decide_eq_true_eq,
    beq_iff_eq] at *
  omega

/-- The text after its leading blanks. -/
def dropBlanks (text : Text) : Text :=
  text.dropWhile isBlank

/-- The text without the blanks at its end. -/
def dropBlanksRight (text : Text) : Text :=
  (text.reverse.dropWhile isBlank).reverse

/-- The text without the blanks at either end. -/
def trim (text : Text) : Text :=
  dropBlanksRight (dropBlanks text)

/-- Splits what is left of a text into lines. The lines before it and the beginning of the next
one come in reverse. -/
def splitLinesFrom (lines : List Text) (read : Text) : Text → List Text
  | [] => (if read.isEmpty then lines else read.reverse :: lines).reverse
  | '\r' :: '\n' :: rest => splitLinesFrom (read.reverse :: lines) [] rest
  | character :: rest =>
      if isLineBreak character then splitLinesFrom (read.reverse :: lines) [] rest
      else splitLinesFrom lines (character :: read) rest

/-- The lines of a text, without their line breaks. A carriage return and the line feed behind
it are one break, and nothing behind the last break is no line. -/
def splitLines (text : Text) : List Text :=
  splitLinesFrom [] [] text

/-- The pieces without the blanks at their ends, as far as there is more to them. -/
def trimmed (pieces : List Text) : List Text :=
  (pieces.map trim).filter fun line => !line.isEmpty

/-- The lines of a source that are not blank, trimmed. -/
def sourceLines (source : Text) : List Text :=
  trimmed (splitLines source)

/-- The lines that describe a diagram: those that are not empty and do not start with an at
sign, which marks the beginning and the end of a source. -/
def contentLines (lines : List Text) : List Text :=
  lines.filter fun line => !line.isEmpty && line.head? != some '@'

/-- Whether the token stands anywhere in the text. -/
def occursIn (token : Text) : Text → Bool
  | [] => token.isEmpty
  | character :: rest => token.isPrefixOf (character :: rest) || occursIn token rest

theorem occursIn_iff {token text : Text} : occursIn token text = true ↔ token <:+: text := by
  induction text with
  | nil => simp [occursIn]
  | cons character rest induction =>
      simp only [occursIn, Bool.or_eq_true, List.isPrefixOf_iff_prefix, induction]
      exact List.infix_cons_iff.symm

/-- The first line of a text: everything up to its first line feed. -/
def upToLineFeed (text : Text) : Text :=
  text.takeWhile (· != '\n')

end Text

end DiagramSketch
