import DiagramSketch.Text.Basic
import DiagramSketch.Text.Case

/-!
# Reading a line from its start

Each reader takes a text and returns what follows the part that it accepts, together
with that part where it is not fixed, or nothing when the text does not start with it.
-/

namespace DiagramSketch.Text

/-- Reads exactly the token. -/
def literal? : Text → Text → Option Text
  | [], text => some text
  | _ :: _, [] => none
  | expected :: token, found :: text =>
      if expected = found then literal? token text else none

/-- Reads the token, which is in lower case, in any letter case. -/
def keyword? : Text → Text → Option Text
  | [], text => some text
  | _ :: _, [] => none
  | expected :: token, found :: text =>
      if expected = folded found then keyword? token text else none

/-- Reads the first of the tokens that the text starts with. -/
def anyOf? : List Text → Text → Option (Text × Text)
  | [], _ => none
  | token :: tokens, text =>
      match literal? token text with
      | some rest => some (token, rest)
      | none => anyOf? tokens text

/-- Reads one or more blanks, as many as there are. -/
def blanks? : Text → Option Text
  | [] => none
  | character :: text => if isBlank character then some (dropBlanks text) else none

/-- Reads a text that is not empty between an opening and the next closing character. The
opening character may occur inside again. -/
def enclosed? (opening closing : Char) : Text → Option (Text × Text)
  | [] => none
  | first :: text =>
      if first = opening then
        match text.takeWhile (· != closing), text.dropWhile (· != closing) with
        | body@(_ :: _), _ :: rest => some (body, rest)
        | _, _ => none
      else none

/-- The first enclosed text that can be read anywhere in the text, and what follows it. -/
def firstEnclosed? (opening closing : Char) : Text → Option (Text × Text)
  | [] => none
  | first :: text =>
      match enclosed? opening closing (first :: text) with
      | some found => some found
      | none => firstEnclosed? opening closing text

/-- Reads to the end of the text. A line feed may end it and is not part of what is read; one that
stands anywhere else is refused. -/
def toEnd? (text : Text) : Option Text :=
  match text.dropWhile (· != '\n') with
  | [] | ['\n'] => some (upToLineFeed text)
  | _ => none

theorem literal?_eq_some_iff {token text rest : Text} :
    literal? token text = some rest ↔ text = token ++ rest := by
  induction token generalizing text with
  | nil => simp [literal?]
  | cons expected token induction =>
      cases text with
      | nil => simp [literal?]
      | cons found text =>
          by_cases equal : expected = found
          · simp [literal?, equal, induction]
          · simp [literal?, equal, Ne.symm equal]

theorem literal?_append (token rest : Text) : literal? token (token ++ rest) = some rest :=
  literal?_eq_some_iff.mpr rfl

end DiagramSketch.Text
