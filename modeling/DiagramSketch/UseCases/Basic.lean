import DiagramSketch.Text.Scan
import DiagramSketch.Text.Word

/-!
# Use cases

A use-case diagram has actors, use cases and the links between them. Actors are declared
by name; a use case is introduced by its label in parentheses, wherever it stands.
-/

namespace DiagramSketch

/-- An actor takes part in a use case. -/
structure Link where
  actor : Text
  useCase : Text
deriving DecidableEq, Repr

/-- A use-case diagram. -/
structure UseCases where
  actors : List Text
  labels : List Text
  links : List Link
deriving DecidableEq, Repr

namespace UseCases

/-- Reads the declaration of an actor: the keyword, blanks and a name. What follows does not
matter. -/
def declared? (line : Text) : Option Text := do
  let (name, _) ← Text.word? (← Text.blanks? (← Text.literal? "actor" line))
  return name

/-- The label that begins in a piece of a line: what follows the first opening parenthesis, if
there is anything. Further opening parentheses belong to it. -/
def labelIn? (piece : Text) : Option Text :=
  match piece.dropWhile (· != '(') with
  | _ :: label@(_ :: _) => some label
  | _ => none

/-- All labels in parentheses in a line, from left to right. Each piece of the line that a
closing parenthesis ends has at most one. -/
def labelsOf (line : Text) : List Text :=
  (line.splitOnP (· == ')')).dropLast.filterMap labelIn?

/-- Reads the sign of a link, which may stand between blanks. -/
def linkSign? (text : Text) : Option Text := do
  return Text.dropBlanks (← Text.literal? "--" (Text.dropBlanks text))

/-- Reads a link that begins with the actor. What follows it does not matter. -/
def linkFromActor? (line : Text) : Option Link := do
  let (actor, afterActor) ← Text.word? line
  let (useCase, _) ← Text.enclosed? '(' ')' (← linkSign? afterActor)
  return { actor, useCase }

/-- Reads a link that begins with the use case. Nothing but blanks may follow it. -/
def linkFromLabel? (line : Text) : Option Link := do
  let (useCase, afterLabel) ← Text.enclosed? '(' ')' line
  let (actor, rest) ← Text.word? (← linkSign? afterLabel)
  if (Text.dropBlanks rest).isEmpty then return { actor, useCase } else none

/-- Reads a link. -/
def link? (line : Text) : Option Link :=
  (linkFromActor? line).or (linkFromLabel? line)

/-- A line of a source: the declaration of an actor, or labels and perhaps a link. -/
inductive Line where
  | declaration (actor : Text)
  | content (labels : List Text) (link : Option Link)
deriving DecidableEq, Repr

/-- Reads a line. -/
def Line.read (line : Text) : Line :=
  match declared? line with
  | some actor => .declaration actor
  | none => .content (labelsOf line) (link? line)

/-- A diagram with nothing in it. -/
def empty : UseCases :=
  { actors := [], labels := [], links := [] }

/-- The names, with a further one at the end unless it is among them. -/
def including (names : List Text) (name : Text) : List Text :=
  if names.contains name then names else names ++ [name]

/-- Takes a line into account. -/
def follow (useCases : UseCases) : Line → UseCases
  | .declaration actor => { useCases with actors := including useCases.actors actor }
  | .content labels link =>
      { useCases with
        labels := labels.foldl including useCases.labels
        links := useCases.links ++ link.toList }

/-- The diagram that the lines of a source describe. -/
def ofLines (lines : List Text) : UseCases :=
  ((Text.contentLines lines).map Line.read).foldl follow empty

end UseCases

end DiagramSketch
