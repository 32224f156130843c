import DiagramSketch.Text.Scan
import DiagramSketch.Text.Word

/-!
# Sequences

A sequence diagram has participants and the interactions between them, both in the order
in which the source introduces them. A line either declares a participant or tells an
interaction; an interaction introduces the participants that it names.
-/

namespace DiagramSketch

/-- A message that one participant sends to another. -/
structure Interaction where
  source : Text
  target : Text
  arrow : Text
  message : Text
deriving DecidableEq, Repr

namespace Interaction

/-- An arrow with two hyphens is drawn dashed. -/
def isDashed (interaction : Interaction) : Bool :=
  Text.occursIn "--" interaction.arrow

/-- Whether the head of the arrow is at the target. -/
def isRightward (interaction : Interaction) : Bool :=
  Text.occursIn "->" interaction.arrow

end Interaction

/-- A sequence diagram. -/
structure Sequence where
  participants : List Text
  interactions : List Interaction
deriving DecidableEq, Repr

namespace Sequence

/-- A line of a source. -/
inductive Line where
  | declaration (participant : Text)
  | interaction (told : Interaction)
deriving DecidableEq, Repr

/-- The words that a declaration may begin with. -/
def declarationKeywords : List Text :=
  ["participant", "actor", "boundary", "control", "entity", "database"]

/-- The arrows between two participants. -/
def arrows : List Text :=
  ["-->", "<--", "->", "<-"]

/-- Reads a declaration: a keyword, blanks and the name of a participant. What follows does
not matter. -/
def declared? (line : Text) : Option Text := do
  let (_, afterKeyword) ← Text.anyOf? declarationKeywords line
  let (name, _) ← Text.word? (← Text.blanks? afterKeyword)
  return name

/-- Reads the message at the end of an interaction: nothing, or a colon and a text that ends
the line. -/
def message? (text : Text) : Option Text :=
  match Text.dropBlanks text with
  | [] => some []
  | ':' :: rest => (Text.toEnd? (Text.dropBlanks rest)).map Text.trim
  | _ => none

/-- Reads an interaction: two names with an arrow between them, and the message. -/
def interaction? (line : Text) : Option Interaction := do
  let (source, afterSource) ← Text.word? line
  let (arrow, afterArrow) ← Text.anyOf? arrows (Text.dropBlanks afterSource)
  let (target, afterTarget) ← Text.word? (Text.dropBlanks afterArrow)
  return { source, target, arrow, message := ← message? afterTarget }

/-- Reads a line. A line that could be both is a declaration. -/
def Line.read? (line : Text) : Option Line :=
  match declared? line with
  | some name => some (.declaration name)
  | none => (interaction? line).map .interaction

/-- A diagram with nothing in it. -/
def empty : Sequence :=
  { participants := [], interactions := [] }

/-- Makes sure that there is a participant with the name. -/
def introduce (name : Text) (sequence : Sequence) : Sequence :=
  if sequence.participants.contains name then sequence
  else { sequence with participants := sequence.participants ++ [name] }

@[simp] theorem interactions_introduce (name : Text) (sequence : Sequence) :
    (sequence.introduce name).interactions = sequence.interactions := by
  unfold introduce
  split
  · rfl
  · rfl

/-- Takes a line into account. -/
def follow (sequence : Sequence) : Line → Sequence
  | .declaration name => sequence.introduce name
  | .interaction told =>
      let introduced := (sequence.introduce told.source).introduce told.target
      { introduced with interactions := introduced.interactions ++ [told] }

/-- The diagram that the lines of a source describe. -/
def ofLines (lines : List Text) : Sequence :=
  ((Text.contentLines lines).filterMap Line.read?).foldl follow empty

end Sequence

end DiagramSketch
