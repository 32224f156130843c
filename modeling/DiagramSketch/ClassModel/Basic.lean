import DiagramSketch.Text.Scan
import DiagramSketch.Text.Word

/-!
# Class models

A class diagram has classes with their members, and relationships between them. A class
is opened by its declaration and closed by a brace; the lines in between are its members.
Relationships are found in any line that does not declare a class, inside a class or not.
-/

namespace DiagramSketch

/-- A class and its members, as they are written. -/
structure ClassEntry where
  name : Text
  attributes : List Text
  methods : List Text
deriving DecidableEq, Repr

/-- The number of attributes and methods. -/
def ClassEntry.memberCount (entry : ClassEntry) : Nat :=
  entry.attributes.length + entry.methods.length

/-- Two names and the sign between them. -/
structure Relationship where
  left : Text
  relation : Text
  right : Text
deriving DecidableEq, Repr

namespace Relationship

/-- A sign with a bar stands for inheritance. -/
def isInheritance (relationship : Relationship) : Bool :=
  relationship.relation.contains '|'

/-- The names in the direction of the arrow, the one that the head is at last. -/
def endpoints (relationship : Relationship) : Text × Text :=
  if relationship.relation.head? == some '<' then (relationship.right, relationship.left)
  else (relationship.left, relationship.right)

end Relationship

/-- A class diagram. -/
structure ClassModel where
  classes : List ClassEntry
  relationships : List Relationship
deriving DecidableEq, Repr

namespace ClassModel

/-- The signs of relationships. -/
def relations : List Text :=
  ["<|--", "--|>", "<--", "-->"]

/-- Reads a declaration: the keyword, blanks and the name of a class. What follows does not
matter. -/
def declared? (line : Text) : Option Text := do
  let (name, _) ← Text.word? (← Text.blanks? (← Text.literal? "class" line))
  return name

/-- Reads a relationship at the start of a text: two names with a sign between them. -/
def relationship? (text : Text) : Option Relationship := do
  let (left, afterLeft) ← Text.word? text
  let (relation, afterRelation) ← Text.anyOf? relations (Text.dropBlanks afterLeft)
  let (right, _) ← Text.word? (Text.dropBlanks afterRelation)
  return { left, relation, right }

/-- The first relationship in a text. Only the start of a name can be the start of it.
`insideName` says that the text begins inside a name. -/
def findRelationship? (insideName : Bool) : Text → Option Relationship
  | [] => none
  | character :: text =>
      (if Text.isWord character && !insideName then relationship? (character :: text) else none).or
        (findRelationship? (Text.isWord character) text)

/-- What a line says about the class that it stands in. -/
inductive Member where
  | attribute
  | method
deriving DecidableEq, Repr

/-- A line with both parentheses is a method. Any other is an attribute, unless the word for
classes occurs in it or it is an opening brace. -/
def member? (line : Text) : Option Member :=
  if line = ['{'] then none
  else if line.contains '(' && line.contains ')' then some .method
  else if Text.occursIn "class" line then none
  else some .attribute

/-- A line of a source. -/
inductive Line where
  | declaration (name : Text)
  | closing
  | content (line : Text)
deriving DecidableEq, Repr

/-- Reads a line. -/
def Line.read (line : Text) : Line :=
  match declared? line with
  | some name => .declaration name
  | none => if line = ['}'] then .closing else .content line

/-- The model that has been read, and the class that is open. -/
structure Reading where
  model : ClassModel
  openClass : Option Text
deriving DecidableEq, Repr

/-- A model with nothing in it. -/
def empty : ClassModel :=
  { classes := [], relationships := [] }

/-- Makes sure that there is a class with the name. -/
def introduce (name : Text) (model : ClassModel) : ClassModel :=
  if model.classes.any (·.name == name) then model
  else { model with classes := model.classes ++ [{ name, attributes := [], methods := [] }] }

/-- Adds a member to an entry. -/
def addMember (line : Text) (entry : ClassEntry) : Member → ClassEntry
  | .attribute => { entry with attributes := entry.attributes ++ [line] }
  | .method => { entry with methods := entry.methods ++ [line] }

/-- Adds a line to the class with the name, if it is a member. -/
def addTo (name line : Text) (model : ClassModel) : ClassModel :=
  match member? line with
  | none => model
  | some member =>
      { model with
        classes := model.classes.map fun entry =>
          if entry.name == name then addMember line entry member else entry }

/-- Takes a line into account. -/
def follow (reading : Reading) : Line → Reading
  | .declaration name => { model := reading.model.introduce name, openClass := some name }
  | .closing => { reading with openClass := none }
  | .content line =>
      let model :=
        match reading.openClass with
        | none => reading.model
        | some name => reading.model.addTo name line
      { reading with
        model := { model with
          relationships := model.relationships ++ (findRelationship? false line).toList } }

/-- The model that the lines of a source describe. -/
def ofLines (lines : List Text) : ClassModel :=
  (((Text.contentLines lines).map Line.read).foldl follow
    { model := empty, openClass := none }).model

end ClassModel

end DiagramSketch
