import DiagramSketch.Text.Basic

/-!
# XML elements

An element has a tag, attributes in their order, a text before its children, the
children, and a text after its own end tag. Indentation is a matter of these texts: it
fills the ones that hold no label with line breaks and spaces, and never touches a label.
-/

namespace DiagramSketch.Xml

/-- A name and its value. -/
abbrev Attribute := Text × Text

/-- An element of a document. `tail` is the text between its end and what follows it. -/
structure Element where
  tag : Text
  attributes : List Attribute
  text : Option Text
  children : List Element
  tail : Option Text

namespace Element

/-- An element with nothing inside it. -/
def empty (tag : Text) (attributes : List Attribute) : Element :=
  { tag, attributes, text := none, children := [], tail := none }

/-- An element that encloses others. -/
def enclosing (tag : Text) (attributes : List Attribute) (children : List Element) : Element :=
  { tag, attributes, text := none, children, tail := none }

/-- An element with a label inside it. -/
def labelled (tag : Text) (attributes : List Attribute) (label : Text) : Element :=
  { tag, attributes, text := some label, children := [], tail := none }

/-- The element with one more child at the end. -/
def add (element child : Element) : Element :=
  { element with children := element.children ++ [child] }

end Element

/-- A line break and the spaces before an element at a depth. -/
def lineStart (depth : Nat) : Text :=
  '\n' :: List.replicate (2 * depth) ' '

/-- A text may be replaced by indentation when there is nothing in it but blanks. -/
def isFree (text : Option Text) : Bool :=
  (text.getD []).all Text.isBlank

mutual

/-- The element with its children on lines of their own, when it stands at the depth. -/
def Element.indented (depth : Nat) : Element → Element
  | ⟨tag, attributes, text, children, tail⟩ =>
      { tag, attributes
        text := if !children.isEmpty && isFree text then some (lineStart (depth + 1)) else text
        children := Element.indentedAll depth children
        tail }

/-- The children of an element at the depth, each followed by the start of the next line: one
for the next child, or the one for the end tag of the element. -/
def Element.indentedAll (depth : Nat) : List Element → List Element
  | [] => []
  | child :: children =>
      { child.indented (depth + 1) with
        tail := some (lineStart (if children.isEmpty then depth else depth + 1)) }
        :: Element.indentedAll depth children

end

end DiagramSketch.Xml
