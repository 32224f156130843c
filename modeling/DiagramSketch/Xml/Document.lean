import DiagramSketch.Xml.Name
import DiagramSketch.Xml.Print

/-!
# XML documents

An element as a document of its own. All tags belong to one namespace, the home of the
document, and the names of attributes may belong to others. What is written is the element
with its names spelled out and the short names declared in its first tag.
-/

namespace DiagramSketch.Xml

mutual

/-- The names in an element, in the order in which they are written. -/
def Element.names (home : Text) : Element → List Text
  | ⟨tag, attributes, _, children, _⟩ =>
      inSpace home tag :: (attributes.map Prod.fst ++ Element.namesAll home children)

/-- The names in elements, one after the other. -/
def Element.namesAll (home : Text) : List Element → List Text
  | [] => []
  | element :: elements => element.names home ++ Element.namesAll home elements

end

mutual

/-- The element with other names. -/
def Element.renamed (home : Text) (rename : Text → Text) : Element → Element
  | ⟨tag, attributes, text, children, tail⟩ =>
      { tag := rename (inSpace home tag)
        attributes := attributes.map fun (name, value) => (rename name, value)
        text
        children := Element.renamedAll home rename children
        tail }

/-- The elements with other names. -/
def Element.renamedAll (home : Text) (rename : Text → Text) : List Element → List Element
  | [] => []
  | element :: elements => element.renamed home rename :: Element.renamedAll home rename elements

end

/-- The short names of a document, in the order in which its names use them. -/
def declaredFor (home : Text) (names : List Name) : Keyed Text :=
  (names.filterMap Name.space).foldl (declare home) []

/-- How a name is written where the short names are declared. -/
def spelling (home : Text) (declared : Keyed Text) (name : Text) : Text :=
  match Name.read name with
  | .ok read => read.spelled home declared
  | .error _ => name

/-- The text of the element as a document. -/
def Element.document (home : Text) (element : Element) : Except Fault Text := do
  let names ← (element.names home).mapM Name.read
  let declared := declaredFor home names
  let spelled := element.renamed home (spelling home declared)
  return { spelled with attributes := declarations declared ++ spelled.attributes }.written

end DiagramSketch.Xml
