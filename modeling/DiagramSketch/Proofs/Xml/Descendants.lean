import DiagramSketch.Xml.PlainNames

/-!
# The parts of an element

What is true of an element and everything inside it is stated over the list of its descendants, in
document order.  The labels of a drawing are the texts of its text elements in that order.
-/

namespace DiagramSketch.Xml

mutual

/-- An element and everything inside it, in the order in which the start tags are written. -/
def Element.descendants : Element → List Element
  | ⟨tag, attributes, text, children, tail⟩ =>
      ⟨tag, attributes, text, children, tail⟩ :: Element.descendantsAll children

/-- Elements and everything inside them. -/
def Element.descendantsAll : List Element → List Element
  | [] => []
  | element :: elements => element.descendants ++ Element.descendantsAll elements

end

namespace Element

theorem descendants_eq (element : Element) :
    element.descendants = element :: descendantsAll element.children := by
  cases element
  rw [descendants]

theorem mem_descendants_self (element : Element) : element ∈ element.descendants := by
  rw [descendants_eq]
  exact List.mem_cons_self

theorem descendantsAll_eq_flatMap (elements : List Element) :
    descendantsAll elements = elements.flatMap descendants := by
  induction elements with
  | nil => rfl
  | cons element elements induction => rw [descendantsAll, List.flatMap_cons, induction]

/-- The label of a text element. -/
def label? (element : Element) : Option Text :=
  if element.tag = "text".toList then some (element.text.getD []) else none

/-- The labels in an element, in document order. -/
def labels (element : Element) : List Text :=
  element.descendants.filterMap label?

end Element

end DiagramSketch.Xml
