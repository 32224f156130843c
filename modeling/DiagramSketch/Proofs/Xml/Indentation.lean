import DiagramSketch.Proofs.Xml.Layout

/-!
# Indentation forgets earlier indentation

An element is indented by what is in it apart from indentation, whatever earlier passes have left
there, in it or in a part of it: `indented_congr`.  Adding a child is no difference to this.
-/

namespace DiagramSketch.Xml

mutual

/-- The element without what indentation puts into it: the texts after it and after its parts, and
the blank texts before children. -/
def Element.unindented : Element → Element
  | ⟨tag, attributes, text, children, _⟩ =>
      { tag, attributes
        text := if !children.isEmpty && isFree text then none else text
        children := Element.unindentedAll children
        tail := none }

/-- The elements without indentation. -/
def Element.unindentedAll : List Element → List Element
  | [] => []
  | element :: elements => element.unindented :: Element.unindentedAll elements

end

namespace Element

variable {element other : Element}

theorem unindentedAll_eq_map (elements : List Element) :
    unindentedAll elements = elements.map unindented := by
  induction elements with
  | nil => rfl
  | cons element elements induction => rw [unindentedAll, induction, List.map_cons]

theorem unindented_tail (element : Element) (tail : Option Text) :
    { element with tail }.unindented = element.unindented := by
  cases element
  rfl

/-- What is the same but for the text after it is the same if this is. -/
theorem eq_of_tail (same : { element with tail := none } = { other with tail := none })
    (tails : element.tail = other.tail) : element = other := by
  cases element
  cases other
  simp only [mk.injEq, and_true] at same tails ⊢
  obtain ⟨tag, attributes, text, children⟩ := same
  exact ⟨tag, attributes, text, children, tails⟩

theorem indentedAll_isEmpty (depth : Nat) (elements : List Element) :
    (indentedAll depth elements).isEmpty = elements.isEmpty := by
  cases elements <;> rfl

/-- Elements with the same contents differ in indentation only. -/
theorem unindented_eq_iff : element.unindented = other.unindented ↔
    element.tag = other.tag ∧ element.attributes = other.attributes ∧
      (if !element.children.isEmpty && isFree element.text then none else element.text) =
        (if !other.children.isEmpty && isFree other.text then none else other.text) ∧
      element.children.map unindented = other.children.map unindented := by
  rw [← unindentedAll_eq_map, ← unindentedAll_eq_map]
  cases element
  cases other
  simp only [unindented, mk.injEq, and_true]

theorem children_isEmpty_of_unindented_eq (same : element.unindented = other.unindented) :
    element.children.isEmpty = other.children.isEmpty := by
  have children := congrArg List.isEmpty (unindented_eq_iff.mp same).2.2.2
  rwa [List.isEmpty_map, List.isEmpty_map] at children

/-- What takes the place of blanks is as free as these. -/
theorem isFree_ite (filled : Bool) (text : Option Text) :
    isFree (if filled && isFree text then none else text) = isFree text := by
  split
  · next free =>
      rw [Bool.and_eq_true] at free
      rw [free.2]
      rfl
  · rfl

/-- A text before children is indented alike in both elements. -/
theorem isFree_of_unindented_eq (same : element.unindented = other.unindented) :
    isFree element.text = isFree other.text := by
  have texts := congrArg isFree (unindented_eq_iff.mp same).2.2.1
  rwa [isFree_ite, isFree_ite] at texts

end Element

mutual

theorem Element.unindented_indented : ∀ (depth : Nat) (element : Element),
    (element.indented depth).unindented = element.unindented
  | depth, ⟨tag, attributes, text, children, tail⟩ => by
      have inner := Element.unindentedAll_indentedAll depth children
      rw [Element.indented, Element.unindented, Element.unindented, inner,
        Element.indentedAll_isEmpty]
      congr 1
      by_cases free : (!children.isEmpty && isFree text) = true
      · rw [Bool.and_eq_true] at free
        simp [free.1, free.2, isFree_lineStart]
      · simp [free]

theorem Element.unindentedAll_indentedAll : ∀ (depth : Nat) (elements : List Element),
    Element.unindentedAll (Element.indentedAll depth elements) = Element.unindentedAll elements
  | _, [] => rfl
  | depth, element :: elements => by
      have first := Element.unindented_indented (depth + 1) element
      have others := Element.unindentedAll_indentedAll depth elements
      rw [Element.indentedAll, Element.unindentedAll, Element.unindentedAll, others,
        Element.unindented_tail, first]

end

mutual

/-- The indentation is told by what is left without it. -/
theorem Element.indented_unindented : ∀ (depth : Nat) (element : Element),
    element.unindented.indented depth = { element.indented depth with tail := none }
  | depth, ⟨tag, attributes, text, children, tail⟩ => by
      have inner := Element.indentedAll_unindentedAll depth children
      have empty : (Element.unindentedAll children).isEmpty = children.isEmpty := by
        rw [Element.unindentedAll_eq_map, List.isEmpty_map]
      rw [Element.unindented, Element.indented, Element.indented, inner, empty]
      congr 1
      by_cases free : (!children.isEmpty && isFree text) = true
      · have blank : isFree none = true := rfl
        rw [if_pos free, if_pos free, blank, Bool.and_true]
        rw [Bool.and_eq_true] at free
        rw [if_pos free.1]
      · rw [if_neg free, if_neg free]

theorem Element.indentedAll_unindentedAll : ∀ (depth : Nat) (elements : List Element),
    Element.indentedAll depth (Element.unindentedAll elements) = Element.indentedAll depth elements
  | _, [] => rfl
  | depth, element :: elements => by
      have first := Element.indented_unindented (depth + 1) element
      have others := Element.indentedAll_unindentedAll depth elements
      have empty : (Element.unindentedAll elements).isEmpty = elements.isEmpty := by
        rw [Element.unindentedAll_eq_map, List.isEmpty_map]
      rw [Element.unindentedAll, Element.indentedAll, Element.indentedAll, first, others, empty]

end

namespace Element

variable {element other child : Element}

/-- Elements that differ in indentation only are indented alike. -/
theorem indented_congr (same : element.unindented = other.unindented)
    (tails : element.tail = other.tail) (depth : Nat) :
    element.indented depth = other.indented depth := by
  have tail (element : Element) : (element.indented depth).tail = element.tail := by
    cases element
    rfl
  have bare := (indented_unindented depth element).symm.trans
    ((congrArg (indented depth) same).trans (indented_unindented depth other))
  apply eq_of_tail bare
  rw [tail, tail, tails]

theorem unindented_add (same : element.unindented = other.unindented) (child : Element) :
    (element.add child).unindented = (other.add child).unindented := by
  obtain ⟨tag, attributes, text, children⟩ := unindented_eq_iff.mp same
  have free := isFree_of_unindented_eq same
  have empty := children_isEmpty_of_unindented_eq same
  apply unindented_eq_iff.mpr
  refine ⟨tag, attributes, ?_, ?_⟩
  · have filled (elements : List Element) : (elements ++ [child]).isEmpty = false := by
      cases elements <;> rfl
    simp only [add, filled, Bool.not_false, Bool.true_and]
    rw [free] at text ⊢
    rw [empty] at text
    split
    · rfl
    · next kept =>
        rw [Bool.eq_false_of_not_eq_true kept] at text
        simpa using text
  · rw [add, add, List.map_append, List.map_append, children]

end Element

end DiagramSketch.Xml
