import DiagramSketch.Proofs.Xml.RoundTrip

/-!
# Indentation is layout only

Indentation fills the texts between child elements.  Once the blank ones of these are taken away
again, an indented element is the one that it was, and its labels have never changed:
`withoutLayout_indented` and `labels_indented`.
-/

namespace DiagramSketch.Xml

mutual

/-- The element without the blank texts before, between and after its children, and without empty
texts. A text beside which there is no child stays, also when it is blank. -/
def Element.withoutLayout : Element → Element
  | ⟨tag, attributes, text, children, tail⟩ =>
      { tag, attributes
        text := if !children.isEmpty && isFree text then none else proper text
        children := Element.withoutLayoutAll children
        tail := if isFree tail then none else proper tail }

/-- The elements without layout. -/
def Element.withoutLayoutAll : List Element → List Element
  | [] => []
  | element :: elements => element.withoutLayout :: Element.withoutLayoutAll elements

end

theorem isFree_lineStart (depth : Nat) : isFree (some (lineStart depth)) = true := by
  simp only [isFree, Option.getD_some, List.all_eq_true, lineStart, List.mem_cons,
    List.mem_replicate]
  rintro character (rfl | ⟨-, rfl⟩)
  · decide
  · decide

theorem isFree_proper (text : Option Text) : isFree (proper text) = isFree text := by
  rw [isFree, isFree, getD_proper]

theorem proper_proper (text : Option Text) : proper (proper text) = proper text := by
  simp [proper, Option.filter_filter]

mutual

/-- What was lost in reading back is no part of the layout either. -/
theorem Element.withoutLayout_filled :
    ∀ element : Element, element.filled.withoutLayout = element.withoutLayout
  | ⟨tag, attributes, text, children, tail⟩ => by
      have inner := Element.withoutLayoutAll_filledAll children
      have empty : (Element.filledAll children).isEmpty = children.isEmpty := by
        cases children <;> rfl
      rw [Element.filled, Element.withoutLayout, Element.withoutLayout, inner, empty,
        isFree_proper, isFree_proper, proper_proper, proper_proper]

theorem Element.withoutLayoutAll_filledAll : ∀ elements : List Element,
    Element.withoutLayoutAll (Element.filledAll elements) = Element.withoutLayoutAll elements
  | [] => rfl
  | element :: elements => by
      rw [Element.filledAll, Element.withoutLayoutAll, Element.withoutLayoutAll,
        Element.withoutLayout_filled element, Element.withoutLayoutAll_filledAll elements]

end

mutual

theorem Element.withoutLayout_indented : ∀ (depth : Nat) (element : Element),
    (∀ part ∈ Element.descendantsAll element.children, part.tail = none) →
    (element.indented depth).withoutLayout = element.withoutLayout
  | depth, ⟨tag, attributes, text, children, tail⟩, bare => by
      have inner := Element.withoutLayoutAll_indentedAll depth children bare
      have empty : (Element.indentedAll depth children).isEmpty = children.isEmpty := by
        cases children <;> rfl
      rw [Element.indented, Element.withoutLayout, Element.withoutLayout, inner, empty]
      congr 1
      by_cases free : !children.isEmpty && isFree text
      · rw [Bool.and_eq_true] at free
        simp [free.1, free.2, isFree_lineStart]
      · simp [free]

theorem Element.withoutLayoutAll_indentedAll : ∀ (depth : Nat) (elements : List Element),
    (∀ part ∈ Element.descendantsAll elements, part.tail = none) →
    Element.withoutLayoutAll (Element.indentedAll depth elements) =
      Element.withoutLayoutAll elements
  | _, [], _ => rfl
  | depth, element :: elements, bare => by
      rw [Element.descendantsAll, element.descendants_eq] at bare
      have own : element.tail = none := bare element (by simp)
      have first := Element.withoutLayout_indented (depth + 1) element
        fun part member => bare part (by simp [member])
      have others := Element.withoutLayoutAll_indentedAll depth elements
        fun part member => bare part (by simp [member])
      have replaced (line : Nat) :
          { element.indented (depth + 1) with tail := some (lineStart line) }.withoutLayout =
            element.withoutLayout := by
        rw [← first]
        cases element
        obtain rfl : _ = none := own
        have free : isFree none = true := rfl
        simp only [Element.indented, Element.withoutLayout, isFree_lineStart, free, if_true]
        rfl
      rw [Element.indentedAll, Element.withoutLayoutAll, Element.withoutLayoutAll, others,
        replaced]

end

/-! ## What layout does not touch -/

namespace Element

variable {element : Element}

theorem tag_withoutLayout : element.withoutLayout.tag = element.tag := by
  cases element
  rfl

theorem attributes_withoutLayout : element.withoutLayout.attributes = element.attributes := by
  cases element
  rfl

theorem withoutLayoutAll_eq_map (elements : List Element) :
    withoutLayoutAll elements = elements.map withoutLayout := by
  induction elements with
  | nil => rfl
  | cons element elements induction => rw [withoutLayoutAll, List.map_cons, induction]

theorem children_withoutLayout :
    element.withoutLayout.children = element.children.map withoutLayout := by
  rw [← withoutLayoutAll_eq_map]
  cases element
  rfl

theorem label?_withoutLayout
    (childless : element.tag = "text".toList → element.children = []) :
    element.withoutLayout.label? = element.label? := by
  unfold label?
  rw [tag_withoutLayout]
  split
  · next isText =>
      obtain ⟨tag, attributes, text, children, tail⟩ := element
      obtain rfl : children = [] := childless isText
      exact congrArg some (getD_proper text)
  · rfl

end Element

/-! ## Parts of an indented element -/

/-- The part is the original one, but for indentation in it or after it. -/
structure Element.IsIndentedFrom (original part : Element) : Prop where
  tag : part.tag = original.tag
  attributes : part.attributes = original.attributes
  text : part.text = original.text ∨ ∃ depth, part.text = some (lineStart depth)
  tail : part.tail = original.tail ∨ ∃ depth, part.tail = some (lineStart depth)

theorem Element.isIndentedFrom_indented (depth : Nat) (element : Element) :
    element.IsIndentedFrom (element.indented depth) := by
  obtain ⟨tag, attributes, text, children, tail⟩ := element
  refine ⟨rfl, rfl, ?_, .inl rfl⟩
  rw [Element.indented]
  dsimp only
  split
  · exact .inr ⟨depth + 1, rfl⟩
  · exact .inl rfl

mutual

/-- Each part of an indented element comes from a part of the element. -/
theorem Element.exists_of_mem_indented : ∀ (depth : Nat) (element part : Element),
    part ∈ (element.indented depth).descendants →
      ∃ original ∈ element.descendants, original.IsIndentedFrom part
  | depth, ⟨tag, attributes, text, children, tail⟩, part, member => by
      rw [Element.descendants_eq] at member
      rcases List.mem_cons.mp member with rfl | below
      · exact ⟨_, Element.mem_descendants_self _, Element.isIndentedFrom_indented depth _⟩
      · obtain ⟨original, inside, same⟩ :=
          Element.exists_of_mem_indentedAll depth children part below
        exact ⟨original, List.mem_cons_of_mem _ inside, same⟩

theorem Element.exists_of_mem_indentedAll : ∀ (depth : Nat) (elements : List Element)
    (part : Element), part ∈ Element.descendantsAll (Element.indentedAll depth elements) →
      ∃ original ∈ Element.descendantsAll elements, original.IsIndentedFrom part
  | _, [], _, member => by cases member
  | depth, element :: elements, part, member => by
      rw [Element.indentedAll, Element.descendantsAll, Element.descendants_eq,
        List.cons_append] at member
      rcases List.mem_cons.mp member with rfl | below
      · have same := Element.isIndentedFrom_indented (depth + 1) element
        exact ⟨element, List.mem_append_left _ element.mem_descendants_self,
          ⟨same.tag, same.attributes, same.text, .inr ⟨_, rfl⟩⟩⟩
      · rcases List.mem_append.mp below with inner | later
        · have own : part ∈ (element.indented (depth + 1)).descendants := by
            rw [Element.descendants_eq]
            exact List.mem_cons_of_mem _ inner
          obtain ⟨original, inside, same⟩ :=
            Element.exists_of_mem_indented (depth + 1) element part own
          exact ⟨original, List.mem_append_left _ inside, same⟩
        · obtain ⟨original, inside, same⟩ :=
            Element.exists_of_mem_indentedAll depth elements part later
          exact ⟨original, List.mem_append_right _ inside, same⟩

end

/-! ## Labels -/

mutual

theorem Element.labels_filled : ∀ element : Element, element.filled.labels = element.labels
  | ⟨tag, attributes, text, children, tail⟩ => by
      have inner := Element.labels_filledAll children
      have own : Element.label? ⟨tag, attributes, proper text, Element.filledAll children,
          proper tail⟩ = Element.label? ⟨tag, attributes, text, children, tail⟩ := by
        simp only [Element.label?, getD_proper]
      simp only [Element.labels, Element.filled, Element.descendants, List.filterMap_cons, own,
        inner]

theorem Element.labels_filledAll : ∀ elements : List Element,
    (Element.descendantsAll (Element.filledAll elements)).filterMap Element.label? =
      (Element.descendantsAll elements).filterMap Element.label?
  | [] => rfl
  | element :: elements => by
      have first := Element.labels_filled element
      have others := Element.labels_filledAll elements
      rw [Element.labels, Element.labels] at first
      simp only [Element.filledAll, Element.descendantsAll, List.filterMap_append, first, others]

end

mutual

/-- Indentation keeps the labels, since no text element has a child. -/
theorem Element.labels_indented : ∀ (depth : Nat) (element : Element),
    (∀ part ∈ element.descendants, part.tag = "text".toList → part.children = []) →
    (element.indented depth).labels = element.labels
  | depth, ⟨tag, attributes, text, children, tail⟩, childless => by
      have inner := Element.labels_indentedAll depth children fun part member =>
        childless part (List.mem_cons_of_mem _ member)
      have own : Element.label? (Element.indented depth ⟨tag, attributes, text, children, tail⟩) =
          Element.label? ⟨tag, attributes, text, children, tail⟩ := by
        by_cases isText : tag = "text".toList
        · obtain rfl : children = [] := childless _ (Element.mem_descendants_self _) isText
          rfl
        · rw [Element.indented, Element.label?, Element.label?, if_neg isText, if_neg isText]
      rw [Element.indented] at own
      simp only [Element.labels, Element.indented, Element.descendants, List.filterMap_cons, own,
        inner]

theorem Element.labels_indentedAll : ∀ (depth : Nat) (elements : List Element),
    (∀ part ∈ Element.descendantsAll elements, part.tag = "text".toList → part.children = []) →
    (Element.descendantsAll (Element.indentedAll depth elements)).filterMap Element.label? =
      (Element.descendantsAll elements).filterMap Element.label?
  | _, [], _ => rfl
  | depth, element :: elements, childless => by
      have first := Element.labels_indented (depth + 1) element fun part member =>
        childless part (List.mem_append_left _ member)
      have others := Element.labels_indentedAll depth elements fun part member =>
        childless part (List.mem_append_right _ member)
      have tailless (line : Nat) :
          { element.indented (depth + 1) with tail := some (lineStart line) }.labels =
            (element.indented (depth + 1)).labels := by
        simp only [Element.labels, Element.descendants_eq, List.filterMap_cons, Element.label?]
      have own (line : Nat) := (tailless line).trans first
      simp only [Element.labels] at own
      simp only [Element.indentedAll, Element.descendantsAll, List.filterMap_append, own, others]

end

end DiagramSketch.Xml
