import DiagramSketch.Proofs.Xml.Legality
import DiagramSketch.Svg.Document

/-!
# Printed drawings

Every part of a drawing has names that can be read, labels only in its text elements, and nothing
between its elements.  Such a drawing can always be printed; the document is read back as the
drawing, and holds an illegal character only where a label does.
-/

namespace DiagramSketch.Svg

open Xml (Element IsLegalText isLegal)

/-- What every part of a drawing is like. -/
structure IsRegular (part : Element) : Prop where
  named : part.IsNamed
  /-- Nothing is between the elements. -/
  bare : part.tail = none
  /-- A text element has nothing inside it but its label. -/
  childless : part.tag = "text".toList → part.children = []
  /-- No other element has a text. -/
  silent : part.tag ≠ "text".toList → part.text = none
  /-- The values of the attributes are legal. -/
  legal : ∀ entry ∈ part.attributes, IsLegalText entry.2

theorem not_mem_of_isName {character : Char} {name : Text} (named : Xml.isName name = true)
    (noStart : Xml.isNameStart character = false) (noPart : Xml.isNamePart character = false) :
    character ∉ name := by
  cases name with
  | nil => cases named
  | cons first rest =>
      simp only [Xml.isName, Bool.and_eq_true, List.all_eq_true] at named
      intro member
      rcases List.mem_cons.mp member with rfl | inside
      · rw [named.1] at noStart
        cases noStart
      · have part := named.2 character inside
        rw [part] at noPart
        cases noPart

theorem isLegal_of_isNamePart {character : Char} (part : Xml.isNamePart character = true) :
    isLegal character = true := by
  have bounds : 0x20 ≤ character.toNat ∧ character.toNat ≤ 0xD7FF := by
    simp only [Xml.isNamePart, Char.isAlphanum, Char.isAlpha, Char.isUpper, Char.isLower,
      Char.isDigit, Bool.or_eq_true, Bool.and_eq_true, decide_eq_true_eq, beq_iff_eq,
      ge_iff_le, UInt32.le_iff_toNat_le] at part
    rcases part with (((letter | digit) | rfl) | rfl) | rfl
    · rcases letter with upper | lower
      · exact ⟨Nat.le_trans (by decide) upper.1, Nat.le_trans upper.2 (by decide)⟩
      · exact ⟨Nat.le_trans (by decide) lower.1, Nat.le_trans lower.2 (by decide)⟩
    · exact ⟨Nat.le_trans (by decide) digit.1, Nat.le_trans digit.2 (by decide)⟩
    · decide
    · decide
    · decide
  simp [isLegal, bounds.1, bounds.2]

theorem isNamePart_of_isNameStart {character : Char} (start : Xml.isNameStart character = true) :
    Xml.isNamePart character = true := by
  simp only [Xml.isNameStart, Bool.or_eq_true] at start
  rcases start with letter | underscore
  · simp [Xml.isNamePart, Char.isAlphanum, letter]
  · simp [Xml.isNamePart, underscore]

theorem isLegalText_of_isName {name : Text} (named : Xml.isName name = true) :
    IsLegalText name := by
  intro character member
  cases name with
  | nil => cases member
  | cons first rest =>
      simp only [Xml.isName, Bool.and_eq_true, List.all_eq_true] at named
      rcases List.mem_cons.mp member with rfl | inside
      · exact isLegal_of_isNamePart (isNamePart_of_isNameStart named.1)
      · exact isLegal_of_isNamePart (named.2 character inside)

theorem isPlain_of_isName {entry : Xml.Attribute} (named : Xml.isName entry.1 = true) :
    entry.IsPlain := by
  intro starts
  exact not_mem_of_isName named (by decide) (by decide) (List.mem_of_mem_head? starts)

mutual

theorem isPlain_of_isNamed : ∀ element : Element,
    (∀ part ∈ element.descendants, part.IsNamed) → element.IsPlain
  | ⟨tag, attributes, text, children, tail⟩, named => by
      have own := named _ (Element.mem_descendants_self _)
      refine ⟨not_mem_of_isName own.tag (by decide) (by decide), ?_, ?_⟩
      · intro entry member
        exact isPlain_of_isName (own.attributes entry member)
      · exact arePlain_of_isNamed children fun part member =>
          named part (List.mem_cons_of_mem _ member)

theorem arePlain_of_isNamed : ∀ elements : List Element,
    (∀ part ∈ Element.descendantsAll elements, part.IsNamed) → Element.ArePlain elements
  | [], _ => trivial
  | element :: elements, named =>
      ⟨isPlain_of_isNamed element fun part member => named part (List.mem_append_left _ member),
        arePlain_of_isNamed elements fun part member =>
          named part (List.mem_append_right _ member)⟩

end

/-- The attribute that declares the namespace of a drawing. -/
def declaration : Xml.Attribute :=
  ("xmlns", namespaceName)

/-- The drawing with the declaration of its namespace. -/
def declared (element : Element) : Element :=
  { element with attributes := declaration :: element.attributes }

section

variable {element : Element}

theorem isNamed_indented (named : ∀ part ∈ element.descendants, part.IsNamed) (depth : Nat) :
    ∀ part ∈ (element.indented depth).descendants, part.IsNamed := by
  intro part member
  obtain ⟨original, inside, same⟩ := Element.exists_of_mem_indented depth element part member
  have own := named original inside
  refine ⟨?_, ?_, ?_⟩
  · rw [same.tag]
    exact own.tag
  · rw [same.attributes]
    exact own.attributes
  · rw [same.attributes]
    exact own.distinct

/-- A drawing whose names can be read is printed as it is, indented and with its namespace
declared. -/
theorem print_eq (named : ∀ part ∈ element.descendants, part.IsNamed) :
    print element = .ok (declared (element.indented 0)).written :=
  (element.indented 0).document_of_isPlain namespaceName
    (isPlain_of_isNamed _ (isNamed_indented named 0))

theorem isNamed_declared (named : ∀ part ∈ element.descendants, part.IsNamed)
    (undeclared : "xmlns".toList ∉ element.attributes.map Prod.fst) :
    ∀ part ∈ (declared element).descendants, part.IsNamed := by
  intro part member
  rw [Element.descendants_eq] at member
  rcases List.mem_cons.mp member with rfl | below
  · have own := named element element.mem_descendants_self
    refine ⟨own.tag, ?_, List.nodup_cons.mpr ⟨undeclared, own.distinct⟩⟩
    intro entry inside
    rcases List.mem_cons.mp inside with rfl | given
    · rfl
    · exact own.attributes entry given
  · refine named part ?_
    rw [Element.descendants_eq]
    exact List.mem_cons_of_mem _ below

theorem withoutLayout_declared_indented
    (bare : ∀ part ∈ Element.descendantsAll element.children, part.tail = none) :
    (declared (element.indented 0)).withoutLayout = (declared element).withoutLayout := by
  have same := Element.withoutLayout_indented 0 (declared element) bare
  cases element
  exact same

theorem labels_declared : (declared element).labels = element.labels := by
  rw [Element.labels, Element.labels, Element.descendants_eq, Element.descendants_eq,
    List.filterMap_cons, List.filterMap_cons]
  rfl

theorem isNamed_of_isRegular (regular : ∀ part ∈ element.descendants, IsRegular part) :
    ∀ part ∈ element.descendants, part.IsNamed :=
  fun part member => (regular part member).named

/-- A printed drawing is read back as it was drawn, with its labels. -/
theorem exists_read?_print (regular : ∀ part ∈ element.descendants, IsRegular part)
    (undeclared : "xmlns".toList ∉ element.attributes.map Prod.fst) {document : Text}
    (printed : print element = .ok document) :
    ∃ back, Xml.read? document = some back ∧
      back.withoutLayout = (declared element).withoutLayout ∧ back.labels = element.labels := by
  have named := isNamed_of_isRegular regular
  rw [print_eq named] at printed
  cases printed
  have own := regular element element.mem_descendants_self
  have indentedTail : (element.indented 0).tail = none := by
    rw [← own.bare]
    cases element
    rfl
  have indentedUndeclared : "xmlns".toList ∉ (element.indented 0).attributes.map Prod.fst := by
    cases element
    exact undeclared
  refine ⟨_, Element.read?_written (isNamed_declared (isNamed_indented named 0) indentedUndeclared)
    indentedTail, ?_, ?_⟩
  · rw [Element.withoutLayout_filled]
    refine withoutLayout_declared_indented fun part member => (regular part ?_).bare
    rw [Element.descendants_eq]
    exact List.mem_cons_of_mem _ member
  · rw [Element.labels_filled, labels_declared]
    exact Element.labels_indented 0 element fun part member => (regular part member).childless

/-- The text of a regular part is a label or is indentation. -/
theorem text_of_mem_indented (regular : ∀ part ∈ element.descendants, IsRegular part)
    {part : Element} (member : part ∈ (element.indented 0).descendants) :
    (∃ label ∈ (element.indented 0).labels, part.text.getD [] = label) ∨
      part.text = none ∨ ∃ depth, part.text = some (Xml.lineStart depth) := by
  obtain ⟨original, inside, same⟩ := Element.exists_of_mem_indented 0 element part member
  by_cases isText : part.tag = "text".toList
  · have label : part.label? = some (part.text.getD []) := if_pos isText
    exact .inl ⟨_, List.mem_filterMap.mpr ⟨part, member, label⟩, rfl⟩
  · have silent := (regular original inside).silent (same.tag ▸ isText)
    rcases same.text with kept | indentation
    · exact .inr (.inl (kept.trans silent))
    · exact .inr (.inr indentation)

theorem isLegalText_lineStart (depth : Nat) : IsLegalText (Xml.lineStart depth) := by
  intro character member
  rcases List.mem_cons.mp member with rfl | inside
  · rfl
  · rw [List.eq_of_mem_replicate inside]
    rfl

theorem isLegalText_of_label? {part : Element} {label : Text} (found : part.label? = some label)
    (legal : IsLegalText part.characters) : IsLegalText label := by
  simp only [Element.characters, Xml.isLegalText_append] at legal
  unfold Element.label? at found
  split at found
  · cases found
    exact legal.2.2.1
  · cases found

/-- Of what is written for a part, only its label can be illegal. -/
theorem isLegalText_of_mem_indented (regular : ∀ part ∈ element.descendants, IsRegular part)
    (legal : ∀ label ∈ (element.indented 0).labels, IsLegalText label) {part : Element}
    (member : part ∈ (element.indented 0).descendants) : IsLegalText part.characters := by
  obtain ⟨original, inside, same⟩ := Element.exists_of_mem_indented 0 element part member
  have own := regular original inside
  simp only [Element.characters, Xml.isLegalText_append]
  refine ⟨?_, ?_, ?_, ?_⟩
  · rw [same.tag]
    exact isLegalText_of_isName own.named.tag
  · rw [same.attributes, Xml.isLegalText_flatMap]
    intro entry given
    exact Xml.isLegalText_append.mpr
      ⟨isLegalText_of_isName (own.named.attributes entry given), own.legal entry given⟩
  · rcases text_of_mem_indented regular member with ⟨label, drawn, equal⟩ | none | ⟨depth, equal⟩
    · rw [equal]
      exact legal label drawn
    · rw [none]
      exact Xml.isLegalText_nil
    · rw [equal]
      exact isLegalText_lineStart depth
  · rcases same.tail with kept | ⟨depth, equal⟩
    · rw [kept, own.bare]
      exact Xml.isLegalText_nil
    · rw [equal]
      exact isLegalText_lineStart depth

theorem isLegalText_declared : (∀ part ∈ (declared element).descendants,
    IsLegalText part.characters) ↔ ∀ part ∈ element.descendants, IsLegalText part.characters := by
  have legal : IsLegalText (Xml.Attribute.characters declaration) := List.all_eq_true.mp rfl
  have own : IsLegalText (declared element).characters ↔ IsLegalText element.characters := by
    simp only [Element.characters, declared, List.flatMap_cons, Xml.isLegalText_append, legal,
      true_and]
  rw [Element.descendants_eq, Element.descendants_eq element, List.forall_mem_cons,
    List.forall_mem_cons, own]
  rfl

/-- Nothing but a label can put an illegal character into the document of a drawing. -/
theorem isLegalText_print (regular : ∀ part ∈ element.descendants, IsRegular part)
    {document : Text} (printed : print element = .ok document) :
    IsLegalText document ↔ ∀ label ∈ element.labels, IsLegalText label := by
  rw [print_eq (isNamed_of_isRegular regular)] at printed
  cases printed
  have labels : (element.indented 0).labels = element.labels :=
    Element.labels_indented 0 element fun part member => (regular part member).childless
  rw [Element.isLegalText_written, isLegalText_declared, ← labels]
  constructor
  · intro legal label member
    obtain ⟨part, inside, found⟩ := List.mem_filterMap.mp member
    exact isLegalText_of_label? found (legal part inside)
  · exact fun legal part member => isLegalText_of_mem_indented regular legal member

end

end DiagramSketch.Svg
