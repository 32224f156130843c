import DiagramSketch.Proofs.Xml.Layout

/-!
# Characters that a document may hold

XML excludes the control characters other than tab, line feed and carriage return, and two
characters beyond the letters.  Writing adds none of these and removes none, so a document holds
legal characters only exactly when the element does: `isLegalText_written`.
-/

namespace DiagramSketch.Xml

open DiagramSketch (Text)

/-- A character that a document may hold. -/
def isLegal (character : Char) : Bool :=
  let code := character.toNat
  code == 0x9 || code == 0xA || code == 0xD || (0x20 ≤ code && code ≤ 0xD7FF)
    || (0xE000 ≤ code && code ≤ 0xFFFD) || (0x10000 ≤ code && code ≤ 0x10FFFF)

/-- A text that a document may hold. -/
def IsLegalText (text : Text) : Prop :=
  ∀ character ∈ text, isLegal character = true

theorem isLegalText_nil : IsLegalText [] := by
  intro character member
  cases member

theorem isLegalText_append {left right : Text} :
    IsLegalText (left ++ right) ↔ IsLegalText left ∧ IsLegalText right :=
  List.forall_mem_append

theorem isLegalText_cons {character : Char} {text : Text} :
    IsLegalText (character :: text) ↔ isLegal character = true ∧ IsLegalText text :=
  List.forall_mem_cons

theorem isLegalText_flatMap {α : Type} {values : List α} {spell : α → Text} :
    IsLegalText (values.flatMap spell) ↔ ∀ value ∈ values, IsLegalText (spell value) := by
  simp only [IsLegalText, List.mem_flatMap, forall_exists_index, and_imp]
  constructor
  · intro legal value member character inside
    exact legal character value member inside
  · intro legal character value member inside
    exact legal value member character inside

/-- A character is as legal as the reference that stands for it. -/
theorem isLegalText_reference_or {reference other : Text} {character markup : Char}
    (legal : reference.all isLegal = true) (isLegalMarkup : isLegal markup = true)
    (otherwise : IsLegalText other ↔ isLegal character = true) :
    IsLegalText (if character == markup then reference else other) ↔
      isLegal character = true := by
  split
  · next same =>
      obtain rfl : character = markup := by simpa using same
      exact iff_of_true (List.all_eq_true.mp legal) isLegalMarkup
  · exact otherwise

theorem isLegalText_escapedChar (character : Char) :
    IsLegalText (escapedChar character) ↔ isLegal character = true := by
  unfold escapedChar
  refine isLegalText_reference_or rfl rfl ?_
  refine isLegalText_reference_or rfl rfl ?_
  refine isLegalText_reference_or rfl rfl ?_
  exact isLegalText_cons.trans (and_iff_left isLegalText_nil)

theorem isLegalText_escapedAttributeChar (character : Char) :
    IsLegalText (escapedAttributeChar character) ↔ isLegal character = true := by
  unfold escapedAttributeChar
  refine isLegalText_reference_or rfl rfl ?_
  refine isLegalText_reference_or rfl rfl ?_
  refine isLegalText_reference_or rfl rfl ?_
  exact isLegalText_reference_or rfl rfl (isLegalText_escapedChar character)

theorem isLegalText_escaped {text : Text} : IsLegalText (escaped text) ↔ IsLegalText text := by
  rw [escaped, isLegalText_flatMap]
  exact forall₂_congr fun character _ => isLegalText_escapedChar character

/-- All characters of an attribute. -/
def Attribute.characters (entry : Attribute) : Text :=
  entry.1 ++ entry.2

theorem isLegalText_attribute {entry : Attribute} :
    IsLegalText (Attribute.written entry) ↔ IsLegalText entry.characters := by
  have value : IsLegalText (entry.2.flatMap escapedAttributeChar) ↔ IsLegalText entry.2 := by
    rw [isLegalText_flatMap]
    exact forall₂_congr fun character _ => isLegalText_escapedAttributeChar character
  have space : isLegal ' ' = true := rfl
  have equals : isLegal '=' = true := rfl
  have quote : isLegal '"' = true := rfl
  obtain ⟨name, content⟩ := entry
  simp only [Attribute.written, Attribute.characters, isLegalText_cons, isLegalText_append, value,
    space, equals, quote, isLegalText_nil, true_and, and_true]

namespace Element

/-- The characters of an element apart from those of its children. -/
def characters (element : Element) : Text :=
  element.tag ++ (element.attributes.flatMap Attribute.characters
    ++ (element.text.getD [] ++ element.tail.getD []))

theorem isLegalText_closed {tag inside : Text} (named : IsLegalText tag) :
    IsLegalText (closed tag inside) ↔ IsLegalText inside := by
  unfold closed
  split
  · next empty =>
      rw [List.isEmpty_iff.mp empty]
      exact iff_of_true (List.all_eq_true.mp rfl) isLegalText_nil
  · have opening : isLegal '<' = true := rfl
    have slash : isLegal '/' = true := rfl
    have closing : isLegal '>' = true := rfl
    simp only [isLegalText_cons, isLegalText_append, opening, slash, closing, named,
      isLegalText_nil, true_and, and_true]

mutual

/-- Writing an element neither adds an illegal character nor removes one. -/
theorem isLegalText_written : ∀ element : Element,
    IsLegalText element.written ↔ ∀ part ∈ element.descendants, IsLegalText part.characters
  | ⟨tag, attributes, text, children, tail⟩ => by
      have inner := isLegalText_writtenAll children
      have start : isLegal '<' = true := rfl
      have entries : IsLegalText (attributes.flatMap Attribute.written) ↔
          IsLegalText (attributes.flatMap Attribute.characters) := by
        rw [isLegalText_flatMap, isLegalText_flatMap]
        exact forall₂_congr fun entry _ => isLegalText_attribute
      rw [descendants, List.forall_mem_cons, ← inner, characters, written]
      by_cases named : IsLegalText tag
      · simp only [isLegalText_cons, isLegalText_append, isLegalText_closed named, entries,
          isLegalText_escaped, start, named, true_and]
        tauto
      · simp only [isLegalText_cons, isLegalText_append, named, false_and, and_false]

theorem isLegalText_writtenAll : ∀ elements : List Element,
    IsLegalText (writtenAll elements) ↔
      ∀ part ∈ descendantsAll elements, IsLegalText part.characters
  | [] => by
      refine iff_of_true isLegalText_nil ?_
      intro part member
      cases member
  | element :: elements => by
      rw [writtenAll, descendantsAll, isLegalText_append, List.forall_mem_append,
        isLegalText_written element, isLegalText_writtenAll elements]

end

end Element

end DiagramSketch.Xml
