import DiagramSketch.Xml.Document

/-!
# Documents with plain names

Where no name shows a brace, a document is the element as it is, with a declaration of its
home: `document_of_isPlain`.
-/

namespace DiagramSketch.Xml

/-- No brace opens the name of an attribute. -/
def Attribute.IsPlain (entry : Attribute) : Prop :=
  entry.1.head? ≠ some '{'

mutual

/-- No tag has a closing brace, and no name of an attribute begins with an opening one. -/
def Element.IsPlain : Element → Prop
  | ⟨tag, attributes, _, children, _⟩ =>
      '}' ∉ tag ∧ (∀ entry ∈ attributes, Attribute.IsPlain entry) ∧ Element.ArePlain children

/-- All elements are plain. -/
def Element.ArePlain : List Element → Prop
  | [] => True
  | element :: elements => element.IsPlain ∧ Element.ArePlain elements

end

/-- The names that texts are read as. None of them belongs to a namespace other than the home. -/
def AreRead (home : Text) (texts : List Text) (names : List Name) : Prop :=
  texts.mapM Name.read = .ok names ∧ ∀ name ∈ names, ∀ space ∈ name.space, space = home

namespace AreRead

variable {home : Text}

theorem nil : AreRead home [] [] :=
  ⟨rfl, by simp⟩

theorem append {texts others : List Text} {names rest : List Name}
    (first : AreRead home texts names) (second : AreRead home others rest) :
    AreRead home (texts ++ others) (names ++ rest) := by
  refine ⟨?_, ?_⟩
  · rw [List.mapM_append, first.1, second.1]
    rfl
  · intro name member
    rcases List.mem_append.mp member with member | member
    · exact first.2 name member
    · exact second.2 name member

theorem cons {text : Text} {name : Name} {texts : List Text} {names : List Name}
    (read : Name.read text = .ok name) (homely : ∀ space ∈ name.space, space = home)
    (rest : AreRead home texts names) : AreRead home (text :: texts) (name :: names) := by
  refine ⟨?_, ?_⟩
  · rw [List.mapM_cons, read, rest.1]
    rfl
  · intro other member
    rcases List.mem_cons.mp member with rfl | member
    · exact homely
    · exact rest.2 other member

theorem attributes (entries : List Attribute)
    (plain : ∀ entry ∈ entries, Attribute.IsPlain entry) :
    AreRead home (entries.map Prod.fst)
      (entries.map fun entry => { space := none, localName := entry.1 }) := by
  induction entries with
  | nil => exact nil
  | cons entry entries induction =>
      exact cons (Name.read_of_head?_ne (plain entry (by simp))) (by simp)
        (induction fun other member => plain other (by simp [member]))

end AreRead

mutual

theorem Element.areRead_names (home : Text) :
    ∀ element : Element, element.IsPlain → ∃ rest,
      AreRead home (element.names home)
        ({ space := some home, localName := element.tag } :: rest)
  | ⟨tag, attributes, _, children, _⟩, ⟨tagPlain, attributesPlain, childrenPlain⟩ => by
      obtain ⟨rest, read⟩ := Element.areRead_namesAll home children childrenPlain
      rw [Element.names]
      exact ⟨_, .cons (Name.read_inSpace tagPlain) (by simp)
        ((AreRead.attributes attributes attributesPlain).append read)⟩

theorem Element.areRead_namesAll (home : Text) :
    ∀ elements : List Element, Element.ArePlain elements → ∃ names,
      AreRead home (Element.namesAll home elements) names
  | [], _ => by
      rw [Element.namesAll]
      exact ⟨[], .nil⟩
  | element :: elements, ⟨plain, allPlain⟩ => by
      obtain ⟨rest, read⟩ := Element.areRead_names home element plain
      obtain ⟨others, readOthers⟩ := Element.areRead_namesAll home elements allPlain
      rw [Element.namesAll]
      exact ⟨_, read.append readOthers⟩

end

/-- The home is declared once. -/
theorem declare_home (home : Text) : declare home [(home, [])] home = [(home, [])] := by
  simp [declare, shortName, Keyed.find?, Keyed.assign, undeclared]

/-- Where the home is the only namespace, its short name is the only one declared. -/
theorem declaredFor_cons_home (home tag : Text) {names : List Name}
    (homely : ∀ name ∈ names, ∀ space ∈ name.space, space = home) :
    declaredFor home ({ space := some home, localName := tag } :: names) = [(home, [])] := by
  have start : declare home [] home = [(home, [])] := by
    simp [declare, shortName, Keyed.find?, Keyed.assign, undeclared]
  have own : Name.space { space := some home, localName := tag } = some home := rfl
  rw [declaredFor, List.filterMap_cons_some own, List.foldl_cons, start]
  induction names with
  | nil => rfl
  | cons name names induction =>
      have rest := induction fun other member => homely other (by simp [member])
      cases found : name.space with
      | none => rw [List.filterMap_cons_none found, rest]
      | some space =>
          obtain rfl := homely name (by simp) space (by simp [found])
          rw [List.filterMap_cons_some found, List.foldl_cons, declare_home, rest]

/-- A tag without a closing brace is written as it is. -/
theorem spelling_inSpace {home tag : Text} (plain : '}' ∉ tag) :
    spelling home [(home, [])] (inSpace home tag) = tag := by
  simp [spelling, Name.read_inSpace plain, Name.spelled, shortName, Keyed.find?]

/-- A name that does not begin with a brace is written as it is. -/
theorem spelling_of_head?_ne {home name : Text} {declared : Keyed Text}
    (plain : name.head? ≠ some '{') : spelling home declared name = name := by
  simp [spelling, Name.read_of_head?_ne plain, Name.spelled]

mutual

theorem Element.renamed_of_isPlain (home : Text) :
    ∀ element : Element, element.IsPlain →
      element.renamed home (spelling home [(home, [])]) = element
  | ⟨tag, attributes, text, children, tail⟩, ⟨tagPlain, attributesPlain, childrenPlain⟩ => by
      have kept : attributes.map (fun entry : Attribute =>
          (spelling home [(home, [])] entry.1, entry.2)) = attributes := by
        refine (List.map_congr_left fun entry member => ?_).trans (List.map_id _)
        rw [spelling_of_head?_ne (attributesPlain entry member)]
        rfl
      rw [Element.renamed, spelling_inSpace tagPlain,
        Element.renamedAll_of_arePlain home children childrenPlain]
      simp [kept]

theorem Element.renamedAll_of_arePlain (home : Text) :
    ∀ elements : List Element, Element.ArePlain elements →
      Element.renamedAll home (spelling home [(home, [])]) elements = elements
  | [], _ => by rw [Element.renamedAll]
  | element :: elements, ⟨plain, allPlain⟩ => by
      rw [Element.renamedAll, Element.renamed_of_isPlain home element plain,
        Element.renamedAll_of_arePlain home elements allPlain]

end

/-- A document with plain names is the element with a declaration of its home. -/
theorem Element.document_of_isPlain (home : Text) {element : Element}
    (plain : element.IsPlain) :
    element.document home =
      .ok { element with attributes := ("xmlns", home) :: element.attributes }.written := by
  obtain ⟨rest, read, homely⟩ := element.areRead_names home plain
  have declared := declaredFor_cons_home home element.tag fun name member =>
    homely name (List.mem_cons_of_mem _ member)
  simp only [Element.document, read, bind, Except.bind, declared,
    element.renamed_of_isPlain home plain, pure, Except.pure]
  simp [declarations]

end DiagramSketch.Xml
