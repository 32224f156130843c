import DiagramSketch.Proofs.Scene.Canvas

/-!
# What the groups of a drawing show

A group is known by its class and by the labels in it, and an entity by the groups inside it as
well.  The document of a scene has one element for each entity and then one for each relation, in
order, and each element shows what it is drawn for.
-/

namespace DiagramSketch

open Xml (Element)

/-- What a group shows: its class, and the labels that stand in it. -/
structure Subject where
  className : Text
  labels : List Text
deriving DecidableEq, Repr

/-- What an entity shows: the same, and what the groups inside it show. -/
structure Exhibit extends Subject where
  members : List Subject := []
deriving DecidableEq, Repr

/-- All labels that an entity shows. -/
def Exhibit.texts (exhibit : Exhibit) : List Text :=
  exhibit.labels ++ exhibit.members.flatMap Subject.labels

/-- What a group is drawn for. -/
def Group.subject (group : Group) : Subject :=
  { className := group.className, labels := group.labels }

/-- What an entity is drawn for. -/
def Entity.exhibit (entity : Entity) : Exhibit :=
  { entity.toGroup.subject with members := entity.members.map Group.subject }

namespace Svg

/-- What the element of a group shows. -/
def subject? (element : Element) : Option Subject :=
  if element.tag = "g".toList then
    (Keyed.find? "class" element.attributes).map fun className =>
      { className, labels := element.children.filterMap Element.label? }
  else none

/-- What the element of an entity shows. -/
def exhibit? (element : Element) : Option Exhibit :=
  (subject? element).map fun subject =>
    { subject with members := element.children.filterMap subject? }

/-- A group whose class begins with a word. -/
def IsGroupOf (word : Text) (element : Element) : Prop :=
  ∃ subject, subject? element = some subject ∧ word <+: subject.className

theorem subject?_enclosing (className : Text) (children : List Element) :
    subject? (.enclosing "g" [("class", className)] children) =
      some { className, labels := children.filterMap Element.label? } :=
  rfl

theorem label?_enclosing (className : Text) (children : List Element) :
    Element.label? (.enclosing "g" [("class", className)] children) = none :=
  rfl

end Svg

/-- The element of a figure shows its label, and is no group. -/
theorem Figure.label?_element {figure : Figure} {element : Element}
    (drawn : figure.element = .ok element) :
    element.label? = figure.shape.content? ∧ Svg.subject? element = none := by
  obtain ⟨geometry, -, drawn⟩ := bind_eq_ok_iff.mp drawn
  obtain ⟨entries, -, drawn⟩ := bind_eq_ok_iff.mp drawn
  cases drawn
  cases figure.shape <;> exact ⟨rfl, rfl⟩

theorem filterMap_label?_figures {figures : List Figure} {elements : List Element}
    (drawn : figures.mapM Figure.element = .ok elements) :
    elements.filterMap Element.label? = figures.filterMap (fun figure => figure.shape.content?) ∧
      elements.filterMap Svg.subject? = [] := by
  have each := mapM_eq_ok_iff.mp drawn
  induction each with
  | nil => exact ⟨rfl, rfl⟩
  | cons first rest induction =>
      obtain ⟨label, group⟩ := Figure.label?_element first
      obtain ⟨labels, groups⟩ := induction (mapM_eq_ok_iff.mpr rest)
      rw [List.filterMap_cons, List.filterMap_cons, List.filterMap_cons, label, group, labels]
      exact ⟨rfl, groups⟩

theorem Group.subject?_element {group : Group} {element : Element}
    (drawn : group.element = .ok element) :
    Svg.subject? element = some group.subject ∧ element.label? = none := by
  obtain ⟨elements, figures, drawn⟩ := bind_eq_ok_iff.mp drawn
  cases drawn
  obtain ⟨labels, -⟩ := filterMap_label?_figures figures
  rw [Svg.subject?_enclosing, labels]
  exact ⟨rfl, Svg.label?_enclosing _ _⟩

theorem filterMap_subject?_groups {groups : List Group} {elements : List Element}
    (drawn : groups.mapM Group.element = .ok elements) :
    elements.filterMap Svg.subject? = groups.map Group.subject ∧
      elements.filterMap Element.label? = [] := by
  have each := mapM_eq_ok_iff.mp drawn
  induction each with
  | nil => exact ⟨rfl, rfl⟩
  | cons first rest induction =>
      obtain ⟨subject, label⟩ := Group.subject?_element first
      obtain ⟨subjects, labels⟩ := induction (mapM_eq_ok_iff.mpr rest)
      rw [List.filterMap_cons, List.filterMap_cons, List.map_cons, subject, label, subjects]
      exact ⟨rfl, labels⟩

/-- The element of an entity shows what the entity is drawn for. -/
theorem Entity.exhibit?_element {entity : Entity} {element : Element}
    (drawn : entity.element = .ok element) : Svg.exhibit? element = some entity.exhibit := by
  obtain ⟨own, figures, drawn⟩ := bind_eq_ok_iff.mp drawn
  obtain ⟨inner, members, drawn⟩ := bind_eq_ok_iff.mp drawn
  cases drawn
  obtain ⟨ownLabels, ownSubjects⟩ := filterMap_label?_figures figures
  obtain ⟨innerSubjects, innerLabels⟩ := filterMap_subject?_groups members
  have children : (Element.enclosing "g" [("class", entity.className)] (own ++ inner)).children =
      own ++ inner := rfl
  rw [Svg.exhibit?, Svg.subject?_enclosing, children, List.filterMap_append,
    List.filterMap_append, ownLabels, ownSubjects, innerSubjects, innerLabels, List.append_nil,
    List.nil_append]
  rfl

theorem Scene.labels_eq (scene : Scene) :
    scene.labels = (scene.entities.map Entity.exhibit).flatMap Exhibit.texts ++
      scene.relations.flatMap Group.labels := by
  have own (entity : Entity) : entity.groups.flatMap Group.labels = entity.exhibit.texts := by
    rw [Entity.groups, List.flatMap_cons, Exhibit.texts, Entity.exhibit, List.flatMap_map]
    rfl
  rw [labels, groups, List.flatMap_append, List.flatMap_assoc, List.flatMap_map]
  simp only [own]

end DiagramSketch
