import DiagramSketch.Proofs.Scene.Subjects

/-!
# What a document tells about its scene

A document is read back as the tree that was drawn, but for layout.  Neither what a group shows nor
the attributes of its shapes depend on layout, so that two scenes with one document show the same
entities in the same order, and relations that look alike.
-/

namespace DiagramSketch

open Xml (Element)

namespace Svg

variable {element : Element}

theorem isRegular_of_mem_children (regular : ∀ part ∈ element.descendants, IsRegular part) :
    ∀ child ∈ element.children, ∀ part ∈ child.descendants, IsRegular part := by
  intro child member part inside
  refine regular part ?_
  rw [Element.descendants_eq, Element.descendantsAll_eq_flatMap]
  exact List.mem_cons_of_mem _ (List.mem_flatMap.mpr ⟨child, member, inside⟩)

theorem filterMap_withoutLayout {α : Type} {read : Element → Option α} {elements : List Element}
    (same : ∀ element ∈ elements, read element.withoutLayout = read element) :
    (elements.map Element.withoutLayout).filterMap read = elements.filterMap read := by
  rw [List.filterMap_map]
  exact List.filterMap_congr same

theorem subject?_withoutLayout (regular : ∀ part ∈ element.descendants, IsRegular part) :
    subject? element.withoutLayout = subject? element := by
  have labels : (element.children.map Element.withoutLayout).filterMap Element.label? =
      element.children.filterMap Element.label? :=
    filterMap_withoutLayout fun child member => Element.label?_withoutLayout
      (isRegular_of_mem_children regular child member child child.mem_descendants_self).childless
  rw [subject?, subject?, Element.tag_withoutLayout, Element.attributes_withoutLayout,
    Element.children_withoutLayout, labels]

theorem exhibit?_withoutLayout (regular : ∀ part ∈ element.descendants, IsRegular part) :
    exhibit? element.withoutLayout = exhibit? element := by
  have members : (element.children.map Element.withoutLayout).filterMap subject? =
      element.children.filterMap subject? :=
    filterMap_withoutLayout fun child member =>
      subject?_withoutLayout (isRegular_of_mem_children regular child member)
  rw [exhibit?, exhibit?, subject?_withoutLayout regular, Element.children_withoutLayout, members]

/-- What the element of an entity shows; the element of a relation shows none. -/
def entity? (element : Element) : Option Exhibit :=
  (exhibit? element).filter fun exhibit => "entity".toList.isPrefixOf exhibit.className

theorem entity?_withoutLayout (regular : ∀ part ∈ element.descendants, IsRegular part) :
    entity? element.withoutLayout = entity? element := by
  rw [entity?, entity?, exhibit?_withoutLayout regular]

end Svg

/-! ## Relations that look alike -/

/-- What is written about a figure, except for its label. -/
def Figure.attributes (figure : Figure) : Except Fault (List Xml.Attribute) :=
  figure.shape.geometry.bind fun geometry => Svg.attributes (geometry ++ figure.paint)

/-- Two figures are written with the same attributes. -/
def Figure.IsAlike (figure other : Figure) : Prop :=
  ∃ entries, figure.attributes = .ok entries ∧ other.attributes = .ok entries

/-- Two groups of one class have the same labels, and figures that are alike. -/
structure Group.IsAlike (group other : Group) : Prop where
  subject : group.subject = other.subject
  figures : List.Forall₂ Figure.IsAlike group.figures other.figures

theorem Figure.attributes_eq {figure : Figure} {element : Element}
    (drawn : figure.element = .ok element) : figure.attributes = .ok element.attributes := by
  obtain ⟨geometry, measured, drawn⟩ := bind_eq_ok_iff.mp drawn
  obtain ⟨entries, made, drawn⟩ := bind_eq_ok_iff.mp drawn
  cases drawn
  exact bind_eq_ok_iff.mpr ⟨geometry, measured, made⟩

/-- Figures that are alike spell what they have under one name alike. -/
theorem Figure.IsAlike.spelled_eq {figure other : Figure} (alike : figure.IsAlike other)
    {geometry otherGeometry : Keyed Svg.Value} (measured : figure.shape.geometry = .ok geometry)
    (otherMeasured : other.shape.geometry = .ok otherGeometry)
    (distinct : ((geometry ++ figure.paint).map fun entry => Svg.hyphenated entry.1).Nodup)
    (otherDistinct : ((otherGeometry ++ other.paint).map fun entry => Svg.hyphenated entry.1).Nodup)
    (name : Text) {value otherValue : Svg.Value} (member : (name, value) ∈ geometry ++ figure.paint)
    (otherMember : (name, otherValue) ∈ otherGeometry ++ other.paint) :
    value.spelled = otherValue.spelled := by
  obtain ⟨entries, made, otherMade⟩ := alike
  rw [attributes, measured] at made
  rw [attributes, otherMeasured] at otherMade
  rw [Svg.spelled_eq_find?_attributes made distinct member,
    Svg.spelled_eq_find?_attributes otherMade otherDistinct otherMember]

theorem Svg.formatRounded_eq_of_spelled {number other : Number}
    (same : (Value.number number).spelled = (Value.number other).spelled) :
    number.formatRounded = other.formatRounded := by
  simp only [Value.spelled] at same
  cases found : number.formatRounded <;> cases otherFound : other.formatRounded <;>
    simp_all [Except.map]

/-- Lines that are alike have their ends at the same columns, and are dashed and pointed alike. -/
theorem Figure.IsAlike.of_lines {first last otherFirst otherLast : Point}
    {style otherStyle : Svg.LineStyle}
    (alike : (line first last style).IsAlike (line otherFirst otherLast otherStyle)) :
    (Number.ofRat first.x).formatRounded = (Number.ofRat otherFirst.x).formatRounded ∧
      (Number.ofRat last.x).formatRounded = (Number.ofRat otherLast.x).formatRounded ∧
      style.isDashed = otherStyle.isDashed ∧
      (Svg.markerReference style.endMarker).spelled =
        (Svg.markerReference otherStyle.endMarker).spelled := by
  have distinct : ["x1".toList, "y1".toList, "x2".toList, "y2".toList, "stroke".toList,
      "stroke-width".toList, "stroke-dasharray".toList, "marker-start".toList,
      "marker-end".toList].Nodup := by decide
  have same := alike.spelled_eq rfl rfl distinct distinct
  refine ⟨?_, ?_, ?_, ?_⟩
  · exact Svg.formatRounded_eq_of_spelled (same "x1" (by simp) (by simp))
  · exact Svg.formatRounded_eq_of_spelled (same "x2" (by simp) (by simp))
  · have dashes : (if style.isDashed then ("5,5" : Svg.Value) else .absent).spelled =
        (if otherStyle.isDashed then ("5,5" : Svg.Value) else .absent).spelled :=
      same "stroke_dasharray" (by simp [line, Svg.LineStyle.values])
        (by simp [line, Svg.LineStyle.values])
    cases dashed : style.isDashed <;> cases otherDashed : otherStyle.isDashed <;>
      simp_all [Svg.Value.spelled]
  · exact same "marker_end" (by simp [line, Svg.LineStyle.values])
      (by simp [line, Svg.LineStyle.values])

theorem Group.forall₂_children {group : Group} {element : Element}
    (drawn : group.element = .ok element) :
    List.Forall₂ (fun figure child => figure.attributes = .ok child.attributes) group.figures
      element.children := by
  obtain ⟨elements, figures, drawn⟩ := bind_eq_ok_iff.mp drawn
  cases drawn
  exact (mapM_eq_ok_iff.mp figures).imp fun figure child shown => Figure.attributes_eq shown

/-- Groups whose elements differ in nothing but layout look alike. -/
theorem Group.isAlike_of_element {group other : Group} {element otherElement : Element}
    (drawn : group.element = .ok element) (otherDrawn : other.element = .ok otherElement)
    (regular : ∀ part ∈ element.descendants, Svg.IsRegular part)
    (otherRegular : ∀ part ∈ otherElement.descendants, Svg.IsRegular part)
    (same : element.withoutLayout = otherElement.withoutLayout) : group.IsAlike other := by
  constructor
  · have subjects := congrArg Svg.subject? same
    rw [Svg.subject?_withoutLayout regular, Svg.subject?_withoutLayout otherRegular,
      (Group.subject?_element drawn).1, (Group.subject?_element otherDrawn).1] at subjects
    exact Option.some.inj subjects
  · have children := congrArg Element.children same
    rw [Element.children_withoutLayout, Element.children_withoutLayout] at children
    refine forall₂_of_map_eq (forall₂_children drawn) (forall₂_children otherDrawn) children ?_
    intro child _ otherChild _ figure otherFigure equal written otherWritten
    have entries := congrArg Element.attributes equal
    rw [Element.attributes_withoutLayout, Element.attributes_withoutLayout] at entries
    exact ⟨child.attributes, written, otherWritten.trans (congrArg Except.ok entries.symm)⟩

/-! ## Scenes -/

namespace Scene

/-- The class of a group tells whether it shows an entity or a relation. -/
structure IsSorted (scene : Scene) : Prop where
  entities : ∀ exhibit ∈ scene.entities.map Entity.exhibit, "entity".toList <+: exhibit.className
  relations : ∀ group ∈ scene.relations, "relation".toList <+: group.className

variable {scene other : Scene}

/-- What is read back of the entities and relations of a sorted scene shows the entities. -/
theorem IsSorted.filterMap_entity? (sorted : scene.IsSorted) {entities relations : List Element}
    (entitiesShown : scene.entities.mapM Entity.element = .ok entities)
    (relationsShown : scene.relations.mapM Group.element = .ok relations)
    (regular : ∀ element ∈ entities ++ relations, ∀ part ∈ element.descendants,
      Svg.IsRegular part) :
    ((entities ++ relations).map Element.withoutLayout).filterMap Svg.entity? =
      scene.entities.map Entity.exhibit := by
  have shown : entities.filterMap Svg.entity? = scene.entities.map Entity.exhibit := by
    refine filterMap_eq_map_of_forall₂ (mapM_eq_ok_iff.mp entitiesShown) ?_
    intro entity member element drawn
    rw [Svg.entity?, Entity.exhibit?_element drawn]
    have named := sorted.entities _ (List.mem_map_of_mem member)
    exact Option.filter_some_pos (List.isPrefixOf_iff_prefix.mpr named)
  have hidden : relations.filterMap Svg.entity? = [] := by
    refine List.filterMap_eq_nil_iff.mpr fun element member => ?_
    obtain ⟨group, inside, drawn⟩ := exists_left_of_mem (mapM_eq_ok_iff.mp relationsShown) member
    rw [Svg.entity?, Svg.exhibit?, (Group.subject?_element drawn).1]
    refine Option.filter_some_neg (Bool.eq_false_iff.mpr fun named => ?_)
    have both := List.prefix_of_prefix_length_le (List.isPrefixOf_iff_prefix.mp named)
      (sorted.relations group inside) (by decide)
    exact absurd both (by decide)
  rw [Svg.filterMap_withoutLayout fun element member =>
      Svg.entity?_withoutLayout (regular element member),
    List.filterMap_append, shown, hidden, List.append_nil]

/-- The document of a scene is read back with an element for each entity and each relation, which
differs from the one that was drawn in nothing but layout. -/
theorem exists_read?_of_print (sound : scene.IsSound) {document : Text}
    (printed : scene.print = .ok document) :
    ∃ back entities relations, Xml.read? document = some back ∧
      scene.entities.mapM Entity.element = .ok entities ∧
      scene.relations.mapM Group.element = .ok relations ∧
      (∀ element ∈ entities ++ relations, ∀ part ∈ element.descendants, Svg.IsRegular part) ∧
      back.withoutLayout.children.drop 2 = (entities ++ relations).map Element.withoutLayout := by
  obtain ⟨root, shown, written⟩ := bind_eq_ok_iff.mp printed
  have regular := isRegular_element sound shown
  obtain ⟨back, read, same, -⟩ := Svg.exists_read?_print regular (undeclared_element shown) written
  obtain ⟨-, widthText, heightText, entities, relations, -, -, entitiesShown, relationsShown,
    rfl⟩ := element_eq_ok_iff.mp shown
  refine ⟨back, entities, relations, read, entitiesShown, relationsShown, ?_, ?_⟩
  · intro element member
    exact Svg.isRegular_of_mem_children regular element
      (List.mem_cons_of_mem _ (List.mem_cons_of_mem _ member))
  · rw [same, Element.children_withoutLayout]
    rfl

/-- Two sorted scenes with one document show the same entities, and relations that look alike. -/
theorem exhibits_eq_of_print (sound : scene.IsSound) (otherSound : other.IsSound)
    (sorted : scene.IsSorted) (otherSorted : other.IsSorted) {document : Text}
    (printed : scene.print = .ok document) (otherPrinted : other.print = .ok document) :
    scene.entities.map Entity.exhibit = other.entities.map Entity.exhibit ∧
      List.Forall₂ Group.IsAlike scene.relations other.relations := by
  obtain ⟨back, entities, relations, read, entitiesShown, relationsShown, regular, parts⟩ :=
    exists_read?_of_print sound printed
  obtain ⟨otherBack, otherEntities, otherRelations, otherRead, otherEntitiesShown,
    otherRelationsShown, otherRegular, otherParts⟩ := exists_read?_of_print otherSound otherPrinted
  obtain rfl : back = otherBack := Option.some.inj (read.symm.trans otherRead)
  have same := parts.symm.trans otherParts
  have exhibits : scene.entities.map Entity.exhibit = other.entities.map Entity.exhibit := by
    rw [← sorted.filterMap_entity? entitiesShown relationsShown regular,
      ← otherSorted.filterMap_entity? otherEntitiesShown otherRelationsShown otherRegular, same]
  refine ⟨exhibits, ?_⟩
  -- There are equally many entities, so the relations stand beside one another.
  have lengths : entities.length = otherEntities.length := by
    have counts := congrArg List.length exhibits
    rw [List.length_map, List.length_map, (mapM_eq_ok_iff.mp entitiesShown).length_eq,
      (mapM_eq_ok_iff.mp otherEntitiesShown).length_eq] at counts
    exact counts
  rw [List.map_append, List.map_append] at same
  obtain ⟨-, lines⟩ := List.append_inj same (by rw [List.length_map, List.length_map, lengths])
  refine forall₂_of_map_eq (mapM_eq_ok_iff.mp relationsShown)
    (mapM_eq_ok_iff.mp otherRelationsShown) lines ?_
  intro element member otherElement otherMember group otherGroup equal drawn otherDrawn
  exact Group.isAlike_of_element drawn otherDrawn (regular _ (List.mem_append_right _ member))
    (otherRegular _ (List.mem_append_right _ otherMember)) equal

end Scene

end DiagramSketch
