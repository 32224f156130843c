import DiagramSketch.Proofs.Svg.Documents
import DiagramSketch.Scene

/-!
# The elements of a scene

A scene whose paints are sound is shown by regular elements: one for each of its figures, one for
each of its groups, and the document around them.  The labels of the document are those of the
scene, in order.
-/

namespace DiagramSketch

open Xml (Element IsLegalText)
open Svg (Marker IsDrawn AreDrawn RefersTo Value)

/-! ## What a scene holds -/

/-- The labels in a group. -/
def Group.labels (group : Group) : List Text :=
  group.figures.filterMap fun figure => figure.shape.content?

/-- All groups of an entity, its own first. -/
def Entity.groups (entity : Entity) : List Group :=
  entity.toGroup :: entity.members

/-- The labels in an entity. -/
def Entity.labels (entity : Entity) : List Text :=
  entity.groups.flatMap Group.labels

namespace Scene

/-- All groups of a scene, in order. -/
def groups (scene : Scene) : List Group :=
  scene.entities.flatMap Entity.groups ++ scene.relations

/-- All figures of a scene, in order. -/
def figures (scene : Scene) : List Figure :=
  scene.groups.flatMap Group.figures

/-- All labels of a scene, in order. -/
def labels (scene : Scene) : List Text :=
  scene.groups.flatMap Group.labels

/-- The markers that the document of a scene defines. -/
def definitions (scene : Scene) : List Marker :=
  Svg.definitions scene.markers

theorem forall_groups {scene : Scene} {holds : Group → Prop} :
    (∀ group ∈ scene.groups, holds group) ↔
      (∀ entity ∈ scene.entities, ∀ group ∈ entity.groups, holds group) ∧
        ∀ group ∈ scene.relations, holds group := by
  simp only [groups, List.forall_mem_append, List.mem_flatMap, forall_exists_index, and_imp]
  refine and_congr_left fun _ => ⟨fun all entity member group inside => ?_,
    fun all group entity member inside => ?_⟩
  · exact all group entity member inside
  · exact all entity member group inside

end Scene

/-- A group that may be shown in a drawing with the markers. -/
structure Group.IsSound (markers : List Marker) (group : Group) : Prop where
  legal : IsLegalText group.className
  refers : RefersTo markers group.className
  figures : ∀ figure ∈ group.figures, ∀ entry ∈ figure.paint, Svg.IsSound markers entry

/-- A scene that may be drawn. -/
structure Scene.IsSound (scene : Scene) : Prop where
  groups : ∀ group ∈ scene.groups, group.IsSound scene.definitions
  distinct : scene.markers.Nodup

/-- Checks a group whose class and whose looks are fixed. -/
def Group.isChecked (markers : List Marker) (group : Group) : Bool :=
  group.className.all Xml.isLegal && group.className.head? != some 'u'
    && group.figures.all fun figure => figure.paint.all (Svg.isChecked markers)

theorem Group.isSound_of_isChecked {markers : List Marker} {group : Group}
    (checked : group.isChecked markers = true) : group.IsSound markers := by
  simp only [Group.isChecked, Bool.and_eq_true, List.all_eq_true, bne_iff_ne] at checked
  obtain ⟨⟨legal, other⟩, figures⟩ := checked
  refine ⟨legal, Svg.refersTo_of_head? other, fun figure member entry inside => ?_⟩
  exact Svg.isSound_of_isChecked (figures figure member entry inside)

/-! ## Figures -/

/-- What every value of a shape's geometry is like. -/
structure Shape.IsMeasure (entry : Text × Value) : Prop where
  named : Xml.isName (Svg.hyphenated entry.1) = true
  clean : ∀ markers, entry.2.IsClean markers

/-- A character of the corners of a polygon. -/
def isCornerChar (character : Char) : Bool :=
  Number.isNumeralChar character || character == ',' || character == ' '

theorem forall_mem_intercalate {holds : Char → Prop} {separator : Text}
    (between : ∀ character ∈ separator, holds character) {pieces : List Text}
    (within : ∀ piece ∈ pieces, ∀ character ∈ piece, holds character) :
    ∀ character ∈ separator.intercalate pieces, holds character := by
  induction pieces with
  | nil =>
      intro character member
      cases member
  | cons first pieces induction =>
      cases pieces with
      | nil =>
          rw [List.intercalate_singleton]
          exact within first List.mem_cons_self
      | cons second pieces =>
          have others := induction fun piece member =>
            within piece (List.mem_cons_of_mem first member)
          rw [List.intercalate_cons_cons]
          refine List.forall_mem_append.mpr ⟨List.forall_mem_append.mpr ⟨?_, between⟩, others⟩
          exact within first List.mem_cons_self

/-- The corners of a polygon are spelled with numerals, commas and spaces. -/
theorem isCornerChar_of_mem_corners {points : List (Number × Number)} {joined : Text}
    (made : Svg.corners points = .ok joined) :
    ∀ character ∈ joined, isCornerChar character = true := by
  obtain ⟨spelled, each, made⟩ := bind_eq_ok_iff.mp made
  cases made
  have space : isCornerChar ' ' = true := rfl
  refine forall_mem_intercalate (List.forall_mem_singleton.mpr space) fun piece member => ?_
  obtain ⟨point, -, made⟩ := exists_left_of_mem (mapM_eq_ok_iff.mp each) member
  obtain ⟨x, foundX, made⟩ := bind_eq_ok_iff.mp made
  obtain ⟨y, foundY, made⟩ := bind_eq_ok_iff.mp made
  cases made
  intro character inside
  rcases List.mem_append.mp inside with first | second
  · simp [isCornerChar, Number.isNumeral_of_format foundX character first]
  · rcases List.mem_cons.mp second with rfl | last
    · rfl
    · simp [isCornerChar, Number.isNumeral_of_format foundY character last]

theorem isClean_corners {points : List (Number × Number)} {joined : Text}
    (made : Svg.corners points = .ok joined) (markers : List Marker) :
    (Value.text joined).IsClean markers := by
  have corner := isCornerChar_of_mem_corners made
  intro content spelled
  cases spelled
  refine ⟨fun character member => ?_, Svg.refersTo_of_head? fun starts => ?_⟩
  · have sign := corner character member
    simp only [isCornerChar, Bool.or_eq_true, beq_iff_eq] at sign
    rcases sign with (numeral | rfl) | rfl
    · have alone : Number.IsNumeral [character] := List.forall_mem_singleton.mpr numeral
      exact Svg.isLegalText_of_isNumeral alone character List.mem_cons_self
    · rfl
    · rfl
  · exact absurd (corner 'u' (List.mem_of_mem_head? starts)) (by decide)

/-- The values that say where a shape is are numbers, or the corners of a polygon. -/
theorem Shape.isMeasure_of_geometry {shape : Shape} {values : Keyed Value}
    (made : shape.geometry = .ok values) : ∀ entry ∈ values, Shape.IsMeasure entry := by
  have number {name : Text} (named : Xml.isName (Svg.hyphenated name) = true) (exact : Rat) :
      Shape.IsMeasure (name, .number (.ofRat exact)) :=
    ⟨named, fun markers => Svg.isClean_number markers _⟩
  cases shape with
  | rectangle box =>
      cases made
      simp only [List.forall_mem_cons, List.not_mem_nil, false_implies, implies_true, and_true]
      exact ⟨number rfl _, number rfl _, number rfl _, number rfl _⟩
  | circle center radius =>
      cases made
      simp only [List.forall_mem_cons, List.not_mem_nil, false_implies, implies_true, and_true]
      exact ⟨number rfl _, number rfl _, number rfl _⟩
  | ellipse center radiusX radiusY =>
      cases made
      simp only [List.forall_mem_cons, List.not_mem_nil, false_implies, implies_true, and_true]
      exact ⟨number rfl _, number rfl _, number rfl _, number rfl _⟩
  | polygon corners =>
      obtain ⟨joined, joinedFrom, made⟩ := bind_eq_ok_iff.mp made
      cases made
      rw [List.forall_mem_singleton]
      exact ⟨rfl, isClean_corners joinedFrom⟩
  | line first last =>
      cases made
      simp only [List.forall_mem_cons, List.not_mem_nil, false_implies, implies_true, and_true]
      exact ⟨number rfl _, number rfl _, number rfl _, number rfl _⟩
  | label anchor content =>
      cases made
      simp only [List.forall_mem_cons, List.not_mem_nil, false_implies, implies_true, and_true]
      exact ⟨number rfl _, number rfl _⟩

/-- The element of a figure is a regular one without children, and has the label of the figure. -/
theorem Figure.isDrawn_element {markers : List Marker} {figure : Figure} {element : Element}
    (sound : ∀ entry ∈ figure.paint, Svg.IsSound markers entry)
    (drawn : figure.element = .ok element) :
    AreDrawn markers element ∧ element.labels = figure.shape.content?.toList := by
  obtain ⟨geometry, measured, drawn⟩ := bind_eq_ok_iff.mp drawn
  obtain ⟨entries, made, drawn⟩ := bind_eq_ok_iff.mp drawn
  cases drawn
  obtain ⟨distinct, each⟩ := Svg.mem_attributes made
  have clean : ∀ entry ∈ entries, Xml.isName entry.1 = true ∧ IsLegalText entry.2 ∧
      RefersTo markers entry.2 := by
    intro entry member
    obtain ⟨given, inside, name, spelled⟩ := each entry member
    rw [name]
    rcases List.mem_append.mp inside with geometric | painted
    · have measure := Shape.isMeasure_of_geometry measured given geometric
      exact ⟨measure.named, measure.clean markers entry.2 spelled⟩
    · have paint := sound given painted
      exact ⟨paint.named, paint.clean entry.2 spelled⟩
  have named : Xml.isName figure.shape.tag = true := by
    cases figure.shape <;> rfl
  have content : figure.shape.tag ≠ "text".toList → figure.shape.content? = none := by
    cases figure.shape with
    | label anchor content => exact fun other => absurd rfl other
    | _ => exact fun _ => rfl
  refine ⟨?_, ?_⟩
  · rw [AreDrawn, Element.descendants_eq, List.forall_mem_cons]
    refine ⟨?_, fun part member => by cases member⟩
    exact {
      named := ⟨named, fun entry member => (clean entry member).1, distinct⟩
      bare := rfl
      childless := fun _ => rfl
      silent := content
      legal := fun entry member => (clean entry member).2.1
      refers := fun entry member => (clean entry member).2.2 }
  · rw [Element.labels, Element.descendants_eq]
    cases figure.shape <;> rfl

/-! ## Groups -/

theorem flatMap_eq_of_forall₂ {α β γ : Type} {relation : α → β → Prop} {left : α → List γ}
    {right : β → List γ} {entries : List α} {results : List β}
    (related : List.Forall₂ relation entries results)
    (same : ∀ entry ∈ entries, ∀ result, relation entry result → right result = left entry) :
    results.flatMap right = entries.flatMap left := by
  induction related with
  | nil => rfl
  | cons first rest induction =>
      rw [List.flatMap_cons, List.flatMap_cons, same _ List.mem_cons_self _ first,
        induction fun entry member => same entry (List.mem_cons_of_mem _ member)]

theorem isDrawn_group {markers : List Marker} {group : Group} (sound : group.IsSound markers)
    (children : List Element) :
    IsDrawn markers (.enclosing "g" [("class", group.className)] children) :=
  Svg.isDrawn_enclosing rfl (by decide) (List.nodup_singleton _)
    (List.forall_mem_singleton.mpr ⟨rfl, sound.legal, sound.refers⟩)

theorem Group.areDrawn_figures {markers : List Marker} {group : Group}
    (sound : group.IsSound markers) {elements : List Element}
    (drawn : group.figures.mapM Figure.element = .ok elements) :
    (∀ element ∈ elements, AreDrawn markers element) ∧
      elements.flatMap Element.labels = group.labels := by
  have each := mapM_eq_ok_iff.mp drawn
  constructor
  · intro element member
    obtain ⟨figure, inside, shown⟩ := exists_left_of_mem each member
    exact (Figure.isDrawn_element (sound.figures figure inside) shown).1
  · rw [Group.labels, List.filterMap_eq_flatMap_toList]
    exact flatMap_eq_of_forall₂ each fun figure inside element shown =>
      (Figure.isDrawn_element (sound.figures figure inside) shown).2

theorem Group.areDrawn_element {markers : List Marker} {group : Group}
    (sound : group.IsSound markers) {element : Element} (drawn : group.element = .ok element) :
    AreDrawn markers element ∧ element.labels = group.labels := by
  obtain ⟨elements, figures, drawn⟩ := bind_eq_ok_iff.mp drawn
  cases drawn
  obtain ⟨each, labels⟩ := Group.areDrawn_figures sound figures
  exact ⟨Svg.areDrawn_enclosing.mpr ⟨isDrawn_group sound elements, each⟩,
    (Svg.labels_enclosing (by decide) _ _).trans labels⟩

theorem Entity.areDrawn_element {markers : List Marker} {entity : Entity}
    (sound : ∀ group ∈ entity.groups, group.IsSound markers) {element : Element}
    (drawn : entity.element = .ok element) :
    AreDrawn markers element ∧ element.labels = entity.labels := by
  obtain ⟨ownElements, figures, drawn⟩ := bind_eq_ok_iff.mp drawn
  obtain ⟨innerElements, members, drawn⟩ := bind_eq_ok_iff.mp drawn
  cases drawn
  have own := sound entity.toGroup List.mem_cons_self
  obtain ⟨ownDrawn, ownLabels⟩ := Group.areDrawn_figures own figures
  have inner := mapM_eq_ok_iff.mp members
  refine ⟨Svg.areDrawn_enclosing.mpr ⟨isDrawn_group own _, ?_⟩, ?_⟩
  · refine List.forall_mem_append.mpr ⟨ownDrawn, fun child member => ?_⟩
    obtain ⟨group, inside, shown⟩ := exists_left_of_mem inner member
    exact (Group.areDrawn_element (sound group (List.mem_cons_of_mem _ inside)) shown).1
  · rw [Svg.labels_enclosing (by decide), List.flatMap_append, ownLabels]
    refine congrArg (entity.toGroup.labels ++ ·) (flatMap_eq_of_forall₂ inner ?_)
    intro group inside child shown
    exact (Group.areDrawn_element (sound group (List.mem_cons_of_mem _ inside)) shown).2

/-! ## The document -/

namespace Scene

/-- The definitions in the document of a scene. -/
def definitionsElement (scene : Scene) : Element :=
  .enclosing "defs" [] (scene.definitions.map Marker.element)

/-- The document of a scene, where its size is written as the texts, around elements. -/
def documentElement (scene : Scene) (widthText heightText : Text) (elements : List Element) :
    Element :=
  .enclosing "svg" (Svg.sizeAttributes widthText heightText)
    (scene.definitionsElement :: Svg.background :: elements)

/-- A scene is shown by a document exactly when its canvas extends in both directions and its
size, its entities and its relations can be written. -/
theorem element_eq_ok_iff {scene : Scene} {root : Element} :
    scene.element = .ok root ↔
      ((Number.ofRat scene.canvas.width).isExtent
          && (Number.ofRat scene.canvas.height).isExtent) = true ∧
        ∃ widthText heightText entities relations,
          (Number.ofRat scene.canvas.width).format = .ok widthText ∧
          (Number.ofRat scene.canvas.height).format = .ok heightText ∧
          scene.entities.mapM Entity.element = .ok entities ∧
          scene.relations.mapM Group.element = .ok relations ∧
          root = scene.documentElement widthText heightText (entities ++ relations) := by
  constructor
  · intro shown
    obtain ⟨start, begun, shown⟩ := bind_eq_ok_iff.mp shown
    obtain ⟨entities, entitiesShown, shown⟩ := bind_eq_ok_iff.mp shown
    obtain ⟨relations, relationsShown, shown⟩ := bind_eq_ok_iff.mp shown
    cases shown
    obtain ⟨extent, widthText, heightText, width, height, rfl⟩ := Svg.document_eq_ok_iff.mp begun
    exact ⟨extent, widthText, heightText, entities, relations, width, height, entitiesShown,
      relationsShown, rfl⟩
  · rintro ⟨extent, widthText, heightText, entities, relations, width, height, entitiesShown,
      relationsShown, rfl⟩
    have begun : Svg.document (.ofRat scene.canvas.width) (.ofRat scene.canvas.height)
        (scene.markers.map Marker.name) = .ok (scene.documentElement widthText heightText []) :=
      Svg.document_eq_ok_iff.mpr ⟨extent, widthText, heightText, width, height, rfl⟩
    exact bind_eq_ok_iff.mpr ⟨_, begun, bind_eq_ok_iff.mpr ⟨_, entitiesShown,
      bind_eq_ok_iff.mpr ⟨_, relationsShown, rfl⟩⟩⟩

theorem isDrawn_document {scene : Scene} {widthText heightText : Text}
    (width : Number.IsNumeral widthText) (height : Number.IsNumeral heightText)
    (elements : List Element) :
    IsDrawn scene.definitions (scene.documentElement widthText heightText elements) := by
  have legalWidth := Svg.isLegalText_of_isNumeral width
  have legalHeight := Svg.isLegalText_of_isNumeral height
  have prefixLegal : IsLegalText "0 0 ".toList := List.all_eq_true.mp rfl
  have distinct : ((Svg.sizeAttributes widthText heightText).map Prod.fst).Nodup := by
    change ["width".toList, "height".toList, "viewBox".toList].Nodup
    decide
  refine Svg.isDrawn_enclosing rfl (by decide) distinct ?_
  simp only [Svg.sizeAttributes, List.forall_mem_cons, List.not_mem_nil, false_implies,
    implies_true, and_true]
  refine ⟨⟨rfl, legalWidth, ?_⟩, ⟨rfl, legalHeight, ?_⟩, ⟨rfl, ?_, ?_⟩⟩
  · exact Svg.refersTo_of_head? (Svg.head?_of_isNumeral width)
  · exact Svg.refersTo_of_head? (Svg.head?_of_isNumeral height)
  · exact Xml.isLegalText_append.mpr ⟨Xml.isLegalText_append.mpr ⟨prefixLegal, legalWidth⟩,
      Xml.isLegalText_cons.mpr ⟨rfl, legalHeight⟩⟩
  · exact Svg.refersTo_of_head? (fun starts => absurd (Option.some.inj starts) (by decide))

theorem areDrawn_definitions (scene : Scene) (markers : List Marker) :
    AreDrawn markers scene.definitionsElement := by
  refine Svg.areDrawn_enclosing.mpr ⟨Svg.isDrawn_of_isFixed rfl markers, fun child member => ?_⟩
  obtain ⟨marker, -, rfl⟩ := List.mem_map.mp member
  exact Svg.areDrawn_marker marker markers

theorem labels_definitions (scene : Scene) : scene.definitionsElement.labels = [] := by
  rw [definitionsElement, Svg.labels_enclosing (by decide), List.flatMap_eq_nil_iff]
  intro child member
  obtain ⟨marker, -, rfl⟩ := List.mem_map.mp member
  cases marker <;> rfl

/-- The document of a sound scene is made of regular parts, refers to nothing but its definitions,
and has the labels of the scene. -/
theorem areDrawn_element {scene : Scene} (sound : scene.IsSound) {root : Element}
    (shown : scene.element = .ok root) :
    AreDrawn scene.definitions root ∧ root.labels = scene.labels := by
  obtain ⟨-, widthText, heightText, entities, relations, width, height, entitiesShown,
    relationsShown, rfl⟩ := element_eq_ok_iff.mp shown
  have entitiesEach := mapM_eq_ok_iff.mp entitiesShown
  have relationsEach := mapM_eq_ok_iff.mp relationsShown
  have entitySound : ∀ entity ∈ scene.entities, ∀ group ∈ entity.groups,
      group.IsSound scene.definitions := by
    intro entity member group inside
    refine sound.groups group (List.mem_append_left _ ?_)
    exact List.mem_flatMap.mpr ⟨entity, member, inside⟩
  have relationSound : ∀ group ∈ scene.relations, group.IsSound scene.definitions :=
    fun group member => sound.groups group (List.mem_append_right _ member)
  constructor
  · refine Svg.areDrawn_enclosing.mpr ⟨isDrawn_document (Number.isNumeral_of_format width)
      (Number.isNumeral_of_format height) _, ?_⟩
    refine List.forall_mem_cons.mpr ⟨scene.areDrawn_definitions _,
      List.forall_mem_cons.mpr ⟨Svg.areDrawn_background _, List.forall_mem_append.mpr ⟨?_, ?_⟩⟩⟩
    · intro element member
      obtain ⟨entity, inside, drawn⟩ := exists_left_of_mem entitiesEach member
      exact (Entity.areDrawn_element (entitySound entity inside) drawn).1
    · intro element member
      obtain ⟨group, inside, drawn⟩ := exists_left_of_mem relationsEach member
      exact (Group.areDrawn_element (relationSound group inside) drawn).1
  · have background : Svg.background.labels = [] := rfl
    rw [documentElement, Svg.labels_enclosing (by decide), List.flatMap_cons, List.flatMap_cons,
      scene.labels_definitions, background, List.nil_append, List.nil_append, List.flatMap_append,
      labels, groups, List.flatMap_append, List.flatMap_assoc]
    congr 1
    · exact flatMap_eq_of_forall₂ entitiesEach fun entity member element drawn =>
        (Entity.areDrawn_element (entitySound entity member) drawn).2
    · exact flatMap_eq_of_forall₂ relationsEach fun group member element drawn =>
        (Group.areDrawn_element (relationSound group member) drawn).2

theorem undeclared_element {scene : Scene} {root : Element} (shown : scene.element = .ok root) :
    "xmlns".toList ∉ root.attributes.map Prod.fst := by
  obtain ⟨-, widthText, heightText, entities, relations, -, -, -, -, rfl⟩ :=
    element_eq_ok_iff.mp shown
  change "xmlns".toList ∉ ["width".toList, "height".toList, "viewBox".toList]
  decide

theorem isRegular_element {scene : Scene} (sound : scene.IsSound) {root : Element}
    (shown : scene.element = .ok root) : ∀ part ∈ root.descendants, Svg.IsRegular part :=
  fun part member => ((areDrawn_element sound shown).1 part member).toIsRegular

end Scene

end DiagramSketch
