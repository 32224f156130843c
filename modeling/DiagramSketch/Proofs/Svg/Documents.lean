import DiagramSketch.Proofs.Svg.Attributes

/-!
# Documents and their definitions

What a document begins with: its size, the definitions of its markers, each under an identifier of
its own, and the background.
-/

namespace DiagramSketch.Svg

open Xml (Element IsLegalText isLegal)

/-- A part of a drawing that refers to nothing but the markers. -/
structure IsDrawn (markers : List Marker) (part : Element) : Prop extends IsRegular part where
  refers : ∀ entry ∈ part.attributes, RefersTo markers entry.2

/-- Every part of the element is part of a drawing with the markers. -/
def AreDrawn (markers : List Marker) (element : Element) : Prop :=
  ∀ part ∈ element.descendants, IsDrawn markers part

theorem areDrawn_enclosing {markers : List Marker} {tag : Text} {entries : List Xml.Attribute}
    {children : List Element} :
    AreDrawn markers (.enclosing tag entries children) ↔
      IsDrawn markers (.enclosing tag entries children) ∧
        ∀ child ∈ children, AreDrawn markers child := by
  have below : (Element.enclosing tag entries children).children = children := rfl
  rw [AreDrawn, Element.descendants_eq, List.forall_mem_cons, below,
    Element.descendantsAll_eq_flatMap]
  refine and_congr_right fun _ => ?_
  simp only [List.mem_flatMap, forall_exists_index, and_imp, AreDrawn]
  constructor
  · intro all child member part inside
    exact all part child member inside
  · intro all part child member inside
    exact all child member part inside

theorem labels_enclosing {tag : Text} (other : tag ≠ "text".toList)
    (entries : List Xml.Attribute) (children : List Element) :
    (Element.enclosing tag entries children).labels = children.flatMap Element.labels := by
  have silent : (Element.enclosing tag entries children).label? = none := if_neg other
  rw [Element.labels, Element.descendants_eq, List.filterMap_cons_none silent,
    Element.descendantsAll_eq_flatMap]
  exact List.filterMap_flatMap

/-- An enclosing element is part of a drawing when its tag and its attributes are fit for it. -/
theorem isDrawn_enclosing {markers : List Marker} {tag : Text} {entries : List Xml.Attribute}
    {children : List Element} (named : Xml.isName tag = true) (other : tag ≠ "text".toList)
    (distinct : (entries.map Prod.fst).Nodup)
    (clean : ∀ entry ∈ entries, Xml.isName entry.1 = true ∧ IsLegalText entry.2 ∧
      RefersTo markers entry.2) :
    IsDrawn markers (.enclosing tag entries children) where
  named := ⟨named, fun entry member => (clean entry member).1, distinct⟩
  bare := rfl
  childless same := absurd same other
  silent _ := rfl
  legal entry member := (clean entry member).2.1
  refers entry member := (clean entry member).2.2

/-- Checks a fixed part of a drawing. -/
def isFixed (part : Element) : Bool :=
  Xml.isName part.tag && part.tag != "text".toList && part.text.isNone && part.tail.isNone
    && decide (part.attributes.map Prod.fst).Nodup
    && part.attributes.all fun entry =>
      Xml.isName entry.1 && entry.2.all isLegal && entry.2.head? != some 'u'

theorem isDrawn_of_isFixed {part : Element} (fixed : isFixed part = true) (markers : List Marker) :
    IsDrawn markers part := by
  simp only [isFixed, Bool.and_eq_true, bne_iff_ne, Option.isNone_iff_eq_none, List.all_eq_true,
    decide_eq_true_eq] at fixed
  obtain ⟨⟨⟨⟨⟨named, other⟩, silent⟩, bare⟩, distinct⟩, clean⟩ := fixed
  exact {
    named := ⟨named, fun entry member => (clean entry member).1.1, distinct⟩
    bare
    childless := fun same => absurd same other
    silent := fun _ => silent
    legal := fun entry member => (clean entry member).1.2
    refers := fun entry member => refersTo_of_head? (clean entry member).2 }

theorem areDrawn_of_all {element : Element} (fixed : element.descendants.all isFixed = true)
    (markers : List Marker) : AreDrawn markers element := by
  intro part member
  exact isDrawn_of_isFixed (List.all_eq_true.mp fixed part member) markers

theorem areDrawn_marker (marker : Marker) (markers : List Marker) :
    AreDrawn markers marker.element := by
  cases marker with
  | arrowhead => exact areDrawn_of_all (by decide) markers
  | inheritance => exact areDrawn_of_all (by decide) markers

theorem areDrawn_background (markers : List Marker) : AreDrawn markers background :=
  areDrawn_of_all (by decide) markers

/-- The identifier of an element. -/
def identifier? (element : Element) : Option Text :=
  Keyed.find? "id" element.attributes

theorem identifier?_marker (marker : Marker) :
    identifier? marker.element = some marker.name := by
  cases marker with
  | arrowhead => decide
  | inheritance => decide

theorem Marker.name_injective {marker other : Marker} (same : marker.name = other.name) :
    marker = other := by
  cases marker <;> cases other
  all_goals
    first
      | rfl
      | exact absurd same (by decide)

/-- Among the definitions of different markers, each identifier is used once. -/
theorem length_filter_identifier? {markers : List Marker} (distinct : markers.Nodup)
    {marker : Marker} (member : marker ∈ markers) :
    ((markers.map Marker.element).filter fun element =>
      identifier? element == some marker.name).length = 1 := by
  have same : ((markers.map Marker.element).filter fun element =>
      identifier? element == some marker.name) =
        (markers.filter fun other => other == marker).map Marker.element := by
    rw [List.filter_map]
    congr 1
    refine List.filter_congr fun other _ => ?_
    rw [Function.comp_apply, identifier?_marker, Bool.eq_iff_iff, beq_iff_eq, beq_iff_eq,
      Option.some.injEq]
    exact ⟨Marker.name_injective, congrArg Marker.name⟩
  rw [same, List.length_map, ← List.countP_eq_length_filter]
  exact List.count_eq_one_of_mem distinct member

/-- The markers that a document defines where others than the arrowhead are asked for. -/
def definitions (markers : List Marker) : List Marker :=
  .arrowhead :: markers.filter (· != .arrowhead)

theorem nodup_definitions {markers : List Marker} (distinct : markers.Nodup) :
    (definitions markers).Nodup := by
  refine List.nodup_cons.mpr ⟨?_, distinct.filter _⟩
  intro member
  exact absurd (List.mem_filter.mp member).2 (by decide)

theorem markerElement_name (marker : Marker) :
    markerElement marker.name = .ok marker.element := by
  unfold markerElement
  rw [Marker.ofName?_name]

theorem mapM_markerElement (markers : List Marker) :
    ((markers.map Marker.name).filter (· != Marker.arrowhead.name)).mapM markerElement =
      .ok ((markers.filter (· != .arrowhead)).map Marker.element) := by
  have names : (markers.map Marker.name).filter (· != Marker.arrowhead.name) =
      (markers.filter (· != .arrowhead)).map Marker.name := by
    rw [List.filter_map]
    congr 1
    refine List.filter_congr fun marker _ => ?_
    cases marker <;> rfl
  rw [names, mapM_eq_ok_iff, List.forall₂_map_left_iff, List.forall₂_map_right_iff,
    List.forall₂_same]
  intro marker _
  exact markerElement_name marker

/-- What the size of a document is written as. -/
def sizeAttributes (widthText heightText : Text) : List Xml.Attribute :=
  [("width", widthText), ("height", heightText),
    ("viewBox", "0 0 " ++ widthText ++ ' ' :: heightText)]

/-- A document that can be made has its size spelled, its definitions and the background. -/
theorem document_eq_ok_iff {width height : Number} {markers : List Marker} {root : Element} :
    document width height (markers.map Marker.name) = .ok root ↔
      (width.isExtent && height.isExtent) = true ∧
        ∃ widthText heightText, width.format = .ok widthText ∧ height.format = .ok heightText ∧
          root = .enclosing "svg" (sizeAttributes widthText heightText)
            [.enclosing "defs" [] ((definitions markers).map Marker.element), background] := by
  unfold document
  rw [mapM_markerElement]
  cases extent : width.isExtent && height.isExtent with
  | false => simp [bind, Except.bind, throw, throwThe, MonadExceptOf.throw]
  | true =>
      simp only [Bool.not_true, Bool.false_eq_true, if_false, true_and]
      constructor
      · intro made
        obtain ⟨widthText, widthFound, made⟩ := bind_eq_ok_iff.mp made
        obtain ⟨heightText, heightFound, made⟩ := bind_eq_ok_iff.mp made
        cases made
        exact ⟨widthText, heightText, widthFound, heightFound, rfl⟩
      · rintro ⟨widthText, heightText, widthFound, heightFound, rfl⟩
        exact bind_eq_ok_iff.mpr ⟨widthText, widthFound,
          bind_eq_ok_iff.mpr ⟨heightText, heightFound, rfl⟩⟩

end DiagramSketch.Svg
