import DiagramSketch.Proofs.Scene.Elements

/-!
# Scenes that lie on their canvas

A scene whose shapes all lie on the canvas is drawn whenever the size of the canvas can be
written: no coordinate is larger than the canvas.  A canvas whose width cannot be written is the
only thing that stops it.
-/

namespace DiagramSketch

open Xml (Element)
open Svg (Value)

/-- A place on the canvas. -/
structure Point.IsOn (canvas : Canvas) (point : Point) : Prop where
  left : 0 ≤ point.x
  right : point.x ≤ canvas.width
  top : 0 ≤ point.y
  bottom : point.y ≤ canvas.height

namespace Shape

/-- Places between which the shape lies. A label is taken for the place where it stands. -/
def extremes : Shape → List Point
  | rectangle box => [⟨box.x, box.y⟩, ⟨box.right, box.bottom⟩]
  | circle center radius =>
      [⟨center.x - radius, center.y - radius⟩, ⟨center.x + radius, center.y + radius⟩]
  | ellipse center radiusX radiusY =>
      [⟨center.x - radiusX, center.y - radiusY⟩, ⟨center.x + radiusX, center.y + radiusY⟩]
  | polygon corners => corners
  | line first last => [first, last]
  | label anchor _ => [anchor]

/-- A shape that lies on the canvas. -/
def IsOn (canvas : Canvas) (shape : Shape) : Prop :=
  ∀ point ∈ shape.extremes, point.IsOn canvas

end Shape

theorem Point.isOn_mk {canvas : Canvas} {x y : Rat} (left : 0 ≤ x) (right : x ≤ canvas.width)
    (top : 0 ≤ y) (bottom : y ≤ canvas.height) : Point.IsOn canvas ⟨x, y⟩ :=
  ⟨left, right, top, bottom⟩

namespace Shape

variable {canvas : Canvas}

theorem isOn_rectangle {x y width height : Rat} (left : 0 ≤ x) (right : x + width ≤ canvas.width)
    (top : 0 ≤ y) (bottom : y + height ≤ canvas.height) (sized : 0 ≤ width ∧ 0 ≤ height) :
    (rectangle ⟨x, y, width, height⟩).IsOn canvas := by
  refine List.forall_mem_cons.mpr ⟨?_, List.forall_mem_singleton.mpr ?_⟩
  · exact Point.isOn_mk left (by linarith [sized.1]) top (by linarith [sized.2])
  · exact Point.isOn_mk (by dsimp only [Box.right]; linarith [sized.1]) right
      (by dsimp only [Box.bottom]; linarith [sized.2]) bottom

theorem isOn_ellipse {x y radiusX radiusY : Rat} (left : 0 ≤ x - radiusX)
    (right : x + radiusX ≤ canvas.width) (top : 0 ≤ y - radiusY)
    (bottom : y + radiusY ≤ canvas.height) (sized : 0 ≤ radiusX ∧ 0 ≤ radiusY) :
    (ellipse ⟨x, y⟩ radiusX radiusY).IsOn canvas := by
  refine List.forall_mem_cons.mpr ⟨?_, List.forall_mem_singleton.mpr ?_⟩
  · exact Point.isOn_mk left (by linarith [sized.1]) top (by linarith [sized.2])
  · exact Point.isOn_mk (by linarith [sized.1]) right (by linarith [sized.2]) bottom

theorem isOn_circle {x y radius : Rat} (left : 0 ≤ x - radius) (right : x + radius ≤ canvas.width)
    (top : 0 ≤ y - radius) (bottom : y + radius ≤ canvas.height) (sized : 0 ≤ radius) :
    (circle ⟨x, y⟩ radius).IsOn canvas :=
  isOn_ellipse left right top bottom ⟨sized, sized⟩

theorem isOn_line {first last : Point} (firstOn : first.IsOn canvas) (lastOn : last.IsOn canvas) :
    (line first last).IsOn canvas :=
  List.forall_mem_cons.mpr ⟨firstOn, List.forall_mem_singleton.mpr lastOn⟩

theorem isOn_label {anchor : Point} (on : anchor.IsOn canvas) (content : Text) :
    (label anchor content).IsOn canvas :=
  List.forall_mem_singleton.mpr on

end Shape

/-- A canvas whose extents are positive and can be written. -/
structure Canvas.IsWritable (canvas : Canvas) : Prop where
  width : 1 ≤ canvas.width
  height : 1 ≤ canvas.height
  fitsWidth : Number.Fits canvas.width
  fitsHeight : Number.Fits canvas.height

/-- An extent that grows with a number of things, each taking up a bounded amount of it. -/
structure IsExtentFor (count : Nat) (extent : Rat) : Prop where
  positive : 1 ≤ extent
  bounded : extent ≤ 2 ^ 60 * (count + 1)

theorem IsExtentFor.fits {count : Nat} {extent : Rat} (extentFor : IsExtentFor count extent)
    (few : count ≤ 2 ^ 130) : Number.Fits extent := by
  have cast : (count : Rat) ≤ 2 ^ 130 := by exact_mod_cast few
  refine Number.fits_of_abs_le ?_
  rw [abs_of_nonneg (zero_le_one.trans extentFor.positive)]
  refine extentFor.bounded.trans ?_
  linarith

theorem Canvas.isWritable_of_isExtentFor {canvas : Canvas} {count : Nat}
    (width : IsExtentFor count canvas.width) (height : IsExtentFor count canvas.height)
    (few : count ≤ 2 ^ 130) : canvas.IsWritable :=
  ⟨width.positive, height.positive, width.fits few, height.fits few⟩

theorem le_largest_cons {first value : Rat} {values : List Rat}
    (member : value ∈ first :: values) : value ≤ largest first values := by
  rcases List.mem_cons.mp member with rfl | later
  · exact le_largest_self value values
  · exact le_largest later

theorem larger_le {left right bound : Rat} (leftBelow : left ≤ bound) (rightBelow : right ≤ bound) :
    larger left right ≤ bound := by
  unfold larger
  split
  · exact rightBelow
  · exact leftBelow

theorem largest_le {first bound : Rat} {values : List Rat} (firstBelow : first ≤ bound)
    (below : ∀ value ∈ values, value ≤ bound) : largest first values ≤ bound := by
  induction values generalizing first with
  | nil => exact firstBelow
  | cons value values induction =>
      exact induction (larger_le firstBelow (below value List.mem_cons_self))
        fun other member => below other (List.mem_cons_of_mem _ member)

theorem larger_le_larger {left right otherLeft otherRight : Rat} (leftBelow : left ≤ otherLeft)
    (rightBelow : right ≤ otherRight) : larger left right ≤ larger otherLeft otherRight := by
  apply larger_le
  · exact leftBelow.trans (le_larger_left otherLeft otherRight)
  · exact rightBelow.trans (le_larger_right otherLeft otherRight)

theorem largest_mem (first : Rat) (values : List Rat) :
    largest first values ∈ first :: values := by
  induction values generalizing first with
  | nil => exact List.mem_cons_self
  | cons value values induction =>
      rcases List.mem_cons.mp (induction (larger first value)) with start | later
      · have shape : largest first (value :: values) = larger first value := start
        rw [shape, larger]
        split
        · exact List.mem_cons_of_mem _ List.mem_cons_self
        · exact List.mem_cons_self
      · exact List.mem_cons_of_mem _ (List.mem_cons_of_mem _ later)

/-- The largest of the values, or another value if there is none. -/
def largestOr (other : Rat) : List Rat → Rat
  | [] => other
  | value :: values => largest value values

theorem le_largestOr (other : Rat) {value : Rat} {values : List Rat} (member : value ∈ values) :
    value ≤ largestOr other values := by
  cases values with
  | nil => cases member
  | cons first values => exact le_largest_cons member

theorem largestOr_spec (holds : Rat → Prop) {other : Rat} (none : holds other)
    {values : List Rat} (each : ∀ value ∈ values, holds value) :
    holds (largestOr other values) := by
  cases values with
  | nil => exact none
  | cons value values => exact each _ (largest_mem value values)

namespace Canvas.IsWritable

variable {canvas : Canvas} (writable : canvas.IsWritable)

include writable

theorem isSpelled_across {value : Rat} (low : -canvas.width ≤ value)
    (high : value ≤ canvas.width) : (Value.number (.ofRat value)).IsSpelled :=
  Svg.isSpelled_ofRat (writable.fitsWidth.of_abs_le (abs_le.mpr ⟨low, high⟩))

theorem isSpelled_down {value : Rat} (low : -canvas.height ≤ value)
    (high : value ≤ canvas.height) : (Value.number (.ofRat value)).IsSpelled :=
  Svg.isSpelled_ofRat (writable.fitsHeight.of_abs_le (abs_le.mpr ⟨low, high⟩))

theorem isSpelled_point {point : Point} (on : point.IsOn canvas) :
    (Value.number (.ofRat point.x)).IsSpelled ∧ (Value.number (.ofRat point.y)).IsSpelled := by
  have width := writable.width
  have height := writable.height
  refine ⟨writable.isSpelled_across ?_ on.right, writable.isSpelled_down ?_ on.bottom⟩
  · linarith [on.left]
  · linarith [on.top]

theorem isSpelled_extents {box : Box} (first : Point.IsOn canvas ⟨box.x, box.y⟩)
    (last : Point.IsOn canvas ⟨box.right, box.bottom⟩) :
    (Value.number (.ofRat box.width)).IsSpelled ∧ (Value.number (.ofRat box.height)).IsSpelled := by
  have right : box.right = box.x + box.width := rfl
  have bottom : box.bottom = box.y + box.height := rfl
  obtain ⟨firstLeft, firstRight, firstTop, firstBottom⟩ := first
  obtain ⟨lastLeft, lastRight, lastTop, lastBottom⟩ := last
  dsimp only at *
  refine ⟨writable.isSpelled_across ?_ ?_, writable.isSpelled_down ?_ ?_⟩
  all_goals linarith

theorem isSpelled_middle {center : Point} {radiusX radiusY : Rat}
    (first : Point.IsOn canvas ⟨center.x - radiusX, center.y - radiusY⟩)
    (last : Point.IsOn canvas ⟨center.x + radiusX, center.y + radiusY⟩) :
    ((Value.number (.ofRat center.x)).IsSpelled ∧ (Value.number (.ofRat center.y)).IsSpelled) ∧
      (Value.number (.ofRat radiusX)).IsSpelled ∧ (Value.number (.ofRat radiusY)).IsSpelled := by
  obtain ⟨firstLeft, firstRight, firstTop, firstBottom⟩ := first
  obtain ⟨lastLeft, lastRight, lastTop, lastBottom⟩ := last
  dsimp only at *
  refine ⟨⟨writable.isSpelled_across ?_ ?_, writable.isSpelled_down ?_ ?_⟩,
    writable.isSpelled_across ?_ ?_, writable.isSpelled_down ?_ ?_⟩
  all_goals linarith

theorem exists_corners {corners : List Point} (on : ∀ point ∈ corners, point.IsOn canvas) :
    ∃ joined, Svg.corners (corners.map fun corner =>
      (Number.ofRat corner.x, Number.ofRat corner.y)) = .ok joined := by
  obtain ⟨spelled, each⟩ := exists_mapM_eq_ok Svg.corner
    (corners.map fun corner => (Number.ofRat corner.x, Number.ofRat corner.y))
    fun entry member => by
      obtain ⟨corner, inside, rfl⟩ := List.mem_map.mp member
      have place := on corner inside
      obtain ⟨x, foundX⟩ := Number.exists_format
        (writable.fitsWidth.of_abs_le (by rw [abs_of_nonneg place.left]; exact place.right))
      obtain ⟨y, foundY⟩ := Number.exists_format
        (writable.fitsHeight.of_abs_le (by rw [abs_of_nonneg place.top]; exact place.bottom))
      exact ⟨_, bind_eq_ok_iff.mpr ⟨x, foundX, bind_eq_ok_iff.mpr ⟨y, foundY, rfl⟩⟩⟩
  exact ⟨_, bind_eq_ok_iff.mpr ⟨spelled, each, rfl⟩⟩

/-- All values that say where a shape on the canvas is have spellings. -/
theorem exists_geometry {shape : Shape} (on : shape.IsOn canvas) :
    ∃ values, shape.geometry = .ok values ∧ ∀ entry ∈ values, entry.2.IsSpelled := by
  cases shape with
  | rectangle box =>
      have first := on ⟨box.x, box.y⟩ (by simp [Shape.extremes])
      have last := on ⟨box.right, box.bottom⟩ (by simp [Shape.extremes])
      obtain ⟨x, y⟩ := writable.isSpelled_point first
      obtain ⟨width, height⟩ := writable.isSpelled_extents first last
      refine ⟨_, rfl, ?_⟩
      simp only [List.forall_mem_cons, List.not_mem_nil, false_implies, implies_true, and_true]
      exact ⟨x, y, width, height⟩
  | circle center radius =>
      obtain ⟨⟨x, y⟩, r, -⟩ := writable.isSpelled_middle
        (on ⟨center.x - radius, center.y - radius⟩ (by simp [Shape.extremes]))
        (on ⟨center.x + radius, center.y + radius⟩ (by simp [Shape.extremes]))
      refine ⟨_, rfl, ?_⟩
      simp only [List.forall_mem_cons, List.not_mem_nil, false_implies, implies_true, and_true]
      exact ⟨x, y, r⟩
  | ellipse center radiusX radiusY =>
      obtain ⟨⟨x, y⟩, rx, ry⟩ := writable.isSpelled_middle
        (on ⟨center.x - radiusX, center.y - radiusY⟩ (by simp [Shape.extremes]))
        (on ⟨center.x + radiusX, center.y + radiusY⟩ (by simp [Shape.extremes]))
      refine ⟨_, rfl, ?_⟩
      simp only [List.forall_mem_cons, List.not_mem_nil, false_implies, implies_true, and_true]
      exact ⟨x, y, rx, ry⟩
  | polygon corners =>
      obtain ⟨joined, made⟩ := writable.exists_corners on
      refine ⟨_, bind_eq_ok_iff.mpr ⟨joined, made, rfl⟩, ?_⟩
      exact List.forall_mem_singleton.mpr ⟨_, rfl⟩
  | line first last =>
      obtain ⟨x1, y1⟩ := writable.isSpelled_point (on first (by simp [Shape.extremes]))
      obtain ⟨x2, y2⟩ := writable.isSpelled_point (on last (by simp [Shape.extremes]))
      refine ⟨_, rfl, ?_⟩
      simp only [List.forall_mem_cons, List.not_mem_nil, false_implies, implies_true, and_true]
      exact ⟨x1, y1, x2, y2⟩
  | label anchor content =>
      obtain ⟨x, y⟩ := writable.isSpelled_point (on anchor (by simp [Shape.extremes]))
      refine ⟨_, rfl, ?_⟩
      simp only [List.forall_mem_cons, List.not_mem_nil, false_implies, implies_true, and_true]
      exact ⟨x, y⟩

theorem exists_figure {markers : List Svg.Marker} {figure : Figure}
    (sound : ∀ entry ∈ figure.paint, Svg.IsSound markers entry) (on : figure.shape.IsOn canvas) :
    ∃ element, figure.element = .ok element := by
  obtain ⟨geometry, measured, spelled⟩ := writable.exists_geometry on
  have all : ∀ entry ∈ geometry ++ figure.paint, entry.2.IsSpelled :=
    List.forall_mem_append.mpr ⟨spelled, fun entry member => (sound entry member).spelled⟩
  obtain ⟨entries, made⟩ := Svg.exists_attributes all
  exact ⟨_, bind_eq_ok_iff.mpr ⟨geometry, measured, bind_eq_ok_iff.mpr ⟨entries, made, rfl⟩⟩⟩

theorem exists_figures {markers : List Svg.Marker} {group : Group} (sound : group.IsSound markers)
    (on : ∀ figure ∈ group.figures, figure.shape.IsOn canvas) :
    ∃ elements, group.figures.mapM Figure.element = .ok elements :=
  exists_mapM_eq_ok Figure.element group.figures fun figure member =>
    writable.exists_figure (sound.figures figure member) (on figure member)

theorem exists_group {markers : List Svg.Marker} {group : Group} (sound : group.IsSound markers)
    (on : ∀ figure ∈ group.figures, figure.shape.IsOn canvas) :
    ∃ element, group.element = .ok element := by
  obtain ⟨elements, drawn⟩ := writable.exists_figures sound on
  exact ⟨_, bind_eq_ok_iff.mpr ⟨elements, drawn, rfl⟩⟩

theorem exists_entity {markers : List Svg.Marker} {entity : Entity}
    (sound : ∀ group ∈ entity.groups, group.IsSound markers)
    (on : ∀ group ∈ entity.groups, ∀ figure ∈ group.figures, figure.shape.IsOn canvas) :
    ∃ element, entity.element = .ok element := by
  obtain ⟨own, ownDrawn⟩ := writable.exists_figures (sound _ List.mem_cons_self)
    (on _ List.mem_cons_self)
  obtain ⟨inner, innerDrawn⟩ := exists_mapM_eq_ok Group.element
    entity.members fun group member =>
      writable.exists_group (sound group (List.mem_cons_of_mem _ member))
        (on group (List.mem_cons_of_mem _ member))
  exact ⟨_, bind_eq_ok_iff.mpr ⟨own, ownDrawn, bind_eq_ok_iff.mpr ⟨inner, innerDrawn, rfl⟩⟩⟩

end Canvas.IsWritable

namespace Scene

/-- All shapes of the scene lie on its canvas. -/
def IsOnCanvas (scene : Scene) : Prop :=
  ∀ group ∈ scene.groups, ∀ figure ∈ group.figures, figure.shape.IsOn scene.canvas

/-- A sound scene on a canvas that can be written is drawn. -/
theorem exists_element {scene : Scene} (sound : scene.IsSound) (on : scene.IsOnCanvas)
    (writable : scene.canvas.IsWritable) : ∃ root, scene.element = .ok root := by
  obtain ⟨widthText, width⟩ := Number.exists_format writable.fitsWidth
  obtain ⟨heightText, height⟩ := Number.exists_format writable.fitsHeight
  have extents : ((Number.ofRat scene.canvas.width).isExtent
      && (Number.ofRat scene.canvas.height).isExtent) = true := by
    rw [Number.isExtent_ofRat writable.width, Number.isExtent_ofRat writable.height]
    rfl
  obtain ⟨entities, entitiesDrawn⟩ := exists_mapM_eq_ok Entity.element
    scene.entities fun entity member => by
      have inside : ∀ group ∈ entity.groups, group ∈ scene.groups := fun group within =>
        List.mem_append_left _ (List.mem_flatMap.mpr ⟨entity, member, within⟩)
      exact writable.exists_entity (fun group within => sound.groups group (inside group within))
        fun group within => on group (inside group within)
  obtain ⟨relations, relationsDrawn⟩ := exists_mapM_eq_ok Group.element
    scene.relations fun group member => by
      have inside : group ∈ scene.groups := List.mem_append_right _ member
      exact writable.exists_group (sound.groups group inside) (on group inside)
  exact ⟨_, element_eq_ok_iff.mpr ⟨extents, widthText, heightText, entities, relations, width,
    height, entitiesDrawn, relationsDrawn, rfl⟩⟩

theorem exists_print {scene : Scene} (sound : scene.IsSound) (on : scene.IsOnCanvas)
    (writable : scene.canvas.IsWritable) : ∃ document, scene.print = .ok document := by
  obtain ⟨root, shown⟩ := exists_element sound on writable
  have named := Svg.isNamed_of_isRegular (isRegular_element sound shown)
  exact ⟨_, bind_eq_ok_iff.mpr ⟨root, shown, Svg.print_eq named⟩⟩

theorem print_of_not_fits {scene : Scene} {width : Int} (wide : scene.canvas.width = width)
    (overflows : ¬ Number.Fits width) (positive : 1 ≤ scene.canvas.width)
    (height : 1 ≤ scene.canvas.height) : scene.print = .error .wholeTooLarge := by
  have extents : (!((Number.ofRat scene.canvas.width).isExtent
      && (Number.ofRat scene.canvas.height).isExtent)) = false := by
    rw [Number.isExtent_ofRat positive, Number.isExtent_ofRat height]
    rfl
  have refused : (Number.ofRat scene.canvas.width).format = .error .wholeTooLarge := by
    rw [wide]
    exact Number.format_of_not_fits overflows
  refine bind_eq_error_iff.mpr (.inl (bind_eq_error_iff.mpr (.inl ?_)))
  unfold Svg.document
  rw [extents]
  exact bind_eq_error_iff.mpr (.inl refused)

end Scene

end DiagramSketch
