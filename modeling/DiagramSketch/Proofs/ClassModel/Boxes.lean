import DiagramSketch.Proofs.Diagram.Separation
import DiagramSketch.Proofs.Font.Bundled

/-!
# Members inside their boxes

The size of a box is told by the number and the width of the members of its class, and the places of
the members by a pass from top to bottom with one more step at the separating line.  The two agree:
every member is written below the header, one below the other, and ends before the right edge,
whatever the font is that it is measured with.
-/

namespace DiagramSketch

/-- A text as it is drawn: the point it is put at, its letters, and the values that say how large
they are and which part of the text is at the point. -/
structure Writing where
  point : Point
  content : Text
  size : Option Svg.Value
  anchor : Option Svg.Value

namespace Figure

def writing? (figure : Figure) : Option Writing :=
  match figure.shape with
  | .label point content =>
      some { point, content
             size := figure.paint.find? "font_size", anchor := figure.paint.find? "text_anchor" }
  | _ => none

def segment? (figure : Figure) : Option (Point × Point) :=
  match figure.shape with
  | .line first last => some (first, last)
  | _ => none

def rectangle? (figure : Figure) : Option Box :=
  match figure.shape with
  | .rectangle box => some box
  | _ => none

end Figure

/-- The text runs to the right from its point, and measured at its own size it ends in time. -/
structure Writing.Spans (font : Font) (writing : Writing) (left right : Rat) : Prop where
  forward : writing.anchor = some .absent
  left : writing.point.x = left
  right : ∃ size width, writing.size = some (.number size) ∧
    font.measure writing.content size = .ok width ∧ writing.point.x + width ≤ right

namespace ClassModel

/-- What is written below the name of a class. -/
def memberWritings (figures : List Figure) : List Writing :=
  (figures.filterMap Figure.writing?).drop 1

/-- The figures show a box with a header, and in the box below the header the members of a class. -/
structure HoldsMembers (font : Font) (entry : ClassEntry) (box : Box) (figures : List Figure) :
    Prop where
  frames : figures.filterMap Figure.rectangle? = [box, { box with height := 30 }]
  contents : (figures.filterMap Figure.writing?).map Writing.content =
    entry.name :: (entry.attributes ++ entry.methods)
  descends : (memberWritings figures).Pairwise fun upper lower => upper.point.y < lower.point.y
  inside : ∀ member ∈ memberWritings figures,
    box.y + 30 < member.point.y ∧ member.point.y ≤ box.bottom
  spans : ∀ member ∈ memberWritings figures, member.Spans font (box.x + 10) (box.right - 10)
  separators : (figures.filterMap Figure.segment?).length =
    if entry.attributes ≠ [] ∧ entry.methods ≠ [] then 1 else 0
  /-- A separating line runs from edge to edge, below the attributes and above the methods. -/
  separates : ∀ separator ∈ figures.filterMap Figure.segment?, ∃ height : Rat,
    separator = (⟨box.x, height⟩, ⟨box.right, height⟩) ∧
    (∀ upper ∈ (memberWritings figures).take entry.attributes.length, upper.point.y < height) ∧
    ∀ lower ∈ (memberWritings figures).drop entry.attributes.length, height < lower.point.y

/-- The drawing of a model, class by class, with room to the right of every box. -/
structure Layout.Holds (font : Font) (layout : Layout) (model : ClassModel) (scene : Scene) :
    Prop where
  names : layout.boxes.names = model.classes.map ClassEntry.name
  classes : List.Forall₂ (fun entry entity => ∃ box, layout.boxes.find? entry.name = some box ∧
    HoldsMembers font entry box entity.figures) model.classes scene.entities
  apart : layout.boxes.Pairwise fun left right => left.2.right + 50 ≤ right.2.x
  edge : ∀ entry ∈ layout.boxes, entry.2.right + 50 ≤ scene.canvas.width

/-! ## Members one below the other -/

/-- Members by a pass that carries the height of the next one. -/
def writingsFrom (x y : Rat) : List Text → List Writing
  | [] => []
  | member :: members =>
      { point := ⟨x, y⟩, content := member, size := some (12 : Svg.Value), anchor := some .absent }
        :: writingsFrom x (y + memberSpacing) members

variable {font : Font} {x y : Rat} {members : List Text}

theorem map_content_writingsFrom : (writingsFrom x y members).map Writing.content = members := by
  induction members generalizing y with
  | nil => rfl
  | cons member members induction => rw [writingsFrom, List.map_cons, induction]

theorem length_writingsFrom : (writingsFrom x y members).length = members.length := by
  rw [← List.length_map Writing.content, map_content_writingsFrom]

theorem bounds_writingsFrom (x y : Rat) (members : List Text) :
    ∀ writing ∈ writingsFrom x y members,
    y ≤ writing.point.y ∧ writing.point.y + 20 ≤ y + 20 * members.length := by
  induction members generalizing y with
  | nil => exact List.forall_mem_nil _
  | cons member members induction =>
      have spacing : memberSpacing = 20 := rfl
      have further : (0 : Rat) ≤ members.length := Nat.cast_nonneg _
      rw [writingsFrom, List.length_cons]
      push_cast
      refine List.forall_mem_cons.mpr ⟨⟨le_refl y, ?_⟩, fun writing later => ?_⟩
      · dsimp only
        linarith
      · obtain ⟨above, below⟩ := induction _ writing later
        constructor <;> linarith

theorem pairwise_writingsFrom : (writingsFrom x y members).Pairwise fun upper lower =>
    upper.point.y < lower.point.y := by
  induction members generalizing y with
  | nil => exact List.Pairwise.nil
  | cons member members induction =>
      apply List.pairwise_cons.mpr
      refine ⟨fun lower later => ?_, induction⟩
      have below := (bounds_writingsFrom _ _ _ lower later).1
      have spacing : memberSpacing = 20 := rfl
      dsimp only
      linarith

theorem spans_writingsFrom {right : Rat} (short : ∀ member ∈ members,
    font.Measures 12 member ∧ x + font.extent 12 member ≤ right) :
    ∀ writing ∈ writingsFrom x y members, writing.Spans font x right := by
  induction members generalizing y with
  | nil => exact List.forall_mem_nil _
  | cons member members induction =>
      obtain ⟨⟨measurable, narrow⟩, others⟩ := List.forall_mem_cons.mp short
      rw [writingsFrom]
      refine List.forall_mem_cons.mpr ⟨?_, induction others⟩
      constructor
      case forward => rfl
      case left => rfl
      case right => exact ⟨.whole 12, _, rfl, measurable.width_eq, narrow⟩

/-! ## The figures of a class -/

variable (box : Box) (entry : ClassEntry)

/-- The members by their numbers are the members by a pass. -/
theorem map_zipIdx_eq_writingsFrom (x y : Rat) (members : List Text) (first : Nat) :
    ((members.zipIdx first).map fun (member, index) =>
      (⟨⟨x, y + index * memberSpacing⟩, member, some (12 : Svg.Value), some .absent⟩ : Writing)) =
        writingsFrom x (y + first * memberSpacing) members := by
  induction members generalizing first with
  | nil => rfl
  | cons member members induction =>
      have next : y + ((first + 1 : Nat) : Rat) * memberSpacing =
          y + first * memberSpacing + memberSpacing := by
        push_cast
        ring
      rw [List.zipIdx_cons, List.map_cons, induction, next]
      rfl

theorem filterMap_writing?_memberLabels (y : Rat) (members : List Text) :
    (memberLabels box y members).filterMap Figure.writing? =
      writingsFrom (box.x + 10) y members := by
  have whole := map_zipIdx_eq_writingsFrom (box.x + 10) y members 0
  rw [Nat.cast_zero, zero_mul, add_zero] at whole
  rw [← whole]
  exact filterMap_map_eq_map fun _ _ => rfl

theorem filterMap_memberLabels {α : Type} (read : Figure → Option α)
    (silent : ∀ point content style, read (.label point content style) = none) (y : Rat)
    (members : List Text) : (memberLabels box y members).filterMap read = [] := by
  apply List.filterMap_eq_nil_iff.mpr
  intro figure listed
  obtain ⟨⟨member, index⟩, -, rfl⟩ := List.mem_map.mp listed
  exact silent _ _ _

/-- The height below the attributes of a class. -/
def separatorHeight (box : Box) (entry : ClassEntry) : Rat :=
  box.y + 50 + entry.attributes.length * memberSpacing

/-- The height of the first method of a class. -/
def methodHeight (box : Box) (entry : ClassEntry) : Rat :=
  if entry.attributes ≠ [] ∧ entry.methods ≠ [] then separatorHeight box entry + 10
  else separatorHeight box entry

theorem isSeparated_iff : (!entry.attributes.isEmpty && !entry.methods.isEmpty) = true ↔
    entry.attributes ≠ [] ∧ entry.methods ≠ [] := by
  simp

theorem rectangles_classEntity : (classEntity box entry).figures.filterMap Figure.rectangle? =
    [box, { box with height := 30 }] := by
  have silent (y : Rat) (members : List Text) :=
    filterMap_memberLabels box Figure.rectangle? (fun _ _ _ => rfl) y members
  unfold classEntity
  simp only [List.filterMap_append, silent, List.append_nil]
  split <;> rfl

theorem segments_classEntity : (classEntity box entry).figures.filterMap Figure.segment? =
    if entry.attributes ≠ [] ∧ entry.methods ≠ [] then
      [(⟨box.x, separatorHeight box entry⟩, ⟨box.right, separatorHeight box entry⟩)]
    else [] := by
  have silent (y : Rat) (members : List Text) :=
    filterMap_memberLabels box Figure.segment? (fun _ _ _ => rfl) y members
  unfold classEntity
  simp only [List.filterMap_append, silent, List.append_nil, isSeparated_iff]
  split <;> rfl

theorem writings_classEntity : ∃ title : Writing, title.content = entry.name ∧
    (classEntity box entry).figures.filterMap Figure.writing? =
      title :: (writingsFrom (box.x + 10) (box.y + 50) entry.attributes ++
        writingsFrom (box.x + 10) (methodHeight box entry) entry.methods) := by
  refine ⟨⟨⟨box.center.x, box.y + 20⟩, entry.name, some (14 : Svg.Value), some "middle"⟩, rfl, ?_⟩
  unfold classEntity methodHeight
  simp only [List.filterMap_append, filterMap_writing?_memberLabels, isSeparated_iff]
  split
  · change [_] ++ _ ++ [] ++ _ = _
    rw [List.append_nil, List.append_assoc]
    rfl
  · change [_] ++ _ ++ [] ++ _ = _
    rw [List.append_nil, List.append_assoc]
    rfl

theorem memberWritings_classEntity : memberWritings (classEntity box entry).figures =
    writingsFrom (box.x + 10) (box.y + 50) entry.attributes ++
      writingsFrom (box.x + 10) (methodHeight box entry) entry.methods := by
  obtain ⟨title, -, written⟩ := writings_classEntity box entry
  rw [memberWritings, written]
  rfl

variable {box entry}

theorem separatorHeight_le_methodHeight (box : Box) (entry : ClassEntry) :
    separatorHeight box entry ≤ methodHeight box entry ∧
      methodHeight box entry ≤ separatorHeight box entry + 10 := by
  unfold methodHeight
  split <;> constructor <;> linarith

/-- The width is rounded up, so that there is room for what is measured in parts of a pixel. -/
theorem extent_add_le_widthOf {line : Text} (listed : line ∈ entry.attributes ++ entry.methods) :
    font.extent 12 line + 20 ≤ widthOf font entry := by
  have narrow : font.extent 12 line ≤ widest font entry := le_largest (List.mem_map_of_mem listed)
  have rounded : widest font entry + 20 ≤ ((widest font entry + 20).ceil : Int) := Rat.le_ceil
  refine le_trans ?_ (le_larger_right 200 _)
  linarith

/-- The line between the members has room above it, and below it down to the end of the box. -/
theorem bounds_separatorHeight (high : box.height = boxHeight entry) :
    box.y + 50 ≤ separatorHeight box entry ∧
      separatorHeight box entry + 30 + 20 * entry.methods.length = box.bottom := by
  have separator : separatorHeight box entry = box.y + 50 + entry.attributes.length * 20 := rfl
  have height : box.bottom = box.y + (80 + ((entry.attributes.length + entry.methods.length : Nat) :
      Rat) * 20) := congrArg (box.y + ·) high
  push_cast at height
  have some : (0 : Rat) ≤ entry.attributes.length := Nat.cast_nonneg _
  constructor <;> linarith

theorem bounds_attributes (box : Box) (entry : ClassEntry) :
    ∀ upper ∈ writingsFrom (box.x + 10) (box.y + 50) entry.attributes,
      box.y + 50 ≤ upper.point.y ∧ upper.point.y + 20 ≤ separatorHeight box entry := by
  intro upper above
  have separator : separatorHeight box entry = box.y + 50 + entry.attributes.length * 20 := rfl
  obtain ⟨first, last⟩ := bounds_writingsFrom _ _ _ upper above
  exact ⟨first, by linarith⟩

theorem bounds_methods (high : box.height = boxHeight entry) :
    ∀ lower ∈ writingsFrom (box.x + 10) (methodHeight box entry) entry.methods,
      methodHeight box entry ≤ lower.point.y ∧ lower.point.y ≤ box.bottom := by
  intro lower below
  obtain ⟨-, bottom⟩ := bounds_separatorHeight high
  obtain ⟨-, near⟩ := separatorHeight_le_methodHeight box entry
  obtain ⟨first, last⟩ := bounds_writingsFrom _ _ _ lower below
  exact ⟨first, by linarith⟩

theorem spans_memberWritings (measurable : IsMeasurable font entry)
    (wide : box.width = widthOf font entry) :
    ∀ member ∈ memberWritings (classEntity box entry).figures,
      member.Spans font (box.x + 10) (box.right - 10) := by
  have short (line : Text) (listed : line ∈ entry.attributes ++ entry.methods) :
      font.Measures 12 line ∧ box.x + 10 + font.extent 12 line ≤ box.right - 10 := by
    have right : box.right = box.x + widthOf font entry := congrArg (box.x + ·) wide
    have narrow : font.extent 12 line + 20 ≤ widthOf font entry := extent_add_le_widthOf listed
    refine ⟨(isMeasurable_iff.mp measurable).2 line listed, ?_⟩
    linarith
  rw [memberWritings_classEntity]
  refine List.forall_mem_append.mpr ⟨?_, ?_⟩
  · exact spans_writingsFrom fun line listed => short line (List.mem_append_left _ listed)
  · exact spans_writingsFrom fun line listed => short line (List.mem_append_right _ listed)

theorem separates_classEntity (high : box.height = boxHeight entry) :
    ∀ separator ∈ (classEntity box entry).figures.filterMap Figure.segment?, ∃ height : Rat,
      separator = (⟨box.x, height⟩, ⟨box.right, height⟩) ∧
      (∀ upper ∈ (memberWritings (classEntity box entry).figures).take entry.attributes.length,
        upper.point.y < height) ∧
      ∀ lower ∈ (memberWritings (classEntity box entry).figures).drop entry.attributes.length,
        height < lower.point.y := by
  rw [segments_classEntity, memberWritings_classEntity, List.take_left' length_writingsFrom,
    List.drop_left' length_writingsFrom]
  split
  · next both =>
      refine List.forall_mem_singleton.mpr ⟨_, rfl, fun upper above => ?_, fun lower below => ?_⟩
      · have bound := (bounds_attributes box entry upper above).2
        linarith
      · have bound := (bounds_methods high lower below).1
        have step : methodHeight box entry = separatorHeight box entry + 10 := if_pos both
        linarith
  · exact List.forall_mem_nil _

/-- A box of the size that the class needs holds its members. -/
theorem holdsMembers_classEntity (measurable : IsMeasurable font entry)
    (high : box.height = boxHeight entry) (wide : box.width = widthOf font entry) :
    HoldsMembers font entry box (classEntity box entry).figures := by
  obtain ⟨top, bottom⟩ := bounds_separatorHeight high
  obtain ⟨between, -⟩ := separatorHeight_le_methodHeight box entry
  have attributes := bounds_attributes box entry
  have methods := bounds_methods high
  have members := memberWritings_classEntity box entry
  constructor
  case frames => exact rectangles_classEntity box entry
  case contents =>
    obtain ⟨title, name, written⟩ := writings_classEntity box entry
    rw [written, List.map_cons, List.map_append, map_content_writingsFrom,
      map_content_writingsFrom, name]
  case descends =>
    rw [members]
    apply List.pairwise_append.mpr
    refine ⟨pairwise_writingsFrom, pairwise_writingsFrom, fun upper above lower below => ?_⟩
    have first := (attributes upper above).2
    have second := (methods lower below).1
    linarith
  case inside =>
    have some : (0 : Rat) ≤ entry.methods.length := Nat.cast_nonneg _
    rw [members]
    refine List.forall_mem_append.mpr ⟨fun member listed => ?_, fun member listed => ?_⟩
    · have bounds := attributes member listed
      constructor <;> linarith
    · have bounds := methods member listed
      exact ⟨by linarith, bounds.2⟩
  case spans => exact spans_memberWritings measurable wide
  case separators =>
    rw [segments_classEntity]
    split <;> rfl
  case separates => exact separates_classEntity high

/-! ## All boxes -/

variable {model : ClassModel}

/-- There is room for a gap between the boxes and the end of their row. -/
theorem right_add_boxGap_le_rowEnd {x : Rat} {entries : List ClassEntry} {entry : Text × Box}
    (member : entry ∈ boxesFrom x (entries.map fun entry => (entry, widthOf font entry))) :
    entry.2.right + boxGap ≤ rowEnd font x entries := by
  induction entries generalizing x with
  | nil => cases member
  | cons first entries induction =>
      rcases List.mem_cons.mp member with rfl | later
      · have row := le_rowEnd font (x + (widthOf font first + boxGap)) entries
        change x + widthOf font first + boxGap ≤
          rowEnd font (x + (widthOf font first + boxGap)) entries
        linarith
      · exact induction later

theorem holds_drawing (distinct : model.IsDistinct)
    (measurable : ∀ entry ∈ model.classes, IsMeasurable font entry) :
    (model.plan font).Holds font model (model.drawing font) := by
  have names : ((model.boxes font).map Prod.fst).Nodup := by
    rw [map_fst_boxes]
    exact distinct
  have kept : (model.plan font).boxes = model.boxes font := Keyed.ofList_eq_self names
  constructor
  case names =>
    rw [kept]
    exact map_fst_boxes font model
  case classes =>
    apply List.forall₂_map_right_iff.mpr
    apply List.forall₂_same.mpr
    intro entry member
    obtain ⟨left, own⟩ := exists_boxOf_eq font distinct member
    have used := (mem_names_boxes font model).mpr (List.mem_map_of_mem member)
    refine ⟨model.boxOf font entry.name, Keyed.find?_eq_some_getD used _, ?_⟩
    apply holdsMembers_classEntity (measurable entry member)
    · rw [own]
    · rw [own]
  case apart =>
    rw [kept]
    exact pairwise_boxesFrom font margin model.classes
  case edge =>
    rw [kept]
    intro entry member
    have row := right_add_boxGap_le_rowEnd member
    exact row.trans (canvas_bounds font model).2.1

/-- Where no two classes have one name, all members are written inside the boxes of their classes
and all boxes are apart, unless there is a text that the font does not measure. -/
theorem layout_holds_or_error (font : Font)
    (distinct : (model.classes.map ClassEntry.name).Nodup) :
    (∀ entry ∈ model.classes, IsMeasurable font entry) ∧
        (∃ layout scene, model.layout font = .ok layout ∧ model.scene layout = .ok scene ∧
          layout.Holds font model scene) ∨
      ∃ entry ∈ model.classes, ∃ label ∈ entry.labels, ∃ message,
        font.length label.1 label.2 = .error message ∧
          model.layout font = .error (.unmeasured message) := by
  cases laid : model.layout font with
  | ok layout =>
      obtain ⟨measurable, rfl⟩ := layout_eq_ok_iff.mp laid
      exact .inl ⟨measurable, _, model.drawing font, rfl, scene_plan font model,
        holds_drawing distinct measurable⟩
  | error fault =>
      obtain ⟨entry, member, label, listed, message, refused, rfl⟩ :=
        exists_of_layout_eq_error laid
      exact .inr ⟨entry, member, label, listed, message, refused, rfl⟩

/-- A class with both kinds of members, one of them wider than the least width of a box, and one
with methods only. -/
theorem layout_holds_or_error_wide_attribute :
    let model : ClassModel :=
      { classes := [⟨"A", ["id", List.replicate 20 'W'], ["run()"]⟩, ⟨"B", [], ["stop()"]⟩]
        relationships := [] }
    (model.classes.map ClassEntry.name).Nodup ∧
      ∃ layout scene, model.layout .bundled = .ok layout ∧ model.scene layout = .ok scene ∧
        layout.Holds .bundled model scene ∧
        layout.boxes = [("A".toList, ⟨50, 50, 240, 140⟩), ("B".toList, ⟨340, 50, 200, 100⟩)] := by
  intro model
  have distinct : (model.classes.map ClassEntry.name).Nodup := by decide
  refine ⟨distinct, ?_⟩
  have laid : model.layout .bundled = .ok (model.plan .bundled) := by decide +kernel
  rcases layout_holds_or_error .bundled distinct with
    ⟨-, layout, scene, found, drawn, holds⟩ | ⟨_, -, _, -, _, -, failed⟩
  · cases found.symm.trans laid
    exact ⟨_, scene, laid, drawn, holds, by decide +kernel⟩
  · rw [laid] at failed
    cases failed

end ClassModel

end DiagramSketch
