import DiagramSketch.ClassModel.Drawing
import DiagramSketch.Proofs.Font
import DiagramSketch.Proofs.Scene.Subjects

/-!
# What is drawn for a class model

Every class is shown, and every relationship between two classes.  Names and members that are too
long to be measured are the only thing that stops this, and everything lies on the canvas.
-/

namespace DiagramSketch

/-- The lines of a class: its name and its members. -/
def ClassEntry.lines (entry : ClassEntry) : List Text :=
  entry.name :: (entry.attributes ++ entry.methods)

/-- The lines of a class with the sizes that they are measured at. -/
def ClassEntry.labels (entry : ClassEntry) : List (Nat × Text) :=
  (14, entry.name) :: (entry.attributes ++ entry.methods).map fun member => (12, member)

namespace ClassModel

open Svg (Marker)

/-- All texts of a class can be measured. -/
def IsMeasurable (font : Font) (entry : ClassEntry) : Prop :=
  ∀ label ∈ entry.labels, font.Measures label.1 label.2

theorem size_mem_of_mem_labels {entry : ClassEntry} {label : Nat × Text}
    (listed : label ∈ entry.labels) : label.1 ∈ Font.labelSizes := by
  rcases List.mem_cons.mp listed with rfl | member
  · simp [Font.labelSizes]
  · obtain ⟨line, -, rfl⟩ := List.mem_map.mp member
    simp [Font.labelSizes]

/-- The width of the widest text of a class, where all of them can be measured. -/
def widest (font : Font) (entry : ClassEntry) : Rat :=
  largest (font.extent 14 entry.name) ((entry.attributes ++ entry.methods).map (font.extent 12))

/-- The width of a box, where all texts can be measured. -/
def widthOf (font : Font) (entry : ClassEntry) : Rat :=
  larger 200 ((widest font entry + 20).ceil : Int)

/-- The boxes of the classes, in order. -/
def boxes (font : Font) (model : ClassModel) : List (Text × Box) :=
  boxesFrom margin (model.classes.map fun entry => (entry, widthOf font entry))

/-- The layout, where all texts can be measured. -/
def plan (font : Font) (model : ClassModel) : Layout :=
  let right :=
    (model.classes.map (widthOf font)).foldl (fun x width => x + (width + boxGap)) margin
  { canvas :=
      { width := larger (larger 800 (model.classes.length * 250)) right
        height :=
          larger (400 + (model.classes.length - 2 : Nat) * 100)
            (largest 0 (model.classes.map boxHeight) + 100) }
    boxes := Keyed.ofList (model.boxes font) }

/-- The box of the class with the name. Where several classes have it, it is that of the last. -/
def boxOf (font : Font) (model : ClassModel) (name : Text) : Box :=
  ((model.plan font).boxes.find? name).getD ⟨0, 0, 0, 0⟩

/-- Whether there is a class with the name. -/
def hasClass (model : ClassModel) (name : Text) : Bool :=
  (model.classes.map ClassEntry.name).contains name

/-- Whether both ends of a relationship are classes. -/
def connects (model : ClassModel) (relationship : Relationship) : Bool :=
  model.hasClass relationship.endpoints.1 && model.hasClass relationship.endpoints.2

/-- The place at which relationships of a class begin and end. -/
def anchorOf (font : Font) (model : ClassModel) (name : Text) : Point :=
  ⟨(model.boxOf font name).center.x, relationshipHeight⟩

/-- The line of a relationship. -/
def lineOf (font : Font) (model : ClassModel) (relationship : Relationship) : Group :=
  relationshipGroup relationship (model.anchorOf font relationship.endpoints.1)
    (model.anchorOf font relationship.endpoints.2)

/-- What is drawn for a class model. -/
def drawing (font : Font) (model : ClassModel) : Scene :=
  { canvas := (model.plan font).canvas
    markers := [.inheritance]
    entities := model.classes.map fun entry => classEntity (model.boxOf font entry.name) entry
    relations := (model.relationships.filter model.connects).map (model.lineOf font)
    omissions := (model.dropped (model.plan font)).map omission }

variable {font : Font}

/-! ## The layout -/

theorem isMeasurable_iff {entry : ClassEntry} : IsMeasurable font entry ↔
    font.Measures 14 entry.name ∧
      ∀ member ∈ entry.attributes ++ entry.methods, font.Measures 12 member := by
  unfold IsMeasurable ClassEntry.labels
  rw [List.forall_mem_cons, List.forall_mem_map]

theorem boxWidth_eq_ok_iff {entry : ClassEntry} {width : Rat} :
    boxWidth font entry = .ok width ↔
      IsMeasurable font entry ∧ width = widthOf font entry := by
  constructor
  · intro success
    obtain ⟨nameWidth, name, rest⟩ := bind_eq_ok_iff.mp success
    obtain ⟨memberWidths, members, same⟩ := bind_eq_ok_iff.mp rest
    obtain ⟨measuredName, rfl⟩ := Font.width_eq_ok_iff.mp name
    have measured : ∀ line ∈ entry.attributes ++ entry.methods, font.Measures 12 line := by
      intro line member
      obtain ⟨lineWidth, -, found⟩ := exists_right_of_mem (mapM_eq_ok_iff.mp members) member
      exact (Font.width_eq_ok_iff.mp found).1
    have widths := mapM_eq_ok_map (font.width 12) (font.extent 12)
      (entry.attributes ++ entry.methods) fun line member => (measured line member).width_eq
    cases members.symm.trans widths
    cases same
    exact ⟨isMeasurable_iff.mpr ⟨measuredName, measured⟩, rfl⟩
  · rintro ⟨measurable, rfl⟩
    obtain ⟨name, members⟩ := isMeasurable_iff.mp measurable
    have widths := mapM_eq_ok_map (font.width 12) (font.extent 12)
      (entry.attributes ++ entry.methods) fun line member => (members line member).width_eq
    exact bind_eq_ok_iff.mpr ⟨_, name.width_eq, bind_eq_ok_iff.mpr ⟨_, widths, rfl⟩⟩

/-- A class cannot be laid out because one of its texts cannot be measured. -/
theorem exists_of_boxWidth_eq_error {entry : ClassEntry} {fault : Fault}
    (failed : boxWidth font entry = .error fault) : ∃ label ∈ entry.labels, ∃ message,
      font.length label.1 label.2 = .error message ∧ fault = .unmeasured message := by
  rcases bind_eq_error_iff.mp failed with name | ⟨width, -, rest⟩
  · exact ⟨_, List.mem_cons_self, Font.exists_of_width_eq_error name⟩
  · rcases bind_eq_error_iff.mp rest with members | ⟨widths, -, none⟩
    · obtain ⟨line, member, refused⟩ := exists_of_mapM_eq_error members
      exact ⟨(12, line), List.mem_cons_of_mem _ (List.mem_map_of_mem member),
        Font.exists_of_width_eq_error refused⟩
    · cases none

theorem layout_of_isMeasurable {model : ClassModel}
    (measurable : ∀ entry ∈ model.classes, IsMeasurable font entry) :
    model.layout font = .ok (model.plan font) := by
  have widths := mapM_eq_ok_map (boxWidth font) (widthOf font) model.classes fun entry member =>
    boxWidth_eq_ok_iff.mpr ⟨measurable entry member, rfl⟩
  refine bind_eq_ok_iff.mpr ⟨_, widths, ?_⟩
  have beside : model.classes.zip (model.classes.map (widthOf font)) =
      model.classes.map fun entry => (entry, widthOf font entry) := by
    have own : model.classes = model.classes.map id := (List.map_id _).symm
    exact (congrArg (List.zip · (model.classes.map (widthOf font))) own).trans List.zip_map'
  rw [beside]
  rfl

theorem exists_of_layout_eq_error {model : ClassModel} {fault : Fault}
    (failed : model.layout font = .error fault) :
    ∃ entry ∈ model.classes, ∃ label ∈ entry.labels, ∃ message,
      font.length label.1 label.2 = .error message ∧ fault = .unmeasured message := by
  rcases bind_eq_error_iff.mp failed with widths | ⟨widths, -, none⟩
  · obtain ⟨entry, member, refused⟩ := exists_of_mapM_eq_error widths
    exact ⟨entry, member, exists_of_boxWidth_eq_error refused⟩
  · cases none

theorem layout_eq_ok_iff {model : ClassModel} {layout : Layout} :
    model.layout font = .ok layout ↔
      (∀ entry ∈ model.classes, IsMeasurable font entry) ∧ layout = model.plan font := by
  constructor
  · intro success
    have measurable : ∀ entry ∈ model.classes, IsMeasurable font entry := by
      obtain ⟨widths, found, -⟩ := bind_eq_ok_iff.mp success
      intro entry inside
      obtain ⟨width, -, measured⟩ := exists_right_of_mem (mapM_eq_ok_iff.mp found) inside
      exact (boxWidth_eq_ok_iff.mp measured).1
    rw [layout_of_isMeasurable measurable] at success
    cases success
    exact ⟨measurable, rfl⟩
  · rintro ⟨measurable, rfl⟩
    exact layout_of_isMeasurable measurable

variable (font) (model : ClassModel)

theorem names_boxesFrom (x : Rat) (entries : List (ClassEntry × Rat)) :
    (boxesFrom x entries).map Prod.fst = entries.map fun entry => entry.1.name := by
  induction entries generalizing x with
  | nil => rfl
  | cons entry entries induction =>
      obtain ⟨entry, width⟩ := entry
      exact congrArg (entry.name :: ·) (induction _)

theorem map_fst_boxes : (model.boxes font).map Prod.fst = model.classes.map ClassEntry.name := by
  rw [boxes, names_boxesFrom, List.map_map]
  rfl

theorem mem_names_boxes {name : Text} :
    name ∈ (model.plan font).boxes.names ↔ name ∈ model.classes.map ClassEntry.name := by
  rw [plan, Keyed.mem_names_ofList, map_fst_boxes]

theorem ends?_eq (relationship : Relationship) :
    ((model.plan font).ends? relationship).map
        (fun (first, last) => relationshipGroup relationship first last) =
      if model.connects relationship then some (model.lineOf font relationship) else none := by
  have used : model.connects relationship = true ↔
      relationship.endpoints.1 ∈ (model.plan font).boxes.names ∧
        relationship.endpoints.2 ∈ (model.plan font).boxes.names := by
    rw [connects, hasClass, hasClass, Bool.and_eq_true, List.contains_iff_mem,
      List.contains_iff_mem, mem_names_boxes, mem_names_boxes]
  have resolved := Keyed.bind_find?_eq_ite used (fun (first last : Box) =>
    relationshipGroup relationship ⟨first.center.x, relationshipHeight⟩
      ⟨last.center.x, relationshipHeight⟩) ⟨0, 0, 0, 0⟩ ⟨0, 0, 0, 0⟩
  refine Eq.trans ?_ resolved
  unfold Layout.ends? Layout.anchor
  cases (model.plan font).boxes.find? relationship.endpoints.1 with
  | none => rfl
  | some first => cases (model.plan font).boxes.find? relationship.endpoints.2 <;> rfl

theorem scene_plan : model.scene (model.plan font) = .ok (model.drawing font) := by
  have entities := mapM_eq_ok_map
    (fun entry : ClassEntry =>
      ((model.plan font).boxes.get entry.name).map fun box => classEntity box entry)
    (fun entry => classEntity (model.boxOf font entry.name) entry) model.classes
    fun entry member => by
      have used : entry.name ∈ (model.plan font).boxes.names :=
        (model.mem_names_boxes font).mpr (List.mem_map.mpr ⟨entry, member, rfl⟩)
      rw [Keyed.get_eq_ok_getD used ⟨0, 0, 0, 0⟩]
      rfl
  refine bind_eq_ok_iff.mpr ⟨_, entities, ?_⟩
  exact congrArg (fun relations : List Group => (Except.ok
    { canvas := (model.plan font).canvas, markers := [.inheritance]
      entities := (model.drawing font).entities, relations
      omissions := (model.drawing font).omissions } : Except Fault Scene))
    (filterMap_eq_map_filter (model.ends?_eq font) model.relationships)

/-! ## Soundness -/

theorem isSound_memberLabels (box : Box) (y : Rat) (members : List Text) :
    ∀ figure ∈ memberLabels box y members, ∀ entry ∈ figure.paint,
      Svg.IsSound [.arrowhead, .inheritance] entry := by
  intro figure member
  obtain ⟨⟨line, index⟩, -, rfl⟩ := List.mem_map.mp member
  exact Svg.isSound_of_all rfl

theorem isSound_classEntity (box : Box) (entry : ClassEntry) :
    (classEntity box entry).toGroup.IsSound [.arrowhead, .inheritance] := by
  refine ⟨List.all_eq_true.mp rfl,
    Svg.refersTo_of_head? (fun starts => absurd (Option.some.inj starts) (by decide)), ?_⟩
  refine List.forall_mem_append.mpr ⟨List.forall_mem_append.mpr ⟨List.forall_mem_append.mpr
    ⟨?_, isSound_memberLabels _ _ _⟩, ?_⟩, isSound_memberLabels _ _ _⟩
  · refine List.forall_mem_cons.mpr ⟨Svg.isSound_of_all rfl, List.forall_mem_cons.mpr
      ⟨Svg.isSound_of_all rfl, List.forall_mem_singleton.mpr (Svg.isSound_of_all rfl)⟩⟩
  · split
    · exact List.forall_mem_singleton.mpr (Svg.isSound_of_all rfl)
    · exact fun figure none => by cases none

theorem isChecked_relationshipGroup (relationship : Relationship) (first last : Point) :
    (relationshipGroup relationship first last).isChecked [.arrowhead, .inheritance] = true := by
  unfold relationshipGroup
  cases relationship.isInheritance <;> rfl

theorem isSound_drawing : (model.drawing font).IsSound := by
  refine ⟨Scene.forall_groups.mpr ⟨fun entity member => ?_, fun group member => ?_⟩,
    List.nodup_singleton _⟩
  · obtain ⟨entry, -, rfl⟩ := List.mem_map.mp member
    exact List.forall_mem_singleton.mpr (isSound_classEntity _ _)
  · obtain ⟨relationship, -, rfl⟩ := List.mem_map.mp member
    exact Group.isSound_of_isChecked (isChecked_relationshipGroup _ _ _)

/-! ## The canvas -/

theorem le_widthOf (entry : ClassEntry) : 200 ≤ widthOf font entry :=
  le_larger_left 200 _

theorem widthOf_le {font : Font} (limited : font.IsLimited) (entry : ClassEntry) :
    widthOf font entry ≤ 2 ^ 58 := by
  have narrow : widest font entry ≤ 2 ^ 57 := by
    refine largest_le (limited.extent_le (by decide)) fun value member => ?_
    obtain ⟨line, -, rfl⟩ := List.mem_map.mp member
    exact limited.extent_le (by decide)
  have rounded := Rat.ceil_lt (x := widest font entry + 20)
  exact larger_le (by norm_num) (by linarith)

/-- Where the row of boxes ends that begins at a place. -/
def rowEnd (font : Font) (x : Rat) (entries : List ClassEntry) : Rat :=
  (entries.map (widthOf font)).foldl (fun x width => x + (width + boxGap)) x

theorem le_rowEnd (x : Rat) (entries : List ClassEntry) : x ≤ rowEnd font x entries := by
  induction entries generalizing x with
  | nil => exact le_refl x
  | cons entry entries induction =>
      have wide := le_widthOf font entry
      have step : x ≤ x + (widthOf font entry + boxGap) := by
        rw [boxGap]
        linarith
      exact step.trans (induction _)

theorem rowEnd_le {font : Font} (limited : font.IsLimited) (x : Rat)
    (entries : List ClassEntry) : rowEnd font x entries ≤ x + entries.length * 2 ^ 59 := by
  induction entries generalizing x with
  | nil => simp [rowEnd]
  | cons entry entries induction =>
      have narrow := widthOf_le limited entry
      have rest := induction (x + (widthOf font entry + boxGap))
      have shape : rowEnd font x (entry :: entries) =
          rowEnd font (x + (widthOf font entry + boxGap)) entries := rfl
      rw [boxGap] at rest shape
      rw [shape, List.length_cons]
      push_cast
      linarith

/-- A box stands in the row and is as high as its class needs. -/
structure IsInRow (font : Font) (x : Rat) (entries : List ClassEntry) (box : Box) : Prop where
  left : x ≤ box.x
  top : box.y = margin
  wide : 200 ≤ box.width
  right : box.x + box.width ≤ rowEnd font x entries
  high : ∃ entry ∈ entries, box.height = boxHeight entry

theorem isInRow_of_mem {x : Rat} {entries : List ClassEntry} {name : Text} {box : Box}
    (member : (name, box) ∈ boxesFrom x (entries.map fun entry => (entry, widthOf font entry))) :
    IsInRow font x entries box := by
  induction entries generalizing x with
  | nil => cases member
  | cons entry entries induction =>
      have wide := le_widthOf font entry
      have onward : x + widthOf font entry ≤ x + (widthOf font entry + boxGap) := by
        rw [boxGap]
        linarith
      rcases List.mem_cons.mp member with same | later
      · cases same
        exact {
          left := le_refl x
          top := rfl
          wide
          right := onward.trans (le_rowEnd font _ entries)
          high := ⟨entry, List.mem_cons_self, rfl⟩ }
      · obtain ⟨left, top, wideOther, right, other, inside, high⟩ := induction later
        exact {
          left := by linarith
          top
          wide := wideOther
          right
          high := ⟨other, List.mem_cons_of_mem entry inside, high⟩ }

theorem isInRow_boxOf {name : Text} (member : name ∈ model.classes.map ClassEntry.name) :
    IsInRow font margin model.classes (model.boxOf font name) := by
  have used := (model.mem_names_boxes font).mpr member
  exact isInRow_of_mem font (Keyed.mem_of_find?_ofList (Keyed.find?_eq_some_getD used ⟨0, 0, 0, 0⟩))

theorem canvas_bounds : 800 ≤ (model.plan font).canvas.width ∧
    rowEnd font margin model.classes ≤ (model.plan font).canvas.width ∧
      400 ≤ (model.plan font).canvas.height ∧
    ∀ entry ∈ model.classes, 180 + (entry.attributes.length : Rat) * 20 +
      (entry.methods.length : Rat) * 20 ≤ (model.plan font).canvas.height := by
  have wide : 800 ≤ larger 800 ((model.classes.length : Rat) * 250) := le_larger_left 800 _
  have few : (0 : Rat) ≤ ((model.classes.length - 2 : Nat) : Rat) := Nat.cast_nonneg _
  have high :
      400 + ((model.classes.length - 2 : Nat) : Rat) * 100 ≤ (model.plan font).canvas.height :=
    le_larger_left _ _
  refine ⟨wide.trans (le_larger_left _ _), le_larger_right _ _, by linarith, ?_⟩
  intro entry member
  have tall : boxHeight entry ≤ largest 0 (model.classes.map boxHeight) :=
    le_largest (List.mem_map.mpr ⟨entry, member, rfl⟩)
  have below : largest 0 (model.classes.map boxHeight) + 100 ≤ (model.plan font).canvas.height :=
    le_larger_right _ _
  have shape : boxHeight entry = 80 + ((entry.attributes.length + entry.methods.length : Nat) :
      Rat) * 20 := rfl
  push_cast at shape
  linarith

theorem isOn_memberLabels {canvas : Canvas} {box : Box} {y : Rat} {members : List Text}
    (left : 0 ≤ box.x) (right : box.x + 10 ≤ canvas.width) (top : 0 ≤ y)
    (bottom : y + (members.length : Rat) * 20 ≤ canvas.height) :
    ∀ figure ∈ memberLabels box y members, figure.shape.IsOn canvas := by
  intro figure member
  obtain ⟨⟨line, index⟩, inside, rfl⟩ := List.mem_map.mp member
  have below : (index : Rat) + 1 ≤ members.length := by
    exact_mod_cast List.snd_lt_of_mem_zipIdx inside
  have row : (0 : Rat) ≤ index := Nat.cast_nonneg index
  have place : (index : Rat) * memberSpacing = index * 20 := rfl
  refine Shape.isOn_label (Point.isOn_mk ?_ ?_ ?_ ?_) _
  all_goals linarith

theorem isOn_classEntity {canvas : Canvas} {box : Box} {entry : ClassEntry}
    (left : 50 ≤ box.x) (top : box.y = 50) (wide : 200 ≤ box.width)
    (right : box.x + box.width ≤ canvas.width) (sized : 0 ≤ box.height)
    (bottom : 50 + box.height ≤ canvas.height)
    (high : 180 + (entry.attributes.length : Rat) * 20 + (entry.methods.length : Rat) * 20 ≤
      canvas.height) :
    ∀ figure ∈ (classEntity box entry).figures, figure.shape.IsOn canvas := by
  have attributes : (0 : Rat) ≤ entry.attributes.length := Nat.cast_nonneg _
  have methods : (0 : Rat) ≤ entry.methods.length := Nat.cast_nonneg _
  have outline : (Shape.rectangle box).IsOn canvas := by
    refine Shape.isOn_rectangle ?_ ?_ ?_ ?_ ⟨?_, ?_⟩
    all_goals linarith
  have header : (Shape.rectangle { box with height := 30 }).IsOn canvas := by
    refine Shape.isOn_rectangle ?_ ?_ ?_ ?_ ⟨?_, ?_⟩
    all_goals linarith
  have title : (Shape.label ⟨box.center.x, box.y + 20⟩ entry.name).IsOn canvas := by
    have middle : box.center.x = box.x + box.width / 2 := rfl
    refine Shape.isOn_label (Point.isOn_mk ?_ ?_ ?_ ?_) _
    all_goals linarith
  have between : (Shape.line ⟨box.x, box.y + 50 + entry.attributes.length * memberSpacing⟩
      ⟨box.right, box.y + 50 + entry.attributes.length * memberSpacing⟩).IsOn canvas := by
    have far : box.right = box.x + box.width := rfl
    rw [memberSpacing]
    refine Shape.isOn_line (Point.isOn_mk ?_ ?_ ?_ ?_) (Point.isOn_mk ?_ ?_ ?_ ?_)
    all_goals linarith
  refine List.forall_mem_append.mpr ⟨List.forall_mem_append.mpr ⟨List.forall_mem_append.mpr
    ⟨?_, ?_⟩, ?_⟩, ?_⟩
  · exact List.forall_mem_cons.mpr ⟨outline, List.forall_mem_cons.mpr
      ⟨header, List.forall_mem_singleton.mpr title⟩⟩
  · refine isOn_memberLabels ?_ ?_ ?_ ?_
    all_goals linarith
  · split
    · exact List.forall_mem_singleton.mpr between
    · exact fun figure none => by cases none
  · refine isOn_memberLabels ?_ ?_ ?_ ?_
    · linarith
    · linarith
    · rw [memberSpacing]
      split <;> linarith
    · rw [memberSpacing]
      split <;> linarith

theorem isOnCanvas_drawing : (model.drawing font).IsOnCanvas := by
  obtain ⟨wide, long, high, tall⟩ := model.canvas_bounds font
  change ∀ group ∈ (model.drawing font).groups, ∀ figure ∈ group.figures,
    figure.shape.IsOn (model.plan font).canvas
  refine Scene.forall_groups.mpr ⟨fun entity member => ?_, fun group member => ?_⟩
  · obtain ⟨entry, inside, rfl⟩ := List.mem_map.mp member
    obtain ⟨left, top, boxWide, right, other, otherInside, height⟩ :=
      model.isInRow_boxOf font (List.mem_map.mpr ⟨entry, inside, rfl⟩)
    have room := tall other otherInside
    have attributes : (0 : Rat) ≤ other.attributes.length := Nat.cast_nonneg _
    have methods : (0 : Rat) ≤ other.methods.length := Nat.cast_nonneg _
    have shape : boxHeight other = 80 + ((other.attributes.length + other.methods.length : Nat) :
        Rat) * 20 := rfl
    push_cast at shape
    refine List.forall_mem_singleton.mpr (isOn_classEntity left top boxWide ?_ ?_ ?_
      (tall entry inside))
    all_goals linarith
  · obtain ⟨relationship, inside, rfl⟩ := List.mem_map.mp member
    have ends := (List.mem_filter.mp inside).2
    simp only [connects, hasClass, Bool.and_eq_true, List.contains_iff_mem] at ends
    have anchor {name : Text} (used : name ∈ model.classes.map ClassEntry.name) :
        (model.anchorOf font name).IsOn (model.plan font).canvas := by
      obtain ⟨left, -, boxWide, right, -⟩ := model.isInRow_boxOf font used
      have middle : (model.boxOf font name).center.x =
        (model.boxOf font name).x + (model.boxOf font name).width / 2 := rfl
      have height : relationshipHeight = 150 := rfl
      have start : margin = 50 := rfl
      refine Point.isOn_mk ?_ ?_ ?_ ?_
      all_goals linarith
    exact List.forall_mem_singleton.mpr
      (Shape.isOn_line (anchor ends.1) (anchor ends.2))

theorem isExtentFor_canvas {font : Font} (limited : font.IsLimited) {count : Nat}
    (classes : model.classes.length ≤ count)
    (members : ∀ entry ∈ model.classes, entry.memberCount ≤ count) :
    IsExtentFor count (model.plan font).canvas.width ∧
      IsExtentFor count (model.plan font).canvas.height := by
  obtain ⟨wide, -, high, -⟩ := model.canvas_bounds font
  have some : (0 : Rat) ≤ count := Nat.cast_nonneg count
  have boxes : (model.classes.length : Rat) ≤ count := by exact_mod_cast classes
  have row := rowEnd_le limited margin model.classes
  have start : margin = 50 := rfl
  refine ⟨⟨by linarith, larger_le (larger_le (by linarith) (by linarith)) ?_⟩,
    ⟨by linarith, larger_le ?_ ?_⟩⟩
  · change rowEnd font margin model.classes ≤ _
    linarith
  · have fewer : ((model.classes.length - 2 : Nat) : Rat) ≤ count := by
      exact_mod_cast (Nat.sub_le _ 2).trans classes
    linarith
  · have tall : largest 0 (model.classes.map boxHeight) ≤ 80 + (count : Rat) * 20 := by
      refine largest_le (by linarith) fun value member => ?_
      obtain ⟨entry, inside, rfl⟩ := List.mem_map.mp member
      have few : (entry.memberCount : Rat) ≤ count := by exact_mod_cast members entry inside
      rw [boxHeight, memberSpacing]
      linarith
    linarith

end ClassModel

end DiagramSketch
