import DiagramSketch.Activity.Drawing
import DiagramSketch.Proofs.Font
import DiagramSketch.Proofs.Scene.Subjects

/-!
# What is drawn for an activity

The start, the steps and the stop are shown, and an arrow from each of them to the next.  Labels
that are too long to be measured are the only thing that stops this, and everything lies on the
canvas.
-/

namespace DiagramSketch.Activity

/-- The size of the label of a step. -/
def labelSize (step : ActivityStep) : Nat :=
  if step.isDecision then 10 else 12

theorem labelSize_mem (step : ActivityStep) : labelSize step ∈ Font.labelSizes := by
  unfold labelSize
  split <;> decide

/-- All labels of an activity can be measured. -/
def IsMeasurable (font : Font) (activity : Activity) : Prop :=
  ∀ step ∈ activity.steps, font.Measures (labelSize step) step.label

/-- The node of a step at the height `y`, where its label can be measured. -/
def nodeOf (font : Font) (y : Rat) (step : ActivityStep) : Node :=
  if step.isDecision then
    { role := .decision, label := step.label, y
      halfWidth := larger 40 (font.extent 10 step.label / 2 + 15) }
  else
    { role := .action, label := step.label, y
      halfWidth := larger 80 ((font.extent 12 step.label + 20) / 2) }

/-- The circle at the start of the lane, if there is one. -/
def startNodes (activity : Activity) : List Node :=
  if activity.hasStart then
    [{ role := .start, label := "START", y := firstHeight, halfWidth := 15 }]
  else []

/-- The nodes of the steps. -/
def stepNodes (font : Font) (activity : Activity) : List Node :=
  activity.steps.zipIdx.map fun (step, index) =>
    nodeOf font (activity.firstStepHeight + index * stepSpacing) step

/-- The circle at the end of the lane, if there is one. -/
def stopNodes (activity : Activity) : List Node :=
  if activity.hasStop then
    [{ role := .stop, label := "STOP"
       y := activity.firstStepHeight + activity.steps.length * stepSpacing, halfWidth := 15 }]
  else []

/-- Everything on the lane. -/
def placed (font : Font) (activity : Activity) : List Node :=
  activity.startNodes ++ activity.stepNodes font ++ activity.stopNodes

/-- The width of the widest node on the lane. -/
def widest (font : Font) (activity : Activity) : Rat :=
  largest 0 ((activity.placed font).map fun node => node.halfWidth * 2)

/-- The canvas that the widest node fits on. -/
def canvas (font : Font) (activity : Activity) : Canvas :=
  { width := larger 400 ((activity.widest font + 80).ceil : Int)
    height :=
      100 + activity.steps.length * stepSpacing + (if activity.hasStart then 50 else 0)
        + (if activity.hasStop then 50 else 0) }

/-- The layout, where all labels can be measured. -/
def plan (font : Font) (activity : Activity) : Layout :=
  { canvas := activity.canvas font, centerX := (activity.canvas font).width / 2
    nodes := activity.placed font }

/-- What is drawn for an activity. -/
def drawing (font : Font) (activity : Activity) : Scene :=
  (activity.plan font).scene

variable {font : Font} {activity : Activity}

theorem stepNode_eq (y : Rat) (step : ActivityStep) : stepNode font y step =
    (font.width (labelSize step) step.label).map fun _ => nodeOf font y step := by
  unfold stepNode labelSize nodeOf
  split
  · cases found : font.width 10 step.label with
    | error fault => rfl
    | ok width =>
        obtain ⟨-, rfl⟩ := Font.width_eq_ok_iff.mp found
        rfl
  · cases found : font.width 12 step.label with
    | error fault => rfl
    | ok width =>
        obtain ⟨-, rfl⟩ := Font.width_eq_ok_iff.mp found
        rfl

theorem stepNode_eq_ok_iff {y : Rat} {step : ActivityStep} {node : Node} :
    stepNode font y step = .ok node ↔
      font.Measures (labelSize step) step.label ∧ node = nodeOf font y step := by
  rw [stepNode_eq, map_eq_ok_iff]
  constructor
  · rintro ⟨width, measured, rfl⟩
    exact ⟨(Font.width_eq_ok_iff.mp measured).1, rfl⟩
  · rintro ⟨measured, rfl⟩
    exact ⟨_, measured.width_eq, rfl⟩

theorem layout_of_isMeasurable (measurable : activity.IsMeasurable font) :
    activity.layout font = .ok (activity.plan font) := by
  have steps := mapM_eq_ok_map
    (fun entry : ActivityStep × Nat =>
      stepNode font (activity.firstStepHeight + entry.2 * stepSpacing) entry.1)
    (fun entry => nodeOf font (activity.firstStepHeight + entry.2 * stepSpacing) entry.1)
    activity.steps.zipIdx fun entry member =>
      stepNode_eq_ok_iff.mpr ⟨measurable _ (List.fst_mem_of_mem_zipIdx member), rfl⟩
  exact bind_eq_ok_iff.mpr ⟨_, bind_eq_ok_iff.mpr ⟨_, steps, rfl⟩, rfl⟩

theorem layout_eq_ok_iff {layout : Layout} : activity.layout font = .ok layout ↔
    activity.IsMeasurable font ∧ layout = activity.plan font := by
  constructor
  · intro success
    have measurable : activity.IsMeasurable font := by
      obtain ⟨nodes, found, -⟩ := bind_eq_ok_iff.mp success
      obtain ⟨stepNodes, steps, -⟩ := bind_eq_ok_iff.mp found
      intro step member
      obtain ⟨index, place⟩ := List.getElem?_of_mem member
      obtain ⟨node, -, made⟩ := exists_right_of_mem (mapM_eq_ok_iff.mp steps)
        (List.mem_zipIdx_iff_getElem?.mpr place : (step, index) ∈ activity.steps.zipIdx)
      exact (stepNode_eq_ok_iff.mp made).1
    rw [layout_of_isMeasurable measurable] at success
    cases success
    exact ⟨measurable, rfl⟩
  · rintro ⟨measurable, rfl⟩
    exact layout_of_isMeasurable measurable

/-- An activity cannot be laid out because one of its labels cannot be measured. -/
theorem exists_of_layout_eq_error {fault : Fault} (failed : activity.layout font = .error fault) :
    ∃ step ∈ activity.steps, ∃ message,
      font.length (labelSize step) step.label = .error message ∧
        fault = .unmeasured message := by
  rcases bind_eq_error_iff.mp failed with nodes | ⟨nodes, -, none⟩
  · rcases bind_eq_error_iff.mp nodes with steps | ⟨steps, -, none⟩
    · obtain ⟨⟨step, index⟩, member, refused⟩ := exists_of_mapM_eq_error steps
      have refused : stepNode font _ step = .error fault := refused
      rw [stepNode_eq, map_eq_error_iff] at refused
      exact ⟨step, List.fst_mem_of_mem_zipIdx member, Font.exists_of_width_eq_error refused⟩
    · cases none
  · cases none

/-! ## Soundness -/

theorem isChecked_nodeEntity (centerX : Rat) (node : Node) :
    (nodeEntity centerX node).toGroup.isChecked [.arrowhead] = true := by
  unfold nodeEntity
  cases node.role <;> rfl

theorem isChecked_flowGroup (first last : Point) :
    (flowGroup first last).isChecked [.arrowhead] = true :=
  rfl

theorem Layout.isSound_scene (layout : Layout) : layout.scene.IsSound := by
  refine ⟨Scene.forall_groups.mpr ⟨fun entity member => ?_, fun group member => ?_⟩, List.nodup_nil⟩
  · obtain ⟨node, -, rfl⟩ := List.mem_map.mp member
    refine List.forall_mem_singleton.mpr (Group.isSound_of_isChecked ?_)
    exact isChecked_nodeEntity _ _
  · obtain ⟨⟨first, last⟩, -, rfl⟩ := List.mem_map.mp member
    exact Group.isSound_of_isChecked (isChecked_flowGroup _ _)

/-! ## The lane -/

/-- How a node gets on the lane of an activity. -/
inductive IsPlaced (font : Font) (activity : Activity) : Node → Prop where
  | start (asked : activity.hasStart = true) :
      IsPlaced font activity ⟨.start, "START", firstHeight, 15⟩
  | step {told : ActivityStep} {index : Nat} (listed : (told, index) ∈ activity.steps.zipIdx) :
      IsPlaced font activity (nodeOf font (activity.firstStepHeight + index * stepSpacing) told)
  | stop (asked : activity.hasStop = true) :
      IsPlaced font activity
        ⟨.stop, "STOP", activity.firstStepHeight + activity.steps.length * stepSpacing, 15⟩

theorem mem_placed_iff {node : Node} :
    node ∈ activity.placed font ↔ activity.IsPlaced font node := by
  simp only [placed, startNodes, stopNodes, List.mem_append, List.mem_ite_nil_right,
    List.mem_singleton]
  constructor
  · rintro ((⟨asked, rfl⟩ | member) | ⟨asked, rfl⟩)
    · exact .start asked
    · obtain ⟨⟨told, index⟩, listed, rfl⟩ := List.mem_map.mp member
      exact .step listed
    · exact .stop asked
  · intro isPlaced
    cases isPlaced with
    | start asked => exact .inl (.inl ⟨asked, rfl⟩)
    | step listed => exact .inl (.inr (List.mem_map_of_mem listed))
    | stop asked => exact .inr ⟨asked, rfl⟩

/-! ## The canvas -/

variable (font) (activity)

/-- A node that stands well inside a canvas. -/
structure Node.IsInside (canvas : Canvas) (node : Node) : Prop where
  top : 50 ≤ node.y
  bottom : node.y + 20 ≤ canvas.height
  half : 0 ≤ node.halfWidth
  wide : node.halfWidth * 2 + 80 ≤ canvas.width

theorem nodeOf_y (y : Rat) (step : ActivityStep) : (nodeOf font y step).y = y := by
  unfold nodeOf
  split <;> rfl

theorem nodeOf_halfWidth (y : Rat) (step : ActivityStep) : 0 ≤ (nodeOf font y step).halfWidth := by
  unfold nodeOf
  split
  · have wide : 40 ≤ larger 40 (font.extent 10 step.label / 2 + 15) :=
      le_larger_left 40 _
    dsimp only
    linarith
  · have wide : 80 ≤ larger 80 ((font.extent 12 step.label + 20) / 2) :=
      le_larger_left 80 _
    dsimp only
    linarith

theorem placed_bounds {node : Node} (member : node ∈ (activity.placed font)) :
    50 ≤ node.y ∧ node.y + 20 ≤ (activity.canvas font).height ∧ 0 ≤ node.halfWidth := by
  have some : (0 : Rat) ≤ activity.steps.length := Nat.cast_nonneg _
  have first : 50 ≤ activity.firstStepHeight ∧ activity.firstStepHeight + 50 +
      activity.steps.length * stepSpacing + (if activity.hasStop then 50 else 0) ≤
        (activity.canvas font).height + 10 := by
    simp only [firstStepHeight, firstHeight, canvas]
    split
    · constructor <;> linarith
    · constructor <;> linarith
  obtain ⟨firstTop, high⟩ := first
  simp only [stepSpacing] at high
  cases mem_placed_iff.mp member with
  | start =>
      simp only [firstHeight]
      refine ⟨by norm_num, ?_, by norm_num⟩
      split at high <;> linarith
  | @step told index listed =>
      have below : (index : Rat) + 1 ≤ activity.steps.length := by
        exact_mod_cast List.snd_lt_of_mem_zipIdx listed
      have nonneg : (0 : Rat) ≤ index := Nat.cast_nonneg index
      simp only [nodeOf_y, stepSpacing]
      refine ⟨by linarith, ?_, nodeOf_halfWidth font _ _⟩
      split at high <;> linarith
  | stop asked =>
      rw [if_pos asked] at high
      simp only [stepSpacing]
      exact ⟨by linarith, by linarith, by norm_num⟩

theorem isInside_of_mem_placed {node : Node} (member : node ∈ (activity.placed font)) :
    node.IsInside (activity.canvas font) := by
  obtain ⟨top, bottom, half⟩ := activity.placed_bounds font member
  refine ⟨top, bottom, half, ?_⟩
  have widest : node.halfWidth * 2 ≤ activity.widest font :=
    le_largest (List.mem_map.mpr ⟨node, member, rfl⟩)
  have rounded : activity.widest font + 80 ≤ ((activity.widest font + 80).ceil : Int) :=
    Rat.le_ceil
  have wide := le_larger_right 400 (((activity.widest font + 80).ceil : Int) : Rat)
  change _ ≤ (activity.canvas font).width at wide
  linarith

theorem isOn_nodeEntity {canvas : Canvas} {node : Node} (inside : node.IsInside canvas) :
    ∀ figure ∈ (nodeEntity (canvas.width / 2) node).figures, figure.shape.IsOn canvas := by
  obtain ⟨top, bottom, half, wide⟩ := inside
  have circle : (Shape.circle ⟨canvas.width / 2, node.y⟩ 15).IsOn canvas := by
    refine Shape.isOn_circle ?_ ?_ ?_ ?_ ?_
    all_goals linarith
  have label : (Shape.label ⟨canvas.width / 2, node.y + 5⟩ node.label).IsOn canvas := by
    refine Shape.isOn_label (Point.isOn_mk ?_ ?_ ?_ ?_) _
    all_goals linarith
  have diamond : (Shape.polygon [⟨canvas.width / 2, node.y - 20⟩,
      ⟨canvas.width / 2 + node.halfWidth, node.y⟩, ⟨canvas.width / 2, node.y + 20⟩,
      ⟨canvas.width / 2 - node.halfWidth, node.y⟩]).IsOn canvas := by
    refine List.forall_mem_cons.mpr ⟨Point.isOn_mk ?_ ?_ ?_ ?_, List.forall_mem_cons.mpr
      ⟨Point.isOn_mk ?_ ?_ ?_ ?_, List.forall_mem_cons.mpr ⟨Point.isOn_mk ?_ ?_ ?_ ?_,
        List.forall_mem_singleton.mpr (Point.isOn_mk ?_ ?_ ?_ ?_)⟩⟩⟩
    all_goals linarith
  have box : (Shape.rectangle ⟨canvas.width / 2 - node.halfWidth, node.y - 20,
      node.halfWidth * 2, 40⟩).IsOn canvas := by
    refine Shape.isOn_rectangle ?_ ?_ ?_ ?_ ⟨?_, ?_⟩
    all_goals linarith
  unfold nodeEntity
  dsimp only
  cases node.role with
  | start => exact List.forall_mem_cons.mpr ⟨circle, List.forall_mem_singleton.mpr label⟩
  | stop => exact List.forall_mem_cons.mpr ⟨circle, List.forall_mem_singleton.mpr label⟩
  | decision => exact List.forall_mem_cons.mpr ⟨diamond, List.forall_mem_singleton.mpr label⟩
  | action => exact List.forall_mem_cons.mpr ⟨box, List.forall_mem_singleton.mpr label⟩

theorem Role.halfHeight_bounds (role : Role) : 0 ≤ role.halfHeight ∧ role.halfHeight ≤ 20 := by
  cases role <;> constructor <;> norm_num [Role.halfHeight]

theorem Node.IsInside.isOn {canvas : Canvas} {node : Node} (inside : node.IsInside canvas) :
    Point.IsOn canvas ⟨canvas.width / 2, node.top⟩ ∧
      Point.IsOn canvas ⟨canvas.width / 2, node.bottom⟩ := by
  obtain ⟨top, bottom, half, wide⟩ := inside
  obtain ⟨low, high⟩ := node.role.halfHeight_bounds
  have upper : node.top = node.y - node.role.halfHeight := rfl
  have lower : node.bottom = node.y + node.role.halfHeight := rfl
  refine ⟨Point.isOn_mk ?_ ?_ ?_ ?_, Point.isOn_mk ?_ ?_ ?_ ?_⟩
  all_goals linarith

theorem isOnCanvas_drawing : (activity.drawing font).IsOnCanvas := by
  change ∀ group ∈ (activity.drawing font).groups, ∀ figure ∈ group.figures,
    figure.shape.IsOn (activity.canvas font)
  refine Scene.forall_groups.mpr ⟨fun entity member => ?_, fun group member => ?_⟩
  · obtain ⟨node, inside, rfl⟩ := List.mem_map.mp member
    exact List.forall_mem_singleton.mpr
      (isOn_nodeEntity (activity.isInside_of_mem_placed font inside))
  · obtain ⟨⟨first, last⟩, inside, rfl⟩ := List.mem_map.mp member
    obtain ⟨⟨upper, lower⟩, pair, same⟩ := List.mem_map.mp inside
    cases same
    have upperInside := activity.isInside_of_mem_placed font (List.of_mem_zip pair).1
    have lowerInside := activity.isInside_of_mem_placed font
      (List.mem_of_mem_drop (List.of_mem_zip pair).2)
    exact List.forall_mem_singleton.mpr
      (Shape.isOn_line upperInside.isOn.2 lowerInside.isOn.1)

variable {font} in
theorem nodeOf_halfWidth_le (limited : font.IsLimited) (y : Rat) (step : ActivityStep) :
    (nodeOf font y step).halfWidth ≤ 2 ^ 57 := by
  have small : font.extent 10 step.label ≤ 2 ^ 57 := limited.extent_le (by decide)
  have large : font.extent 12 step.label ≤ 2 ^ 57 := limited.extent_le (by decide)
  unfold nodeOf
  split
  · exact larger_le (by norm_num) (by linarith)
  · exact larger_le (by norm_num) (by linarith)

variable {font} in
theorem halfWidth_le_of_mem_placed (limited : font.IsLimited) {node : Node}
    (member : node ∈ activity.placed font) : node.halfWidth ≤ 2 ^ 57 := by
  cases mem_placed_iff.mp member with
  | start => norm_num
  | step => exact nodeOf_halfWidth_le limited _ _
  | stop => norm_num

variable {font} in
/-- The canvas grows with the steps. -/
theorem isExtentFor_canvas (limited : font.IsLimited) {count : Nat}
    (steps : activity.steps.length ≤ count) :
    IsExtentFor count (activity.canvas font).width ∧
      IsExtentFor count (activity.canvas font).height := by
  have some : (0 : Rat) ≤ count := Nat.cast_nonneg count
  have rows : (activity.steps.length : Rat) ≤ count := by exact_mod_cast steps
  have rowsSome : (0 : Rat) ≤ activity.steps.length := Nat.cast_nonneg _
  have wide : 400 ≤ (activity.canvas font).width := le_larger_left 400 _
  have widest : activity.widest font ≤ 2 ^ 58 := by
    refine largest_le (by norm_num) fun value member => ?_
    obtain ⟨node, inside, rfl⟩ := List.mem_map.mp member
    have half := activity.halfWidth_le_of_mem_placed limited inside
    linarith
  have narrow : (activity.canvas font).width ≤ 2 ^ 59 := by
    have rounded := Rat.ceil_lt (x := activity.widest font + 80)
    exact larger_le (by norm_num) (by linarith)
  refine ⟨⟨by linarith, by linarith⟩, ?_⟩
  simp only [canvas, stepSpacing]
  constructor
  · split <;> split <;> linarith
  · split <;> split <;> linarith

end DiagramSketch.Activity
