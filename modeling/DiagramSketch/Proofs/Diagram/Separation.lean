import DiagramSketch.Font.Bundled
import DiagramSketch.Proofs.Activity.Lane
import DiagramSketch.Proofs.Components.Arrangement
import DiagramSketch.Proofs.Diagram.Anatomy
import DiagramSketch.Proofs.Diagram.Bounds
import DiagramSketch.Proofs.Diagram.Distinct
import DiagramSketch.Proofs.Diagram.Drawing

/-!
# Drawings without overlaps

Everything that is drawn for lines has a footprint of its own, because the names that places are
kept under are taken once.  Labels have no footprint, and neither have relations, which run across
whatever is between their ends.
-/

namespace DiagramSketch

/-! ## Sequences -/

namespace Sequence

variable {sequence : Sequence}

theorem pairwise_columnOf (distinct : sequence.participants.Nodup) :
    sequence.participants.Pairwise fun first second =>
      sequence.columnOf first + 150 ≤ sequence.columnOf second := by
  apply Keyed.pairwise_find?_numbered (fun x y : Rat => x + 150 ≤ y) columnAt distinct
  intro index other before
  have less : (index : Rat) + 1 ≤ other := by exact_mod_cast before
  rw [columnAt, columnAt, columnSpacing]
  linarith

theorem areIn_participantEntity {x bottom : Rat} (low : 60 ≤ bottom) (name : Text) :
    Shape.AreIn ⟨x - 40, 20, 80, bottom - 20⟩ (participantEntity bottom name x).outlines := by
  have outlines : (participantEntity bottom name x).outlines =
      [.rectangle ⟨x - 40, 20, 80, 40⟩, .line ⟨x, 60⟩ ⟨x, bottom⟩] := rfl
  rw [outlines, Shape.areIn_cons_iff, Shape.areIn_singleton_iff]
  constructor
  · apply Shape.isIn_rectangle
    case sized => constructor <;> norm_num
    all_goals linarith
  · apply Shape.isIn_line
    · apply Point.isIn_mk
      all_goals linarith
    · apply Point.isIn_mk
      all_goals linarith

theorem isSeparated_drawing (distinct : sequence.participants.Nodup) :
    sequence.drawing.IsSeparated := by
  have high := sequence.canvas_bounds.2
  apply Scene.IsSeparated.of_map rfl (fun _ => rfl) fun name =>
    ⟨sequence.columnOf name - 40, 20, 80, sequence.layout.canvas.height - 20 - 20⟩
  · intro name _
    apply areIn_participantEntity
    linarith
  · apply (pairwise_columnOf distinct).imp
    intro first second far
    apply Box.isApartFrom_of_right_lt
    change sequence.columnOf first - 40 + 80 < sequence.columnOf second - 40
    linarith

end Sequence

/-! ## Class models -/

namespace ClassModel

variable (font : Font) {model : ClassModel}

/-- Every box is to the right of those before it. -/
theorem pairwise_boxesFrom (x : Rat) (entries : List ClassEntry) :
    (boxesFrom x (entries.map fun entry => (entry, widthOf font entry))).Pairwise
      fun first second => first.2.right + boxGap ≤ second.2.x := by
  induction entries generalizing x with
  | nil => exact List.Pairwise.nil
  | cons entry entries induction =>
      apply List.pairwise_cons.mpr
      refine ⟨?_, induction _⟩
      rintro ⟨name, later⟩ member
      have place := (isInRow_of_mem font member).left
      change x + widthOf font entry + boxGap ≤ later.x
      linarith

theorem pairwise_boxOf (distinct : model.IsDistinct) : model.classes.Pairwise fun first second =>
    (model.boxOf font first.name).right + boxGap ≤ (model.boxOf font second.name).x := by
  unfold IsDistinct at distinct
  rw [← map_fst_boxes font] at distinct
  have found := Keyed.pairwise_find?_ofList (fun box other : Box => box.right + boxGap ≤ other.x)
    distinct (pairwise_boxesFrom font margin model.classes) ⟨0, 0, 0, 0⟩
  rw [map_fst_boxes, List.pairwise_map] at found
  exact found

theorem exists_mem_boxesFrom {x : Rat} {entries : List ClassEntry} {entry : ClassEntry}
    (member : entry ∈ entries) : ∃ left, (entry.name, ⟨left, margin, widthOf font entry,
      boxHeight entry⟩) ∈ boxesFrom x (entries.map fun entry => (entry, widthOf font entry)) := by
  induction entries generalizing x with
  | nil => cases member
  | cons first entries induction =>
      rcases List.mem_cons.mp member with rfl | later
      · exact ⟨x, List.mem_cons_self⟩
      · obtain ⟨left, listed⟩ := induction later
        exact ⟨left, List.mem_cons_of_mem _ listed⟩

/-- The box of a class is as wide and as high as its own members need. -/
theorem exists_boxOf_eq (distinct : model.IsDistinct) {entry : ClassEntry}
    (member : entry ∈ model.classes) :
    ∃ left, model.boxOf font entry.name = ⟨left, margin, widthOf font entry, boxHeight entry⟩ := by
  obtain ⟨left, listed⟩ := exists_mem_boxesFrom font member
  unfold IsDistinct at distinct
  rw [← map_fst_boxes font] at distinct
  have found : (model.plan font).boxes.find? entry.name = _ :=
    Keyed.find?_ofList_of_mem distinct listed
  refine ⟨left, ?_⟩
  rw [boxOf, found, Option.getD_some]

theorem height_boxOf (distinct : model.IsDistinct) {entry : ClassEntry}
    (member : entry ∈ model.classes) : (model.boxOf font entry.name).height = boxHeight entry := by
  obtain ⟨left, same⟩ := exists_boxOf_eq font distinct member
  rw [same]

theorem areIn_classEntity {box : Box} {entry : ClassEntry} (wide : 0 ≤ box.width)
    (high : box.height = boxHeight entry) : Shape.AreIn box (classEntity box entry).outlines := by
  have attributes : (0 : Rat) ≤ entry.attributes.length := Nat.cast_nonneg _
  have methods : (0 : Rat) ≤ entry.methods.length := Nat.cast_nonneg _
  have height : box.height = 80 + ((entry.attributes.length + entry.methods.length : Nat) : Rat) *
      20 := high
  have right : box.right = box.x + box.width := rfl
  push_cast at height
  have labels (y : Rat) (members : List Text) : ∀ figure ∈ memberLabels box y members,
      figure.shape.content? = none → figure.shape.IsIn box := by
    intro figure member outline
    obtain ⟨entry, -, rfl⟩ := List.mem_map.mp member
    cases outline
  have outline : (Shape.rectangle box).IsIn box := by
    apply Shape.isIn_rectangle_self
    constructor <;> linarith
  have header : (Shape.rectangle { box with height := 30 }).IsIn box := by
    apply Shape.isIn_rectangle
    case sized => exact ⟨wide, by norm_num⟩
    all_goals linarith
  have separator : (Shape.line ⟨box.x, box.y + 50 + entry.attributes.length * memberSpacing⟩
      ⟨box.right, box.y + 50 + entry.attributes.length * memberSpacing⟩).IsIn box := by
    rw [memberSpacing]
    apply Shape.isIn_line
    · apply Point.isIn_mk
      all_goals linarith
    · apply Point.isIn_mk
      all_goals linarith
  apply Entity.areIn_outlines rfl
  refine List.forall_mem_append.mpr ⟨List.forall_mem_append.mpr ⟨List.forall_mem_append.mpr
    ⟨?_, labels _ _⟩, ?_⟩, labels _ _⟩
  · refine List.forall_mem_cons.mpr ⟨fun _ => outline, List.forall_mem_cons.mpr
      ⟨fun _ => header, List.forall_mem_singleton.mpr ?_⟩⟩
    intro title
    cases title
  · split
    · exact List.forall_mem_singleton.mpr fun _ => separator
    · exact List.forall_mem_nil _

theorem isSeparated_drawing (distinct : model.IsDistinct) : (model.drawing font).IsSeparated := by
  apply Scene.IsSeparated.of_map rfl (fun _ => rfl) fun entry => model.boxOf font entry.name
  · intro entry member
    have place := model.isInRow_boxOf font (List.mem_map_of_mem member)
    apply areIn_classEntity _ (height_boxOf font distinct member)
    linarith [place.wide]
  · apply (pairwise_boxOf font distinct).imp
    intro first second far
    rw [boxGap] at far
    apply Box.isApartFrom_of_right_lt
    linarith

end ClassModel

/-! ## Use cases -/

namespace UseCases

variable {useCases : UseCases}

/-- Boxes in a column are apart if they are not as high as the column's spacing. -/
theorem pairwise_placeIn {names : List Text} (distinct : names.Nodup) {x spacing : Rat}
    (some : 0 ≤ spacing) (box : Point → Box)
    (low : ∀ upper lower : Point, upper.y + spacing ≤ lower.y →
      (box upper).bottom < (box lower).y) :
    names.Pairwise fun first second =>
      (box (placeIn (column x spacing names) first)).IsApartFrom
        (box (placeIn (column x spacing names) second)) := by
  apply Keyed.pairwise_find?_numbered (fun first second => (box first).IsApartFrom (box second))
    (fun index => ⟨x, 100 + index * spacing⟩) distinct
  intro index other before
  have less : (index : Rat) + 1 ≤ other := by exact_mod_cast before
  have rows := mul_le_mul_of_nonneg_right less some
  apply Box.isApartFrom_of_bottom_lt
  apply low
  dsimp only
  linarith

/-- The box around an actor, without the name. -/
def actorBox (head : Point) : Box :=
  ⟨head.x - 15, head.y - 15, 30, 80⟩

/-- The box around a use case. -/
def useCaseBox (center : Point) : Box :=
  ⟨center.x - 80, center.y - 30, 160, 60⟩

theorem areIn_actorEntity (name : Text) (head : Point) :
    Shape.AreIn (actorBox head) (actorEntity name head).outlines := by
  have outlines : (actorEntity name head).outlines =
      [.circle head 15, .line ⟨head.x, head.y + 15⟩ ⟨head.x, head.y + 45⟩,
        .line ⟨head.x - 15, head.y + 25⟩ ⟨head.x + 15, head.y + 25⟩,
        .line ⟨head.x, head.y + 45⟩ ⟨head.x - 10, head.y + 65⟩,
        .line ⟨head.x, head.y + 45⟩ ⟨head.x + 10, head.y + 65⟩] := rfl
  rw [outlines]
  simp only [Shape.areIn_cons_iff, Shape.areIn_nil, and_true]
  refine ⟨Shape.isIn_circle ?_ ?_ ?_ ?_ ?_, ?body, ?arms, ?left, ?right⟩
  case body | arms | left | right =>
    apply Shape.isIn_line
    · apply Point.isIn_mk
      all_goals linarith
    · apply Point.isIn_mk
      all_goals linarith
  all_goals linarith

theorem areIn_useCaseEntity (label : Text) (center : Point) :
    Shape.AreIn (useCaseBox center) (useCaseEntity label center).outlines := by
  apply Shape.areIn_singleton_iff.mpr
  apply Shape.isIn_ellipse
  case sized => constructor <;> norm_num
  all_goals linarith

theorem isSeparated_drawing (distinct : useCases.IsDistinct) : useCases.drawing.IsSeparated := by
  obtain ⟨actors, labels⟩ := distinct
  apply Scene.IsSeparated.of_plain
  · apply List.pairwise_append.mpr
    refine ⟨?_, ?_, ?_⟩
    · apply List.pairwise_map.mpr
      apply Shape.pairwise_areApart fun name => actorBox (placeIn useCases.layout.actors name)
      · intro name _
        exact areIn_actorEntity name _
      · apply pairwise_placeIn actors (by norm_num) actorBox
        intro upper lower far
        change upper.y - 15 + 80 < lower.y - 15
        linarith
    · apply List.pairwise_map.mpr
      apply Shape.pairwise_areApart fun label =>
        useCaseBox (placeIn useCases.layout.useCases label)
      · intro label _
        exact areIn_useCaseEntity label _
      · apply pairwise_placeIn labels (by norm_num) useCaseBox
        intro upper lower far
        change upper.y - 30 + 60 < lower.y - 30
        linarith
    · -- The actors are to the left of all use cases.
      intro entity member other otherMember
      obtain ⟨name, declared, rfl⟩ := List.mem_map.mp member
      obtain ⟨label, introduced, rfl⟩ := List.mem_map.mp otherMember
      apply Shape.areApart_of_areIn (areIn_actorEntity name _) (areIn_useCaseEntity label _)
      have head := (useCases.head_bounds declared).1
      have center := (useCases.center_bounds introduced).1
      apply Box.isApartFrom_of_right_lt
      change (placeIn useCases.layout.actors name).x - 15 + 30 <
        (placeIn useCases.layout.useCases label).x - 80
      linarith
  · refine List.forall_mem_append.mpr ⟨?_, ?_⟩
    · intro entity member
      obtain ⟨name, -, rfl⟩ := List.mem_map.mp member
      rfl
    · intro entity member
      obtain ⟨label, -, rfl⟩ := List.mem_map.mp member
      rfl

end UseCases

/-! ## Activities -/

namespace Activity

variable (font : Font) (activity : Activity)

/-- The box around a node on a lane. -/
def laneBox (centerX : Rat) (node : Node) : Box :=
  ⟨centerX - (node.halfWidth + 15), node.y - 20, (node.halfWidth + 15) * 2, 40⟩

theorem areIn_nodeEntity {node : Node} (half : 0 ≤ node.halfWidth) (centerX : Rat) :
    Shape.AreIn (laneBox centerX node) (nodeEntity centerX node).outlines := by
  have circle : (Shape.circle ⟨centerX, node.y⟩ 15).IsIn (laneBox centerX node) := by
    apply Shape.isIn_circle
    all_goals linarith
  have diamond : (Shape.polygon [⟨centerX, node.y - 20⟩, ⟨centerX + node.halfWidth, node.y⟩,
      ⟨centerX, node.y + 20⟩, ⟨centerX - node.halfWidth, node.y⟩]).IsIn
        (laneBox centerX node) := by
    refine List.forall_mem_cons.mpr ⟨Point.isIn_mk ?_ ?_ ?_ ?_, List.forall_mem_cons.mpr
      ⟨Point.isIn_mk ?_ ?_ ?_ ?_, List.forall_mem_cons.mpr ⟨Point.isIn_mk ?_ ?_ ?_ ?_,
        List.forall_mem_singleton.mpr (Point.isIn_mk ?_ ?_ ?_ ?_)⟩⟩⟩
    all_goals linarith
  have box : (Shape.rectangle ⟨centerX - node.halfWidth, node.y - 20, node.halfWidth * 2,
      40⟩).IsIn (laneBox centerX node) := by
    apply Shape.isIn_rectangle
    case sized => constructor <;> linarith
    all_goals linarith
  have both {figure label : Figure} (inside : figure.shape.IsIn (laneBox centerX node))
      (title : label.shape.content? ≠ none) : ∀ shown ∈ [figure, label],
        shown.shape.content? = none → shown.shape.IsIn (laneBox centerX node) :=
    List.forall_mem_cons.mpr ⟨fun _ => inside, List.forall_mem_singleton.mpr fun outline =>
      absurd outline title⟩
  apply Entity.areIn_outlines rfl
  unfold nodeEntity
  dsimp only
  cases node.role with
  | start => exact both circle (Option.some_ne_none _)
  | stop => exact both circle (Option.some_ne_none _)
  | decision => exact both diamond (Option.some_ne_none _)
  | action => exact both box (Option.some_ne_none _)

theorem isSeparated_drawing : (activity.drawing font).IsSeparated := by
  apply Scene.IsSeparated.of_map rfl (fun _ => rfl) (laneBox (activity.plan font).centerX)
  · intro node member
    exact areIn_nodeEntity (activity.placed_bounds font member).2.2 _
  · apply (activity.pairwise_placed font).imp
    intro upper lower far
    apply Box.isApartFrom_of_bottom_lt
    change upper.y - 20 + 40 < lower.y - 20
    linarith

end Activity

/-! ## Mind maps -/

namespace MindMap

/-- The box around a node. -/
def nodeBox (node : MindMapNode) (center : Point) : Box :=
  ⟨center.x - halfWidth node, center.y - 25, halfWidth node * 2, 50⟩

theorem areIn_nodeEntity {node : MindMapNode} (positive : 1 ≤ node.level) (center : Point) :
    Shape.AreIn (nodeBox node center) (nodeEntity node center).outlines := by
  have level : (1 : Rat) ≤ node.level := by exact_mod_cast positive
  have half : halfWidth node = 60 + node.level * 10 := rfl
  apply Shape.areIn_singleton_iff.mpr
  apply Shape.isIn_ellipse
  case sized => constructor <;> linarith
  all_goals linarith

theorem isSeparated_drawing {map : MindMap} (positive : ∀ node ∈ map.nodes, 1 ≤ node.level) :
    map.drawing.IsSeparated := by
  apply Scene.IsSeparated.of_map rfl (fun _ => rfl) fun entry =>
    nodeBox entry.1 (centerOf entry.1 entry.2)
  · rintro ⟨node, index⟩ member
    exact areIn_nodeEntity (positive node (List.fst_mem_of_mem_zipIdx member)) _
  · apply pairwise_zipIdx
    rintro ⟨node, index⟩ - ⟨next, other⟩ - before
    have less : (index : Rat) + 1 ≤ other := by exact_mod_cast before
    apply Box.isApartFrom_of_bottom_lt
    change 100 + (index : Rat) * 60 - 25 + 50 < 100 + (other : Rat) * 60 - 25
    linarith

end MindMap

/-! ## Schedules -/

namespace Schedule

variable {schedule : Schedule}

theorem outlines_headerEntity (width : Rat) : (headerEntity schedule width).outlines = [] := by
  unfold headerEntity
  dsimp only
  split <;> rfl

theorem areIn_taskEntity {task : Task} (forward : 0 ≤ task.days) (index : Nat) :
    Shape.AreIn (barOf task index) (taskEntity task (barOf task index)).outlines := by
  have nonneg : (0 : Rat) ≤ task.days := by exact_mod_cast forward
  have length : (barOf task index).width = task.days * 20 := rfl
  have height : (barOf task index).height = 30 := rfl
  apply Shape.areIn_singleton_iff.mpr
  apply Shape.isIn_rectangle_self
  constructor <;> linarith

theorem isSeparated_scene (forward : schedule.IsForward) : schedule.scene.IsSeparated := by
  apply Scene.IsSeparated.of_plain
  · rw [entities_eq]
    apply List.pairwise_cons.mpr
    constructor
    · intro entity _
      rw [outlines_headerEntity]
      exact List.forall_mem_nil _
    · apply List.pairwise_map.mpr
      apply Shape.pairwise_areApart fun entry => barOf entry.1 entry.2
      · rintro ⟨task, index⟩ member
        exact areIn_taskEntity (forward task (List.fst_mem_of_mem_zipIdx member)) index
      · apply pairwise_zipIdx
        rintro ⟨task, index⟩ - ⟨next, other⟩ - before
        have less : (index : Rat) + 1 ≤ other := by exact_mod_cast before
        apply Box.isApartFrom_of_bottom_lt
        change 80 + (index : Rat) * 50 + 30 < 80 + (other : Rat) * 50
        linarith
  · rw [entities_eq]
    refine List.forall_mem_cons.mpr ⟨rfl, ?_⟩
    intro entity member
    obtain ⟨entry, -, rfl⟩ := List.mem_map.mp member
    rfl

end Schedule

/-! ## All kinds -/

namespace Diagram

theorem isSeparated_drawing_of_read (font : Font) {lines : List Text} {kind : Kind}
    {diagram : Diagram} (success : read lines kind = .ok diagram) :
    (diagram.drawing font).IsSeparated := by
  cases kind with
  | sequence =>
      cases success
      exact Sequence.isSeparated_drawing (Sequence.nodup_participants_ofLines lines)
  | classes =>
      cases success
      exact ClassModel.isSeparated_drawing font (ClassModel.isDistinct_ofLines lines)
  | useCase =>
      cases success
      exact UseCases.isSeparated_drawing (UseCases.isDistinct_ofLines lines)
  | activity =>
      cases success
      exact Activity.isSeparated_drawing font _
  | component =>
      cases success
      exact Components.isSeparated_drawing (Components.isDistinct_ofLines lines).placed
  | mindMap =>
      cases success
      apply MindMap.isSeparated_drawing
      intro node member
      exact MindMap.level_pos_of_mem_ofLines member
  | gantt =>
      obtain ⟨schedule, readSchedule, rfl⟩ := map_eq_ok_iff.mp success
      exact Schedule.isSeparated_scene (Schedule.isBounded_ofLines readSchedule).forward
  | panel =>
      cases success
      apply Scene.IsSeparated.of_plain
      · exact List.pairwise_singleton _ _
      · exact List.forall_mem_singleton.mpr rfl

/-- Everything in a diagram that is read from lines is drawn once, no two things overlap, and the
components are arranged in and below their packages. -/
theorem isSeparated_of_read {font : Font} {lines : List Text} {kind : Kind} {diagram : Diagram}
    {scene : Scene} (success : read lines kind = .ok diagram)
    (drawn : diagram.scene font = .ok scene) :
    scene.entities.map Entity.exhibit = diagram.exhibits ∧ scene.IsSeparated ∧
      ∀ components, diagram = component components →
        ∃ layout, components.layout = .ok layout ∧ layout.IsArranged components := by
  obtain ⟨drawable, rfl⟩ := scene_eq_ok_iff.mp drawn
  refine ⟨diagram.exhibits_drawing font, isSeparated_drawing_of_read font success, ?_⟩
  rintro components rfl
  obtain rfl := kind_of_read success
  cases success
  refine ⟨_, Components.layout_of_isComplete drawable, ?_⟩
  exact Components.isArranged_plan (Components.isDistinct_ofLines lines).placed

/-- Two rows of components in one package, another package, and a row below both. -/
theorem isSeparated_two_packages :
    let lines : List Text :=
      ["package P \x7b", "[A] as a", "[B]", "[C]", "\x7d",
        "package Q \x7b", "[D]", "[A]", "\x7d", "[E]"]
    let diagram := component (.ofLines lines)
    read lines .component = .ok diagram ∧
      diagram.scene .bundled = .ok (diagram.drawing .bundled) ∧
      (diagram.drawing .bundled).entities.map Entity.exhibit = diagram.exhibits ∧
      diagram.exhibits.length = 3 ∧ (diagram.drawing .bundled).IsSeparated ∧
      ∃ layout, (Components.ofLines lines).layout = .ok layout ∧
        layout.IsArranged (.ofLines lines) ∧
        layout.packages = [⟨50, 50, 300, 200⟩, ⟨400, 50, 300, 200⟩] ∧
        layout.components.find? "C" = some ⟨70, 170, 120, 50⟩ ∧
        layout.components.find? "E" = some ⟨50, 300, 120, 50⟩ := by
  intro lines diagram
  have success : read lines .component = .ok diagram := rfl
  have complete := (Components.isStored_ofLines lines).complete
  have drawn : diagram.scene .bundled = .ok (diagram.drawing .bundled) :=
    scene_eq_ok_iff.mpr ⟨complete, rfl⟩
  obtain ⟨shown, separated, arranged⟩ := isSeparated_of_read success drawn
  obtain ⟨layout, laid, inside⟩ := arranged (.ofLines lines) rfl
  obtain ⟨-, rfl⟩ := Components.layout_eq_ok_iff.mp laid
  refine ⟨success, drawn, shown, by decide +kernel, separated, _, laid, inside, ?_, ?_, ?_⟩
  all_goals decide +kernel

end Diagram

end DiagramSketch
