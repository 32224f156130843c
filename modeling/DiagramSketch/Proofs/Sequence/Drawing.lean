import DiagramSketch.Proofs.Scene.Subjects
import DiagramSketch.Sequence.Drawing

/-!
# What is drawn for a sequence

Every participant is shown, and every interaction between two participants, each in its own row.
Everything lies on the canvas.
-/

namespace DiagramSketch.Sequence

open Svg (Marker)

/-- The column of a participant. -/
def columnOf (sequence : Sequence) (name : Text) : Rat :=
  (sequence.layout.columns.find? name).getD 0

/-- Whether both ends of an interaction are participants. -/
def connects (sequence : Sequence) (interaction : Interaction) : Bool :=
  sequence.participants.contains interaction.source
    && sequence.participants.contains interaction.target

/-- The interactions between participants, each with the number of its row. -/
def connected (sequence : Sequence) : List (Interaction × Nat) :=
  sequence.interactions.zipIdx.filter fun (interaction, _) => sequence.connects interaction

/-- The arrow of an interaction in the row with the number. -/
def arrowOf (sequence : Sequence) (interaction : Interaction) (index : Nat) : Group :=
  interactionGroup interaction (sequence.columnOf interaction.source)
    (sequence.columnOf interaction.target) (rowAt index)

/-- What is drawn for a sequence. -/
def drawing (sequence : Sequence) : Scene :=
  { canvas := sequence.layout.canvas
    entities := sequence.participants.map fun name =>
      participantEntity (sequence.layout.canvas.height - 20) name (sequence.columnOf name)
    relations := sequence.connected.map fun (interaction, index) =>
      sequence.arrowOf interaction index }

variable (sequence : Sequence)

theorem mem_names_columns {name : Text} :
    name ∈ sequence.layout.columns.names ↔ name ∈ sequence.participants := by
  rw [layout, Keyed.mem_names_ofList, Keyed.map_fst_numbered]

theorem arrow?_eq (interaction : Interaction) (y : Rat) :
    sequence.layout.arrow? interaction y =
      if sequence.connects interaction then
        some (interactionGroup interaction (sequence.columnOf interaction.source)
          (sequence.columnOf interaction.target) y)
      else none := by
  refine Keyed.bind_find?_eq_ite ?_
    (fun sourceX targetX => interactionGroup interaction sourceX targetX y) 0 0
  rw [connects, Bool.and_eq_true, List.contains_iff_mem, List.contains_iff_mem,
    mem_names_columns, mem_names_columns]

theorem scene_eq : sequence.scene = .ok sequence.drawing := by
  have entities := mapM_eq_ok_map
    (fun name => (sequence.layout.columns.get name).map
      (participantEntity (sequence.layout.canvas.height - 20) name))
    (fun name =>
      participantEntity (sequence.layout.canvas.height - 20) name (sequence.columnOf name))
    sequence.participants fun name member => by
      rw [Keyed.get_eq_ok_getD (sequence.mem_names_columns.mpr member) 0]
      rfl
  have relations : ((sequence.interactions.zip sequence.layout.rows).filterMap
      fun entry => sequence.layout.arrow? entry.1 entry.2) =
        sequence.drawing.relations := by
    rw [layout, zip_map_range, List.filterMap_map]
    exact filterMap_eq_map_filter
      (fun entry => sequence.arrow?_eq entry.1 (rowAt entry.2)) _
  refine bind_eq_ok_iff.mpr ⟨_, entities, ?_⟩
  exact congrArg (fun relations : List Group => (Except.ok
    { canvas := sequence.layout.canvas, entities := sequence.drawing.entities, relations } :
      Except Fault Scene)) relations

/-! ## Soundness -/

theorem isChecked_participantEntity (bottom : Rat) (name : Text) (x : Rat) :
    (participantEntity bottom name x).toGroup.isChecked [.arrowhead] = true :=
  rfl

theorem isChecked_interactionGroup (interaction : Interaction) (sourceX targetX y : Rat) :
    (interactionGroup interaction sourceX targetX y).isChecked [.arrowhead] = true := by
  unfold interactionGroup
  cases interaction.isRightward <;> cases interaction.isDashed <;>
    cases interaction.message.isEmpty <;> rfl

theorem isSound_drawing : sequence.drawing.IsSound := by
  refine ⟨Scene.forall_groups.mpr ⟨fun entity member => ?_, fun group member => ?_⟩, List.nodup_nil⟩
  · obtain ⟨name, -, rfl⟩ := List.mem_map.mp member
    exact List.forall_mem_singleton.mpr
      (Group.isSound_of_isChecked (isChecked_participantEntity _ _ _))
  · obtain ⟨⟨interaction, index⟩, -, rfl⟩ := List.mem_map.mp member
    exact Group.isSound_of_isChecked (isChecked_interactionGroup _ _ _ _)

/-! ## The canvas -/

/-- A participant has the column with its number. -/
theorem exists_columnOf {name : Text} (member : name ∈ sequence.participants) :
    ∃ index, sequence.participants[index]? = some name ∧
      sequence.columnOf name = columnAt index := by
  have used := sequence.mem_names_columns.mpr member
  have found := Keyed.mem_of_find?_ofList (Keyed.find?_eq_some_getD used 0)
  obtain ⟨⟨other, index⟩, inside, same⟩ := List.mem_map.mp found
  have sameName : other = name := congrArg Prod.fst same
  have place : columnAt index = sequence.columnOf name := congrArg Prod.snd same
  exact ⟨index, sameName ▸ List.mem_zipIdx_iff_getElem?.mp inside, place.symm⟩

theorem columnOf_bounds {name : Text} (member : name ∈ sequence.participants) :
    100 ≤ sequence.columnOf name ∧ sequence.columnOf name + 50 ≤ sequence.layout.canvas.width := by
  obtain ⟨index, numbered, place⟩ := sequence.exists_columnOf member
  have below : (index : Rat) + 1 ≤ sequence.participants.length := by
    exact_mod_cast (List.getElem?_eq_some_iff.mp numbered).1
  have nonneg : (0 : Rat) ≤ index := Nat.cast_nonneg index
  have wide : (sequence.participants.length : Rat) * 150 ≤ sequence.layout.canvas.width :=
    le_larger_right 600 _
  rw [place, columnAt, columnSpacing]
  constructor
  · linarith
  · linarith

theorem rowAt_bounds {interaction : Interaction} {index : Nat}
    (member : (interaction, index) ∈ sequence.interactions.zipIdx) :
    100 ≤ rowAt index ∧ rowAt index + 20 ≤ sequence.layout.canvas.height := by
  have below : (index : Rat) + 1 ≤ sequence.interactions.length := by
    exact_mod_cast List.snd_lt_of_mem_zipIdx member
  have nonneg : (0 : Rat) ≤ index := Nat.cast_nonneg index
  simp only [rowAt, rowSpacing, layout]
  constructor
  · linarith
  · linarith

theorem canvas_bounds : 600 ≤ sequence.layout.canvas.width ∧
    200 ≤ sequence.layout.canvas.height := by
  have nonneg : (0 : Rat) ≤ sequence.interactions.length := Nat.cast_nonneg _
  refine ⟨le_larger_left 600 _, ?_⟩
  simp only [layout, rowSpacing]
  linarith

theorem isOn_participantEntity {canvas : Canvas} {x : Rat} (left : 100 ≤ x)
    (right : x + 50 ≤ canvas.width) (high : 200 ≤ canvas.height) (name : Text) :
    ∀ figure ∈ (participantEntity (canvas.height - 20) name x).figures,
      figure.shape.IsOn canvas := by
  refine List.forall_mem_cons.mpr ⟨Shape.isOn_rectangle ?_ ?_ ?_ ?_ ⟨?_, ?_⟩,
    List.forall_mem_cons.mpr ⟨Shape.isOn_label (Point.isOn_mk ?_ ?_ ?_ ?_) _,
      List.forall_mem_singleton.mpr
        (Shape.isOn_line (Point.isOn_mk ?_ ?_ ?_ ?_) (Point.isOn_mk ?_ ?_ ?_ ?_))⟩⟩
  all_goals linarith

theorem isOn_interactionGroup {canvas : Canvas} {sourceX targetX y : Rat}
    (source : 100 ≤ sourceX ∧ sourceX + 50 ≤ canvas.width)
    (target : 100 ≤ targetX ∧ targetX + 50 ≤ canvas.width)
    (row : 100 ≤ y ∧ y + 20 ≤ canvas.height) (interaction : Interaction) :
    ∀ figure ∈ (interactionGroup interaction sourceX targetX y).figures,
      figure.shape.IsOn canvas := by
  obtain ⟨sourceLeft, sourceRight⟩ := source
  obtain ⟨targetLeft, targetRight⟩ := target
  obtain ⟨top, bottom⟩ := row
  have arrow : (Shape.line ⟨sourceX, y⟩ ⟨targetX, y⟩).IsOn canvas := by
    refine Shape.isOn_line (Point.isOn_mk ?_ ?_ ?_ ?_) (Point.isOn_mk ?_ ?_ ?_ ?_)
    all_goals linarith
  have label : (Shape.label ⟨(sourceX + targetX) / 2, y - 10⟩ interaction.message).IsOn canvas := by
    refine Shape.isOn_label (Point.isOn_mk ?_ ?_ ?_ ?_) _
    all_goals linarith
  unfold interactionGroup
  dsimp only
  split
  · exact List.forall_mem_singleton.mpr arrow
  · exact List.forall_mem_cons.mpr ⟨arrow, List.forall_mem_singleton.mpr label⟩

theorem isOnCanvas_drawing : sequence.drawing.IsOnCanvas := by
  refine Scene.forall_groups.mpr ⟨fun entity member => ?_, fun group member => ?_⟩
  · obtain ⟨name, participates, rfl⟩ := List.mem_map.mp member
    obtain ⟨left, right⟩ := sequence.columnOf_bounds participates
    exact List.forall_mem_singleton.mpr
      (isOn_participantEntity left right sequence.canvas_bounds.2 name)
  · obtain ⟨⟨interaction, index⟩, inside, rfl⟩ := List.mem_map.mp member
    obtain ⟨numbered, connects⟩ := List.mem_filter.mp inside
    simp only [Sequence.connects, Bool.and_eq_true, List.contains_iff_mem] at connects
    exact isOn_interactionGroup (sequence.columnOf_bounds connects.1)
      (sequence.columnOf_bounds connects.2) (sequence.rowAt_bounds numbered) interaction

theorem isExtentFor_canvas {count : Nat} (participants : sequence.participants.length ≤ count)
    (interactions : sequence.interactions.length ≤ count) :
    IsExtentFor count sequence.layout.canvas.width ∧
      IsExtentFor count sequence.layout.canvas.height := by
  obtain ⟨wide, high⟩ := sequence.canvas_bounds
  have some : (0 : Rat) ≤ count := Nat.cast_nonneg count
  have columns : (sequence.participants.length : Rat) ≤ count := by exact_mod_cast participants
  have rows : (sequence.interactions.length : Rat) ≤ count := by exact_mod_cast interactions
  refine ⟨⟨by linarith, larger_le (by linarith) ?_⟩, ⟨by linarith, ?_⟩⟩
  · rw [columnSpacing]
    linarith
  · simp only [layout, rowSpacing]
    linarith

end DiagramSketch.Sequence
