import DiagramSketch.Proofs.Scene.Subjects
import DiagramSketch.UseCases.Drawing

/-!
# What is drawn for use cases

Every actor and every use case is shown, and every link between an actor and a use case.
Everything lies on the canvas.
-/

namespace DiagramSketch.UseCases

/-- Where names in a column are. A name that is in the column several times is where it is last. -/
def placeIn (places : Keyed Point) (name : Text) : Point :=
  (places.find? name).getD ⟨0, 0⟩

/-- Whether a link leads from an actor to a use case. -/
def connects (useCases : UseCases) (link : Link) : Bool :=
  useCases.actors.contains link.actor && useCases.labels.contains link.useCase

/-- The line of a link. -/
def lineOf (useCases : UseCases) (link : Link) : Group :=
  linkGroup (placeIn useCases.layout.actors link.actor)
    (placeIn useCases.layout.useCases link.useCase)

/-- What is drawn for use cases. -/
def drawing (useCases : UseCases) : Scene :=
  { canvas := useCases.layout.canvas
    entities :=
      (useCases.actors.map fun name => actorEntity name (placeIn useCases.layout.actors name))
      ++ useCases.labels.map fun label =>
        useCaseEntity label (placeIn useCases.layout.useCases label)
    relations := (useCases.links.filter useCases.connects).map useCases.lineOf }

variable (useCases : UseCases)

theorem mem_names_column {x spacing : Rat} {names : List Text} {name : Text} :
    name ∈ (column x spacing names).names ↔ name ∈ names := by
  rw [column, Keyed.mem_names_ofList,
    Keyed.map_fst_numbered names fun index => (⟨x, 100 + index * spacing⟩ : Point)]

theorem ends?_eq (link : Link) :
    (useCases.layout.ends? link).map (fun (head, center) => linkGroup head center) =
      if useCases.connects link then some (useCases.lineOf link) else none := by
  have used : useCases.connects link = true ↔ link.actor ∈ useCases.layout.actors.names ∧
      link.useCase ∈ useCases.layout.useCases.names := by
    rw [connects, Bool.and_eq_true, List.contains_iff_mem, List.contains_iff_mem]
    exact and_congr mem_names_column.symm mem_names_column.symm
  have resolved := Keyed.bind_find?_eq_ite used (fun head center => (head, center)) ⟨0, 0⟩ ⟨0, 0⟩
  refine (congrArg (Option.map fun (head, center) => linkGroup head center) resolved).trans ?_
  cases useCases.connects link with
  | true => rfl
  | false => rfl

theorem scene_eq : useCases.scene = .ok useCases.drawing := by
  have actors := mapM_eq_ok_map
    (fun name => (useCases.layout.actors.get name).map (actorEntity name))
    (fun name => actorEntity name (placeIn useCases.layout.actors name))
    useCases.actors fun name member => by
      have used : name ∈ useCases.layout.actors.names := mem_names_column.mpr member
      rw [Keyed.get_eq_ok_getD used ⟨0, 0⟩]
      rfl
  have labels := mapM_eq_ok_map
    (fun label => (useCases.layout.useCases.get label).map (useCaseEntity label))
    (fun label => useCaseEntity label (placeIn useCases.layout.useCases label))
    useCases.labels fun label member => by
      have used : label ∈ useCases.layout.useCases.names := mem_names_column.mpr member
      rw [Keyed.get_eq_ok_getD used ⟨0, 0⟩]
      rfl
  refine bind_eq_ok_iff.mpr ⟨_, actors, bind_eq_ok_iff.mpr ⟨_, labels, ?_⟩⟩
  exact congrArg (fun relations : List Group => (Except.ok
    { canvas := useCases.layout.canvas, entities := useCases.drawing.entities, relations } :
      Except Fault Scene)) (filterMap_eq_map_filter useCases.ends?_eq useCases.links)

/-! ## Soundness -/

theorem isChecked_actorEntity (name : Text) (head : Point) :
    (actorEntity name head).toGroup.isChecked [.arrowhead] = true :=
  rfl

theorem isChecked_useCaseEntity (label : Text) (center : Point) :
    (useCaseEntity label center).toGroup.isChecked [.arrowhead] = true :=
  rfl

theorem isChecked_linkGroup (head center : Point) :
    (linkGroup head center).isChecked [.arrowhead] = true :=
  rfl

theorem isSound_drawing : useCases.drawing.IsSound := by
  refine ⟨Scene.forall_groups.mpr ⟨List.forall_mem_append.mpr ⟨fun entity member => ?_,
    fun entity member => ?_⟩, fun group member => ?_⟩, List.nodup_nil⟩
  · obtain ⟨name, -, rfl⟩ := List.mem_map.mp member
    exact List.forall_mem_singleton.mpr (Group.isSound_of_isChecked (isChecked_actorEntity _ _))
  · obtain ⟨label, -, rfl⟩ := List.mem_map.mp member
    exact List.forall_mem_singleton.mpr (Group.isSound_of_isChecked (isChecked_useCaseEntity _ _))
  · obtain ⟨link, -, rfl⟩ := List.mem_map.mp member
    exact Group.isSound_of_isChecked (isChecked_linkGroup _ _)

/-! ## The canvas -/

theorem placeIn_column (x spacing : Rat) {names : List Text} {name : Text}
    (member : name ∈ names) : ∃ index < names.length,
      placeIn (column x spacing names) name = ⟨x, 100 + index * spacing⟩ := by
  have used : name ∈ (column x spacing names).names := mem_names_column.mpr member
  have found := Keyed.mem_of_find?_ofList (Keyed.find?_eq_some_getD used ⟨0, 0⟩)
  obtain ⟨⟨other, index⟩, inside, same⟩ := List.mem_map.mp found
  exact ⟨index, List.snd_lt_of_mem_zipIdx inside, (congrArg Prod.snd same).symm⟩

theorem canvas_bounds : useCases.layout.canvas.width = 800 ∧
    600 ≤ useCases.layout.canvas.height ∧
    (useCases.actors.length : Rat) * 100 + 200 ≤ useCases.layout.canvas.height ∧
    (useCases.labels.length : Rat) * 80 + 200 ≤ useCases.layout.canvas.height := by
  have high : 100 + larger (useCases.actors.length * 100) (useCases.labels.length * 80) + 100 ≤
      useCases.layout.canvas.height := le_larger_right 600 _
  have actors := le_larger_left (useCases.actors.length * 100) (useCases.labels.length * 80)
  have labels := le_larger_right (useCases.actors.length * 100) (useCases.labels.length * 80)
  refine ⟨rfl, le_larger_left 600 _, ?_, ?_⟩
  · linarith
  · linarith

theorem head_bounds {name : Text} (member : name ∈ useCases.actors) :
    (placeIn useCases.layout.actors name).x = 100 ∧
      100 ≤ (placeIn useCases.layout.actors name).y ∧
      (placeIn useCases.layout.actors name).y + 200 ≤ useCases.layout.canvas.height := by
  obtain ⟨index, less, place⟩ := placeIn_column 100 100 member
  have below : (index : Rat) + 1 ≤ useCases.actors.length := by exact_mod_cast less
  have nonneg : (0 : Rat) ≤ index := Nat.cast_nonneg index
  obtain ⟨-, -, high, -⟩ := useCases.canvas_bounds
  change placeIn useCases.layout.actors name = _ at place
  rw [place]
  exact ⟨rfl, by linarith, by linarith⟩

theorem center_bounds {label : Text} (member : label ∈ useCases.labels) :
    (placeIn useCases.layout.useCases label).x = 400 ∧
      100 ≤ (placeIn useCases.layout.useCases label).y ∧
      (placeIn useCases.layout.useCases label).y + 180 ≤ useCases.layout.canvas.height := by
  obtain ⟨index, less, place⟩ := placeIn_column 400 80 member
  have below : (index : Rat) + 1 ≤ useCases.labels.length := by exact_mod_cast less
  have nonneg : (0 : Rat) ≤ index := Nat.cast_nonneg index
  obtain ⟨-, -, -, high⟩ := useCases.canvas_bounds
  change placeIn useCases.layout.useCases label = _ at place
  rw [place]
  exact ⟨rfl, by linarith, by linarith⟩

theorem isOn_actorEntity {canvas : Canvas} {head : Point} (wide : canvas.width = 800)
    (place : head.x = 100 ∧ 100 ≤ head.y ∧ head.y + 200 ≤ canvas.height) (name : Text) :
    ∀ figure ∈ (actorEntity name head).figures, figure.shape.IsOn canvas := by
  obtain ⟨left, top, bottom⟩ := place
  have limb {x1 y1 x2 y2 : Rat} (first : Point.IsOn canvas ⟨x1, y1⟩)
      (last : Point.IsOn canvas ⟨x2, y2⟩) : (Shape.line ⟨x1, y1⟩ ⟨x2, y2⟩).IsOn canvas :=
    Shape.isOn_line first last
  refine List.forall_mem_cons.mpr ⟨Shape.isOn_circle ?_ ?_ ?_ ?_ ?_,
    List.forall_mem_cons.mpr ⟨limb (Point.isOn_mk ?_ ?_ ?_ ?_) (Point.isOn_mk ?_ ?_ ?_ ?_),
    List.forall_mem_cons.mpr ⟨limb (Point.isOn_mk ?_ ?_ ?_ ?_) (Point.isOn_mk ?_ ?_ ?_ ?_),
    List.forall_mem_cons.mpr ⟨limb (Point.isOn_mk ?_ ?_ ?_ ?_) (Point.isOn_mk ?_ ?_ ?_ ?_),
    List.forall_mem_cons.mpr ⟨limb (Point.isOn_mk ?_ ?_ ?_ ?_) (Point.isOn_mk ?_ ?_ ?_ ?_),
    List.forall_mem_singleton.mpr (Shape.isOn_label (Point.isOn_mk ?_ ?_ ?_ ?_) name)⟩⟩⟩⟩⟩
  all_goals linarith

theorem isOn_useCaseEntity {canvas : Canvas} {center : Point} (wide : canvas.width = 800)
    (place : center.x = 400 ∧ 100 ≤ center.y ∧ center.y + 180 ≤ canvas.height) (label : Text) :
    ∀ figure ∈ (useCaseEntity label center).figures, figure.shape.IsOn canvas := by
  obtain ⟨left, top, bottom⟩ := place
  refine List.forall_mem_cons.mpr ⟨Shape.isOn_ellipse ?_ ?_ ?_ ?_ ⟨?_, ?_⟩,
    List.forall_mem_singleton.mpr (Shape.isOn_label (Point.isOn_mk ?_ ?_ ?_ ?_) label)⟩
  all_goals linarith

theorem isOn_linkGroup {canvas : Canvas} {head center : Point} (wide : canvas.width = 800)
    (headPlace : head.x = 100 ∧ 100 ≤ head.y ∧ head.y + 200 ≤ canvas.height)
    (centerPlace : center.x = 400 ∧ 100 ≤ center.y ∧ center.y + 180 ≤ canvas.height) :
    ∀ figure ∈ (linkGroup head center).figures, figure.shape.IsOn canvas := by
  obtain ⟨headLeft, headTop, headBottom⟩ := headPlace
  obtain ⟨centerLeft, centerTop, centerBottom⟩ := centerPlace
  refine List.forall_mem_singleton.mpr
    (Shape.isOn_line (Point.isOn_mk ?_ ?_ ?_ ?_) (Point.isOn_mk ?_ ?_ ?_ ?_))
  all_goals linarith

theorem isOnCanvas_drawing : useCases.drawing.IsOnCanvas := by
  obtain ⟨wide, -⟩ := useCases.canvas_bounds
  refine Scene.forall_groups.mpr ⟨List.forall_mem_append.mpr ⟨fun entity member => ?_,
    fun entity member => ?_⟩, fun group member => ?_⟩
  · obtain ⟨name, declared, rfl⟩ := List.mem_map.mp member
    exact List.forall_mem_singleton.mpr
      (isOn_actorEntity wide (useCases.head_bounds declared) name)
  · obtain ⟨label, introduced, rfl⟩ := List.mem_map.mp member
    exact List.forall_mem_singleton.mpr
      (isOn_useCaseEntity wide (useCases.center_bounds introduced) label)
  · obtain ⟨link, inside, rfl⟩ := List.mem_map.mp member
    have connects := (List.mem_filter.mp inside).2
    simp only [UseCases.connects, Bool.and_eq_true, List.contains_iff_mem] at connects
    exact isOn_linkGroup wide (useCases.head_bounds connects.1)
      (useCases.center_bounds connects.2)

theorem isExtentFor_canvas {count : Nat} (actors : useCases.actors.length ≤ count)
    (labels : useCases.labels.length ≤ count) :
    IsExtentFor count useCases.layout.canvas.width ∧
      IsExtentFor count useCases.layout.canvas.height := by
  obtain ⟨wide, high, -⟩ := useCases.canvas_bounds
  have some : (0 : Rat) ≤ count := Nat.cast_nonneg count
  have heads : (useCases.actors.length : Rat) ≤ count := by exact_mod_cast actors
  have centers : (useCases.labels.length : Rat) ≤ count := by exact_mod_cast labels
  have longest : larger (useCases.actors.length * 100) (useCases.labels.length * 80) ≤
      count * 100 := larger_le (by linarith) (by linarith)
  refine ⟨⟨by linarith, by linarith⟩, ⟨by linarith, larger_le (by linarith) ?_⟩⟩
  linarith

end DiagramSketch.UseCases
