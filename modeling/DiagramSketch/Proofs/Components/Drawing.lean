import DiagramSketch.Components.Drawing
import DiagramSketch.Proofs.Scene.Subjects

/-!
# What is drawn for components

Every package is shown with the components in it, then the components on their own, and every
connection between two keys.  This is so where every key stands for a component that has a place,
and then everything lies on the canvas.
-/

namespace DiagramSketch.Components

open Svg (Marker)

/-- All components that have a place, in order. -/
def placed (components : Components) : List Text :=
  components.packages.flatMap Package.members ++ components.standalone

/-- Every key stands for a component that has a place. -/
def IsComplete (components : Components) : Prop :=
  ∀ entry ∈ components.registry, entry.2 ∈ components.placed

/-- The boxes of all components. -/
def boxes (components : Components) : Keyed Box :=
  Keyed.ofList (components.memberBoxes ++ components.rowBoxes)

/-- The box of a component. A component that is in several places is where it is last. -/
def boxOf (components : Components) (name : Text) : Box :=
  (components.boxes.find? name).getD ⟨0, 0, 0, 0⟩

/-- Where the row of the components on their own ends. -/
def rowRight (components : Components) : Rat :=
  ((components.rowBoxes.map fun (_, box) => box.right).getLast?).getD 0

/-- The canvas that the packages and the row fit on. -/
def canvas (components : Components) : Canvas :=
  let bottom :=
    if components.rowBoxes.isEmpty then packageTop + components.tallest
    else components.rowTop + 50
  { width :=
      larger (larger 800 (components.packages.length * packageSpacing))
        (components.rowRight + 50)
    height := larger 600 (bottom + 100) }

/-- The layout, where every key stands for a component that has a place. -/
def plan (components : Components) : Layout :=
  { canvas := components.canvas
    packages := components.packageBoxes
    components := components.boxes
    positions := components.registry.map fun (key, name) => (key, (components.boxOf name).center) }

/-- Whether both ends of a connection are keys. -/
def connects (components : Components) (connection : Connection) : Bool :=
  components.registry.names.contains connection.source
    && components.registry.names.contains connection.target

/-- The place that a key leads to. -/
def placeOf (components : Components) (key : Text) : Point :=
  (components.plan.positions.find? key).getD ⟨0, 0⟩

/-- The line of a connection. -/
def lineOf (components : Components) (connection : Connection) : Group :=
  connectionGroup connection (components.placeOf connection.source)
    (components.placeOf connection.target)

/-- The components of a package. -/
def membersOf (components : Components) (package : Package) : List Group :=
  package.members.map fun name =>
    componentGroup "#e8f5e8" "#4caf50" name (components.boxOf name)

/-- The components on their own. -/
def loners (components : Components) : List Group :=
  components.standalone.map fun name =>
    componentGroup "#e3f2fd" "#2196f3" name (components.boxOf name)

/-- What is drawn for components. -/
def drawing (components : Components) : Scene :=
  { canvas := components.canvas
    entities :=
      (components.packages.zipIdx.map fun (package, index) =>
        packageEntity package (packageBox index package) (components.membersOf package))
      ++ (if components.standalone.isEmpty then [] else [standaloneEntity components.loners])
    relations := (components.connections.filter components.connects).map components.lineOf
    omissions := (components.dropped components.plan).map omission }

variable (components : Components)

/-! ## The layout -/

/-- Every component has a box, in the order of the components. -/
theorem map_fst_boxes : (components.memberBoxes ++ components.rowBoxes).map Prod.fst =
    components.placed := by
  have members : components.memberBoxes.map Prod.fst =
      components.packages.flatMap Package.members := by
    have each : components.memberBoxes.map Prod.fst =
        components.packages.zipIdx.flatMap fun entry => entry.1.members := by
      rw [memberBoxes, List.map_flatMap]
      apply List.flatMap_congr
      intro entry _
      exact Keyed.map_fst_numbered entry.1.members (memberBox (packageBox entry.2 entry.1))
    rw [each, ← List.flatMap_map Prod.fst Package.members, List.zipIdx_map_fst]
  have row : components.rowBoxes.map Prod.fst = components.standalone :=
    Keyed.map_fst_numbered components.standalone fun slot =>
      componentBox (50 + slot * 150) components.rowTop
  rw [List.map_append, members, row, placed]

theorem mem_names_boxes {name : Text} :
    name ∈ components.boxes.names ↔ name ∈ components.placed := by
  rw [boxes, Keyed.mem_names_ofList, map_fst_boxes]

theorem find?_boxes_boxOf {name : Text} (member : name ∈ components.placed) :
    components.boxes.find? name = some (components.boxOf name) :=
  Keyed.find?_eq_some_getD (components.mem_names_boxes.mpr member) _

theorem get_boxes {name : Text} (member : name ∈ components.placed) :
    components.boxes.get name = .ok (components.boxOf name) :=
  Keyed.get_eq_ok_iff.mpr (components.find?_boxes_boxOf member)

variable {components}

theorem layout_of_isComplete (complete : components.IsComplete) :
    components.layout = .ok components.plan := by
  have positions := mapM_eq_ok_map
    (fun entry : Text × Text =>
      (components.boxes.get entry.2).map fun box => (entry.1, box.center))
    (fun entry => (entry.1, (components.boxOf entry.2).center)) components.registry
    fun entry member => by
      rw [components.get_boxes (complete entry member)]
      rfl
  exact bind_eq_ok_iff.mpr ⟨_, positions, rfl⟩

theorem layout_eq_ok_iff {layout : Layout} :
    components.layout = .ok layout ↔ components.IsComplete ∧ layout = components.plan := by
  constructor
  · intro success
    obtain ⟨positions, each, -⟩ := bind_eq_ok_iff.mp success
    have complete : components.IsComplete := by
      intro entry member
      obtain ⟨position, -, found⟩ := exists_right_of_mem (mapM_eq_ok_iff.mp each) member
      obtain ⟨box, got, -⟩ := map_eq_ok_iff.mp found
      refine components.mem_names_boxes.mp (Keyed.exists_find?_iff.mp ⟨box, ?_⟩)
      exact Keyed.get_eq_ok_iff.mp got
    rw [layout_of_isComplete complete] at success
    cases success
    exact ⟨complete, rfl⟩
  · rintro ⟨complete, rfl⟩
    exact layout_of_isComplete complete

variable (components)

theorem groups_eq {names : List Text} (within : ∀ name ∈ names, name ∈ components.placed)
    (fill stroke : Text) : components.plan.groups fill stroke names =
      .ok (names.map fun name => componentGroup fill stroke name (components.boxOf name)) := by
  refine mapM_eq_ok_map _ _ names fun name member => ?_
  have found : components.plan.components.get name = .ok (components.boxOf name) :=
    components.get_boxes (within name member)
  rw [found]
  rfl

theorem packageEntities_eq : components.plan.packageEntities components.packages =
    .ok (components.packages.zipIdx.map fun entry =>
      packageEntity entry.1 (packageBox entry.2 entry.1) (components.membersOf entry.1)) := by
  have beside : components.packages.zip components.packageBoxes =
      components.packages.zipIdx.map fun entry => (entry.1, packageBox entry.2 entry.1) := by
    have own : components.packages = components.packages.zipIdx.map Prod.fst :=
      (List.zipIdx_map_fst 0 components.packages).symm
    exact (congrArg (List.zip · components.packageBoxes) own).trans List.zip_map'
  change (components.packages.zip components.packageBoxes).mapM _ = _
  rw [beside, mapM_eq_ok_iff, List.forall₂_map_left_iff, List.forall₂_map_right_iff,
    List.forall₂_same]
  rintro ⟨package, index⟩ member
  refine map_eq_ok_iff.mpr ⟨_, components.groups_eq (fun name inside => ?_) _ _, rfl⟩
  exact List.mem_append_left _
    (List.mem_flatMap.mpr ⟨package, List.fst_mem_of_mem_zipIdx member, inside⟩)

theorem standaloneEntities_eq : components.plan.standaloneEntities components.standalone =
    .ok (if components.standalone.isEmpty then [] else [standaloneEntity components.loners]) := by
  unfold Layout.standaloneEntities
  split
  · rfl
  · exact map_eq_ok_iff.mpr ⟨_, components.groups_eq
      (fun name member => List.mem_append_right _ member) _ _, rfl⟩

theorem names_positions : components.plan.positions.names = components.registry.names := by
  change (components.registry.map _).map Prod.fst = components.registry.map Prod.fst
  rw [List.map_map]
  rfl

theorem find?_positions (key : Text) : components.plan.positions.find? key =
    (components.registry.find? key).map fun name => (components.boxOf name).center :=
  Keyed.find?_mapValues (fun name => (components.boxOf name).center) components.registry key

theorem ends?_eq (connection : Connection) :
    (components.plan.ends? connection).map
        (fun (first, last) => connectionGroup connection first last) =
      if components.connects connection then some (components.lineOf connection) else none := by
  have used : components.connects connection = true ↔
      connection.source ∈ components.plan.positions.names ∧
        connection.target ∈ components.plan.positions.names := by
    rw [connects, Bool.and_eq_true, List.contains_iff_mem, List.contains_iff_mem,
      names_positions]
  have resolved := Keyed.bind_find?_eq_ite used (fun first last => (first, last)) ⟨0, 0⟩ ⟨0, 0⟩
  refine (congrArg (Option.map fun (first, last) => connectionGroup connection first last)
    resolved).trans ?_
  cases components.connects connection with
  | true => rfl
  | false => rfl

theorem scene_plan : components.scene components.plan = .ok components.drawing := by
  refine bind_eq_ok_iff.mpr ⟨_, components.packageEntities_eq,
    bind_eq_ok_iff.mpr ⟨_, components.standaloneEntities_eq, ?_⟩⟩
  exact congrArg (fun relations : List Group => (Except.ok
    { canvas := components.canvas, entities := components.drawing.entities, relations
      omissions := components.drawing.omissions } : Except Fault Scene))
    (filterMap_eq_map_filter components.ends?_eq components.connections)

/-! ## Soundness -/

theorem isSound_componentGroup {fill stroke : Text}
    (fixed : Svg.isChecked [.arrowhead] ("fill", .text fill) = true ∧
      Svg.isChecked [.arrowhead] ("stroke", .text stroke) = true) (name : Text) (box : Box) :
    (componentGroup fill stroke name box).IsSound [.arrowhead] := by
  refine ⟨List.all_eq_true.mp rfl,
    Svg.refersTo_of_head? (fun starts => absurd (Option.some.inj starts) (by decide)), ?_⟩
  refine List.forall_mem_cons.mpr ⟨?_, List.forall_mem_singleton.mpr (Svg.isSound_of_all rfl)⟩
  exact List.forall_mem_cons.mpr ⟨Svg.isSound_of_isChecked fixed.1, List.forall_mem_cons.mpr
    ⟨Svg.isSound_of_isChecked fixed.2, Svg.isSound_of_all rfl⟩⟩

theorem isChecked_packageEntity (package : Package) (box : Box) (members : List Group) :
    (packageEntity package box members).toGroup.isChecked [.arrowhead] = true :=
  rfl

theorem isChecked_standaloneEntity (members : List Group) :
    (standaloneEntity members).toGroup.isChecked [.arrowhead] = true :=
  rfl

theorem isChecked_connectionGroup (connection : Connection) (first last : Point) :
    (connectionGroup connection first last).isChecked [.arrowhead] = true := by
  unfold connectionGroup
  cases connection.isDirected <;> cases connection.label.isEmpty <;> rfl

theorem isSound_drawing : components.drawing.IsSound := by
  refine ⟨Scene.forall_groups.mpr ⟨List.forall_mem_append.mpr ⟨fun entity member => ?_, ?_⟩,
    fun group member => ?_⟩, List.nodup_nil⟩
  · obtain ⟨⟨package, index⟩, -, rfl⟩ := List.mem_map.mp member
    refine List.forall_mem_cons.mpr
      ⟨Group.isSound_of_isChecked (isChecked_packageEntity _ _ _), fun group inside => ?_⟩
    obtain ⟨name, -, rfl⟩ := List.mem_map.mp inside
    exact isSound_componentGroup ⟨rfl, rfl⟩ _ _
  · split
    · exact fun entity none => by cases none
    · refine List.forall_mem_singleton.mpr (List.forall_mem_cons.mpr
        ⟨Group.isSound_of_isChecked (isChecked_standaloneEntity _), fun group inside => ?_⟩)
      obtain ⟨name, -, rfl⟩ := List.mem_map.mp inside
      exact isSound_componentGroup ⟨rfl, rfl⟩ _ _
  · obtain ⟨connection, -, rfl⟩ := List.mem_map.mp member
    exact Group.isSound_of_isChecked (isChecked_connectionGroup _ _ _)

/-! ## The canvas -/

theorem rowRight_eq : components.rowRight =
    if components.standalone.isEmpty then 0
    else 20 + (components.standalone.length : Rat) * 150 := by
  unfold rowRight rowBoxes
  rw [List.map_map, List.getLast?_map, List.getLast?_eq_getElem?, List.length_zipIdx,
    List.getElem?_zipIdx]
  cases row : components.standalone.reverse with
  | nil =>
      rw [List.reverse_eq_nil_iff] at row
      rw [row]
      rfl
  | cons name names =>
      have filled : components.standalone = names.reverse ++ [name] :=
        (List.reverse_eq_iff.mp row).trans List.reverse_cons
      rw [filled]
      simp [componentBox, Box.right]
      ring

theorem le_tallest {package : Package} (member : package ∈ components.packages) :
    60 + 70 * (package.rows : Rat) ≤ components.tallest := by
  obtain ⟨index, place⟩ := List.getElem?_of_mem member
  have listed : (packageBox index package).height ∈ components.packageBoxes.map Box.height := by
    refine List.mem_map.mpr ⟨_, List.mem_map.mpr ⟨(package, index), ?_, rfl⟩, rfl⟩
    exact List.mem_zipIdx_iff_getElem?.mpr place
  have below : (packageBox index package).height ≤ components.tallest :=
    le_largestOr packageMinHeight listed
  exact (le_larger_right _ _).trans below

/-- The highest package is one of the packages, unless there is none. -/
theorem tallest_spec (holds : Rat → Prop) (none : holds packageMinHeight)
    (each : ∀ package ∈ components.packages,
      holds (larger packageMinHeight (60 + 70 * package.rows))) : holds components.tallest := by
  apply largestOr_spec holds none
  intro height member
  obtain ⟨box, listed, rfl⟩ := List.mem_map.mp member
  obtain ⟨⟨package, index⟩, inside, rfl⟩ := List.mem_map.mp listed
  exact each package (List.fst_mem_of_mem_zipIdx inside)

theorem tallest_low : 200 ≤ components.tallest :=
  components.tallest_spec (200 ≤ ·) (le_refl 200) fun _ _ => le_larger_left 200 _

theorem tallest_le {count : Nat}
    (members : ∀ package ∈ components.packages, package.members.length ≤ count) :
    components.tallest ≤ 200 + 70 * (count : Rat) := by
  have some : (0 : Rat) ≤ count := Nat.cast_nonneg count
  refine components.tallest_spec (· ≤ 200 + 70 * (count : Rat)) ?_
    fun package member => larger_le ?_ ?_
  · rw [packageMinHeight]
    linarith
  · rw [packageMinHeight]
    linarith
  · have rows : package.rows ≤ count + 1 := by
      have few := members package member
      unfold Package.rows
      omega
    have cast : (package.rows : Rat) ≤ count + 1 := by exact_mod_cast rows
    linarith

/-- Where a component's box can be: far enough from the edges, and as large as all others. -/
structure IsPlace (canvas : Canvas) (box : Box) : Prop where
  left : 50 ≤ box.x
  right : box.x + 150 ≤ canvas.width
  top : 50 ≤ box.y
  bottom : box.y + 50 ≤ canvas.height
  sized : box.width = 120 ∧ box.height = 50

theorem canvas_bounds : 800 ≤ components.canvas.width ∧
    (components.packages.length : Rat) * 350 ≤ components.canvas.width ∧
    components.rowRight + 50 ≤ components.canvas.width ∧
    150 + components.tallest ≤ components.canvas.height ∧
    (components.standalone ≠ [] → 250 + components.tallest ≤ components.canvas.height) := by
  have wide : larger 800 (components.packages.length * packageSpacing) ≤ components.canvas.width :=
    le_larger_left _ _
  have top : packageTop = 50 := rfl
  have row : components.rowTop = packageTop + components.tallest + 50 := rfl
  have high : (if components.rowBoxes.isEmpty then packageTop + components.tallest
      else components.rowTop + 50) + 100 ≤ components.canvas.height := le_larger_right _ _
  refine ⟨(le_larger_left _ _).trans wide, (le_larger_right _ _).trans wide,
    le_larger_right _ _, ?_, fun filled => ?_⟩
  · split at high
    · linarith
    · linarith
  · have shown : ¬ components.rowBoxes.isEmpty := by
      simpa [rowBoxes] using filled
    rw [if_neg shown] at high
    linarith

/-- A slot of a package lies in one of two columns and in one of the rows of the package. -/
theorem slot_bounds {package : Package} {slot : Nat} (inside : slot < package.members.length) :
    (0 ≤ ((slot % 2 : Nat) : Rat) ∧ ((slot % 2 : Nat) : Rat) ≤ 1) ∧
      0 ≤ ((slot / 2 : Nat) : Rat) ∧ ((slot / 2 : Nat) : Rat) + 1 ≤ package.rows := by
  have column : slot % 2 ≤ 1 := Nat.le_of_lt_succ (Nat.mod_lt slot two_pos)
  have row : slot / 2 + 1 ≤ package.rows := by
    unfold Package.rows
    omega
  refine ⟨⟨Nat.cast_nonneg _, ?_⟩, Nat.cast_nonneg _, ?_⟩
  · exact_mod_cast column
  · exact_mod_cast row

theorem isPlace_memberBox {package : Package} {index slot : Nat}
    (member : (package, index) ∈ components.packages.zipIdx)
    (inside : slot < package.members.length) :
    IsPlace components.canvas (memberBox (packageBox index package) slot) := by
  obtain ⟨-, wide, -, high, -⟩ := components.canvas_bounds
  have tall := components.le_tallest (List.fst_mem_of_mem_zipIdx member)
  have below : (index : Rat) + 1 ≤ components.packages.length := by
    exact_mod_cast List.snd_lt_of_mem_zipIdx member
  have packageNonneg : (0 : Rat) ≤ index := Nat.cast_nonneg index
  obtain ⟨⟨columnNonneg, column⟩, rowNonneg, row⟩ := slot_bounds inside
  have place : memberBox (packageBox index package) slot =
      ⟨50 + index * 350 + 20 + (slot % 2 : Nat) * 130, 50 + 50 + (slot / 2 : Nat) * 70, 120, 50⟩ :=
    rfl
  rw [place]
  constructor
  case sized => exact ⟨rfl, rfl⟩
  all_goals
    dsimp only
    linarith

theorem isPlace_rowBox {slot : Nat} (inside : slot < components.standalone.length) :
    IsPlace components.canvas (componentBox (50 + slot * 150) components.rowTop) := by
  have filled : components.standalone ≠ [] := List.ne_nil_of_length_pos (by omega)
  obtain ⟨-, -, wide, -, high⟩ := components.canvas_bounds
  have room := high filled
  have tall := components.tallest_low
  have shown : ¬ components.standalone.isEmpty := by simpa using filled
  rw [rowRight_eq, if_neg shown] at wide
  have below : (slot : Rat) + 1 ≤ components.standalone.length := by exact_mod_cast inside
  have nonneg : (0 : Rat) ≤ slot := Nat.cast_nonneg slot
  have row : components.rowTop = 50 + components.tallest + 50 := rfl
  constructor
  case sized => exact ⟨rfl, rfl⟩
  all_goals
    simp only [componentBox]
    linarith

theorem isPlace_boxOf {name : Text} (member : name ∈ components.placed) :
    IsPlace components.canvas (components.boxOf name) := by
  rcases List.mem_append.mp
    (Keyed.mem_of_find?_ofList (components.find?_boxes_boxOf member)) with inner | row
  · obtain ⟨⟨package, index⟩, inside, listed⟩ := List.mem_flatMap.mp inner
    obtain ⟨⟨other, slot⟩, slotInside, same⟩ := List.mem_map.mp listed
    have box : memberBox (packageBox index package) slot = components.boxOf name :=
      congrArg Prod.snd same
    rw [← box]
    exact components.isPlace_memberBox inside (List.snd_lt_of_mem_zipIdx slotInside)
  · obtain ⟨⟨other, slot⟩, slotInside, same⟩ := List.mem_map.mp row
    have box : componentBox (50 + slot * 150) components.rowTop = components.boxOf name :=
      congrArg Prod.snd same
    rw [← box]
    exact components.isPlace_rowBox (List.snd_lt_of_mem_zipIdx slotInside)

theorem isOn_componentGroup {canvas : Canvas} {box : Box} (place : IsPlace canvas box)
    (fill stroke name : Text) :
    ∀ figure ∈ (componentGroup fill stroke name box).figures, figure.shape.IsOn canvas := by
  obtain ⟨left, right, top, bottom, width, height⟩ := place
  have middle : box.center.x = box.x + box.width / 2 := rfl
  refine List.forall_mem_cons.mpr ⟨Shape.isOn_rectangle ?_ ?_ ?_ ?_ ⟨?_, ?_⟩,
    List.forall_mem_singleton.mpr (Shape.isOn_label (Point.isOn_mk ?_ ?_ ?_ ?_) _)⟩
  all_goals linarith

theorem isOn_packageEntity {package : Package} {index : Nat} (members : List Group)
    (member : (package, index) ∈ components.packages.zipIdx) :
    ∀ figure ∈ (packageEntity package (packageBox index package) members).figures,
      figure.shape.IsOn components.canvas := by
  obtain ⟨-, wide, -, high, -⟩ := components.canvas_bounds
  have below : (index : Rat) + 1 ≤ components.packages.length := by
    exact_mod_cast List.snd_lt_of_mem_zipIdx member
  have nonneg : (0 : Rat) ≤ index := Nat.cast_nonneg index
  have low := components.tallest_low
  have least : 200 ≤ larger packageMinHeight (60 + 70 * package.rows) := le_larger_left 200 _
  have tall : larger packageMinHeight (60 + 70 * package.rows) ≤ components.tallest :=
    larger_le low (components.le_tallest (List.fst_mem_of_mem_zipIdx member))
  have place : packageBox index package =
      ⟨50 + index * 350, 50, 300, larger packageMinHeight (60 + 70 * package.rows)⟩ := rfl
  rw [place]
  refine List.forall_mem_cons.mpr ⟨?_, List.forall_mem_singleton.mpr ?_⟩
  · refine Shape.isOn_rectangle ?_ ?_ ?_ ?_ ⟨?_, ?_⟩
    all_goals linarith
  · refine Shape.isOn_label (Point.isOn_mk ?_ ?_ ?_ ?_) _
    all_goals
      dsimp only
      linarith

theorem placeOf_bounds (complete : components.IsComplete) {key : Text}
    (used : key ∈ components.registry.names) :
    (50 ≤ (components.placeOf key).x ∧
      (components.placeOf key).x + 50 ≤ components.canvas.width) ∧
    50 ≤ (components.placeOf key).y ∧ (components.placeOf key).y ≤ components.canvas.height := by
  obtain ⟨name, registered⟩ := Keyed.exists_find?_iff.mpr used
  have center : (components.boxOf name).center = components.placeOf key := by
    rw [placeOf, find?_positions, registered, Option.map_some, Option.getD_some]
  obtain ⟨left, right, top, bottom, width, height⟩ :=
    components.isPlace_boxOf (complete _ (Keyed.mem_of_find? registered))
  have across : (components.boxOf name).center.x =
    (components.boxOf name).x + (components.boxOf name).width / 2 := rfl
  have down : (components.boxOf name).center.y =
    (components.boxOf name).y + (components.boxOf name).height / 2 := rfl
  rw [← center]
  refine ⟨⟨?_, ?_⟩, ?_, ?_⟩
  all_goals linarith

theorem isOn_connectionGroup {canvas : Canvas} {first last : Point}
    (firstPlace : (50 ≤ first.x ∧ first.x + 50 ≤ canvas.width) ∧
      50 ≤ first.y ∧ first.y ≤ canvas.height)
    (lastPlace : (50 ≤ last.x ∧ last.x + 50 ≤ canvas.width) ∧
      50 ≤ last.y ∧ last.y ≤ canvas.height) (connection : Connection) :
    ∀ figure ∈ (connectionGroup connection first last).figures, figure.shape.IsOn canvas := by
  obtain ⟨⟨firstLeft, firstRight⟩, firstTop, firstBottom⟩ := firstPlace
  obtain ⟨⟨lastLeft, lastRight⟩, lastTop, lastBottom⟩ := lastPlace
  have arrow : (Shape.line first last).IsOn canvas := by
    refine Shape.isOn_line (Point.isOn_mk ?_ ?_ ?_ ?_) (Point.isOn_mk ?_ ?_ ?_ ?_)
    all_goals linarith
  unfold connectionGroup
  dsimp only
  split
  · exact List.forall_mem_singleton.mpr arrow
  · refine List.forall_mem_cons.mpr ⟨arrow, List.forall_mem_singleton.mpr
      (Shape.isOn_label (Point.isOn_mk ?_ ?_ ?_ ?_) _)⟩
    all_goals linarith

theorem isOnCanvas_drawing (complete : components.IsComplete) :
    components.drawing.IsOnCanvas := by
  change ∀ group ∈ components.drawing.groups, ∀ figure ∈ group.figures,
    figure.shape.IsOn components.canvas
  refine Scene.forall_groups.mpr ⟨List.forall_mem_append.mpr ⟨fun entity member => ?_, ?_⟩,
    fun group member => ?_⟩
  · obtain ⟨⟨package, index⟩, inside, rfl⟩ := List.mem_map.mp member
    refine List.forall_mem_cons.mpr ⟨components.isOn_packageEntity _ inside, fun group within => ?_⟩
    obtain ⟨name, listed, rfl⟩ := List.mem_map.mp within
    refine isOn_componentGroup (components.isPlace_boxOf (List.mem_append_left _ ?_)) _ _ _
    exact List.mem_flatMap.mpr ⟨package, List.fst_mem_of_mem_zipIdx inside, listed⟩
  · split
    · exact fun entity none => by cases none
    · refine List.forall_mem_singleton.mpr (List.forall_mem_cons.mpr
        ⟨List.forall_mem_nil _, fun group within => ?_⟩)
      obtain ⟨name, listed, rfl⟩ := List.mem_map.mp within
      exact isOn_componentGroup
        (components.isPlace_boxOf (List.mem_append_right _ listed)) _ _ _
  · obtain ⟨connection, inside, rfl⟩ := List.mem_map.mp member
    have ends := (List.mem_filter.mp inside).2
    simp only [connects, Bool.and_eq_true, List.contains_iff_mem] at ends
    exact isOn_connectionGroup (components.placeOf_bounds complete ends.1)
      (components.placeOf_bounds complete ends.2) connection

theorem isExtentFor_canvas {count : Nat} (packages : components.packages.length ≤ count)
    (members : ∀ package ∈ components.packages, package.members.length ≤ count)
    (standalone : components.standalone.length ≤ count) :
    IsExtentFor count components.canvas.width ∧ IsExtentFor count components.canvas.height := by
  obtain ⟨wide, -, -, high, -⟩ := components.canvas_bounds
  have some : (0 : Rat) ≤ count := Nat.cast_nonneg count
  have columns : (components.packages.length : Rat) ≤ count := by exact_mod_cast packages
  have slots : (components.standalone.length : Rat) ≤ count := by exact_mod_cast standalone
  have low := components.tallest_low
  have tall := components.tallest_le members
  have row : components.rowTop = 50 + components.tallest + 50 := rfl
  have top : packageTop = 50 := rfl
  refine ⟨⟨by linarith, larger_le (larger_le (by linarith) ?_) ?_⟩,
    ⟨by linarith, larger_le (by linarith) ?_⟩⟩
  · rw [packageSpacing]
    linarith
  · rw [rowRight_eq]
    split
    · linarith
    · linarith
  · split
    · linarith
    · linarith

end DiagramSketch.Components
