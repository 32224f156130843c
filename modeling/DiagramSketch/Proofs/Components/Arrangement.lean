import DiagramSketch.Proofs.Components.Drawing
import DiagramSketch.Proofs.Scene.Outlines

/-!
# How components are arranged

Packages stand side by side, and the components of a package in the cells of a grid inside it.  The
row of the components on their own begins below the highest package.  So no two boxes meet but those
of a package and of what is in it, as long as every component has one place only.
-/

namespace DiagramSketch.Components

/-- The boxes of components among those of packages.  The title of a package is 16 pixels high. -/
structure Layout.IsArranged (components : Components) (layout : Layout) : Prop where
  inside : ∀ (index : Nat) (package : Package), components.packages[index]? = some package →
    ∃ box, layout.packages[index]? = some box ∧
      ∀ name ∈ package.members, ∃ inner, layout.components.find? name = some inner ∧
        inner.IsInside box ∧ ∀ figure ∈ (packageEntity package box []).figures,
          ∀ anchor title, figure.shape = .label anchor title → anchor.y + 16 < inner.y
  apart : ∀ (index other : Nat) (package : Package) (box : Box), index ≠ other →
    components.packages[index]? = some package → layout.packages[other]? = some box →
      ∀ name ∈ package.members, ∃ inner, layout.components.find? name = some inner ∧
        inner.IsApartFrom box
  below : ∀ name ∈ components.standalone, ∃ inner, layout.components.find? name = some inner ∧
    ∀ box ∈ layout.packages, box.bottom < inner.y

/-! ## Boxes -/

theorem packageBox_isApartFrom {index other : Nat} (before : index < other)
    (package next : Package) :
    (packageBox index package).IsApartFrom (packageBox other next) := by
  have less : (index : Rat) + 1 ≤ other := by exact_mod_cast before
  apply Box.isApartFrom_of_right_lt
  change 50 + (index : Rat) * 350 + 300 < 50 + (other : Rat) * 350
  linarith

/-- Two cells of the grid are in different rows, or in different columns of one row. -/
theorem memberBox_isApartFrom (box : Box) {slot other : Nat} (before : slot < other) :
    (memberBox box slot).IsApartFrom (memberBox box other) := by
  by_cases above : slot / 2 < other / 2
  · have less : ((slot / 2 : Nat) : Rat) + 1 ≤ ((other / 2 : Nat) : Rat) := by
      exact_mod_cast above
    apply Box.isApartFrom_of_bottom_lt
    change box.y + 50 + ((slot / 2 : Nat) : Rat) * 70 + 50 <
      box.y + 50 + ((other / 2 : Nat) : Rat) * 70
    linarith
  · have beside : slot % 2 < other % 2 := by omega
    have less : ((slot % 2 : Nat) : Rat) + 1 ≤ ((other % 2 : Nat) : Rat) := by
      exact_mod_cast beside
    apply Box.isApartFrom_of_right_lt
    change box.x + 20 + ((slot % 2 : Nat) : Rat) * 130 + 120 <
      box.x + 20 + ((other % 2 : Nat) : Rat) * 130
    linarith

theorem rowBox_isApartFrom (y : Rat) {slot other : Nat} (before : slot < other) :
    (componentBox (50 + slot * 150) y).IsApartFrom (componentBox (50 + other * 150) y) := by
  have less : (slot : Rat) + 1 ≤ other := by exact_mod_cast before
  apply Box.isApartFrom_of_right_lt
  change 50 + (slot : Rat) * 150 + 120 < 50 + (other : Rat) * 150
  linarith

theorem memberBox_isInside (index : Nat) {package : Package} {slot : Nat}
    (inside : slot < package.members.length) :
    (memberBox (packageBox index package) slot).IsInside (packageBox index package) := by
  obtain ⟨⟨columnNonneg, column⟩, rowNonneg, row⟩ := slot_bounds inside
  have high : 60 + 70 * (package.rows : Rat) ≤ (packageBox index package).height :=
    le_larger_right _ _
  have edges : memberBox (packageBox index package) slot =
      ⟨(packageBox index package).x + 20 + (slot % 2 : Nat) * 130,
        (packageBox index package).y + 50 + (slot / 2 : Nat) * 70, 120, 50⟩ := rfl
  have wide : (packageBox index package).width = 300 := rfl
  rw [edges]
  constructor
  all_goals
    dsimp only [Box.right, Box.bottom]
    linarith

variable {components : Components}

theorem packageBox_bottom_lt {package : Package} {index : Nat}
    (member : (package, index) ∈ components.packages.zipIdx) :
    (packageBox index package).bottom < components.rowTop := by
  have low := components.tallest_low
  have tall := components.le_tallest (List.fst_mem_of_mem_zipIdx member)
  have height : larger packageMinHeight (60 + 70 * package.rows) ≤ components.tallest :=
    larger_le low tall
  have row : components.rowTop = packageTop + components.tallest + 50 := rfl
  change packageTop + larger packageMinHeight (60 + 70 * package.rows) < components.rowTop
  linarith

/-! ## Places -/

theorem mem_memberBoxes {package : Package} {index : Nat} {name : Text} {slot : Nat}
    (member : (package, index) ∈ components.packages.zipIdx)
    (inside : (name, slot) ∈ package.members.zipIdx) :
    (name, memberBox (packageBox index package) slot) ∈ components.memberBoxes :=
  List.mem_flatMap.mpr ⟨(package, index), member, List.mem_map_of_mem inside⟩

theorem exists_of_mem_memberBoxes {entry : Text × Box} (member : entry ∈ components.memberBoxes) :
    ∃ package index, (package, index) ∈ components.packages.zipIdx ∧
      entry.2.IsInside (packageBox index package) := by
  obtain ⟨⟨package, index⟩, listed, inside⟩ := List.mem_flatMap.mp member
  obtain ⟨⟨name, slot⟩, numbered, rfl⟩ := List.mem_map.mp inside
  exact ⟨package, index, listed, memberBox_isInside index (List.snd_lt_of_mem_zipIdx numbered)⟩

variable (components)

/-- The boxes of any two entries of the layout are apart. -/
theorem pairwise_boxes : (components.memberBoxes ++ components.rowBoxes).Pairwise
    fun first second => first.2.IsApartFrom second.2 := by
  refine List.pairwise_append.mpr ⟨List.pairwise_flatMap.mpr ⟨?_, ?_⟩, ?_, ?_⟩
  · rintro ⟨package, index⟩ -
    apply List.pairwise_map.mpr
    apply pairwise_zipIdx
    rintro ⟨first, slot⟩ - ⟨second, other⟩ - before
    exact memberBox_isApartFrom (packageBox index package) before
  · -- Components of different packages are as far apart as the packages.
    apply pairwise_zipIdx
    rintro ⟨package, index⟩ - ⟨next, other⟩ - before entry member entry' member'
    obtain ⟨⟨name, slot⟩, inside, rfl⟩ := List.mem_map.mp member
    obtain ⟨⟨name', slot'⟩, inside', rfl⟩ := List.mem_map.mp member'
    have packages := packageBox_isApartFrom before package next
    have inner := memberBox_isInside index (List.snd_lt_of_mem_zipIdx inside)
    have inner' := memberBox_isInside other (List.snd_lt_of_mem_zipIdx inside')
    exact ((packages.of_isInside inner).symm.of_isInside inner').symm
  · apply List.pairwise_map.mpr
    apply pairwise_zipIdx
    rintro ⟨first, slot⟩ - ⟨second, other⟩ - before
    exact rowBox_isApartFrom components.rowTop before
  · intro entry member entry' member'
    obtain ⟨package, index, listed, inside⟩ := exists_of_mem_memberBoxes member
    obtain ⟨⟨name, slot⟩, -, rfl⟩ := List.mem_map.mp member'
    apply Box.isApartFrom_of_bottom_lt
    exact inside.bottom.trans (packageBox_bottom_lt listed)

theorem getElem?_packages (index : Nat) :
    components.plan.packages[index]? = (components.packages[index]?).map (packageBox index) := by
  change (components.packages.zipIdx.map fun entry => packageBox entry.2 entry.1)[index]? = _
  rw [List.getElem?_map, List.getElem?_zipIdx, Option.map_map]
  simp [Function.comp_def]

variable {components} (distinct : components.placed.Nodup)

include distinct

theorem find?_boxes {name : Text} {box : Box}
    (member : (name, box) ∈ components.memberBoxes ++ components.rowBoxes) :
    components.boxes.find? name = some box := by
  rw [← map_fst_boxes] at distinct
  exact Keyed.find?_ofList_of_mem distinct member

theorem find?_of_mem_members {package : Package} {index : Nat} {name : Text}
    (member : (package, index) ∈ components.packages.zipIdx) (inside : name ∈ package.members) :
    ∃ slot < package.members.length, components.boxes.find? name =
      some (memberBox (packageBox index package) slot) := by
  obtain ⟨slot, place⟩ := List.getElem?_of_mem inside
  have numbered : (name, slot) ∈ package.members.zipIdx := List.mem_zipIdx_iff_getElem?.mpr place
  refine ⟨slot, List.snd_lt_of_mem_zipIdx numbered, find?_boxes distinct ?_⟩
  exact List.mem_append_left _ (mem_memberBoxes member numbered)

theorem find?_of_mem_standalone {name : Text} (member : name ∈ components.standalone) :
    ∃ slot < components.standalone.length, components.boxes.find? name =
      some (componentBox (50 + slot * 150) components.rowTop) := by
  obtain ⟨slot, place⟩ := List.getElem?_of_mem member
  have numbered : (name, slot) ∈ components.standalone.zipIdx :=
    List.mem_zipIdx_iff_getElem?.mpr place
  refine ⟨slot, List.snd_lt_of_mem_zipIdx numbered, find?_boxes distinct ?_⟩
  exact List.mem_append_right _ (List.mem_map_of_mem numbered)

theorem isArranged_plan : components.plan.IsArranged components := by
  constructor
  · intro index package listed
    refine ⟨packageBox index package, by rw [getElem?_packages, listed, Option.map_some], ?_⟩
    intro name inside
    obtain ⟨slot, less, reached⟩ :=
      find?_of_mem_members distinct (List.mem_zipIdx_iff_getElem?.mpr listed) inside
    refine ⟨_, reached, memberBox_isInside index less, ?_⟩
    intro figure member anchor title shape
    have row : (0 : Rat) ≤ ((slot / 2 : Nat) : Rat) := Nat.cast_nonneg _
    rcases List.mem_cons.mp member with rfl | last
    · cases shape
    · obtain rfl := List.mem_singleton.mp last
      cases shape
      change packageTop + 25 + 16 < packageTop + 50 + ((slot / 2 : Nat) : Rat) * 70
      linarith
  · intro index other package box different listed found name inside
    rw [getElem?_packages] at found
    obtain ⟨next, there, rfl⟩ := Option.map_eq_some_iff.mp found
    obtain ⟨slot, less, reached⟩ :=
      find?_of_mem_members distinct (List.mem_zipIdx_iff_getElem?.mpr listed) inside
    refine ⟨_, reached, Box.IsApartFrom.of_isInside ?_ (memberBox_isInside index less)⟩
    rcases Nat.lt_or_gt_of_ne different with before | after
    · exact packageBox_isApartFrom before package next
    · exact (packageBox_isApartFrom after next package).symm
  · intro name alone
    obtain ⟨slot, less, reached⟩ := find?_of_mem_standalone distinct alone
    refine ⟨_, reached, ?_⟩
    intro box member
    obtain ⟨⟨package, index⟩, listed, rfl⟩ := List.mem_map.mp member
    exact packageBox_bottom_lt listed

/-! ## The drawing -/

theorem pairwise_boxOf : components.placed.Pairwise fun first second =>
    (components.boxOf first).IsApartFrom (components.boxOf second) := by
  rw [← map_fst_boxes] at distinct ⊢
  exact Keyed.pairwise_find?_ofList Box.IsApartFrom distinct components.pairwise_boxes
    ⟨0, 0, 0, 0⟩

omit distinct in
theorem outlines_groups (fill stroke : Text) (names : List Text) :
    (names.map fun name => componentGroup fill stroke name (components.boxOf name)).flatMap
      Group.outlines = names.map fun name => .rectangle (components.boxOf name) := by
  rw [List.flatMap_map, List.map_eq_flatMap]
  rfl

theorem areIn_packageEntity {package : Package} {index : Nat}
    (member : (package, index) ∈ components.packages.zipIdx) :
    Shape.AreIn (packageBox index package) (packageEntity package (packageBox index package)
      (components.membersOf package)).outlines := by
  have outlines : (packageEntity package (packageBox index package)
      (components.membersOf package)).outlines = .rectangle (packageBox index package) ::
        package.members.map fun name => .rectangle (components.boxOf name) :=
    congrArg (Shape.rectangle (packageBox index package) :: ·) (outlines_groups _ _ _)
  rw [outlines]
  apply Shape.areIn_cons_iff.mpr
  constructor
  · have low : 200 ≤ larger packageMinHeight (60 + 70 * package.rows) := le_larger_left 200 _
    have wide : (packageBox index package).width = 300 := rfl
    have high : 200 ≤ (packageBox index package).height := low
    apply Shape.isIn_rectangle_self
    constructor <;> linarith
  · apply Shape.areIn_map_iff.mpr
    intro name inside
    obtain ⟨slot, less, reached⟩ := find?_of_mem_members distinct member inside
    have box : components.boxOf name = memberBox (packageBox index package) slot := by
      rw [boxOf, reached, Option.getD_some]
    obtain ⟨left, right, top, bottom⟩ := memberBox_isInside index less
    rw [box]
    apply Shape.isIn_rectangle left.le right.le top.le bottom.le
    change (0 : Rat) ≤ 120 ∧ (0 : Rat) ≤ 50
    norm_num

theorem areIn_standaloneEntity : Shape.AreIn
    ⟨50, components.rowTop, components.standalone.length * 150, 50⟩
    (standaloneEntity components.loners).outlines := by
  have outlines : (standaloneEntity components.loners).outlines =
      components.standalone.map fun name => .rectangle (components.boxOf name) :=
    outlines_groups _ _ _
  rw [outlines]
  apply Shape.areIn_map_iff.mpr
  intro name alone
  obtain ⟨slot, less, reached⟩ := find?_of_mem_standalone distinct alone
  have below : (slot : Rat) + 1 ≤ components.standalone.length := by exact_mod_cast less
  have nonneg : (0 : Rat) ≤ slot := Nat.cast_nonneg slot
  have box : components.boxOf name = componentBox (50 + slot * 150) components.rowTop := by
    rw [boxOf, reached, Option.getD_some]
  rw [box]
  apply Shape.isIn_rectangle
  case sized => constructor <;> norm_num
  all_goals linarith

omit distinct in
/-- Components with places of their own do not overlap. -/
theorem pairwise_componentGroup {names : List Text} (fill stroke : Text)
    (within : ∀ name ∈ names, name ∈ components.placed)
    (apart : names.Pairwise fun first second =>
      (components.boxOf first).IsApartFrom (components.boxOf second)) :
    (names.map fun name => componentGroup fill stroke name (components.boxOf name)).Pairwise
      fun first second => Shape.AreApart first.outlines second.outlines := by
  rw [List.pairwise_map]
  apply Shape.pairwise_areApart components.boxOf ?_ apart
  intro name member
  obtain ⟨-, -, -, -, width, height⟩ := components.isPlace_boxOf (within name member)
  apply Shape.areIn_singleton_iff.mpr
  apply Shape.isIn_rectangle_self
  constructor <;> linarith

theorem isSeparated_drawing : components.drawing.IsSeparated := by
  obtain ⟨packages, standalone, -⟩ := List.pairwise_append.mp (pairwise_boxOf distinct)
  constructor
  · apply List.pairwise_append.mpr
    refine ⟨?_, ?_, ?_⟩
    · rw [List.pairwise_map]
      apply Shape.pairwise_areApart fun entry => packageBox entry.2 entry.1
      · intro entry member
        exact areIn_packageEntity distinct member
      · apply pairwise_zipIdx
        intro entry _ next _ before
        exact packageBox_isApartFrom before entry.1 next.1
    · split
      · exact List.Pairwise.nil
      · exact List.pairwise_singleton _ _
    · intro entity member other alone
      obtain ⟨⟨package, index⟩, listed, rfl⟩ := List.mem_map.mp member
      split at alone
      · cases alone
      · obtain rfl := List.mem_singleton.mp alone
        apply Shape.areApart_of_areIn (areIn_packageEntity distinct listed)
          (areIn_standaloneEntity distinct)
        apply Box.isApartFrom_of_bottom_lt
        exact packageBox_bottom_lt listed
  · refine List.forall_mem_append.mpr ⟨?_, ?_⟩
    · intro entity member
      obtain ⟨⟨package, index⟩, listed, rfl⟩ := List.mem_map.mp member
      have inside := List.fst_mem_of_mem_zipIdx listed
      apply pairwise_componentGroup
      · intro name within
        exact List.mem_append_left _ (List.mem_flatMap.mpr ⟨package, inside, within⟩)
      · exact (List.pairwise_flatMap.mp packages).1 package inside
    · split
      · exact List.forall_mem_nil _
      · refine List.forall_mem_singleton.mpr ?_
        apply pairwise_componentGroup
        · intro name within
          exact List.mem_append_right _ within
        · exact standalone

end DiagramSketch.Components
