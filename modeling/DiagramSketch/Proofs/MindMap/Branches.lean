import DiagramSketch.Proofs.MindMap.Drawing
import DiagramSketch.Proofs.Number.Order
import DiagramSketch.Proofs.Scene.Recovery

/-!
# Branches go right and down

A branch leads from a parent to a node that is one level lower and in a later row, so that its line
goes strictly right and strictly down.  What a document says about it is rounded to double
precision.  This makes no difference to whole numbers of at most 53 bits; larger ones can become the
same, but they keep their order.
-/

namespace DiagramSketch.MindMap

open Number (Fits signedDigits)
open Xml (Element)

/-- A line between two points with whole coordinates. -/
structure Segment where
  left : Int
  top : Int
  right : Int
  bottom : Int
deriving DecidableEq, Repr

namespace Segment

/-- The line as a figure of a branch. -/
def figure (segment : Segment) : Figure :=
  .line ⟨segment.left, segment.top⟩ ⟨segment.right, segment.bottom⟩ { stroke := "#666" }

/-- The element of a document that has the coordinates of the line. -/
def element (segment : Segment) : Element :=
  .empty "line"
    [("x1", signedDigits segment.left), ("y1", signedDigits segment.top),
     ("x2", signedDigits segment.right), ("y2", signedDigits segment.bottom),
     ("stroke", "#666"), ("stroke-width", "2")]

/-- The line goes strictly right and strictly down. -/
structure Descends (segment : Segment) : Prop where
  right : segment.left < segment.right
  down : segment.top < segment.bottom

/-- The coordinates have at most 53 bits. -/
structure IsSmall (segment : Segment) : Prop where
  left : |segment.left| < 2 ^ 53
  top : |segment.top| < 2 ^ 53
  right : |segment.right| < 2 ^ 53
  bottom : |segment.bottom| < 2 ^ 53

/-- The coordinates of the other line are these ones, rounded to double precision. -/
structure IsRoundedTo (segment other : Segment) : Prop where
  left : Number.Binary64.nearest segment.left = other.left
  top : Number.Binary64.nearest segment.top = other.top
  right : Number.Binary64.nearest segment.right = other.right
  bottom : Number.Binary64.nearest segment.bottom = other.bottom

/-- The group shows the line, which goes strictly right and strictly down.  A document has the very
coordinates if they have at most 53 bits; others can become the same, but keep their order. -/
structure IsDrawnBy (segment : Segment) (group : Group) : Prop where
  figures : group.figures = [segment.figure]
  descends : segment.Descends
  written : segment.IsSmall →
    ∃ element, group.element = .ok element ∧ element.children = [segment.element]
  ordered : ∀ element, group.element = .ok element → ∃ shown : Segment,
    element.children = [shown.element] ∧ shown.left ≤ shown.right ∧ shown.top ≤ shown.bottom

variable {segment other : Segment}

theorem IsSmall.isRoundedTo (small : segment.IsSmall) : segment.IsRoundedTo segment :=
  ⟨Number.Binary64.nearest_intCast small.left, Number.Binary64.nearest_intCast small.top,
    Number.Binary64.nearest_intCast small.right, Number.Binary64.nearest_intCast small.bottom⟩

/-- Rounding does not turn a line back. -/
theorem Descends.of_isRoundedTo (descends : segment.Descends)
    (rounded : segment.IsRoundedTo other) : other.left ≤ other.right ∧ other.top ≤ other.bottom := by
  have right := Number.Binary64.nearest_monotone (Int.cast_le.mpr descends.right.le)
  have down := Number.Binary64.nearest_monotone (Int.cast_le.mpr descends.down.le)
  rw [rounded.left, rounded.right, Int.cast_le] at right
  rw [rounded.top, rounded.bottom, Int.cast_le] at down
  exact ⟨right, down⟩

/-! ## What is written about a line -/

/-- No coordinate is too large to be written. -/
structure IsSpelled (segment : Segment) : Prop where
  left : Fits (segment.left : Rat)
  top : Fits (segment.top : Rat)
  right : Fits (segment.right : Rat)
  bottom : Fits (segment.bottom : Rat)

theorem IsSmall.isSpelled (small : segment.IsSmall) : segment.IsSpelled :=
  ⟨Number.fits_intCast small.left, Number.fits_intCast small.top, Number.fits_intCast small.right,
    Number.fits_intCast small.bottom⟩

theorem exists_isRoundedTo (segment : Segment) : ∃ other, segment.IsRoundedTo other := by
  obtain ⟨left, leftRounded⟩ := Number.Binary64.exists_nearest_intCast segment.left
  obtain ⟨top, topRounded⟩ := Number.Binary64.exists_nearest_intCast segment.top
  obtain ⟨right, rightRounded⟩ := Number.Binary64.exists_nearest_intCast segment.right
  obtain ⟨bottom, bottomRounded⟩ := Number.Binary64.exists_nearest_intCast segment.bottom
  exact ⟨⟨left, top, right, bottom⟩, leftRounded, topRounded, rightRounded, bottomRounded⟩

/-- The values that the attributes of the line spell. -/
def values (segment : Segment) : Keyed Svg.Value :=
  Svg.lineValues (.ofRat segment.left) (.ofRat segment.top) (.ofRat segment.right)
    (.ofRat segment.bottom) ++ Svg.LineStyle.values { stroke := "#666" }

theorem written_number {name : Text} {value whole : Int} (fits : Fits (value : Rat))
    (rounded : Number.Binary64.nearest (value : Rat) = whole) :
    Svg.written name (.number (.ofRat value)) =
      .ok (some (Svg.hyphenated name, signedDigits whole)) := by
  have spelled := Number.formatRounded_intCast_eq_ok_iff.mpr ⟨fits, whole, rounded, rfl⟩
  rw [Svg.written, Svg.Value.spelled, spelled]
  rfl

theorem attributes_values (spelled : segment.IsSpelled) (rounded : segment.IsRoundedTo other) :
    Svg.attributes segment.values = .ok other.element.attributes := by
  have width : Svg.written "stroke_width" 2 = .ok (some ("stroke-width", "2")) := by
    decide +kernel
  refine bind_eq_ok_iff.mpr ⟨_, mapM_eq_ok_iff.mpr
    (.cons (written_number spelled.left rounded.left)
    (.cons (written_number spelled.top rounded.top)
    (.cons (written_number spelled.right rounded.right)
    (.cons (written_number spelled.bottom rounded.bottom)
    (.cons rfl (.cons width (.cons rfl (.cons rfl (.cons rfl .nil))))))))), rfl⟩

theorem fits_of_attributes_values {entries : List Xml.Attribute}
    (made : Svg.attributes segment.values = .ok entries) (name : Text) {value : Int}
    (member : (name, Svg.Value.number (.ofRat value)) ∈ segment.values) : Fits (value : Rat) := by
  have distinct : ["x1".toList, "y1".toList, "x2".toList, "y2".toList, "stroke".toList,
      "stroke-width".toList, "stroke-dasharray".toList, "marker-start".toList,
      "marker-end".toList].Nodup := by decide
  obtain ⟨text, spelled, -⟩ := map_eq_ok_iff.mp
    (Svg.spelled_eq_find?_attributes made distinct member)
  exact (Number.formatRounded_intCast_eq_ok_iff.mp spelled).1

/-- A line has an element exactly if its coordinates can be written, and then they are rounded. -/
theorem element_figure_eq_ok_iff {written : Element} : segment.figure.element = .ok written ↔
    segment.IsSpelled ∧ ∃ other, segment.IsRoundedTo other ∧ written = other.element := by
  have own : segment.figure.element = (Svg.attributes segment.values).bind fun attributes =>
    .ok (.empty "line" attributes) := rfl
  constructor
  · intro drawn
    have made := Figure.attributes_eq drawn
    change Svg.attributes segment.values = .ok written.attributes at made
    have spelled : segment.IsSpelled := by
      refine ⟨fits_of_attributes_values made "x1" ?_, fits_of_attributes_values made "y1" ?_,
        fits_of_attributes_values made "x2" ?_, fits_of_attributes_values made "y2" ?_⟩
      all_goals simp [values, Svg.lineValues]
    obtain ⟨other, rounded⟩ := segment.exists_isRoundedTo
    refine ⟨spelled, other, rounded, ?_⟩
    rw [own, attributes_values spelled rounded] at drawn
    exact (Except.ok.inj drawn).symm
  · rintro ⟨spelled, other, rounded, rfl⟩
    rw [own, attributes_values spelled rounded]
    rfl

theorem group_element_eq_ok_iff {group : Group} (figures : group.figures = [segment.figure])
    {element : Element} : group.element = .ok element ↔ segment.IsSpelled ∧
      ∃ other, segment.IsRoundedTo other ∧
        element = .enclosing "g" [("class", group.className)] [other.element] := by
  have own : group.element = segment.figure.element.bind fun child =>
      .ok (.enclosing "g" [("class", group.className)] [child]) := by
    rw [Group.element, figures, List.mapM_cons, List.mapM_nil]
    cases segment.figure.element <;> rfl
  rw [own, bind_eq_ok_iff]
  constructor
  · rintro ⟨child, drawn, same⟩
    obtain ⟨spelled, other, rounded, rfl⟩ := element_figure_eq_ok_iff.mp drawn
    exact ⟨spelled, other, rounded, (Except.ok.inj same).symm⟩
  · rintro ⟨spelled, other, rounded, rfl⟩
    exact ⟨_, element_figure_eq_ok_iff.mpr ⟨spelled, other, rounded, rfl⟩, rfl⟩

theorem Descends.isDrawnBy (descends : segment.Descends) {group : Group}
    (figures : group.figures = [segment.figure]) : segment.IsDrawnBy group where
  figures := figures
  descends := descends
  written small := ⟨_, (group_element_eq_ok_iff figures).mpr
    ⟨small.isSpelled, segment, small.isRoundedTo, rfl⟩, rfl⟩
  ordered element drawn := by
    obtain ⟨-, other, rounded, rfl⟩ := (group_element_eq_ok_iff figures).mp drawn
    exact ⟨other, rfl, descends.of_isRoundedTo rounded⟩

end Segment

/-! ## Branches -/

/-- The line from a node with a number to another one. -/
def segmentBetween (above : MindMapNode) (parent : Nat) (node : MindMapNode) (index : Nat) :
    Segment :=
  { left := 160 + above.level * 150, top := 100 + parent * 60
    right := 40 + node.level * 150, bottom := 100 + index * 60 }

theorem figures_branchGroup (above : MindMapNode) (parent : Nat) (node : MindMapNode)
    (index : Nat) : (branchGroup (centerOf above parent) (centerOf node index)).figures =
      [(segmentBetween above parent node index).figure] := by
  have first : (⟨(centerOf above parent).x + 60, (centerOf above parent).y⟩ : Point) =
      ⟨((160 + above.level * 150 : Int) : Rat), ((100 + parent * 60 : Int) : Rat)⟩ := by
    rw [centerOf, Point.mk.injEq]
    constructor <;> push_cast <;> ring
  have last : (⟨(centerOf node index).x - 60, (centerOf node index).y⟩ : Point) =
      ⟨((40 + node.level * 150 : Int) : Rat), ((100 + index * 60 : Int) : Rat)⟩ := by
    rw [centerOf, Point.mk.injEq]
    constructor <;> push_cast <;> ring
  exact congrArg₂ (fun first last => [Figure.line first last { stroke := "#666" }]) first last

theorem exists_isDrawnBy_of_mem {map : MindMap} {group : Group}
    (member : group ∈ map.drawing.relations) : ∃ segment : Segment, segment.IsDrawnBy group := by
  cases isBranch_of_mem member with
  | @between above node parent index _ _ earlier level =>
      refine ⟨segmentBetween above parent node index,
        Segment.Descends.isDrawnBy ⟨?_, ?_⟩ (figures_branchGroup above parent node index)⟩
      · change 160 + above.level * 150 < 40 + node.level * 150
        omega
      · change (100 + parent * 60 : Int) < 100 + index * 60
        omega

/-- The parents are those that one pass over the nodes finds with the last node of each level.  The
parent of a node is the last earlier node one level up, and there is none only on the first levels
and where no earlier node is one level up.  Following parents ends after at most as many steps as
there are levels above the node.  Later nodes do not change parents, and all branches go right and
down. -/
theorem parents_eq_pass_and_branches_descend (map : MindMap) :
    map.layout.parents = (map.nodes.foldl Pass.follow .start).parents ∧
    (∀ index node, map.nodes[index]? = some node →
      map.layout.parents[index]? = some (map.parent? index) ∧
      (∀ parent, map.parent? index = some parent ↔
        1 < node.level ∧ map.IsLastOn (node.level - 1) index parent) ∧
      (map.parent? index = none ↔
        node.level ≤ 1 ∨ ∀ earlier < index, map.levelAt? earlier ≠ some (node.level - 1)) ∧
      (∃ steps last top, map.ancestor? index steps = some last ∧ map.nodes[last]? = some top ∧
        top.level + steps = node.level ∧ (steps : Int) ≤ max 0 (node.level - 1) ∧
        map.parent? last = none) ∧
      ∀ more, (MindMap.mk (map.nodes ++ more)).parent? index = map.parent? index) ∧
    ∃ scene, map.scene = .ok scene ∧
      ∀ group ∈ scene.relations, ∃ segment : Segment, segment.IsDrawnBy group := by
  refine ⟨(Pass.isAfter_foldl map.nodes).parents.symm, fun index node place => ?_,
    ⟨_, scene_eq map, fun group => exists_isDrawnBy_of_mem⟩⟩
  have inside : index < map.nodes.length := (List.getElem?_eq_some_iff.mp place).1
  refine ⟨?_, fun parent => parent?_eq_some_iff place, parent?_eq_none_iff place,
    exists_ancestor place, fun more => parent?_append more inside⟩
  change ((List.range map.nodes.length).map map.parent?)[index]? = _
  rw [List.getElem?_map, List.getElem?_range inside]
  rfl

theorem parents_and_branches_of_scattered_levels :
    ∃ map : MindMap, map.nodes.map MindMapNode.level = [0, 1, 3, 2, 3, -1, 0] ∧
      map.layout.parents = [none, none, none, some 1, some 3, none, none] ∧ map.IsLastOn 2 4 3 ∧
      ∃ scene, map.scene = .ok scene ∧ scene.relations.length = 2 ∧
        ∀ group ∈ scene.relations, ∃ segment : Segment, segment.IsDrawnBy group := by
  let map : MindMap :=
    ⟨[⟨0, "a"⟩, ⟨1, "b"⟩, ⟨3, "c"⟩, ⟨2, "d"⟩, ⟨3, "e"⟩, ⟨-1, "f"⟩, ⟨0, "g"⟩]⟩
  obtain ⟨pass, each, scene, drawn, branches⟩ := parents_eq_pass_and_branches_descend map
  obtain ⟨-, isParent, -⟩ := each 4 ⟨3, "e"⟩ rfl
  refine ⟨map, rfl, pass.trans (by decide +kernel), ((isParent 3).mp (by decide +kernel)).2, scene,
    drawn, ?_, branches⟩
  cases drawn.symm.trans (scene_eq map)
  decide +kernel

/-- Two nodes so far to the right that the line of the branch between them is written as a vertical
one: both of its ends are rounded to the same column. -/
theorem branch_of_distant_levels_vertical :
    ∃ scene group element shown,
      (MindMap.mk [⟨10 ^ 17, "a"⟩, ⟨10 ^ 17 + 1, "b"⟩]).scene = .ok scene ∧
      scene.relations = [group] ∧ group.element = .ok element ∧
      element.children = [Segment.element shown] ∧
      shown = ⟨15 * 10 ^ 18, 100, 15 * 10 ^ 18, 160⟩ ∧ ¬ shown.Descends := by
  let map : MindMap := ⟨[⟨10 ^ 17, "a"⟩, ⟨10 ^ 17 + 1, "b"⟩]⟩
  have parents : map.parent? 0 = none ∧ map.parent? 1 = some 0 := by decide +kernel
  have relations : map.drawing.relations =
      [branchGroup (centerOf ⟨10 ^ 17, "a"⟩ 0) (centerOf ⟨10 ^ 17 + 1, "b"⟩ 1)] := by
    change [(⟨10 ^ 17, "a"⟩, 0), (⟨10 ^ 17 + 1, "b"⟩, 1)].filterMap
      (fun entry : MindMapNode × Nat => map.branchTo? entry.1 entry.2) = _
    simp only [List.filterMap_cons, List.filterMap_nil, branchTo?, parents.1, parents.2,
      Option.map_none, Option.map_some]
    rw [centerAt_eq (rfl : map.nodes[0]? = some ⟨10 ^ 17, "a"⟩)]
  let segment := segmentBetween ⟨10 ^ 17, "a"⟩ 0 ⟨10 ^ 17 + 1, "b"⟩ 1
  have spelled : segment.IsSpelled := by
    refine ⟨Number.fits_of_abs_le ?_, Number.fits_of_abs_le ?_, Number.fits_of_abs_le ?_,
      Number.fits_of_abs_le ?_⟩
    all_goals norm_num [segment, segmentBetween, abs_le]
  have rounded : segment.IsRoundedTo ⟨15 * 10 ^ 18, 100, 15 * 10 ^ 18, 160⟩ :=
    ⟨by decide +kernel, by decide +kernel, by decide +kernel, by decide +kernel⟩
  exact ⟨_, _, _, _, scene_eq map, relations, (Segment.group_element_eq_ok_iff
    (figures_branchGroup _ _ _ _)).mpr ⟨spelled, _, rounded, rfl⟩, rfl, rfl,
    fun descends => absurd descends.right (lt_irrefl _)⟩

end DiagramSketch.MindMap
