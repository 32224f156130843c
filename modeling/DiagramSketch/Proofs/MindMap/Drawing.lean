import DiagramSketch.MindMap.Drawing
import DiagramSketch.Proofs.MindMap.Ancestry
import DiagramSketch.Proofs.Scene.Subjects

/-!
# What is drawn for a mind map

Every node is shown, and a branch to every node that has a parent.  Where all levels are positive,
as they are in every map that is read, everything lies on the canvas.
-/

namespace DiagramSketch.MindMap

open Xml (IsLegalText)

/-- Where the node with the number is. -/
def centerAt (map : MindMap) (index : Nat) : Point :=
  (map.centers[index]?).getD ⟨0, 0⟩

/-- The branch to a node with the number, if it has a parent. -/
def branchTo? (map : MindMap) (node : MindMapNode) (index : Nat) : Option Group :=
  (map.parent? index).map fun parent => branchGroup (map.centerAt parent) (centerOf node index)

/-- What is drawn for a mind map. -/
def drawing (map : MindMap) : Scene :=
  { canvas := map.layout.canvas
    entities := map.nodes.zipIdx.map fun (node, index) => nodeEntity node (centerOf node index)
    relations := map.nodes.zipIdx.filterMap fun (node, index) => map.branchTo? node index }

variable {map : MindMap}

theorem getElem?_centers (index : Nat) :
    map.centers[index]? = (map.nodes[index]?).map fun node => centerOf node index := by
  rw [centers, List.getElem?_map, List.getElem?_zipIdx, Option.map_map]
  refine congrArg (Option.map · _) (funext fun node => ?_)
  simp

theorem centerAt_eq {node : MindMapNode} {index : Nat} (place : map.nodes[index]? = some node) :
    map.centerAt index = centerOf node index := by
  rw [centerAt, getElem?_centers, place]
  rfl

theorem branch?_eq {node : MindMapNode} {index : Nat} (place : map.nodes[index]? = some node) :
    map.layout.branch? (map.parent? index) (centerOf node index) =
      .ok (map.branchTo? node index) := by
  unfold Layout.branch? branchTo?
  cases isParent : map.parent? index with
  | none => rfl
  | some parent =>
      obtain ⟨-, above, found, -⟩ := parent?_spec place isParent
      have center : map.layout.centers[parent]? = some (centerOf above parent) := by
        change map.centers[parent]? = _
        rw [getElem?_centers, found]
        rfl
      have reached : entryAt map.layout.centers parent = .ok (centerOf above parent) := by
        unfold entryAt
        rw [center]
      rw [Option.map_some, centerAt_eq found]
      exact map_eq_ok_iff.mpr ⟨_, reached, rfl⟩

/-- A branch goes from a node to a later one that is one level below it. -/
inductive IsBranch (map : MindMap) : Group → Prop where
  | between {above node : MindMapNode} {parent index : Nat}
      (upper : (above, parent) ∈ map.nodes.zipIdx) (lower : (node, index) ∈ map.nodes.zipIdx)
      (earlier : parent < index) (level : above.level + 1 = node.level) :
      IsBranch map (branchGroup (centerOf above parent) (centerOf node index))

theorem isBranch_of_mem {group : Group} (member : group ∈ map.drawing.relations) :
    map.IsBranch group := by
  obtain ⟨⟨node, index⟩, lower, branch⟩ := List.mem_filterMap.mp member
  obtain ⟨parent, isParent, rfl⟩ := Option.map_eq_some_iff.mp branch
  obtain ⟨earlier, above, found, level⟩ :=
    parent?_spec (List.mem_zipIdx_iff_getElem?.mp lower) isParent
  rw [centerAt_eq found]
  exact .between (List.mem_zipIdx_iff_getElem?.mpr found) lower earlier level

variable (map)

theorem zip_centers : map.nodes.zip map.centers =
    map.nodes.zipIdx.map fun entry => (entry.1, centerOf entry.1 entry.2) := by
  have own : map.nodes = map.nodes.zipIdx.map Prod.fst := (List.zipIdx_map_fst 0 map.nodes).symm
  exact (congrArg (List.zip · map.centers) own).trans List.zip_map'

theorem scene_eq : map.scene = .ok map.drawing := by
  have numbered : map.layout.parents.zip map.layout.centers =
      map.nodes.zipIdx.map fun entry => (map.parent? entry.2, centerOf entry.1 entry.2) := by
    have parents : map.layout.parents = map.nodes.zipIdx.map fun entry => map.parent? entry.2 := by
      change (List.range map.nodes.length).map map.parent? = _
      rw [List.range_eq_range', ← List.zipIdx_map_snd 0 map.nodes, List.map_map]
      rfl
    rw [parents]
    exact List.zip_map'
  have placed : map.nodes.zip map.layout.centers = _ := map.zip_centers
  have branches : (map.layout.parents.zip map.layout.centers).mapM
      (fun entry => map.layout.branch? entry.1 entry.2) =
        .ok (map.nodes.zipIdx.map fun entry => map.branchTo? entry.1 entry.2) := by
    rw [numbered, mapM_eq_ok_iff, List.forall₂_map_left_iff, List.forall₂_map_right_iff,
      List.forall₂_same]
    intro entry member
    exact branch?_eq (List.mem_zipIdx_iff_getElem?.mp member)
  refine bind_eq_ok_iff.mpr ⟨_, branches, ?_⟩
  have relations : (map.nodes.zipIdx.map fun entry =>
      map.branchTo? entry.1 entry.2).filterMap id = map.drawing.relations := by
    rw [List.filterMap_map]
    rfl
  have entities : ((map.nodes.zip map.layout.centers).map fun entry =>
      nodeEntity entry.1 entry.2) = map.drawing.entities := by
    rw [placed, List.map_map]
    rfl
  rw [relations]
  exact congrArg (fun entities : List Entity => (Except.ok
    { canvas := map.layout.canvas, entities, relations := map.drawing.relations } :
      Except Fault Scene)) entities

/-! ## Soundness -/

theorem isSound_color {name : Text} (named : Xml.isName (Svg.hyphenated name) = true)
    (level : Int) : Svg.IsSound [.arrowhead] (name, .text (colorOf level)) := by
  have coloured : colorOf level = [] ∨ colorOf level ∈ palette := by
    unfold colorOf
    rw [List.getD_eq_getElem?_getD]
    cases found : palette[(level % palette.length).toNat]? with
    | none => exact .inl rfl
    | some color => exact .inr (List.mem_of_getElem? found)
  have fixed : (colorOf level).all Xml.isLegal = true ∧ (colorOf level).head? ≠ some 'u' := by
    rcases coloured with none | member
    · rw [none]
      exact ⟨rfl, by decide⟩
    · have each : ∀ color ∈ palette, color.all Xml.isLegal = true ∧ color.head? ≠ some 'u' := by
        intro color inside
        simp only [palette, List.mem_cons, List.not_mem_nil, or_false] at inside
        rcases inside with rfl | rfl | rfl | rfl | rfl
        all_goals exact ⟨rfl, by decide⟩
      exact each _ member
  refine Svg.isSound_of_isChecked ?_
  simp only [Svg.isChecked, named, fixed.1, Bool.true_and, Bool.or_eq_true, bne_iff_ne]
  exact .inl fixed.2

theorem isSound_nodeEntity (node : MindMapNode) (center : Point) :
    (nodeEntity node center).toGroup.IsSound [.arrowhead] := by
  have level := Svg.isLegalText_of_isNumeral (Number.isNumeral_signedDigits node.level)
  have opacity : Svg.IsSound [.arrowhead] ("fill_opacity", .number (.ofRat (1 / 8))) := by
    refine ⟨rfl, Svg.isClean_number _ _, Svg.isSpelled_ofRat (Number.fits_of_abs_le ?_)⟩
    rw [abs_of_pos (by norm_num)]
    norm_num
  refine ⟨?_, Svg.refersTo_of_head? (fun starts => absurd (Option.some.inj starts) (by decide)),
    ?_⟩
  · exact Xml.isLegalText_append.mpr ⟨List.all_eq_true.mp rfl, level⟩
  · refine List.forall_mem_cons.mpr ⟨?_, List.forall_mem_singleton.mpr (Svg.isSound_of_all rfl)⟩
    exact List.forall_mem_cons.mpr ⟨isSound_color rfl node.level, List.forall_mem_cons.mpr
      ⟨opacity, List.forall_mem_cons.mpr ⟨isSound_color rfl node.level,
        List.forall_mem_singleton.mpr (Svg.isSound_of_isChecked rfl)⟩⟩⟩

theorem isChecked_branchGroup (parent child : Point) :
    (branchGroup parent child).isChecked [.arrowhead] = true :=
  rfl

theorem isSound_drawing : map.drawing.IsSound := by
  refine ⟨Scene.forall_groups.mpr ⟨fun entity member => ?_, fun group member => ?_⟩, List.nodup_nil⟩
  · obtain ⟨⟨node, index⟩, -, rfl⟩ := List.mem_map.mp member
    exact List.forall_mem_singleton.mpr (isSound_nodeEntity _ _)
  · cases isBranch_of_mem member with
    | between => exact Group.isSound_of_isChecked (isChecked_branchGroup _ _)

/-! ## The canvas -/

variable {map}

theorem le_rightmost {node : MindMapNode} {index : Nat}
    (member : (node, index) ∈ map.nodes.zipIdx) :
    (centerOf node index).x + halfWidth node ≤ map.rightmost := by
  have inside : (centerOf node index).x + halfWidth node ∈
      (map.nodes.zip map.centers).map fun entry => entry.2.x + halfWidth entry.1 := by
    rw [zip_centers, List.map_map]
    exact List.mem_map.mpr ⟨(node, index), member, rfl⟩
  exact le_largestOr 0 inside

theorem centerOf_bounds {node : MindMapNode} {index : Nat}
    (member : (node, index) ∈ map.nodes.zipIdx) (positive : 1 ≤ node.level) :
    250 ≤ (centerOf node index).x ∧ 0 ≤ halfWidth node ∧
      halfWidth node + 100 ≤ (centerOf node index).x ∧
      (centerOf node index).x + halfWidth node + 40 ≤ map.layout.canvas.width ∧
      100 ≤ (centerOf node index).y ∧
      (centerOf node index).y + 100 ≤ map.layout.canvas.height := by
  have level : (1 : Rat) ≤ node.level := by exact_mod_cast positive
  have below : (index : Rat) + 1 ≤ map.nodes.length := by
    exact_mod_cast List.snd_lt_of_mem_zipIdx member
  have nonneg : (0 : Rat) ≤ index := Nat.cast_nonneg index
  have reach := le_rightmost member
  have wide : map.rightmost + 40 ≤ map.layout.canvas.width := le_larger_right 800 _
  have high : 100 + (map.nodes.length : Rat) * 60 + 40 ≤ map.layout.canvas.height :=
    le_larger_right 600 _
  simp only [centerOf, halfWidth] at reach ⊢
  refine ⟨by linarith, by linarith, by linarith, by linarith, by linarith, by linarith⟩

theorem isOn_nodeEntity {canvas : Canvas} {center : Point} {node : MindMapNode}
    (left : halfWidth node + 100 ≤ center.x) (half : 0 ≤ halfWidth node)
    (right : center.x + halfWidth node + 40 ≤ canvas.width) (top : 100 ≤ center.y)
    (bottom : center.y + 100 ≤ canvas.height) :
    ∀ figure ∈ (nodeEntity node center).figures, figure.shape.IsOn canvas := by
  refine List.forall_mem_cons.mpr ⟨Shape.isOn_ellipse ?_ ?_ ?_ ?_ ⟨?_, ?_⟩,
    List.forall_mem_singleton.mpr (Shape.isOn_label (Point.isOn_mk ?_ ?_ ?_ ?_) _)⟩
  all_goals linarith

theorem isOn_branchGroup {canvas : Canvas} {parent child : Point}
    (left : 250 ≤ parent.x ∧ 250 ≤ child.x)
    (right : parent.x + 60 ≤ canvas.width ∧ child.x ≤ canvas.width)
    (top : 100 ≤ parent.y ∧ 100 ≤ child.y)
    (bottom : parent.y ≤ canvas.height ∧ child.y ≤ canvas.height) :
    ∀ figure ∈ (branchGroup parent child).figures, figure.shape.IsOn canvas := by
  refine List.forall_mem_singleton.mpr
    (Shape.isOn_line (Point.isOn_mk ?_ ?_ ?_ ?_) (Point.isOn_mk ?_ ?_ ?_ ?_))
  all_goals linarith

theorem isOnCanvas_drawing (positive : ∀ node ∈ map.nodes, 1 ≤ node.level) :
    map.drawing.IsOnCanvas := by
  change ∀ group ∈ map.drawing.groups, ∀ figure ∈ group.figures,
    figure.shape.IsOn map.layout.canvas
  refine Scene.forall_groups.mpr ⟨fun entity member => ?_, fun group member => ?_⟩
  · obtain ⟨⟨node, index⟩, inside, rfl⟩ := List.mem_map.mp member
    obtain ⟨-, half, left, right, top, bottom⟩ :=
      centerOf_bounds inside (positive node (List.fst_mem_of_mem_zipIdx inside))
    exact List.forall_mem_singleton.mpr (isOn_nodeEntity left half right top bottom)
  · obtain @⟨above, node, parent, index, upper, lower, -, -⟩ := isBranch_of_mem member
    have outer := positive above (List.fst_mem_of_mem_zipIdx upper)
    obtain ⟨childLeft, childHalf, -, childRight, childTop, childBottom⟩ :=
      centerOf_bounds lower (positive node (List.fst_mem_of_mem_zipIdx lower))
    obtain ⟨parentLeft, parentHalf, -, parentRight, parentTop, parentBottom⟩ :=
      centerOf_bounds upper outer
    have wide : (60 : Rat) ≤ halfWidth above := by
      have level : (1 : Rat) ≤ above.level := by exact_mod_cast outer
      rw [halfWidth]
      linarith
    refine isOn_branchGroup ⟨parentLeft, childLeft⟩ ⟨?_, ?_⟩ ⟨parentTop, childTop⟩ ⟨?_, ?_⟩
    · linarith only [parentRight, wide]
    · linarith only [childRight, childHalf]
    · linarith only [parentBottom]
    · linarith only [childBottom]

theorem isExtentFor_canvas {count : Nat} (nodes : map.nodes.length ≤ count)
    (levels : ∀ node ∈ map.nodes, node.level ≤ count) :
    IsExtentFor count map.layout.canvas.width ∧ IsExtentFor count map.layout.canvas.height := by
  have some : (0 : Rat) ≤ count := Nat.cast_nonneg count
  have rows : (map.nodes.length : Rat) ≤ count := by exact_mod_cast nodes
  have wide : 800 ≤ map.layout.canvas.width := le_larger_left 800 _
  have high : 600 ≤ map.layout.canvas.height := le_larger_left 600 _
  have reach : ∀ value ∈ (map.nodes.zip map.centers).map fun entry =>
      entry.2.x + halfWidth entry.1, value ≤ 160 + (count : Rat) * 160 := by
    intro value member
    rw [zip_centers, List.map_map] at member
    obtain ⟨⟨node, index⟩, inside, rfl⟩ := List.mem_map.mp member
    have level : (node.level : Rat) ≤ count := by
      exact_mod_cast levels node (List.fst_mem_of_mem_zipIdx inside)
    simp only [Function.comp_apply, centerOf, halfWidth]
    linarith
  have rightmost : map.rightmost ≤ 160 + (count : Rat) * 160 :=
    largestOr_spec (· ≤ 160 + (count : Rat) * 160) (by linarith) reach
  refine ⟨⟨by linarith, larger_le (by linarith) (by linarith)⟩,
    ⟨by linarith, larger_le (by linarith) (by linarith)⟩⟩

end DiagramSketch.MindMap
