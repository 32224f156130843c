import DiagramSketch.Proofs.Diagram.Anatomy

/-!
# The lane of an activity

The start, the steps and the stop stand below one another.  Each of them asks for the room up to the
middle of the next one, so that a pass from top to bottom tells all heights; there is always enough
for an arrow in between, and the last of them ends above the lower edge of the canvas.
-/

namespace DiagramSketch.Activity

/-- How far below a node of the role the next one stands. -/
def Role.advance : Role → Rat
  | .start => 60
  | .action | .decision | .stop => 80

/-- The heights of nodes with the roles, one below the other from a height on. -/
def heightsFrom (height : Rat) : List Role → List Rat
  | [] => []
  | role :: roles => height :: heightsFrom (height + role.advance) roles

/-- The roles on the lane of an activity, from top to bottom. -/
def roles (activity : Activity) : List Role :=
  activity.lane.map Prod.fst

/-- The height of the first step, or of what is there instead. -/
def openingHeight (activity : Activity) : Rat :=
  if activity.hasStart then 110 else 50

/-- The heights on the lane of an activity, told by their numbers. -/
def heights (activity : Activity) : List Rat :=
  (if activity.hasStart then [50] else [])
  ++ ((List.range activity.steps.length).map fun index : Nat =>
    activity.openingHeight + 80 * (index : Rat))
  ++ if activity.hasStop then [activity.openingHeight + 80 * activity.steps.length] else []

/-- A layout shows the lane of an activity. -/
structure Layout.Shows (layout : Layout) (activity : Activity) : Prop where
  /-- The start is there if it is asked for, then the steps in order, then the stop if it is. -/
  nodes : layout.nodes.map (fun node => (node.role, node.label)) = activity.lane
  heights : layout.nodes.map Node.y = activity.heights
  /-- The same heights are found by a pass that carries the next one. -/
  pass : layout.nodes.map Node.y = heightsFrom 50 activity.roles
  count : layout.connectors.length = layout.nodes.length - 1
  /-- The arrow with a number goes from the lower end of the node with the number to the upper end
  of the next, in the middle of the canvas. -/
  joins : ∀ (index : Nat) (upper lower : Node), layout.nodes[index]? = some upper →
    layout.nodes[index + 1]? = some lower → layout.connectors[index]? =
      some (⟨layout.canvas.width / 2, upper.y + upper.role.halfHeight⟩,
        ⟨layout.canvas.width / 2, lower.y - lower.role.halfHeight⟩)
  descends : ∀ connector ∈ layout.connectors, connector.1.y + 25 ≤ connector.2.y
  ends : ∀ last ∈ layout.nodes.getLast?, last.y + last.role.halfHeight < layout.canvas.height

/-! ## Heights by a pass -/

theorem heightsFrom_append (height : Rat) (first second : List Role) :
    heightsFrom height (first ++ second) =
      heightsFrom height first ++ heightsFrom (height + (first.map Role.advance).sum) second := by
  induction first generalizing height with
  | nil => simp [heightsFrom]
  | cons role first induction =>
      rw [List.cons_append, heightsFrom, heightsFrom, induction, List.map_cons, List.sum_cons,
        add_assoc, List.cons_append]

/-- Where all nodes ask for the same room, the heights are told by the numbers of the nodes. -/
theorem heightsFrom_eq_map_range (height : Rat) {roles : List Role}
    (even : ∀ role ∈ roles, role.advance = 80) :
    heightsFrom height roles =
      (List.range roles.length).map fun index : Nat => height + 80 * (index : Rat) := by
  induction roles generalizing height with
  | nil => rfl
  | cons role roles induction =>
      obtain ⟨own, others⟩ := List.forall_mem_cons.mp even
      rw [heightsFrom, own, induction _ others, List.length_cons, List.range_succ_eq_map,
        List.map_cons, List.map_map]
      congr 1
      · simp
      · refine List.map_congr_left fun index _ => ?_
        simp only [Function.comp_apply, Nat.succ_eq_add_one]
        push_cast
        ring

/-- Every node stands well below all those before it. -/
theorem pairwise_heightsFrom (height : Rat) (roles : List Role) :
    (heightsFrom height roles).Pairwise (fun upper lower => upper + 60 ≤ lower) ∧
      ∀ lower ∈ heightsFrom height roles, height ≤ lower := by
  induction roles generalizing height with
  | nil => exact ⟨List.Pairwise.nil, List.forall_mem_nil _⟩
  | cons role roles induction =>
      obtain ⟨rest, below⟩ := induction (height + role.advance)
      have room : 60 ≤ role.advance := by
        cases role <;> norm_num [Role.advance]
      refine ⟨List.pairwise_cons.mpr ⟨fun lower member => ?_, rest⟩,
        List.forall_mem_cons.mpr ⟨le_refl height, fun lower member => ?_⟩⟩
      · have := below lower member
        linarith
      · have := below lower member
        linarith

/-- The room that a node asks for takes in an arrow to the next one. -/
theorem Role.halfHeight_add_le_advance (upper lower : Role) :
    upper.halfHeight + 25 + lower.halfHeight ≤ upper.advance := by
  cases upper <;> cases lower <;> norm_num [halfHeight, advance]

theorem Role.halfHeight_add_le (role : Role) : role.halfHeight + 45 ≤ role.advance := by
  cases role <;> norm_num [halfHeight, advance]

/-! ## Nodes by a pass -/

section Nodes

variable {nodes : List Node} {height : Rat}

/-- A node stands as far below the one before as that one asks for. -/
theorem y_of_mem_zip_drop
    (pass : nodes.map Node.y = heightsFrom height (nodes.map Node.role)) :
    ∀ pair ∈ nodes.zip (nodes.drop 1), pair.2.y = pair.1.y + pair.1.role.advance := by
  induction nodes generalizing height with
  | nil => exact List.forall_mem_nil _
  | cons upper nodes induction =>
      rw [List.map_cons, List.map_cons, heightsFrom] at pass
      obtain ⟨first, rest⟩ := List.cons.inj pass
      cases nodes with
      | nil => exact List.forall_mem_nil _
      | cons lower nodes =>
          refine List.forall_mem_cons.mpr ⟨?_, induction rest⟩
          rw [List.map_cons, List.map_cons, heightsFrom] at rest
          rw [first]
          exact (List.cons.inj rest).1

/-- The last node stands where all room above it is taken. -/
theorem y_of_mem_getLast? (pass : nodes.map Node.y = heightsFrom height (nodes.map Node.role)) :
    ∀ last ∈ nodes.getLast?,
      last.y + last.role.advance = height + ((nodes.map Node.role).map Role.advance).sum := by
  intro last found
  obtain ⟨before, rfl⟩ := List.getLast?_eq_some_iff.mp found
  rw [List.map_append, List.map_append, heightsFrom_append] at pass
  have own := (List.append_inj' pass rfl).2
  simp only [List.map_cons, List.map_nil, heightsFrom, List.cons.injEq, and_true] at own
  simp only [List.map_append, List.map_cons, List.map_nil, List.sum_append, List.sum_cons,
    List.sum_nil, own]
  ring

end Nodes

/-! ## The nodes of an activity -/

variable (font : Font) (activity : Activity)

theorem map_role_placed : (activity.placed font).map Node.role = activity.roles := by
  rw [roles, lane_eq font, List.map_map]
  rfl

theorem firstStepHeight_eq : activity.firstStepHeight = activity.openingHeight := by
  unfold firstStepHeight openingHeight firstHeight
  split
  · norm_num
  · rfl

theorem map_y_placed : (activity.placed font).map Node.y = activity.heights := by
  have start : activity.startNodes.map Node.y = if activity.hasStart then [50] else [] := by
    unfold startNodes
    split <;> rfl
  have steps : (activity.stepNodes font).map Node.y =
      (List.range activity.steps.length).map fun index : Nat =>
        activity.openingHeight + 80 * (index : Rat) := by
    rw [stepNodes, List.map_map, List.range_eq_range', ← List.zipIdx_map_snd 0 activity.steps,
      List.map_map]
    refine List.map_congr_left fun entry _ => ?_
    simp only [Function.comp_apply, nodeOf_y, firstStepHeight_eq, stepSpacing]
    ring
  have stop : activity.stopNodes.map Node.y = if activity.hasStop then
      [activity.openingHeight + 80 * activity.steps.length] else [] := by
    unfold stopNodes
    split
    · simp only [List.map_cons, List.map_nil, firstStepHeight_eq, stepSpacing, mul_comm]
    · rfl
  rw [placed, List.map_append, List.map_append, start, steps, stop, heights]

/-- The roles between the start and the stop. -/
def stepRoles (activity : Activity) : List Role :=
  activity.steps.map fun step => if step.isDecision then .decision else .action

theorem advance_of_mem_stepRoles : ∀ role ∈ activity.stepRoles, role.advance = 80 := by
  refine List.forall_mem_map.mpr fun step _ => ?_
  split <;> rfl

theorem roles_eq : activity.roles =
    (if activity.hasStart then [.start] else []) ++ activity.stepRoles
      ++ if activity.hasStop then [.stop] else [] := by
  unfold roles lane stepRoles
  rw [List.map_append, List.map_append, List.map_map]
  congr 2
  · split <;> rfl
  · split <;> rfl

theorem sum_advance_stepRoles :
    (activity.stepRoles.map Role.advance).sum = 80 * (activity.steps.length : Rat) := by
  rw [List.map_congr_left activity.advance_of_mem_stepRoles, List.map_const', List.sum_replicate,
    stepRoles, List.length_map, nsmul_eq_mul, mul_comm]

/-- The pass through the roles comes to the heights that the numbers of the steps tell. -/
theorem heightsFrom_roles : heightsFrom 50 activity.roles = activity.heights := by
  have steps := heightsFrom_eq_map_range activity.openingHeight activity.advance_of_mem_stepRoles
  have count : activity.stepRoles.length = activity.steps.length := List.length_map _
  have opening : activity.openingHeight =
      50 + ((if activity.hasStart then [Role.start] else []).map Role.advance).sum := by
    unfold openingHeight
    split
    · norm_num [Role.advance]
    · simp
  rw [roles_eq, heightsFrom_append, heightsFrom_append, List.map_append, List.sum_append,
    ← add_assoc, ← opening, sum_advance_stepRoles, steps, count, heights]
  congr 2
  · split <;> rfl
  · split <;> rfl

theorem pass_placed : (activity.placed font).map Node.y =
    heightsFrom 50 ((activity.placed font).map Node.role) := by
  rw [map_y_placed, map_role_placed, heightsFrom_roles]

/-- The lane goes down from node to node. -/
theorem pairwise_placed : (activity.placed font).Pairwise fun upper lower =>
    upper.y + 60 ≤ lower.y := by
  have descends := (pairwise_heightsFrom 50 ((activity.placed font).map Node.role)).1
  rw [← pass_placed] at descends
  exact List.pairwise_map.mp descends

/-- The canvas has room below the last node, whatever is on the lane. -/
theorem sum_advance_roles_lt :
    (activity.roles.map Role.advance).sum + 5 < (activity.canvas font).height := by
  have start : ((if activity.hasStart then [Role.start] else []).map Role.advance).sum ≤
      10 + if activity.hasStart then 50 else 0 := by
    split <;> norm_num [Role.advance]
  have stop : ((if activity.hasStop then [Role.stop] else []).map Role.advance).sum ≤
      30 + if activity.hasStop then 50 else 0 := by
    split <;> norm_num [Role.advance]
  rw [roles_eq, List.map_append, List.map_append, List.sum_append, List.sum_append,
    sum_advance_stepRoles]
  simp only [canvas, stepSpacing]
  linarith

/-! ## The lane -/

theorem length_connectors (layout : Layout) :
    layout.connectors.length = layout.nodes.length - 1 := by
  rw [Layout.connectors, List.length_map, List.length_zip, List.length_drop]
  exact Nat.min_eq_right (Nat.sub_le _ _)

theorem getElem?_connectors {layout : Layout} {index : Nat} {upper lower : Node}
    (first : layout.nodes[index]? = some upper) (second : layout.nodes[index + 1]? = some lower) :
    layout.connectors[index]? =
      some (⟨layout.centerX, upper.bottom⟩, ⟨layout.centerX, lower.top⟩) := by
  have next : (layout.nodes.drop 1)[index]? = some lower := by
    rw [List.getElem?_drop, Nat.add_comm]
    exact second
  have pair : (layout.nodes.zip (layout.nodes.drop 1))[index]? = some (upper, lower) :=
    List.getElem?_zip_eq_some.mpr ⟨first, next⟩
  rw [Layout.connectors, List.getElem?_map, pair]
  rfl

theorem shows_plan : (activity.plan font).Shows activity := by
  have pass := activity.pass_placed font
  constructor
  case nodes => exact (activity.lane_eq font).symm
  case heights => exact activity.map_y_placed font
  case pass => exact activity.map_role_placed font ▸ pass
  case count => exact length_connectors (activity.plan font)
  case joins => exact fun index upper lower => getElem?_connectors
  case descends =>
    intro connector member
    obtain ⟨⟨upper, lower⟩, pair, rfl⟩ := List.mem_map.mp member
    have below := y_of_mem_zip_drop pass (upper, lower) pair
    have room := Role.halfHeight_add_le_advance upper.role lower.role
    change upper.y + upper.role.halfHeight + 25 ≤ lower.y - lower.role.halfHeight
    dsimp only at below
    linarith
  case ends =>
    intro last found
    have place := y_of_mem_getLast? pass last found
    have room := last.role.halfHeight_add_le
    have high := activity.sum_advance_roles_lt font
    rw [map_role_placed] at place
    change last.y + last.role.halfHeight < (activity.canvas font).height
    linarith

/-- Unless a label cannot be measured, an activity is laid out as a lane: what is asked for stands in
order at the heights that the numbers of the steps tell, each thing is joined to the next by an
arrow downward, and the last one ends on the canvas. -/
theorem layout_shows_or_error (font : Font) (activity : Activity) :
    activity.IsMeasurable font ∧
        (∃ layout, activity.layout font = .ok layout ∧ layout.Shows activity) ∨
      ∃ step ∈ activity.steps, ∃ message,
        font.length (labelSize step) step.label = .error message ∧
          activity.layout font = .error (.unmeasured message) := by
  cases laid : activity.layout font with
  | ok layout =>
      obtain ⟨measurable, rfl⟩ := layout_eq_ok_iff.mp laid
      exact .inl ⟨measurable, _, rfl, activity.shows_plan font⟩
  | error fault =>
      obtain ⟨step, member, message, refused, rfl⟩ := exists_of_layout_eq_error laid
      exact .inr ⟨step, member, message, refused, rfl⟩

end DiagramSketch.Activity
