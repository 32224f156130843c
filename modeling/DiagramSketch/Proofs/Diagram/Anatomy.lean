import DiagramSketch.Font.Bundled
import DiagramSketch.Proofs.Diagram.Drawing

/-!
# The anatomy of a document

A document has its definitions first, then the background, then a group for each entity of the
diagram and then one for each relation whose ends are there, in order.  What lines refer to is
defined once.
-/

namespace DiagramSketch

open Xml (Element)
open Svg (Marker)

/-- What stands on the lane of an activity, from top to bottom. -/
def Activity.lane (activity : Activity) : List (Activity.Role × Text) :=
  (if activity.hasStart then [(.start, "START".toList)] else [])
  ++ (activity.steps.map fun step =>
    (if step.isDecision then .decision else .action, step.label))
  ++ if activity.hasStop then [(.stop, "STOP".toList)] else []

/-- What a component is shown as. -/
def Components.subjectOf (name : Text) : Subject :=
  { className := "component", labels := [name] }

namespace Diagram

/-- What the entities of a diagram are shown as, in order. -/
def exhibits : Diagram → List Exhibit
  | sequence read => read.participants.map fun name =>
      { className := "entity participant", labels := [name] }
  | classes model => model.classes.map fun entry =>
      { className := "entity class", labels := entry.lines }
  | useCase read =>
      (read.actors.map fun name => { className := "entity actor", labels := [name] })
      ++ read.labels.map fun label => { className := "entity usecase", labels := [label] }
  | activity read => read.lane.map fun (role, label) =>
      { className := "entity " ++ role.name, labels := [label] }
  | component read =>
      (read.packages.map fun package =>
        { className := "entity package", labels := [package.name.getD []]
          members := package.members.map Components.subjectOf })
      ++ if read.standalone.isEmpty then []
        else
          [{ className := "entity standalone", labels := []
             members := read.standalone.map Components.subjectOf }]
  | mindMap map => map.nodes.map fun node =>
      { className := "entity node level-" ++ Number.signedDigits node.level, labels := [node.text] }
  | gantt schedule =>
      { className := "entity header"
        labels := "Gantt Chart".toList ::
          ((schedule.start.filter fun date => !date.isEmpty).map
            fun date => "Start: ".toList ++ date).toList }
      :: schedule.tasks.map fun task =>
        { className := "entity task", labels := [task.name, task.drawnCaption] }
  | panel read =>
      [{ className := "entity panel"
         labels := ["PlantUML Diagram", "Parsed from your code", read.summary] }]

/-- The lines of the relations of a diagram whose ends are there, in order. -/
def relations (font : Font) : Diagram → List Group
  | sequence read => read.connected.map fun (interaction, index) =>
      read.arrowOf interaction index
  | classes model => (model.relationships.filter model.connects).map (model.lineOf font)
  | useCase read => (read.links.filter read.connects).map read.lineOf
  | activity read =>
      let middle := (read.canvas font).width / 2
      ((read.placed font).zip ((read.placed font).drop 1)).map fun (upper, lower) =>
        Activity.flowGroup ⟨middle, upper.bottom⟩ ⟨middle, lower.top⟩
  | component read => (read.connections.filter read.connects).map read.lineOf
  | mindMap map => map.nodes.zipIdx.filterMap fun (node, index) => map.branchTo? node index
  | gantt _ | panel _ => []

end Diagram

/-! ## Entities -/

theorem filterMap_content?_memberLabels (box : Box) (y : Rat) (members : List Text) :
    (ClassModel.memberLabels box y members).filterMap (fun figure => figure.shape.content?) =
      members := by
  have each := map_zipIdx (fun entry : Text × Nat => entry.1) id (fun _ => rfl) members
  rw [List.map_id, ← List.filterMap_eq_map] at each
  unfold ClassModel.memberLabels
  rw [List.filterMap_map]
  exact each

theorem ClassModel.exhibit_classEntity (box : Box) (entry : ClassEntry) :
    (classEntity box entry).exhibit = { className := "entity class", labels := entry.lines } := by
  have labels : (classEntity box entry).toGroup.labels = entry.lines := by
    unfold Group.labels classEntity
    dsimp only
    rw [List.filterMap_append, List.filterMap_append, List.filterMap_append,
      filterMap_content?_memberLabels, filterMap_content?_memberLabels]
    split
    · change [entry.name] ++ entry.attributes ++ [] ++ entry.methods = _
      rw [List.append_nil]
      rfl
    · change [entry.name] ++ entry.attributes ++ [] ++ entry.methods = _
      rw [List.append_nil]
      rfl
  have shown : (classEntity box entry).exhibit =
      { className := "entity class", labels := (classEntity box entry).toGroup.labels } := rfl
  rw [shown, labels]

theorem Activity.exhibit_nodeEntity (centerX : Rat) (node : Node) :
    (nodeEntity centerX node).exhibit =
      { className := "entity " ++ node.role.name, labels := [node.label] } := by
  unfold nodeEntity
  cases node.role <;> rfl

theorem Activity.lane_eq (font : Font) (activity : Activity) :
    activity.lane = (activity.placed font).map fun node => (node.role, node.label) := by
  have steps : (activity.stepNodes font).map (fun node => (node.role, node.label)) =
      activity.steps.map fun step =>
        (if step.isDecision then Role.decision else Role.action, step.label) := by
    rw [stepNodes, List.map_map]
    refine map_zipIdx _ _ (fun entry => ?_) activity.steps
    change ((nodeOf font _ entry.1).role, (nodeOf font _ entry.1).label) = _
    unfold nodeOf
    split <;> rfl
  have start : activity.startNodes.map (fun node => (node.role, node.label)) =
      if activity.hasStart then [(Role.start, "START".toList)] else [] := by
    unfold startNodes
    split <;> rfl
  have stop : activity.stopNodes.map (fun node => (node.role, node.label)) =
      if activity.hasStop then [(Role.stop, "STOP".toList)] else [] := by
    unfold stopNodes
    split <;> rfl
  rw [placed, List.map_append, List.map_append, steps, start, stop, lane]

theorem Components.map_subject_groups (components : Components) (fill stroke : Text)
    (names : List Text) : (names.map fun name => componentGroup fill stroke name
      (components.boxOf name)).map Group.subject = names.map subjectOf := by
  rw [List.map_map]
  rfl

theorem Components.exhibit_packageEntity (components : Components) (package : Package) (box : Box) :
    (packageEntity package box (components.membersOf package)).exhibit =
      { className := "entity package", labels := [package.name.getD []]
        members := package.members.map subjectOf } := by
  have members := components.map_subject_groups "#e8f5e8" "#4caf50" package.members
  rw [← members]
  rfl

theorem Components.exhibit_standaloneEntity (components : Components) :
    (standaloneEntity components.loners).exhibit =
      { className := "entity standalone", labels := []
        members := components.standalone.map subjectOf } := by
  have members := components.map_subject_groups "#e3f2fd" "#2196f3" components.standalone
  rw [← members]
  rfl

theorem Schedule.exhibit_headerEntity (schedule : Schedule) (width : Rat) :
    (headerEntity schedule width).exhibit =
      { className := "entity header"
        labels := "Gantt Chart".toList ::
          ((schedule.start.filter fun date => !date.isEmpty).map
            fun date => "Start: ".toList ++ date).toList } := by
  unfold headerEntity
  dsimp only
  cases schedule.start.filter fun date => !date.isEmpty <;> rfl

namespace Diagram

/-- The drawing shows the entities of the diagram, each once and in order. -/
theorem exhibits_drawing (font : Font) (diagram : Diagram) :
    (diagram.drawing font).entities.map Entity.exhibit = diagram.exhibits := by
  cases diagram with
  | sequence read => exact List.map_map
  | classes model =>
      refine List.map_map.trans (List.map_congr_left fun entry _ => ?_)
      exact ClassModel.exhibit_classEntity _ entry
  | useCase read =>
      refine List.map_append.trans ?_
      rw [List.map_map, List.map_map]
      rfl
  | activity read =>
      change ((read.placed font).map _).map Entity.exhibit = read.lane.map _
      rw [read.lane_eq font, List.map_map, List.map_map]
      exact List.map_congr_left fun node _ => Activity.exhibit_nodeEntity _ node
  | component read =>
      refine List.map_append.trans (congrArg₂ (· ++ ·) ?_ ?_)
      · rw [List.map_map]
        exact map_zipIdx _ _ (fun entry => read.exhibit_packageEntity entry.1 _) read.packages
      · split
        · rfl
        · exact congrArg (fun shown => [shown]) read.exhibit_standaloneEntity
  | mindMap map =>
      refine List.map_map.trans ?_
      change _ = map.nodes.map _
      refine map_zipIdx _ _ (fun entry => ?_) map.nodes
      rfl
  | gantt schedule =>
      change schedule.scene.entities.map Entity.exhibit = _
      rw [schedule.entities_eq, List.map_cons, schedule.exhibit_headerEntity, List.map_map]
      refine congrArg (_ :: ·) (map_zipIdx _ _ (fun entry => ?_) schedule.tasks)
      rfl
  | panel read => rfl

theorem relations_drawing (font : Font) (diagram : Diagram) :
    (diagram.drawing font).relations = diagram.relations font := by
  cases diagram with
  | activity read => exact List.map_map
  | _ => rfl

theorem className_exhibits (diagram : Diagram) :
    ∀ exhibit ∈ diagram.exhibits, "entity".toList <+: exhibit.className := by
  cases diagram with
  | sequence read =>
      refine List.forall_mem_map.mpr fun name _ => ?_
      exact ⟨" participant".toList, rfl⟩
  | classes model =>
      refine List.forall_mem_map.mpr fun entry _ => ?_
      exact ⟨" class".toList, rfl⟩
  | useCase read =>
      refine List.forall_mem_append.mpr ⟨List.forall_mem_map.mpr fun name _ => ?_,
        List.forall_mem_map.mpr fun label _ => ?_⟩
      · exact ⟨" actor".toList, rfl⟩
      · exact ⟨" usecase".toList, rfl⟩
  | activity read =>
      refine List.forall_mem_map.mpr fun placed _ => ?_
      exact ⟨' ' :: placed.1.name, rfl⟩
  | component read =>
      refine List.forall_mem_append.mpr ⟨List.forall_mem_map.mpr fun package _ => ?_, ?_⟩
      · exact ⟨" package".toList, rfl⟩
      · split
        · exact List.forall_mem_nil _
        · exact List.forall_mem_singleton.mpr ⟨" standalone".toList, rfl⟩
  | mindMap map =>
      refine List.forall_mem_map.mpr fun node _ => ?_
      exact ⟨" node level-".toList ++ Number.signedDigits node.level, rfl⟩
  | gantt schedule =>
      refine List.forall_mem_cons.mpr ⟨⟨" header".toList, rfl⟩,
        List.forall_mem_map.mpr fun task _ => ?_⟩
      exact ⟨" task".toList, rfl⟩
  | panel read => exact List.forall_mem_singleton.mpr ⟨" panel".toList, rfl⟩

theorem className_relations (font : Font) (diagram : Diagram) :
    ∀ group ∈ diagram.relations font, "relation".toList <+: group.className := by
  cases diagram with
  | sequence read =>
      refine List.forall_mem_map.mpr fun entry _ => ?_
      exact ⟨" interaction".toList, rfl⟩
  | classes model =>
      refine List.forall_mem_map.mpr fun relationship _ => ?_
      unfold ClassModel.lineOf ClassModel.relationshipGroup
      cases relationship.isInheritance with
      | true => exact ⟨" inheritance".toList, rfl⟩
      | false => exact ⟨" association".toList, rfl⟩
  | useCase read =>
      refine List.forall_mem_map.mpr fun link _ => ?_
      exact ⟨" link".toList, rfl⟩
  | activity read =>
      refine List.forall_mem_map.mpr fun pair _ => ?_
      exact ⟨" flow".toList, rfl⟩
  | component read =>
      refine List.forall_mem_map.mpr fun connection _ => ?_
      exact ⟨" connection".toList, rfl⟩
  | mindMap map =>
      intro group member
      cases MindMap.isBranch_of_mem member with
      | between => exact ⟨" branch".toList, rfl⟩
  | gantt schedule => exact List.forall_mem_nil _
  | panel read => exact List.forall_mem_nil _

end Diagram

/-! ## The document -/

namespace Scene

variable {scene : Scene} {root : Element}

/-- What is referred to in the document of a sound scene is defined once. -/
theorem length_filter_definitions (sound : scene.IsSound) (shown : scene.element = .ok root) :
    ∀ part ∈ root.descendants, ∀ entry ∈ part.attributes, ∀ identifier,
      entry.2 = Svg.reference identifier →
        (scene.definitionsElement.children.filter fun element =>
          Svg.identifier? element == some identifier).length = 1 := by
  intro part member entry inside identifier refers
  obtain ⟨drawn, -⟩ := areDrawn_element sound shown
  obtain ⟨marker, defined, rfl⟩ := (drawn part member).refers entry inside identifier refers
  exact Svg.length_filter_identifier? (Svg.nodup_definitions sound.distinct) defined

theorem tag_definitions (scene : Scene) :
    ∀ element ∈ scene.definitionsElement.children, element.tag = "marker".toList := by
  intro element member
  obtain ⟨marker, -, rfl⟩ := List.mem_map.mp member
  cases marker <;> rfl

end Scene

namespace Diagram

/-- The children of a document are its definitions, the background, an element for each entity and
an element for each relation whose ends are there, all in order; and every reference in it leads to
one definition. -/
theorem exists_children_of_print {font : Font} {diagram : Diagram} {document : Text}
    (printed : diagram.print font = .ok document) :
    ∃ root definitions entities relations,
      (diagram.scene font).bind Scene.element = .ok root ∧ Svg.print root = .ok document ∧
      root.children = definitions :: Svg.background :: (entities ++ relations) ∧
      definitions.tag = "defs".toList ∧
      (∀ marker ∈ definitions.children, marker.tag = "marker".toList) ∧
      entities.map Svg.exhibit? = diagram.exhibits.map some ∧
      (∀ element ∈ entities, Svg.IsGroupOf "entity" element) ∧
      List.Forall₂ (fun group element => group.element = .ok element)
        (diagram.relations font) relations ∧
      (∀ element ∈ relations, Svg.IsGroupOf "relation" element) ∧
      ∀ part ∈ root.descendants, ∀ entry ∈ part.attributes, ∀ identifier,
        entry.2 = Svg.reference identifier →
          (definitions.children.filter fun marker =>
            Svg.identifier? marker == some identifier).length = 1 := by
  obtain ⟨scene, found, shown⟩ := bind_eq_ok_iff.mp printed
  obtain ⟨root, shown, written⟩ := bind_eq_ok_iff.mp shown
  obtain ⟨-, rfl⟩ := scene_eq_ok_iff.mp found
  have sound := diagram.isSound_drawing font
  obtain ⟨-, widthText, heightText, entities, relations, -, -, entitiesShown, relationsShown,
    same⟩ := Scene.element_eq_ok_iff.mp shown
  have entitiesEach := mapM_eq_ok_iff.mp entitiesShown
  have relationsEach := mapM_eq_ok_iff.mp relationsShown
  rw [diagram.relations_drawing font] at relationsEach
  refine ⟨root, (diagram.drawing font).definitionsElement, entities, relations,
    bind_eq_ok_iff.mpr ⟨_, found, shown⟩, written, ?_, rfl,
    (diagram.drawing font).tag_definitions, ?_, ?_, relationsEach, ?_,
    Scene.length_filter_definitions sound shown⟩
  · rw [same]
    rfl
  · rw [← diagram.exhibits_drawing font, List.map_map]
    exact map_eq_map_of_forall₂ entitiesEach fun entity element drawn =>
      Entity.exhibit?_element drawn
  · intro element member
    obtain ⟨entity, inside, drawn⟩ := exists_left_of_mem entitiesEach member
    obtain ⟨subject, group, same⟩ := Option.map_eq_some_iff.mp (Entity.exhibit?_element drawn)
    have listed : entity.exhibit ∈ diagram.exhibits := by
      rw [← diagram.exhibits_drawing font]
      exact List.mem_map_of_mem inside
    have className : subject.className = entity.className :=
      congrArg (fun exhibit : Exhibit => exhibit.className) same
    refine ⟨subject, group, ?_⟩
    rw [className]
    exact diagram.className_exhibits _ listed
  · intro element member
    obtain ⟨group, inside, drawn⟩ := exists_left_of_mem relationsEach member
    exact ⟨group.subject, (Group.subject?_element drawn).1,
      diagram.className_relations font group inside⟩

/-- A message to nobody is left out, and the one before it is not. -/
theorem children_dangling : ∃ document root entities relations,
    print .bundled (.sequence ⟨["A"], [⟨"A", "A", "->", "hi"⟩, ⟨"A", "B", "->", "lost"⟩]⟩) =
        .ok document ∧
      Svg.print root = .ok document ∧
      root.children.drop 2 = entities ++ relations ∧
      entities.map Svg.exhibit? =
        [some { className := "entity participant", labels := ["A"] }] ∧
      relations.map Svg.subject? =
        [some { className := "relation interaction", labels := ["hi"] }] := by
  have extents := Sequence.isExtentFor_canvas
    ⟨["A"], [⟨"A", "A", "->", "hi"⟩, ⟨"A", "B", "->", "lost"⟩]⟩ (Nat.le_succ 1)
    (Nat.le_refl 2)
  obtain ⟨document, printed⟩ : ∃ document,
      print .bundled (.sequence ⟨["A"], [⟨"A", "A", "->", "hi"⟩, ⟨"A", "B", "->", "lost"⟩]⟩) =
        .ok document :=
    exists_print trivial (Sequence.isOnCanvas_drawing _) (by norm_num) extents
  obtain ⟨root, definitions, entities, relations, -, written, children, -, -, exhibits, -,
    lines, -, -⟩ := exists_children_of_print printed
  refine ⟨document, root, entities, relations, printed, written, ?_, exhibits, ?_⟩
  · rw [children]
    rfl
  · exact map_eq_map_of_forall₂ lines fun group element drawn => (Group.subject?_element drawn).1

end Diagram

end DiagramSketch
