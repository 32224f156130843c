import DiagramSketch.Proofs.Diagram.Drawing
import DiagramSketch.Proofs.Growth

/-!
# Diagrams that grow

A source that goes on after some of its lines only adds to what these lines describe.  Whatever has
been named keeps its place, members are added after those that are there, and no relation that
leads from one thing to another is lost.
-/

namespace DiagramSketch

theorem Text.contentLines_append (first second : List Text) :
    contentLines (first ++ second) = contentLines first ++ contentLines second :=
  List.filter_append first second

/-! ## Sequences -/

namespace Sequence

/-- What later lines leave of a sequence. -/
structure IsExtendedBy (earlier later : Sequence) : Prop where
  participants : earlier.participants <+: later.participants
  interactions : earlier.interactions <+: later.interactions
  connects : ∀ interaction, earlier.connects interaction = true →
    later.connects interaction = true

theorem IsExtendedBy.of_parts {earlier later : Sequence}
    (participants : earlier.participants <+: later.participants)
    (interactions : earlier.interactions <+: later.interactions) :
    earlier.IsExtendedBy later := by
  refine ⟨participants, interactions, ?_⟩
  intro interaction connects
  simp only [Sequence.connects, Bool.and_eq_true, List.contains_iff_mem] at connects ⊢
  exact ⟨participants.subset connects.1, participants.subset connects.2⟩

theorem IsExtendedBy.refl (sequence : Sequence) : sequence.IsExtendedBy sequence :=
  .of_parts (List.prefix_refl _) (List.prefix_refl _)

theorem IsExtendedBy.trans {first second third : Sequence} (start : first.IsExtendedBy second)
    (rest : second.IsExtendedBy third) : first.IsExtendedBy third :=
  .of_parts (start.participants.trans rest.participants)
    (start.interactions.trans rest.interactions)

theorem isExtendedBy_introduce (name : Text) (sequence : Sequence) :
    sequence.IsExtendedBy (sequence.introduce name) := by
  unfold introduce
  split
  · exact .refl sequence
  · exact .of_parts (List.prefix_append _ _) (List.prefix_refl _)

theorem isExtendedBy_follow (sequence : Sequence) (line : Line) :
    sequence.IsExtendedBy (sequence.follow line) := by
  cases line with
  | declaration name => exact isExtendedBy_introduce name sequence
  | interaction told =>
      have source := isExtendedBy_introduce told.source sequence
      have target := isExtendedBy_introduce told.target (sequence.introduce told.source)
      apply (source.trans target).trans
      exact .of_parts (List.prefix_refl _) (List.prefix_append _ _)

theorem isExtendedBy_ofLines (first second : List Text) :
    (ofLines first).IsExtendedBy (ofLines (first ++ second)) := by
  simp only [ofLines, Text.contentLines_append, List.filterMap_append, List.foldl_append]
  exact relates_foldl IsExtendedBy .refl .trans isExtendedBy_follow _ _

end Sequence

/-! ## Class models -/

/-- What later lines leave of a class. -/
structure ClassEntry.IsExtendedBy (earlier later : ClassEntry) : Prop where
  name : earlier.name = later.name
  attributes : earlier.attributes <+: later.attributes
  methods : earlier.methods <+: later.methods

theorem ClassEntry.IsExtendedBy.refl (entry : ClassEntry) : entry.IsExtendedBy entry :=
  ⟨rfl, List.prefix_refl _, List.prefix_refl _⟩

theorem ClassEntry.IsExtendedBy.trans (first second third : ClassEntry)
    (start : first.IsExtendedBy second) (rest : second.IsExtendedBy third) :
    first.IsExtendedBy third :=
  ⟨start.name.trans rest.name, start.attributes.trans rest.attributes,
    start.methods.trans rest.methods⟩

namespace ClassModel

/-- What later lines leave of a class model. -/
structure IsExtendedBy (earlier later : ClassModel) : Prop where
  classes : GrowsInto ClassEntry.IsExtendedBy earlier.classes later.classes
  relationships : earlier.relationships <+: later.relationships
  connects : ∀ relationship, earlier.connects relationship = true →
    later.connects relationship = true

theorem IsExtendedBy.of_parts {earlier later : ClassModel}
    (classes : GrowsInto ClassEntry.IsExtendedBy earlier.classes later.classes)
    (relationships : earlier.relationships <+: later.relationships) :
    earlier.IsExtendedBy later := by
  refine ⟨classes, relationships, ?_⟩
  intro relationship connects
  have names := (classes.prefix_map fun _ _ extended => extended.name).subset
  simp only [ClassModel.connects, hasClass, Bool.and_eq_true, List.contains_iff_mem]
    at connects ⊢
  exact ⟨names connects.1, names connects.2⟩

theorem IsExtendedBy.refl (model : ClassModel) : model.IsExtendedBy model :=
  .of_parts (.refl .refl _) (List.prefix_refl _)

theorem IsExtendedBy.trans {first second third : ClassModel} (start : first.IsExtendedBy second)
    (rest : second.IsExtendedBy third) : first.IsExtendedBy third :=
  .of_parts (.trans ClassEntry.IsExtendedBy.trans start.classes rest.classes)
    (start.relationships.trans rest.relationships)

theorem isExtendedBy_introduce (name : Text) (model : ClassModel) :
    model.IsExtendedBy (model.introduce name) := by
  unfold introduce
  split
  · exact .refl model
  · exact .of_parts (.append_right .refl _ _) (List.prefix_refl _)

theorem isExtendedBy_addMember (line : Text) (entry : ClassEntry) :
    ∀ member : Member, entry.IsExtendedBy (addMember line entry member)
  | .attribute => ⟨rfl, List.prefix_append _ _, List.prefix_refl _⟩
  | .method => ⟨rfl, List.prefix_refl _, List.prefix_append _ _⟩

theorem isExtendedBy_addTo (name line : Text) (model : ClassModel) :
    model.IsExtendedBy (model.addTo name line) := by
  unfold addTo
  cases member? line with
  | none => exact .refl model
  | some member =>
      apply IsExtendedBy.of_parts
      · apply GrowsInto.map
        intro entry _
        split
        · exact isExtendedBy_addMember line entry member
        · exact .refl entry
      · exact List.prefix_refl _

/-- Whichever class is open, a line only adds to the model. -/
theorem isExtendedBy_follow (reading : Reading) (line : Line) :
    reading.model.IsExtendedBy (follow reading line).model := by
  cases line with
  | declaration name => exact isExtendedBy_introduce name reading.model
  | closing => exact .refl reading.model
  | content line =>
      have related (model : ClassModel) : model.IsExtendedBy { model with
          relationships := model.relationships ++ (findRelationship? false line).toList } :=
        .of_parts (.refl .refl _) (List.prefix_append _ _)
      unfold follow
      cases reading.openClass with
      | none => exact related reading.model
      | some name => exact (isExtendedBy_addTo name line reading.model).trans (related _)

theorem isExtendedBy_ofLines (first second : List Text) :
    (ofLines first).IsExtendedBy (ofLines (first ++ second)) := by
  simp only [ofLines, Text.contentLines_append, List.map_append, List.foldl_append]
  exact relates_foldl (fun start final : Reading => start.model.IsExtendedBy final.model)
    (fun reading => .refl reading.model) .trans isExtendedBy_follow _ _

end ClassModel

/-! ## Use cases -/

namespace UseCases

/-- What later lines leave of use cases. -/
structure IsExtendedBy (earlier later : UseCases) : Prop where
  actors : earlier.actors <+: later.actors
  labels : earlier.labels <+: later.labels
  links : earlier.links <+: later.links
  connects : ∀ link, earlier.connects link = true → later.connects link = true

theorem IsExtendedBy.of_parts {earlier later : UseCases}
    (actors : earlier.actors <+: later.actors) (labels : earlier.labels <+: later.labels)
    (links : earlier.links <+: later.links) : earlier.IsExtendedBy later := by
  refine ⟨actors, labels, links, ?_⟩
  intro link connects
  simp only [UseCases.connects, Bool.and_eq_true, List.contains_iff_mem] at connects ⊢
  exact ⟨actors.subset connects.1, labels.subset connects.2⟩

theorem IsExtendedBy.refl (useCases : UseCases) : useCases.IsExtendedBy useCases :=
  .of_parts (List.prefix_refl _) (List.prefix_refl _) (List.prefix_refl _)

theorem IsExtendedBy.trans {first second third : UseCases} (start : first.IsExtendedBy second)
    (rest : second.IsExtendedBy third) : first.IsExtendedBy third :=
  .of_parts (start.actors.trans rest.actors) (start.labels.trans rest.labels)
    (start.links.trans rest.links)

theorem prefix_including (names : List Text) (name : Text) : names <+: including names name := by
  unfold including
  split
  · exact List.prefix_refl _
  · exact List.prefix_append _ _

theorem isExtendedBy_follow (useCases : UseCases) (line : Line) :
    useCases.IsExtendedBy (useCases.follow line) := by
  cases line with
  | declaration actor =>
      exact .of_parts (prefix_including _ _) (List.prefix_refl _) (List.prefix_refl _)
  | content labels link =>
      have included : useCases.labels <+: labels.foldl including useCases.labels :=
        relates_foldl (· <+: ·) List.prefix_refl .trans prefix_including _ _
      exact .of_parts (List.prefix_refl _) included (List.prefix_append _ _)

theorem isExtendedBy_ofLines (first second : List Text) :
    (ofLines first).IsExtendedBy (ofLines (first ++ second)) := by
  simp only [ofLines, Text.contentLines_append, List.map_append, List.foldl_append]
  exact relates_foldl IsExtendedBy .refl .trans isExtendedBy_follow _ _

end UseCases

/-! ## Activities -/

namespace Activity

/-- What later lines leave of an activity.  It refers to nothing: its arrows follow the lane. -/
structure IsExtendedBy (earlier later : Activity) : Prop where
  start : earlier.hasStart = true → later.hasStart = true
  stop : earlier.hasStop = true → later.hasStop = true
  steps : earlier.steps <+: later.steps

theorem IsExtendedBy.refl (activity : Activity) : activity.IsExtendedBy activity :=
  ⟨id, id, List.prefix_refl _⟩

theorem IsExtendedBy.trans {first second third : Activity} (start : first.IsExtendedBy second)
    (rest : second.IsExtendedBy third) : first.IsExtendedBy third :=
  ⟨rest.start ∘ start.start, rest.stop ∘ start.stop, start.steps.trans rest.steps⟩

theorem isExtendedBy_follow (activity : Activity) (line : Line) :
    activity.IsExtendedBy (activity.follow line) := by
  cases line with
  | start => exact ⟨fun _ => rfl, id, List.prefix_refl _⟩
  | stop => exact ⟨id, fun _ => rfl, List.prefix_refl _⟩
  | step read => exact ⟨id, id, List.prefix_append _ _⟩

theorem isExtendedBy_ofLines (first second : List Text) :
    (ofLines first).IsExtendedBy (ofLines (first ++ second)) := by
  simp only [ofLines, Text.contentLines_append, List.filterMap_append, List.foldl_append]
  exact relates_foldl IsExtendedBy .refl .trans isExtendedBy_follow _ _

end Activity

/-! ## Components -/

/-- What later lines leave of a package. -/
structure Package.IsExtendedBy (earlier later : Package) : Prop where
  name : earlier.name = later.name
  members : earlier.members <+: later.members

theorem Package.IsExtendedBy.refl (package : Package) : package.IsExtendedBy package :=
  ⟨rfl, List.prefix_refl _⟩

theorem Package.IsExtendedBy.trans (first second third : Package)
    (start : first.IsExtendedBy second) (rest : second.IsExtendedBy third) :
    first.IsExtendedBy third :=
  ⟨start.name.trans rest.name, start.members.trans rest.members⟩

namespace Components

/-- What later lines leave of components.  A key can come to stand for another component. -/
structure IsExtendedBy (earlier later : Components) : Prop where
  packages : GrowsInto Package.IsExtendedBy earlier.packages later.packages
  standalone : earlier.standalone <+: later.standalone
  connections : earlier.connections <+: later.connections
  keys : earlier.registry.names <+: later.registry.names
  connects : ∀ connection, earlier.connects connection = true →
    later.connects connection = true

theorem IsExtendedBy.of_parts {earlier later : Components}
    (packages : GrowsInto Package.IsExtendedBy earlier.packages later.packages)
    (standalone : earlier.standalone <+: later.standalone)
    (connections : earlier.connections <+: later.connections)
    (keys : earlier.registry.names <+: later.registry.names) : earlier.IsExtendedBy later := by
  refine ⟨packages, standalone, connections, keys, ?_⟩
  intro connection connects
  simp only [Components.connects, Bool.and_eq_true, List.contains_iff_mem] at connects ⊢
  exact ⟨keys.subset connects.1, keys.subset connects.2⟩

theorem IsExtendedBy.refl (components : Components) : components.IsExtendedBy components :=
  .of_parts (.refl .refl _) (List.prefix_refl _) (List.prefix_refl _) (List.prefix_refl _)

theorem IsExtendedBy.trans {first second third : Components} (start : first.IsExtendedBy second)
    (rest : second.IsExtendedBy third) : first.IsExtendedBy third :=
  .of_parts (.trans Package.IsExtendedBy.trans start.packages rest.packages)
    (start.standalone.trans rest.standalone) (start.connections.trans rest.connections)
    (start.keys.trans rest.keys)

theorem isExtendedBy_place (name : Text) (container : Container) (components : Components) :
    components.IsExtendedBy (components.place name container) := by
  cases container with
  | none =>
      exact .of_parts (.refl .refl _) (List.prefix_append _ _) (List.prefix_refl _)
        (List.prefix_refl _)
  | some index =>
      apply IsExtendedBy.of_parts
      · apply GrowsInto.modify .refl
        intro package
        exact ⟨rfl, List.prefix_append _ _⟩
      · exact List.prefix_refl _
      · exact List.prefix_refl _
      · exact List.prefix_refl _

theorem prefix_names_assign {α : Type} (entries : Keyed α) (name : Text) (value : α) :
    entries.names <+: (entries.assign name value).names := by
  rw [Keyed.names_assign]
  split
  · exact List.prefix_refl _
  · exact List.prefix_append _ _

theorem isExtendedBy_declare (name : Text) (given : Option Text) (container : Container)
    (components : Components) :
    components.IsExtendedBy (components.declare name given container) := by
  have placed : components.IsExtendedBy
      (if (components.aliases.find? name).isSome then components
        else components.place name container) := by
    split
    · exact .refl components
    · exact isExtendedBy_place name container components
  have keys : components.registry.names <+:
      (components.declare name given container).registry.names :=
    (prefix_names_assign _ _ _).trans (prefix_names_assign _ _ _)
  exact .of_parts placed.packages placed.standalone placed.connections keys

/-- Whether a package is open or not, a line only adds to the components. -/
theorem isExtendedBy_follow (reading : Reading) (line : Line) :
    reading.components.IsExtendedBy (follow reading line).components := by
  cases line with
  | closing => exact .refl reading.components
  | package name =>
      exact .of_parts (.append_right .refl _ _) (List.prefix_refl _) (List.prefix_refl _)
        (List.prefix_refl _)
  | connection read =>
      exact .of_parts (.refl .refl _) (List.prefix_refl _) (List.prefix_append _ _)
        (List.prefix_refl _)
  | component name given => exact isExtendedBy_declare name given _ reading.components

theorem isExtendedBy_ofLines (first second : List Text) :
    (ofLines first).IsExtendedBy (ofLines (first ++ second)) := by
  simp only [ofLines, Text.contentLines_append, List.filterMap_append, List.foldl_append]
  exact relates_foldl
    (fun start final : Reading => start.components.IsExtendedBy final.components)
    (fun reading => .refl reading.components) .trans isExtendedBy_follow _ _

end Components

/-! ## Mind maps -/

namespace MindMap

/-- What later lines leave of a mind map. -/
structure IsExtendedBy (earlier later : MindMap) : Prop where
  nodes : earlier.nodes <+: later.nodes
  parents : ∀ index parent, earlier.parent? index = some parent →
    later.parent? index = some parent

/-- A parent is looked for among earlier nodes, so later ones do not matter. -/
theorem parent?_of_nodes {earlier later : MindMap} (nodes : earlier.nodes <+: later.nodes)
    {index parent : Nat} (isParent : earlier.parent? index = some parent) :
    later.parent? index = some parent := by
  obtain ⟨added, same⟩ := nodes
  obtain ⟨node, place, -⟩ := Option.bind_eq_some_iff.mp isParent
  have inside : index < earlier.nodes.length := (List.getElem?_eq_some_iff.mp place).1
  cases later
  cases same
  exact (parent?_append added inside).trans isParent

theorem isExtendedBy_ofLines (first second : List Text) :
    (ofLines first).IsExtendedBy (ofLines (first ++ second)) := by
  have nodes : (ofLines first).nodes <+: (ofLines (first ++ second)).nodes := by
    simp only [ofLines, Text.contentLines_append, List.filterMap_append]
    exact List.prefix_append _ _
  exact ⟨nodes, fun _ _ isParent => parent?_of_nodes nodes isParent⟩

end MindMap

/-! ## Schedules -/

namespace Schedule

/-- What later lines leave of a schedule.  Durations can change. -/
structure IsExtendedBy (earlier later : Schedule) : Prop where
  tasks : earlier.tasks.map Task.name <+: later.tasks.map Task.name

theorem IsExtendedBy.refl (schedule : Schedule) : schedule.IsExtendedBy schedule :=
  ⟨List.prefix_refl _⟩

theorem IsExtendedBy.trans {first second third : Schedule} (start : first.IsExtendedBy second)
    (rest : second.IsExtendedBy third) : first.IsExtendedBy third :=
  ⟨start.tasks.trans rest.tasks⟩

theorem names_alter (name : Text) (change : Task → Task)
    (kept : ∀ task : Task, (change task).name = task.name) (schedule : Schedule) :
    (schedule.alter name change).tasks.map Task.name = schedule.tasks.map Task.name := by
  unfold alter
  rw [List.map_map]
  apply List.map_congr_left
  intro task _
  dsimp only [Function.comp_apply]
  split
  · exact kept task
  · rfl

theorem isExtendedBy_setDuration (name : Text) (days : Int) (schedule : Schedule) :
    schedule.IsExtendedBy (schedule.setDuration name days) := by
  unfold setDuration
  split
  · constructor
    rw [names_alter name (fun task => { task with days }) fun _ => rfl]
  · constructor
    rw [List.map_append]
    exact List.prefix_append _ _

theorem isExtendedBy_follow {schedule next : Schedule} {line : Line}
    (success : schedule.follow line = .ok next) : schedule.IsExtendedBy next := by
  cases line with
  | start date =>
      cases success
      exact ⟨List.prefix_refl _⟩
  | duration name amount =>
      obtain ⟨days, -, rfl⟩ := map_eq_ok_iff.mp success
      exact isExtendedBy_setDuration name days schedule
  | order name predecessor =>
      cases success
      constructor
      rw [names_alter name (fun task => { task with after := some predecessor }) fun _ => rfl]

/-- Lines that can be read at all can be read as far as they go. -/
theorem ofLines_append_eq_ok_iff {first second : List Text} {later : Schedule} :
    ofLines (first ++ second) = .ok later ↔ ∃ earlier, ofLines first = .ok earlier ∧
      ((Text.contentLines second).filterMap Line.read?).foldlM follow earlier = .ok later := by
  unfold ofLines
  rw [Text.contentLines_append, List.filterMap_append]
  exact foldlM_append_eq_ok_iff

end Schedule

/-! ## All kinds -/

namespace Diagram

/-- What later lines leave of a diagram. -/
inductive IsExtendedBy : Diagram → Diagram → Prop where
  | sequence {earlier later : Sequence} (extended : earlier.IsExtendedBy later) :
      IsExtendedBy (.sequence earlier) (.sequence later)
  | classes {earlier later : ClassModel} (extended : earlier.IsExtendedBy later) :
      IsExtendedBy (.classes earlier) (.classes later)
  | useCase {earlier later : UseCases} (extended : earlier.IsExtendedBy later) :
      IsExtendedBy (.useCase earlier) (.useCase later)
  | activity {earlier later : Activity} (extended : earlier.IsExtendedBy later) :
      IsExtendedBy (.activity earlier) (.activity later)
  | component {earlier later : Components} (extended : earlier.IsExtendedBy later) :
      IsExtendedBy (.component earlier) (.component later)
  | mindMap {earlier later : MindMap} (extended : earlier.IsExtendedBy later) :
      IsExtendedBy (.mindMap earlier) (.mindMap later)
  | gantt {earlier later : Schedule} (extended : earlier.IsExtendedBy later) :
      IsExtendedBy (.gantt earlier) (.gantt later)
  | panel {earlier later : Panel} (extended : earlier.lineCount ≤ later.lineCount) :
      IsExtendedBy (.panel earlier) (.panel later)

/-- Lines that can be read as a diagram of some kind can be read without the last of them, and these
only extend what the others describe. -/
theorem exists_isExtendedBy_of_read {first second : List Text} {kind : Kind} {later : Diagram}
    (readAll : read (first ++ second) kind = .ok later) :
    ∃ earlier, read first kind = .ok earlier ∧ earlier.IsExtendedBy later := by
  cases kind with
  | sequence =>
      cases readAll
      exact ⟨_, rfl, .sequence (Sequence.isExtendedBy_ofLines first second)⟩
  | classes =>
      cases readAll
      exact ⟨_, rfl, .classes (ClassModel.isExtendedBy_ofLines first second)⟩
  | useCase =>
      cases readAll
      exact ⟨_, rfl, .useCase (UseCases.isExtendedBy_ofLines first second)⟩
  | activity =>
      cases readAll
      exact ⟨_, rfl, .activity (Activity.isExtendedBy_ofLines first second)⟩
  | component =>
      cases readAll
      exact ⟨_, rfl, .component (Components.isExtendedBy_ofLines first second)⟩
  | mindMap =>
      cases readAll
      exact ⟨_, rfl, .mindMap (MindMap.isExtendedBy_ofLines first second)⟩
  | gantt =>
      obtain ⟨schedule, readSchedule, rfl⟩ := map_eq_ok_iff.mp readAll
      obtain ⟨earlier, readFirst, rest⟩ := Schedule.ofLines_append_eq_ok_iff.mp readSchedule
      refine ⟨.gantt earlier, map_eq_ok_iff.mpr ⟨earlier, readFirst, rfl⟩, .gantt ?_⟩
      apply relates_foldlM Schedule.IsExtendedBy .refl .trans ?_ rest
      intro state next line _ stepped
      exact Schedule.isExtendedBy_follow stepped
  | panel =>
      cases readAll
      refine ⟨_, rfl, .panel ?_⟩
      change (first.length : Int) ≤ (first ++ second).length
      rw [List.length_append]
      omega

/-- A package that is open goes on being filled, and an alias can be given away. -/
theorem isExtendedBy_open_package : ∃ earlier, ∃ later : Components,
    read ((["package A \x7b", "[X] as x"] : List Text) ++ (["[Y] as x", "x -> X"] : List Text))
      .component = .ok (component later) ∧
    read ["package A \x7b", "[X] as x"] .component = .ok earlier ∧
    earlier.IsExtendedBy (component later) ∧
    later.packages = [⟨some "A", ["X", "Y"]⟩] ∧
    later.registry.names = ["X", "x", "Y"] := by
  have readAny (lines : List Text) :
      read lines .component = .ok (component (.ofLines lines)) := rfl
  obtain ⟨earlier, readFirst, extended⟩ := exists_isExtendedBy_of_read
    (readAny ((["package A \x7b", "[X] as x"] : List Text) ++ (["[Y] as x", "x -> X"] : List Text)))
  exact ⟨earlier, _, readAny _, readFirst, extended, by decide +kernel, by decide +kernel⟩

end Diagram

end DiagramSketch
