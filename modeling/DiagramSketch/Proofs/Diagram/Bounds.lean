import DiagramSketch.Diagram
import DiagramSketch.Proofs.Text.Lines

/-!
# How large a diagram can be

Every line adds a bounded number of things to a diagram, so that the diagram of a source is no
larger than the number and the length of its lines.
-/

namespace DiagramSketch

open Text (AreBounded)

variable {count : Nat} {lines : List Text}

theorem length_filterMap_contentLines_le {α : Type} (bounded : AreBounded count lines)
    (read? : Text → Option α) :
    ((Text.contentLines lines).filterMap read?).length ≤ count :=
  (List.length_filterMap_le _ _).trans bounded.contentLines.few

theorem length_map_contentLines_le {α : Type} (bounded : AreBounded count lines)
    (read : Text → α) : ((Text.contentLines lines).map read).length ≤ count := by
  rw [List.length_map]
  exact bounded.contentLines.few

namespace Sequence

/-- What a number of lines can add to a sequence. -/
structure IsBounded (count : Nat) (sequence : Sequence) : Prop where
  participants : sequence.participants.length ≤ 2 * count
  interactions : sequence.interactions.length ≤ count

theorem length_introduce_le (name : Text) (sequence : Sequence) :
    (sequence.introduce name).participants.length ≤ sequence.participants.length + 1 := by
  unfold introduce
  split
  · exact Nat.le_succ _
  · simp

theorem IsBounded.follow {sequence : Sequence} (bounded : IsBounded count sequence) (line : Line) :
    IsBounded (count + 1) (sequence.follow line) := by
  obtain ⟨participants, interactions⟩ := bounded
  cases line with
  | declaration name =>
      have grown := length_introduce_le name sequence
      refine ⟨?_, ?_⟩
      · change (sequence.introduce name).participants.length ≤ _
        omega
      · change (sequence.introduce name).interactions.length ≤ _
        rw [interactions_introduce]
        omega
  | interaction told =>
      have first := length_introduce_le told.source sequence
      have second := length_introduce_le told.target (sequence.introduce told.source)
      refine ⟨?_, ?_⟩
      · change ((sequence.introduce told.source).introduce told.target).participants.length ≤ _
        omega
      · change (((sequence.introduce told.source).introduce told.target).interactions ++
          [told]).length ≤ _
        rw [interactions_introduce, interactions_introduce, List.length_append]
        exact Nat.succ_le_succ interactions

theorem bounds_ofLines (bounded : AreBounded count lines) :
    (ofLines lines).participants.length ≤ 2 * count ∧
      (ofLines lines).interactions.length ≤ count := by
  have read := length_filterMap_contentLines_le bounded Line.read?
  have start : IsBounded 0 empty := ⟨Nat.le_refl 0, Nat.le_refl 0⟩
  obtain ⟨participants, interactions⟩ := foldl_counts IsBounded empty
    ((Text.contentLines lines).filterMap Line.read?) (fun _ _ line _ reached => reached.follow line)
    start
  exact ⟨participants.trans (Nat.mul_le_mul_left 2 read), interactions.trans read⟩

end Sequence

namespace UseCases

/-- What a number of lines, none with more than `width` labels, can add to use cases. -/
structure IsBounded (width count : Nat) (useCases : UseCases) : Prop where
  actors : useCases.actors.length ≤ count
  labels : useCases.labels.length ≤ count * width

theorem length_including_le (names : List Text) (name : Text) :
    (including names name).length ≤ names.length + 1 := by
  unfold including
  split
  · exact Nat.le_succ _
  · simp

theorem length_foldl_including_le (added names : List Text) :
    (added.foldl including names).length ≤ names.length + added.length := by
  refine foldl_counts (fun done (found : List Text) => found.length ≤ names.length + done) names
    added ?_ (Nat.le_refl _)
  intro done found name _ reached
  exact (length_including_le found name).trans (Nat.succ_le_succ reached)

theorem length_labelsOf_le (line : Text) : (labelsOf line).length ≤ line.length := by
  have pieces := Text.length_splitOnP_le (· == ')') line
  refine (List.length_filterMap_le _ _).trans ?_
  rw [List.length_dropLast]
  exact Nat.sub_le_of_le_add pieces

theorem IsBounded.follow {width : Nat} {useCases : UseCases}
    (bounded : IsBounded width count useCases) {line : Text} (short : line.length ≤ width) :
    IsBounded width (count + 1) (useCases.follow (Line.read line)) := by
  obtain ⟨actors, labels⟩ := bounded
  unfold Line.read
  cases declared? line with
  | some actor =>
      refine ⟨(length_including_le _ _).trans (Nat.succ_le_succ actors), ?_⟩
      exact labels.trans (Nat.mul_le_mul_right width (Nat.le_succ count))
  | none =>
      refine ⟨actors.trans (Nat.le_succ count), ?_⟩
      have added := length_foldl_including_le (labelsOf line) useCases.labels
      have few := (length_labelsOf_le line).trans short
      change ((labelsOf line).foldl including useCases.labels).length ≤ _
      rw [Nat.add_one_mul]
      omega

theorem bounds_ofLines (bounded : AreBounded count lines) :
    (ofLines lines).actors.length ≤ count ∧ (ofLines lines).labels.length ≤ count * count := by
  obtain ⟨few, short⟩ := bounded.contentLines
  have start : IsBounded count 0 empty := ⟨Nat.le_refl 0, Nat.zero_le _⟩
  obtain ⟨actors, labels⟩ := foldl_counts (IsBounded count) empty (Text.contentLines lines)
    (fun _ _ line member reached => reached.follow (short line member)) start
  rw [← List.foldl_map] at actors labels
  exact ⟨actors.trans few, labels.trans (Nat.mul_le_mul_right count few)⟩

end UseCases

namespace Activity

theorem length_steps_le (bounded : AreBounded count lines) :
    (ofLines lines).steps.length ≤ count := by
  have read := length_filterMap_contentLines_le bounded Line.read?
  refine Nat.le_trans (foldl_counts
    (fun done (activity : Activity) => activity.steps.length ≤ done) empty
    ((Text.contentLines lines).filterMap Line.read?) ?_ (Nat.le_refl 0)) read
  intro done activity line _ reached
  cases line with
  | start => exact reached.trans (Nat.le_succ done)
  | stop => exact reached.trans (Nat.le_succ done)
  | step read =>
      change (activity.steps ++ [read]).length ≤ _
      rw [List.length_append]
      exact Nat.succ_le_succ reached

end Activity

namespace MindMap

theorem level_bounds {line : Text} {node : MindMapNode} (read : node? line = some node) :
    1 ≤ node.level ∧ node.level ≤ line.length := by
  have asterisks : (line.takeWhile (· == '*')).length ≤ line.length :=
    (List.takeWhile_prefix _).length_le
  unfold node? at read
  dsimp only at read
  split at read
  · cases read
  · split at read
    · cases read
      exact ⟨by dsimp only; omega, by dsimp only; omega⟩
    · split at read
      · cases read
        exact ⟨by dsimp only; omega, by dsimp only; omega⟩
      · split at read
        · cases read
          exact ⟨by dsimp only; omega, by dsimp only; omega⟩
        · cases read

theorem level_pos_of_mem_ofLines {node : MindMapNode} (member : node ∈ (ofLines lines).nodes) :
    1 ≤ node.level := by
  obtain ⟨line, -, read⟩ := List.mem_filterMap.mp member
  exact (level_bounds read).1

theorem bounds_ofLines (bounded : AreBounded count lines) :
    (ofLines lines).nodes.length ≤ count ∧
      ∀ node ∈ (ofLines lines).nodes, 1 ≤ node.level ∧ node.level ≤ count := by
  refine ⟨length_filterMap_contentLines_le bounded node?, fun node member => ?_⟩
  obtain ⟨line, inside, read⟩ := List.mem_filterMap.mp member
  obtain ⟨low, high⟩ := level_bounds read
  have short := bounded.contentLines.short line inside
  exact ⟨low, high.trans (by exact_mod_cast short)⟩

end MindMap

namespace ClassModel

/-- What a number of lines can add to a class model. -/
structure IsBounded (count : Nat) (model : ClassModel) : Prop where
  classes : model.classes.length ≤ count
  members : ∀ entry ∈ model.classes, entry.memberCount ≤ count

theorem IsBounded.introduce {model : ClassModel} (bounded : IsBounded count model) (name : Text) :
    IsBounded (count + 1) (model.introduce name) := by
  have later : ∀ entry ∈ model.classes, entry.memberCount ≤ count + 1 :=
    fun entry member => (bounded.members entry member).trans (Nat.le_succ count)
  unfold ClassModel.introduce
  split
  · exact ⟨bounded.classes.trans (Nat.le_succ count), later⟩
  · refine ⟨?_, List.forall_mem_append.mpr ⟨later, ?_⟩⟩
    · dsimp only
      rw [List.length_append]
      exact Nat.succ_le_succ bounded.classes
    · exact List.forall_mem_singleton.mpr (Nat.zero_le _)

theorem memberCount_addMember (line : Text) (entry : ClassEntry) (member : Member) :
    (addMember line entry member).memberCount = entry.memberCount + 1 := by
  cases member
  all_goals
    simp only [addMember, ClassEntry.memberCount, List.length_append, List.length_singleton]
    omega

theorem IsBounded.addTo {model : ClassModel} (bounded : IsBounded count model) (name line : Text) :
    IsBounded (count + 1) (model.addTo name line) := by
  have later : ∀ entry ∈ model.classes, entry.memberCount ≤ count + 1 :=
    fun entry member => (bounded.members entry member).trans (Nat.le_succ count)
  unfold ClassModel.addTo
  cases member? line with
  | none => exact ⟨bounded.classes.trans (Nat.le_succ count), later⟩
  | some member =>
      refine ⟨?_, fun entry inside => ?_⟩
      · dsimp only
        rw [List.length_map]
        exact bounded.classes.trans (Nat.le_succ count)
      · obtain ⟨old, oldInside, rfl⟩ := List.mem_map.mp inside
        split
        · rw [memberCount_addMember]
          exact Nat.succ_le_succ (bounded.members old oldInside)
        · exact later old oldInside

theorem IsBounded.follow {reading : Reading} (bounded : IsBounded count reading.model)
    (line : Line) : IsBounded (count + 1) (ClassModel.follow reading line).model := by
  have later : IsBounded (count + 1) reading.model :=
    ⟨bounded.classes.trans (Nat.le_succ count),
      fun entry member => (bounded.members entry member).trans (Nat.le_succ count)⟩
  cases line with
  | declaration name => exact bounded.introduce name
  | closing => exact later
  | content line =>
      unfold ClassModel.follow
      cases reading.openClass with
      | none => exact ⟨later.classes, later.members⟩
      | some name =>
          have added := bounded.addTo name line
          exact ⟨added.classes, added.members⟩

theorem bounds_ofLines (bounded : AreBounded count lines) :
    (ofLines lines).classes.length ≤ count ∧
      ∀ entry ∈ (ofLines lines).classes, entry.memberCount ≤ count := by
  have read := length_map_contentLines_le bounded Line.read
  have start : IsBounded 0 empty := ⟨Nat.le_refl 0, List.forall_mem_nil _⟩
  obtain ⟨classes, members⟩ := foldl_counts
    (fun done (reading : Reading) => IsBounded done reading.model)
    { model := empty, openClass := none } ((Text.contentLines lines).map Line.read)
    (fun _ _ line _ reached => reached.follow line) start
  exact ⟨classes.trans read, fun entry member => (members entry member).trans read⟩

end ClassModel

namespace Schedule

/-- What a number of lines can add to a schedule, in which no task takes less than no time. -/
structure IsBounded (count : Nat) (schedule : Schedule) : Prop where
  tasks : schedule.tasks.length ≤ count
  forward : ∀ task ∈ schedule.tasks, 0 ≤ task.days

theorem IsBounded.alter {schedule : Schedule} (bounded : IsBounded count schedule) (name : Text)
    {change : Task → Task} (keeps : ∀ task : Task, 0 ≤ task.days → 0 ≤ (change task).days) :
    IsBounded count (schedule.alter name change) := by
  refine ⟨?_, fun task member => ?_⟩
  · unfold Schedule.alter
    dsimp only
    rw [List.length_map]
    exact bounded.tasks
  · obtain ⟨old, inside, rfl⟩ := List.mem_map.mp member
    have forward := bounded.forward old inside
    split
    · exact keeps old forward
    · exact forward

theorem IsBounded.later {schedule : Schedule} (bounded : IsBounded count schedule) :
    IsBounded (count + 1) schedule :=
  ⟨bounded.tasks.trans (Nat.le_succ count), bounded.forward⟩

theorem IsBounded.setDuration {schedule : Schedule} (bounded : IsBounded count schedule)
    (name : Text) {days : Int} (forward : 0 ≤ days) :
    IsBounded (count + 1) (schedule.setDuration name days) := by
  unfold Schedule.setDuration
  split
  · exact (bounded.alter name fun task _ => forward).later
  · refine ⟨?_, List.forall_mem_append.mpr ⟨bounded.forward, ?_⟩⟩
    · dsimp only
      rw [List.length_append]
      exact Nat.succ_le_succ bounded.tasks
    · exact List.forall_mem_singleton.mpr forward

theorem IsBounded.follow {schedule next : Schedule} (bounded : IsBounded count schedule)
    {line : Line} (success : schedule.follow line = .ok next) : IsBounded (count + 1) next := by
  cases line with
  | start date =>
      cases success
      exact ⟨bounded.later.tasks, bounded.forward⟩
  | duration name amount =>
      obtain ⟨days, counted, rfl⟩ := map_eq_ok_iff.mp success
      obtain ⟨read, -, counted⟩ := bind_eq_ok_iff.mp counted
      cases counted
      exact bounded.setDuration name (Int.natCast_nonneg read)
  | order name predecessor =>
      cases success
      have keeps : ∀ task : Task, 0 ≤ task.days →
          0 ≤ ({ task with after := some predecessor } : Task).days := fun _ forward => forward
      exact (bounded.alter name keeps).later

theorem isBounded_ofLines {schedule : Schedule} (success : ofLines lines = .ok schedule) :
    IsBounded ((Text.contentLines lines).filterMap Line.read?).length schedule := by
  have start : IsBounded 0 empty := ⟨Nat.le_refl 0, List.forall_mem_nil _⟩
  exact foldlM_counts IsBounded empty ((Text.contentLines lines).filterMap Line.read?)
    (fun _ _ _ _ _ reached stepped => reached.follow stepped) start success

theorem bounds_ofLines (bounded : AreBounded count lines) {schedule : Schedule}
    (success : ofLines lines = .ok schedule) :
    schedule.tasks.length ≤ count ∧ ∀ task ∈ schedule.tasks, 0 ≤ task.days := by
  obtain ⟨tasks, forward⟩ := isBounded_ofLines success
  exact ⟨tasks.trans (length_filterMap_contentLines_le bounded Line.read?), forward⟩

end Schedule

namespace Components

/-- What a number of lines can add to components. -/
structure IsBounded (count : Nat) (components : Components) : Prop where
  packages : components.packages.length ≤ count
  members : ∀ package ∈ components.packages, package.members.length ≤ count
  standalone : components.standalone.length ≤ count

theorem IsBounded.later {components : Components} (bounded : IsBounded count components) :
    IsBounded (count + 1) components :=
  ⟨bounded.packages.trans (Nat.le_succ count),
    fun package member => (bounded.members package member).trans (Nat.le_succ count),
    bounded.standalone.trans (Nat.le_succ count)⟩

theorem IsBounded.place {components : Components} (bounded : IsBounded count components)
    (name : Text) (container : Container) :
    IsBounded (count + 1) (components.place name container) := by
  obtain ⟨packages, members, standalone⟩ := bounded.later
  cases container with
  | none =>
      refine ⟨packages, members, ?_⟩
      change (components.standalone ++ [name]).length ≤ _
      rw [List.length_append]
      exact Nat.succ_le_succ bounded.standalone
  | some index =>
      refine ⟨?_, fun package member => ?_, standalone⟩
      · change (components.packages.modify index _).length ≤ _
        rw [List.length_modify]
        exact packages
      · rcases exists_of_mem_modify member with ⟨old, inside, rfl | rfl⟩
        · exact members package inside
        · rw [List.length_append]
          exact Nat.succ_le_succ (bounded.members old inside)

theorem IsBounded.declare {components : Components} (bounded : IsBounded count components)
    (name : Text) (given : Option Text) (container : Container) :
    IsBounded (count + 1) (components.declare name given container) := by
  have placed : IsBounded (count + 1)
      (if (components.aliases.find? name).isSome then components
        else components.place name container) := by
    split
    · exact bounded.later
    · exact bounded.place name container
  exact ⟨placed.packages, placed.members, placed.standalone⟩

theorem IsBounded.follow {reading : Reading} (bounded : IsBounded count reading.components)
    (line : Line) : IsBounded (count + 1) (Components.follow reading line).components := by
  have later := bounded.later
  cases line with
  | closing => exact later
  | package name =>
      refine ⟨?_, List.forall_mem_append.mpr ⟨later.members, ?_⟩, later.standalone⟩
      · change (reading.components.packages ++ [_]).length ≤ _
        rw [List.length_append]
        exact Nat.succ_le_succ bounded.packages
      · exact List.forall_mem_singleton.mpr (Nat.zero_le _)
  | connection read => exact ⟨later.packages, later.members, later.standalone⟩
  | component name given => exact bounded.declare name given reading.container

theorem bounds_ofLines (bounded : AreBounded count lines) :
    (ofLines lines).packages.length ≤ count ∧
      (∀ package ∈ (ofLines lines).packages, package.members.length ≤ count) ∧
      (ofLines lines).standalone.length ≤ count := by
  have read := length_filterMap_contentLines_le bounded Line.read?
  have start : IsBounded 0 empty := ⟨Nat.le_refl 0, List.forall_mem_nil _, Nat.le_refl 0⟩
  obtain ⟨packages, members, standalone⟩ := foldl_counts
    (fun done (reading : Reading) => IsBounded done reading.components)
    { components := empty, isOpen := false } ((Text.contentLines lines).filterMap Line.read?)
    (fun _ _ line _ reached => reached.follow line) start
  exact ⟨packages.trans read, fun package member => (members package member).trans read,
    standalone.trans read⟩

end Components

end DiagramSketch
