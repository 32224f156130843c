import DiagramSketch.Font.Bundled
import DiagramSketch.Proofs.Diagram.Growth

/-!
# Canvases that grow

No canvas is empty, and a canvas never becomes smaller when lines are added to a source.  The only
exception is the width of a schedule in which a duration is replaced.
-/

namespace DiagramSketch

namespace Canvas

/-- A canvas with some room on it. -/
structure IsPositive (canvas : Canvas) : Prop where
  width : 0 < canvas.width
  height : 0 < canvas.height

/-- The other canvas is at least as wide and as high. -/
structure IsWithin (small large : Canvas) : Prop where
  width : small.width ≤ large.width
  height : small.height ≤ large.height

end Canvas

/-- Rounding up keeps the order. -/
theorem ceil_add_le_ceil_add {left right : Rat} (below : left ≤ right) (room : Rat) :
    (((left + room).ceil : Int) : Rat) ≤ ((right + room).ceil : Int) := by
  have rounded : (left + room).ceil ≤ (right + room).ceil :=
    Rat.ceil_le_iff.mpr ((add_le_add_left below room).trans Rat.le_ceil)
  exact_mod_cast rounded

theorem GrowsInto.largest_map_le {α : Type} {relation : α → α → Prop} {earlier later : List α}
    (grows : GrowsInto relation earlier later) {size : α → Rat}
    (sized : ∀ entry other, relation entry other → size entry ≤ size other) (first : Rat) :
    largest first (earlier.map size) ≤ largest first (later.map size) := by
  apply largest_le (le_largest_self _ _)
  intro value member
  obtain ⟨entry, inside, rfl⟩ := List.mem_map.mp member
  obtain ⟨other, found, related⟩ := grows.exists_of_mem inside
  exact (sized entry other related).trans (le_largest (List.mem_map_of_mem found))

namespace Sequence

theorem isPositive_canvas (sequence : Sequence) : sequence.layout.canvas.IsPositive := by
  obtain ⟨wide, high⟩ := sequence.canvas_bounds
  constructor <;> linarith

theorem IsExtendedBy.isWithin_canvas {earlier later : Sequence}
    (extended : earlier.IsExtendedBy later) :
    earlier.layout.canvas.IsWithin later.layout.canvas := by
  have columns : (earlier.participants.length : Rat) ≤ later.participants.length := by
    exact_mod_cast extended.participants.length_le
  have rows : (earlier.interactions.length : Rat) ≤ later.interactions.length := by
    exact_mod_cast extended.interactions.length_le
  constructor
  · apply larger_le_larger le_rfl
    rw [columnSpacing]
    linarith
  · simp only [layout, rowSpacing]
    linarith

end Sequence

namespace ClassModel

theorem isPositive_canvas (font : Font) (model : ClassModel) :
    (model.plan font).canvas.IsPositive := by
  obtain ⟨wide, -, high, -⟩ := model.canvas_bounds font
  constructor <;> linarith

theorem widthOf_le_widthOf (font : Font) {entry other : ClassEntry}
    (extended : entry.IsExtendedBy other) :
    widthOf font entry ≤ widthOf font other := by
  obtain ⟨name, attributes, methods⟩ := extended
  have wider : widest font entry ≤ widest font other := by
    unfold widest
    rw [name]
    apply largest_le (le_largest_self _ _)
    intro value member
    obtain ⟨line, inside, rfl⟩ := List.mem_map.mp member
    apply le_largest
    apply List.mem_map_of_mem
    rcases List.mem_append.mp inside with first | last
    · exact List.mem_append_left _ (attributes.subset first)
    · exact List.mem_append_right _ (methods.subset last)
  apply larger_le_larger le_rfl
  exact ceil_add_le_ceil_add wider 20

theorem boxHeight_le_boxHeight {entry other : ClassEntry} (extended : entry.IsExtendedBy other) :
    boxHeight entry ≤ boxHeight other := by
  have members : (entry.memberCount : Rat) ≤ other.memberCount := by
    exact_mod_cast Nat.add_le_add extended.attributes.length_le extended.methods.length_le
  rw [boxHeight, boxHeight, memberSpacing]
  linarith

/-- Every box moves the end of the row to the right, and a box that widens moves it further. -/
theorem rowEnd_le_rowEnd (font : Font) {earlier later : List ClassEntry}
    (grows : GrowsInto ClassEntry.IsExtendedBy earlier later) {x y : Rat} (before : x ≤ y) :
    rowEnd font x earlier ≤ rowEnd font y later := by
  induction grows generalizing x y with
  | start added => exact before.trans (le_rowEnd font y added)
  | keep extended rest induction =>
      have wider := widthOf_le_widthOf font extended
      apply induction
      rw [boxGap]
      linarith

theorem IsExtendedBy.isWithin_canvas (font : Font) {earlier later : ClassModel}
    (extended : earlier.IsExtendedBy later) :
    (earlier.plan font).canvas.IsWithin (later.plan font).canvas := by
  have count := extended.classes.length_le
  have classes : (earlier.classes.length : Rat) ≤ later.classes.length := by exact_mod_cast count
  have further : ((earlier.classes.length - 2 : Nat) : Rat) ≤
      ((later.classes.length - 2 : Nat) : Rat) := by
    exact_mod_cast Nat.sub_le_sub_right count 2
  have tall := extended.classes.largest_map_le (fun _ _ => boxHeight_le_boxHeight) 0
  constructor
  · apply larger_le_larger
    · apply larger_le_larger le_rfl
      linarith
    · exact rowEnd_le_rowEnd font extended.classes le_rfl
  · apply larger_le_larger
    · linarith
    · linarith

end ClassModel

namespace UseCases

theorem isPositive_canvas (useCases : UseCases) : useCases.layout.canvas.IsPositive := by
  obtain ⟨wide, high, -⟩ := useCases.canvas_bounds
  constructor <;> linarith

theorem IsExtendedBy.isWithin_canvas {earlier later : UseCases}
    (extended : earlier.IsExtendedBy later) :
    earlier.layout.canvas.IsWithin later.layout.canvas := by
  have actors : (earlier.actors.length : Rat) ≤ later.actors.length := by
    exact_mod_cast extended.actors.length_le
  have labels : (earlier.labels.length : Rat) ≤ later.labels.length := by
    exact_mod_cast extended.labels.length_le
  have longest : larger (earlier.actors.length * 100) (earlier.labels.length * 80) ≤
      larger (later.actors.length * 100) (later.labels.length * 80) := by
    apply larger_le_larger
    · linarith
    · linarith
  constructor
  · exact le_refl (800 : Rat)
  · apply larger_le_larger le_rfl
    linarith

end UseCases

namespace Activity

theorem isPositive_canvas (font : Font) (activity : Activity) :
    (activity.canvas font).IsPositive := by
  have wide : 400 ≤ (activity.canvas font).width := le_larger_left 400 _
  have some : (0 : Rat) ≤ activity.steps.length := Nat.cast_nonneg _
  constructor
  · linarith
  · simp only [canvas, stepSpacing]
    split <;> split <;> linarith

/-- A step can move down the lane, but its node stays as wide. -/
theorem nodeOf_halfWidth_eq (font : Font) (y z : Rat) (step : ActivityStep) :
    (nodeOf font y step).halfWidth = (nodeOf font z step).halfWidth := by
  unfold nodeOf
  split <;> rfl

theorem IsExtendedBy.exists_halfWidth {font : Font} {earlier later : Activity}
    (extended : earlier.IsExtendedBy later) {node : Node} (member : node ∈ earlier.placed font) :
    ∃ other ∈ later.placed font, other.halfWidth = node.halfWidth := by
  cases mem_placed_iff.mp member with
  | start asked => exact ⟨_, mem_placed_iff.mpr (.start (extended.start asked)), rfl⟩
  | @step told index listed =>
      obtain ⟨place, found⟩ :=
        List.getElem?_of_mem (extended.steps.subset (List.fst_mem_of_mem_zipIdx listed))
      have moved : (told, place) ∈ later.steps.zipIdx := List.mem_zipIdx_iff_getElem?.mpr found
      exact ⟨_, mem_placed_iff.mpr (.step moved), nodeOf_halfWidth_eq font _ _ _⟩
  | stop asked => exact ⟨_, mem_placed_iff.mpr (.stop (extended.stop asked)), rfl⟩

theorem IsExtendedBy.isWithin_canvas (font : Font) {earlier later : Activity}
    (extended : earlier.IsExtendedBy later) :
    (earlier.canvas font).IsWithin (later.canvas font) := by
  have rows : (earlier.steps.length : Rat) ≤ later.steps.length := by
    exact_mod_cast extended.steps.length_le
  have ends (first last : Bool) (kept : first = true → last = true) :
      (if first then 50 else 0 : Rat) ≤ if last then 50 else 0 := by
    cases first with
    | false =>
        rw [if_neg Bool.false_ne_true]
        split <;> norm_num
    | true => rw [kept rfl]
  have top := ends _ _ extended.start
  have bottom := ends _ _ extended.stop
  have wider : earlier.widest font ≤ later.widest font := by
    apply largest_le (le_largest_self _ _)
    intro value member
    obtain ⟨node, inside, rfl⟩ := List.mem_map.mp member
    obtain ⟨other, found, same⟩ := extended.exists_halfWidth inside
    rw [← same]
    exact le_largest (List.mem_map_of_mem found)
  constructor
  · apply larger_le_larger le_rfl
    exact ceil_add_le_ceil_add wider 80
  · simp only [canvas, stepSpacing]
    linarith

end Activity

namespace Components

theorem isPositive_canvas (components : Components) : components.canvas.IsPositive := by
  obtain ⟨wide, -, -, high, -⟩ := components.canvas_bounds
  have low := components.tallest_low
  constructor <;> linarith

/-- A package that is filled is as high as before, or higher. -/
theorem IsExtendedBy.tallest_le_tallest {earlier later : Components}
    (extended : earlier.IsExtendedBy later) : earlier.tallest ≤ later.tallest := by
  apply earlier.tallest_spec (· ≤ later.tallest) later.tallest_low
  intro package member
  obtain ⟨other, found, -, members⟩ := extended.packages.exists_of_mem member
  have more := members.length_le
  have rows : (package.rows : Rat) ≤ other.rows := by
    have whole : package.rows ≤ other.rows := by
      unfold Package.rows
      omega
    exact_mod_cast whole
  have tall := later.le_tallest found
  apply larger_le later.tallest_low
  linarith

theorem rowBoxes_isEmpty (components : Components) :
    components.rowBoxes.isEmpty = components.standalone.isEmpty := by
  unfold rowBoxes
  cases components.standalone <;> rfl

/-- The row of the components on their own is as long as before, or longer. -/
theorem IsExtendedBy.rowRight_le_rowRight {earlier later : Components}
    (extended : earlier.IsExtendedBy later) : earlier.rowRight ≤ later.rowRight := by
  have some : (0 : Rat) ≤ later.standalone.length := Nat.cast_nonneg _
  have slots : (earlier.standalone.length : Rat) ≤ later.standalone.length := by
    exact_mod_cast extended.standalone.length_le
  rw [rowRight_eq, rowRight_eq]
  by_cases none : later.standalone = []
  · have same : earlier.standalone = [] := List.prefix_nil.mp (none ▸ extended.standalone)
    rw [none, same]
  · have filled : later.standalone.isEmpty = false := by simpa using none
    rw [filled, if_neg Bool.false_ne_true]
    split <;> linarith

theorem IsExtendedBy.isWithin_canvas {earlier later : Components}
    (extended : earlier.IsExtendedBy later) : earlier.canvas.IsWithin later.canvas := by
  have packages : (earlier.packages.length : Rat) ≤ later.packages.length := by
    exact_mod_cast extended.packages.length_le
  have tall := extended.tallest_le_tallest
  constructor
  · apply larger_le_larger
    · apply larger_le_larger le_rfl
      rw [packageSpacing]
      linarith
    · exact add_le_add_left extended.rowRight_le_rowRight 50
  · apply larger_le_larger le_rfl
    simp only [rowBoxes_isEmpty, rowTop]
    by_cases none : later.standalone = []
    · have same : earlier.standalone = [] := List.prefix_nil.mp (none ▸ extended.standalone)
      rw [none, same]
      exact add_le_add_left (add_le_add_right tall packageTop) 100
    · have filled : later.standalone.isEmpty = false := by simpa using none
      rw [filled, if_neg Bool.false_ne_true]
      split <;> linarith

end Components

namespace MindMap

theorem isPositive_canvas (map : MindMap) : map.layout.canvas.IsPositive := by
  have wide : 800 ≤ map.layout.canvas.width := le_larger_left 800 _
  have high : 600 ≤ map.layout.canvas.height := le_larger_left 600 _
  constructor <;> linarith

/-- The node that reaches farthest is one of the nodes, unless there is none. -/
theorem rightmost_spec (map : MindMap) (holds : Rat → Prop) (none : holds 0)
    (each : ∀ node index, (node, index) ∈ map.nodes.zipIdx →
      holds ((centerOf node index).x + halfWidth node)) : holds map.rightmost := by
  apply largestOr_spec holds none
  rw [zip_centers, List.map_map]
  intro right member
  obtain ⟨⟨node, index⟩, inside, rfl⟩ := List.mem_map.mp member
  exact each node index inside

theorem IsExtendedBy.isWithin_canvas {earlier later : MindMap}
    (extended : earlier.IsExtendedBy later) :
    earlier.layout.canvas.IsWithin later.layout.canvas := by
  have rows : (earlier.nodes.length : Rat) ≤ later.nodes.length := by
    exact_mod_cast extended.nodes.length_le
  constructor
  · -- The farthest node of the earlier map has the same place in the later one.
    apply larger_le (le_larger_left 800 _)
    apply earlier.rightmost_spec (· + 40 ≤ later.layout.canvas.width)
    · have wide : 800 ≤ later.layout.canvas.width := le_larger_left 800 _
      linarith
    · intro node index member
      have place := List.mem_zipIdx_iff_getElem?.mp member
      obtain ⟨added, same⟩ := extended.nodes
      have kept : (node, index) ∈ later.nodes.zipIdx := by
        rw [← same, List.zipIdx_append]
        exact List.mem_append_left _ member
      have reach := le_rightmost kept
      have wide : later.rightmost + 40 ≤ later.layout.canvas.width := le_larger_right 800 _
      linarith
  · apply larger_le_larger le_rfl
    linarith

end MindMap

namespace Schedule

theorem isPositive_canvas (schedule : Schedule) : schedule.layout.canvas.IsPositive := by
  obtain ⟨wide, high⟩ := schedule.canvas_bounds
  have some : (0 : Rat) ≤ schedule.tasks.length := Nat.cast_nonneg _
  constructor <;> linarith

/-- The longest bar is that of a task, unless there is none. -/
theorem longest_spec (schedule : Schedule) (holds : Rat → Prop) (none : holds 0)
    (each : ∀ task ∈ schedule.tasks, holds (task.days * dayLength)) :
    holds schedule.longest := by
  apply largestOr_spec holds none
  intro width member
  obtain ⟨bar, listed, rfl⟩ := List.mem_map.mp member
  obtain ⟨⟨task, index⟩, inside, rfl⟩ := List.mem_map.mp listed
  exact each task (List.fst_mem_of_mem_zipIdx inside)

theorem le_longest {schedule : Schedule} {task : Task} (member : task ∈ schedule.tasks) :
    task.days * dayLength ≤ schedule.longest := by
  obtain ⟨index, place⟩ := List.getElem?_of_mem member
  have listed : (barOf task index).width ∈ schedule.bars.map Box.width := by
    refine List.mem_map_of_mem (List.mem_map.mpr ⟨(task, index), ?_, rfl⟩)
    exact List.mem_zipIdx_iff_getElem?.mpr place
  exact le_largestOr 0 listed

theorem IsExtendedBy.height_le {earlier later : Schedule} (extended : earlier.IsExtendedBy later) :
    earlier.layout.canvas.height ≤ later.layout.canvas.height := by
  have count := extended.tasks.length_le
  rw [List.length_map, List.length_map] at count
  have rows : (earlier.tasks.length : Rat) ≤ later.tasks.length := by exact_mod_cast count
  rw [earlier.canvas_bounds.2, later.canvas_bounds.2]
  linarith

/-- The tasks with the names are there as before, and take as long. -/
def KeepsDays (names : List Text) (earlier later : Schedule) : Prop :=
  ∀ task ∈ earlier.tasks, task.name ∈ names →
    ∃ other ∈ later.tasks, other.name = task.name ∧ other.days = task.days

theorem KeepsDays.refl (names : List Text) (schedule : Schedule) :
    KeepsDays names schedule schedule :=
  fun task member _ => ⟨task, member, rfl, rfl⟩

theorem KeepsDays.trans {names : List Text} {first second third : Schedule}
    (start : KeepsDays names first second) (rest : KeepsDays names second third) :
    KeepsDays names first third := by
  intro task member named
  obtain ⟨middle, found, name, days⟩ := start task member named
  obtain ⟨last, reached, sameName, sameDays⟩ := rest middle found (name ▸ named)
  exact ⟨last, reached, sameName.trans name, sameDays.trans days⟩

/-- A change that leaves durations alone, or is made to another task. -/
theorem keepsDays_alter {names : List Text} (name : Text) (change : Task → Task)
    (kept : ∀ task, (change task).name = task.name)
    (same : name ∈ names → ∀ task, (change task).days = task.days) (schedule : Schedule) :
    KeepsDays names schedule (schedule.alter name change) := by
  intro task member named
  refine ⟨_, List.mem_map_of_mem member, ?_⟩
  split
  · next asked =>
      have own : task.name = name := by simpa using asked
      exact ⟨kept task, same (own ▸ named) task⟩
  · exact ⟨rfl, rfl⟩

theorem keepsDays_follow {names : List Text} {schedule next : Schedule} {line : Line}
    (success : schedule.follow line = .ok next)
    (fresh : ∀ name amount, line = .duration name amount → name ∉ names) :
    KeepsDays names schedule next := by
  cases line with
  | start date =>
      cases success
      exact .refl names schedule
  | duration name amount =>
      obtain ⟨days, -, rfl⟩ := map_eq_ok_iff.mp success
      have other := fresh name amount rfl
      unfold setDuration
      split
      · exact keepsDays_alter name (fun task => { task with days }) (fun _ => rfl)
          (fun named => absurd named other) schedule
      · intro task member _
        exact ⟨task, List.mem_append_left _ member, rfl, rfl⟩
  | order name predecessor =>
      cases success
      exact keepsDays_alter name (fun task => { task with after := some predecessor })
        (fun _ => rfl) (fun _ _ => rfl) schedule

/-- Some of the lines give another duration to a task that is there. -/
def IsRedeclaredIn (schedule : Schedule) (lines : List Text) : Prop :=
  ∃ name amount, Line.duration name amount ∈ (Text.contentLines lines).filterMap Line.read? ∧
    name ∈ schedule.tasks.map Task.name

theorem width_le_of_not_isRedeclaredIn {earlier later : Schedule} {lines : List Text}
    (success : ((Text.contentLines lines).filterMap Line.read?).foldlM follow earlier = .ok later)
    (fresh : ¬ earlier.IsRedeclaredIn lines) :
    earlier.layout.canvas.width ≤ later.layout.canvas.width := by
  have keeps : KeepsDays (earlier.tasks.map Task.name) earlier later := by
    apply relates_foldlM (KeepsDays (earlier.tasks.map Task.name)) (.refl _) .trans ?_ success
    intro state next line read stepped
    apply keepsDays_follow stepped
    rintro name amount rfl named
    exact fresh ⟨name, amount, read, named⟩
  apply larger_le (le_larger_left 800 _)
  apply earlier.longest_spec (barLeft + · + 120 ≤ later.layout.canvas.width)
  · have wide := later.canvas_bounds.1
    rw [barLeft]
    linarith
  · intro task member
    obtain ⟨other, found, -, days⟩ := keeps task member (List.mem_map_of_mem member)
    have long := le_longest found
    rw [days] at long
    have wide : barLeft + later.longest + 120 ≤ later.layout.canvas.width :=
      le_larger_right 800 _
    linarith

end Schedule

namespace Diagram

/-- The canvas that a diagram is laid out on. -/
def canvas (font : Font) : Diagram → Except Fault Canvas
  | sequence read => .ok read.layout.canvas
  | classes model => (model.layout font).map ClassModel.Layout.canvas
  | useCase read => .ok read.layout.canvas
  | activity read => (read.layout font).map Activity.Layout.canvas
  | component read => read.layout.map Components.Layout.canvas
  | mindMap map => .ok map.layout.canvas
  | gantt schedule => .ok schedule.layout.canvas
  | panel _ => .ok Panel.canvas

/-- A diagram is laid out exactly when it can be drawn, on the canvas of its drawing. -/
theorem canvas_eq_ok_iff {font : Font} {diagram : Diagram} {canvas : Canvas} :
    diagram.canvas font = .ok canvas ↔
      diagram.IsDrawable font ∧ canvas = (diagram.drawing font).canvas := by
  have total {found : Canvas} : (Except.ok found : Except Fault Canvas) = .ok canvas ↔
      True ∧ canvas = found := by
    rw [Except.ok.injEq, true_and]
    exact eq_comm
  cases diagram with
  | classes model => exact map_eq_ok_iff_of_only fun _ => ClassModel.layout_eq_ok_iff
  | activity read => exact map_eq_ok_iff_of_only fun _ => Activity.layout_eq_ok_iff
  | component read => exact map_eq_ok_iff_of_only fun _ => Components.layout_eq_ok_iff
  | sequence read | useCase read | mindMap map | gantt schedule | panel read => exact total

theorem isPositive_canvas (font : Font) (diagram : Diagram) :
    (diagram.drawing font).canvas.IsPositive := by
  cases diagram with
  | sequence read => exact read.isPositive_canvas
  | classes model => exact model.isPositive_canvas font
  | useCase read => exact read.isPositive_canvas
  | activity read => exact read.isPositive_canvas font
  | component read => exact read.isPositive_canvas
  | mindMap map => exact map.isPositive_canvas
  | gantt schedule => exact schedule.isPositive_canvas
  | panel read =>
      have wide : Panel.canvas.width = 600 := rfl
      have high : Panel.canvas.height = 400 := rfl
      constructor
      · exact wide ▸ (by norm_num)
      · exact high ▸ (by norm_num)

/-- Some of the lines give another duration to a task that the diagram has. -/
def IsRedeclaredIn : Diagram → List Text → Prop
  | gantt schedule, lines => schedule.IsRedeclaredIn lines
  | _, _ => False

/-- Lines that are added to a source leave the canvas as high as it was and as wide as it was, or
make it larger, unless they replace the duration of a task. -/
theorem canvas_grows_of_read {font : Font} {first second : List Text} {kind : Kind}
    {earlier later : Diagram} {small large : Canvas} (readFirst : read first kind = .ok earlier)
    (readAll : read (first ++ second) kind = .ok later)
    (smallCanvas : earlier.canvas font = .ok small) (largeCanvas : later.canvas font = .ok large) :
    small.IsPositive ∧ large.IsPositive ∧ small.height ≤ large.height ∧
      (¬ earlier.IsRedeclaredIn second → small.width ≤ large.width) := by
  obtain ⟨other, readOther, extended⟩ := exists_isExtendedBy_of_read readAll
  cases readFirst.symm.trans readOther
  obtain ⟨-, rfl⟩ := canvas_eq_ok_iff.mp smallCanvas
  obtain ⟨-, rfl⟩ := canvas_eq_ok_iff.mp largeCanvas
  refine ⟨earlier.isPositive_canvas font, later.isPositive_canvas font, ?_⟩
  have both (within : (earlier.drawing font).canvas.IsWithin (later.drawing font).canvas) :
      (earlier.drawing font).canvas.height ≤ (later.drawing font).canvas.height ∧
        (¬ earlier.IsRedeclaredIn second →
          (earlier.drawing font).canvas.width ≤ (later.drawing font).canvas.width) :=
    ⟨within.height, fun _ => within.width⟩
  cases extended with
  | sequence extended => exact both extended.isWithin_canvas
  | classes extended => exact both (extended.isWithin_canvas font)
  | useCase extended => exact both extended.isWithin_canvas
  | activity extended => exact both (extended.isWithin_canvas font)
  | component extended => exact both extended.isWithin_canvas
  | mindMap extended => exact both extended.isWithin_canvas
  | panel extended => exact both ⟨le_rfl, le_rfl⟩
  | @gantt before after extended =>
      obtain rfl := kind_of_read readAll
      obtain ⟨schedule, readSchedule, same⟩ := map_eq_ok_iff.mp readAll
      obtain ⟨start, readStart, rest⟩ := Schedule.ofLines_append_eq_ok_iff.mp readSchedule
      obtain ⟨found, readFound, sameFound⟩ := map_eq_ok_iff.mp readFirst
      cases same
      cases sameFound
      cases readStart.symm.trans readFound
      refine ⟨extended.height_le, fun fresh => ?_⟩
      exact Schedule.width_le_of_not_isRedeclaredIn rest fresh

/-- A second task makes a canvas higher, and wider if it takes long. -/
theorem canvas_grows_longer_task :
    let first : List Text := ["[A] lasts 2 days"]
    let second : List Text := ["[B] lasts 6 weeks", "[B] starts at [A]'s end"]
    let earlier := gantt { tasks := [⟨"A", 2, none⟩], start := none }
    let later := gantt { tasks := [⟨"A", 2, none⟩, ⟨"B", 42, some "A"⟩], start := none }
    read first .gantt = .ok earlier ∧ read (first ++ second) .gantt = .ok later ∧
      earlier.canvas .bundled = .ok ⟨800, 150⟩ ∧ later.canvas .bundled = .ok ⟨1160, 200⟩ ∧
      ¬ earlier.IsRedeclaredIn second ∧ (0 : Rat) < 800 ∧ (800 : Rat) ≤ 1160 := by
  intro first second earlier later
  have readFirst : read first .gantt = .ok earlier := by decide +kernel
  have readAll : read (first ++ second) .gantt = .ok later := by decide +kernel
  have small : earlier.canvas .bundled = .ok ⟨800, 150⟩ := by decide +kernel
  have large : later.canvas .bundled = .ok ⟨1160, 200⟩ := by decide +kernel
  have fresh : ¬ earlier.IsRedeclaredIn second := by
    have lines : (Text.contentLines second).filterMap Schedule.Line.read? =
        [.duration "B" ⟨"6", true⟩, .order "B" "A"] := by decide +kernel
    rintro ⟨name, amount, listed, named⟩
    simp only [lines, List.mem_cons, Schedule.Line.duration.injEq, reduceCtorEq, List.not_mem_nil,
      or_false] at listed
    obtain rfl := listed.1
    exact absurd named (by decide)
  obtain ⟨positive, -, -, wider⟩ := canvas_grows_of_read readFirst readAll small large
  exact ⟨readFirst, readAll, small, large, fresh, positive.width, wider fresh⟩

end Diagram

end DiagramSketch
