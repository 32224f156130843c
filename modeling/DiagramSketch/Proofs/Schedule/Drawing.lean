import DiagramSketch.Proofs.Scene.Subjects
import DiagramSketch.Schedule.Drawing

/-!
# What is drawn for a schedule

The title is shown, and every task, with a bar that begins where all others do.  Where no duration
is negative everything lies on the canvas, which is as wide as the longest duration asks for; so a
duration can be too long to be drawn.
-/

namespace DiagramSketch.Schedule

/-- The longest duration in days, or zero if there is no task. -/
def longestDays (schedule : Schedule) : Int :=
  (schedule.tasks.map Task.days).foldl max 0

/-- How wide the canvas has to be. -/
def neededWidth (schedule : Schedule) : Int :=
  max 800 (320 + 20 * schedule.longestDays)

/-- No task takes less than no time. -/
def IsForward (schedule : Schedule) : Prop :=
  ∀ task ∈ schedule.tasks, 0 ≤ task.days

variable (schedule : Schedule)

theorem bars_eq : schedule.tasks.zip schedule.bars =
    schedule.tasks.zipIdx.map fun entry => (entry.1, barOf entry.1 entry.2) := by
  have own : schedule.tasks = schedule.tasks.zipIdx.map Prod.fst :=
    (List.zipIdx_map_fst 0 schedule.tasks).symm
  exact (congrArg (List.zip · schedule.bars) own).trans List.zip_map'

theorem entities_eq : schedule.scene.entities =
    headerEntity schedule schedule.layout.canvas.width ::
      schedule.tasks.zipIdx.map fun entry => taskEntity entry.1 (barOf entry.1 entry.2) := by
  have tasks : (schedule.tasks.zip schedule.bars).map (fun entry => taskEntity entry.1 entry.2) =
      schedule.tasks.zipIdx.map fun entry => taskEntity entry.1 (barOf entry.1 entry.2) := by
    rw [bars_eq, List.map_map]
    rfl
  exact congrArg (headerEntity schedule schedule.layout.canvas.width :: ·) tasks

/-! ## Soundness -/

theorem isChecked_headerEntity (width : Rat) :
    (headerEntity schedule width).toGroup.isChecked [.arrowhead] = true := by
  unfold headerEntity
  dsimp only
  split <;> rfl

theorem isChecked_taskEntity (task : Task) (bar : Box) :
    (taskEntity task bar).toGroup.isChecked [.arrowhead] = true :=
  rfl

theorem isSound_scene : schedule.scene.IsSound := by
  refine ⟨Scene.forall_groups.mpr ⟨?_, fun group member => by cases member⟩, List.nodup_nil⟩
  rw [entities_eq]
  refine List.forall_mem_cons.mpr ⟨?_, fun entity member => ?_⟩
  · exact List.forall_mem_singleton.mpr
      (Group.isSound_of_isChecked (schedule.isChecked_headerEntity _))
  · obtain ⟨⟨task, index⟩, -, rfl⟩ := List.mem_map.mp member
    exact List.forall_mem_singleton.mpr
      (Group.isSound_of_isChecked (isChecked_taskEntity _ _))

/-! ## The canvas -/

theorem larger_intCast (left right : Int) :
    larger (left : Rat) right = ((max left right : Int) : Rat) := by
  unfold larger
  split
  · next below => rw [max_eq_right (by exact_mod_cast below)]
  · next above => rw [max_eq_left (by exact_mod_cast (not_le.mp above).le)]

theorem largest_days (first : Int) (counts : List Int) :
    largest (first * dayLength) (counts.map fun (days : Int) => (days : Rat) * dayLength) =
      ((counts.foldl max first : Int) : Rat) * dayLength := by
  induction counts generalizing first with
  | nil => rfl
  | cons count counts induction =>
      have whole (value : Int) : (value : Rat) * dayLength = ((value * 20 : Int) : Rat) := by
        rw [dayLength]
        push_cast
        ring
      have step : larger (first * dayLength) (count * dayLength) =
          ((max first count : Int) : Rat) * dayLength := by
        rw [whole, whole, whole, larger_intCast, max_mul_of_nonneg first count (by norm_num)]
      rw [List.map_cons, List.foldl_cons, ← induction, ← step]
      rfl

variable {schedule}

theorem longest_eq (forward : schedule.IsForward) :
    schedule.longest = (schedule.longestDays : Rat) * dayLength := by
  have widths : schedule.bars.map Box.width =
      (schedule.tasks.map Task.days).map fun (days : Int) => (days : Rat) * dayLength := by
    have each : schedule.bars.map Box.width =
        (schedule.tasks.zipIdx.map Prod.fst).map fun task => (task.days : Rat) * dayLength := by
      rw [bars, List.map_map, List.map_map]
      rfl
    rw [each, List.zipIdx_map_fst, List.map_map]
    rfl
  unfold longest longestDays
  rw [widths]
  cases tasks : schedule.tasks with
  | nil => simp
  | cons task rest =>
      have nonneg : 0 ≤ task.days := forward task (by rw [tasks]; exact List.mem_cons_self)
      rw [List.map_cons, List.map_cons, List.foldl_cons, max_eq_right nonneg]
      exact largest_days task.days (rest.map Task.days)

/-- The canvas is as wide as the longest duration asks for. -/
theorem width_eq (forward : schedule.IsForward) :
    schedule.layout.canvas.width = (schedule.neededWidth : Rat) := by
  have shape : schedule.layout.canvas.width = larger 800 (200 + schedule.longest + 120) := rfl
  have whole : (200 : Rat) + schedule.longest + 120 =
      ((320 + 20 * schedule.longestDays : Int) : Rat) := by
    rw [longest_eq forward, dayLength]
    push_cast
    ring
  rw [shape, whole]
  exact larger_intCast 800 _

theorem days_le_longestDays {task : Task} (member : task ∈ schedule.tasks) :
    task.days ≤ schedule.longestDays := by
  have above (counts : List Int) (first : Int) : first ≤ counts.foldl max first ∧
      ∀ days ∈ counts, days ≤ counts.foldl max first := by
    induction counts generalizing first with
    | nil => exact ⟨le_refl first, fun days none => by cases none⟩
    | cons count counts induction =>
        obtain ⟨reached, others⟩ := induction (max first count)
        refine ⟨(le_max_left first count).trans reached, List.forall_mem_cons.mpr ⟨?_, others⟩⟩
        exact (le_max_right first count).trans reached
  exact (above _ 0).2 task.days (List.mem_map.mpr ⟨task, member, rfl⟩)

theorem isOn_taskEntity {canvas : Canvas} {task : Task} {index : Nat} (forward : 0 ≤ task.days)
    (wide : 320 + 20 * (task.days : Rat) ≤ canvas.width)
    (high : 150 + (index : Rat) * 50 ≤ canvas.height) :
    ∀ figure ∈ (taskEntity task (barOf task index)).figures, figure.shape.IsOn canvas := by
  have nonneg : (0 : Rat) ≤ task.days := by exact_mod_cast forward
  have row : (0 : Rat) ≤ index := Nat.cast_nonneg index
  have edges : (barOf task index).y = 80 + (index : Rat) * 50 ∧
      (barOf task index).right = 200 + (task.days : Rat) * 20 := ⟨rfl, rfl⟩
  obtain ⟨top, right⟩ := edges
  have bar : (Shape.rectangle (barOf task index)).IsOn canvas := by
    unfold barOf barLeft barSpacing dayLength
    refine Shape.isOn_rectangle ?_ ?_ ?_ ?_ ⟨?_, ?_⟩
    all_goals linarith
  refine List.forall_mem_cons.mpr ⟨bar,
    List.forall_mem_cons.mpr ⟨Shape.isOn_label (Point.isOn_mk ?_ ?_ ?_ ?_) _,
      List.forall_mem_singleton.mpr (Shape.isOn_label (Point.isOn_mk ?_ ?_ ?_ ?_) _)⟩⟩
  all_goals linarith

variable (schedule) in
theorem canvas_bounds : 800 ≤ schedule.layout.canvas.width ∧
    schedule.layout.canvas.height = 100 + schedule.tasks.length * 50 :=
  ⟨le_larger_left 800 _, rfl⟩

theorem isOn_headerEntity {canvas : Canvas} (wide : 800 ≤ canvas.width)
    (high : 100 ≤ canvas.height) :
    ∀ figure ∈ (headerEntity schedule canvas.width).figures, figure.shape.IsOn canvas := by
  have title : (Shape.label ⟨canvas.width / 2, 30⟩ "Gantt Chart").IsOn canvas := by
    refine Shape.isOn_label (Point.isOn_mk ?_ ?_ ?_ ?_) _
    all_goals linarith
  have start (date : Text) : (Shape.label ⟨50, 50⟩ ("Start: " ++ date)).IsOn canvas := by
    refine Shape.isOn_label (Point.isOn_mk ?_ ?_ ?_ ?_) _
    all_goals linarith
  unfold headerEntity
  dsimp only
  split
  · exact List.forall_mem_singleton.mpr title
  · exact List.forall_mem_cons.mpr ⟨title, List.forall_mem_singleton.mpr (start _)⟩

theorem isOnCanvas_scene (forward : schedule.IsForward) : schedule.scene.IsOnCanvas := by
  obtain ⟨wide, high⟩ := schedule.canvas_bounds
  have some : (0 : Rat) ≤ schedule.tasks.length := Nat.cast_nonneg _
  change ∀ group ∈ schedule.scene.groups, ∀ figure ∈ group.figures,
    figure.shape.IsOn schedule.layout.canvas
  refine Scene.forall_groups.mpr ⟨?_, fun group member => by cases member⟩
  rw [entities_eq]
  refine List.forall_mem_cons.mpr ⟨?_, fun entity member => ?_⟩
  · exact List.forall_mem_singleton.mpr (isOn_headerEntity wide (by linarith))
  · obtain ⟨⟨task, index⟩, inside, rfl⟩ := List.mem_map.mp member
    have listed := List.fst_mem_of_mem_zipIdx inside
    have below : (index : Rat) + 1 ≤ schedule.tasks.length := by
      exact_mod_cast List.snd_lt_of_mem_zipIdx inside
    have longest : (task.days : Rat) ≤ schedule.longestDays := by
      exact_mod_cast days_le_longestDays listed
    have needed : ((320 + 20 * schedule.longestDays : Int) : Rat) ≤
        schedule.layout.canvas.width := by
      rw [width_eq forward]
      exact_mod_cast le_max_right 800 _
    push_cast at needed
    refine List.forall_mem_singleton.mpr (isOn_taskEntity (forward task listed) ?_ ?_)
    · linarith
    · linarith

theorem isExtentFor_height {count : Nat} (tasks : schedule.tasks.length ≤ count) :
    IsExtentFor count schedule.layout.canvas.height := by
  obtain ⟨-, high⟩ := schedule.canvas_bounds
  have some : (0 : Rat) ≤ schedule.tasks.length := Nat.cast_nonneg _
  have rows : (schedule.tasks.length : Rat) ≤ count := by exact_mod_cast tasks
  rw [high]
  exact ⟨by linarith, by linarith⟩

end DiagramSketch.Schedule
