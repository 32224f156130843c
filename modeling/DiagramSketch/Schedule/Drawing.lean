import DiagramSketch.Schedule.Basic
import DiagramSketch.Scene

/-!
# Drawing a schedule

Every task has a row with a bar as long as its duration. All bars begin at the same
place: what a task comes after is written beside the bar, and does not move it.
-/

namespace DiagramSketch.Schedule

/-- The left edge of all bars. -/
def barLeft : Rat := 200

/-- The length of a day. -/
def dayLength : Rat := 20

/-- The distance of two bars. -/
def barSpacing : Rat := 50

/-- Where everything is. -/
structure Layout where
  canvas : Canvas
  bars : List Box
deriving DecidableEq, Repr

/-- The bar of the task with the number. -/
def barOf (task : Task) (index : Nat) : Box :=
  ⟨barLeft, 80 + index * barSpacing, task.days * dayLength, 30⟩

/-- The bars of all tasks, in order. -/
def bars (schedule : Schedule) : List Box :=
  schedule.tasks.zipIdx.map fun (task, index) => barOf task index

/-- The length of the longest bar, or zero if there is none. -/
def longest (schedule : Schedule) : Rat :=
  match schedule.bars.map Box.width with
  | [] => 0
  | width :: widths => largest width widths

/-- The layout of the schedule. There is room for a caption to the right of the longest bar. -/
def layout (schedule : Schedule) : Layout :=
  { canvas :=
      { width := larger 800 (barLeft + schedule.longest + 120)
        height := 100 + schedule.tasks.length * barSpacing }
    bars := schedule.bars }

/-- The title, and the start of the project if it is known. -/
def headerEntity (schedule : Schedule) (width : Rat) : Entity :=
  let title : Figure := .label ⟨width / 2, 30⟩ "Gantt Chart" { size := 16, isBold := true }
  { className := "entity header"
    figures :=
      match schedule.start.filter fun date => !date.isEmpty with
      | none => [title]
      | some date => [title, .label ⟨50, 50⟩ ("Start: " ++ date) { anchor := .absent }] }

/-- A task: its bar, its name on the left and its caption on the right. -/
def taskEntity (task : Task) (bar : Box) : Entity :=
  { className := "entity task"
    figures :=
      [{ shape := .rectangle bar
         paint := [("fill", "#4caf50"), ("stroke", "#2e7d32"), ("stroke_width", 1)] },
       .label ⟨50, bar.y + 20⟩ task.name { anchor := .absent },
       .label ⟨bar.right + 10, bar.y + 20⟩ task.drawnCaption { size := 10, anchor := .absent }] }

/-- The drawing of the schedule. -/
def scene (schedule : Schedule) : Scene :=
  let layout := schedule.layout
  { canvas := layout.canvas
    entities :=
      headerEntity schedule layout.canvas.width
        :: (schedule.tasks.zip layout.bars).map fun (task, bar) => taskEntity task bar
    relations := [] }

end DiagramSketch.Schedule
