import DiagramSketch.Activity.Drawing
import DiagramSketch.ClassModel.Drawing
import DiagramSketch.Components.Drawing
import DiagramSketch.Components.Source
import DiagramSketch.Kind
import DiagramSketch.MindMap.Drawing
import DiagramSketch.Panel
import DiagramSketch.Schedule.Drawing
import DiagramSketch.Sequence.Drawing
import DiagramSketch.UseCases.Drawing

/-!
# Diagrams

A diagram of any kind: what the lines of a source are read as, and what is drawn.
-/

namespace DiagramSketch

/-- A diagram of any kind. -/
inductive Diagram where
  | sequence (sequence : Sequence)
  | classes (model : ClassModel)
  | useCase (useCases : UseCases)
  | activity (activity : Activity)
  | component (components : Components)
  | mindMap (map : MindMap)
  | gantt (schedule : Schedule)
  | panel (panel : Panel)
deriving DecidableEq, Repr

namespace Diagram

/-- The kind of a diagram. -/
def kind : Diagram → Kind
  | sequence _ => .sequence
  | classes _ => .classes
  | useCase _ => .useCase
  | activity _ => .activity
  | component _ => .component
  | mindMap _ => .mindMap
  | gantt _ => .gantt
  | panel _ => .panel

/-- Reads lines as a diagram of the kind. -/
def read (lines : List Text) : Kind → Except Fault Diagram
  | .sequence => .ok (sequence (.ofLines lines))
  | .classes => .ok (classes (.ofLines lines))
  | .useCase => .ok (useCase (.ofLines lines))
  | .activity => .ok (activity (.ofLines lines))
  | .component => .ok (component (.ofLines lines))
  | .mindMap => .ok (mindMap (.ofLines lines))
  | .gantt => (Schedule.ofLines lines).map gantt
  | .panel => .ok (panel (.ofLines lines))

/-- The diagram that lines describe, which are of the kind that they show. -/
def ofLines (lines : List Text) : Except Fault Diagram :=
  read lines (Kind.classify lines)

/-- The drawing of a diagram, with labels that are measured with a font. -/
def scene (font : Font) : Diagram → Except Fault Scene
  | sequence read => read.scene
  | classes model => (model.layout font).bind model.scene
  | useCase read => read.scene
  | activity read => (read.layout font).map Activity.Layout.scene
  | component read => read.layout.bind read.scene
  | mindMap map => map.scene
  | gantt schedule => .ok schedule.scene
  | panel read => .ok read.scene

/-- The text of the document that shows a diagram. -/
def print (font : Font) (diagram : Diagram) : Except Fault Text :=
  (diagram.scene font).bind Scene.print

/-- The kind of the diagram that is read as one of a kind. -/
theorem kind_of_read {lines : List Text} {kind : Kind} {diagram : Diagram}
    (success : read lines kind = .ok diagram) : diagram.kind = kind := by
  cases kind with
  | gantt =>
      simp only [read] at success
      cases parsed : Schedule.ofLines lines with
      | error fault => simp [parsed, Except.map] at success
      | ok schedule =>
          simp only [parsed, Except.map, Except.ok.injEq] at success
          rw [← success]
          rfl
  | _ =>
      simp only [read, Except.ok.injEq] at success
      rw [← success]
      rfl

end Diagram

end DiagramSketch
