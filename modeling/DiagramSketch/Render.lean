import DiagramSketch.Diagram
import DiagramSketch.Trace

/-!
# Rendering

From the text of a source to the text of its document, with everything that there is to tell
about it: how it was classified, what was read, that it is drawn, and which relations are left
out. Rendering hardly ever fails, and then only with one kind of failure, whatever the cause.
-/

namespace DiagramSketch

namespace Event

/-- A count and what is counted. -/
def counted (count : Nat) (what : Text) : Text :=
  Number.digits count ++ ' ' :: what

/-- A flag. -/
def flag (holds : Bool) : Text :=
  if holds then "True" else "False"

/-- How a number of lines was classified. -/
def classified (lineCount : Nat) (kind : Kind) : Event :=
  { stage := .classifier
    message :=
      match kind with
      | .panel => "no rule matched " ++ counted lineCount "lines, using generic"
      | kind => "classified " ++ counted lineCount "lines as " ++ kind.name }

/-- What was read, for the kinds that have lines of their own. -/
def read : Diagram → List Event
  | .sequence sequence => told
      ("sequence: " ++ counted sequence.participants.length "participants, "
        ++ counted sequence.interactions.length "interactions")
  | .classes model => told
      ("class: " ++ counted model.classes.length "classes, "
        ++ counted model.relationships.length "relationships")
  | .useCase useCases => told
      ("usecase: " ++ counted useCases.actors.length "actors, "
        ++ counted useCases.labels.length "use cases, " ++ counted useCases.links.length "links")
  | .activity activity => told
      ("activity: " ++ counted activity.steps.length "steps, start=" ++ flag activity.hasStart
        ++ ", stop=" ++ flag activity.hasStop)
  | .component components => told
      ("component: " ++ counted components.packages.length "packages, "
        ++ counted components.standalone.length "standalone, "
        ++ counted components.connections.length "connections")
  | .mindMap map => told ("mindmap: " ++ counted map.nodes.length "nodes")
  | .gantt schedule => told
      ("gantt: " ++ counted schedule.tasks.length "tasks, start="
        ++ (schedule.start.map Text.quoted).getD "None")
  | .panel _ => []
where
  told (message : Text) : List Event := [{ stage := .diagrams, message }]

/-- That a diagram of a number of lines is drawn. -/
def drawing (lineCount : Nat) (kind : Kind) : Event :=
  { stage := .rendering
    message := "rendering " ++ kind.name ++ " diagram from " ++ counted lineCount "lines" }

/-- What a drawing leaves out. -/
def omissions (scene : Scene) : List Event :=
  scene.omissions.map fun message => { stage := .diagrams, message }

end Event

/-- Tells the kind of lines. -/
def classification {ε : Type} (lines : List Text) : Work ε Kind := do
  let kind := Kind.classify lines
  Work.tell [.classified lines.length kind]
  return kind

/-- A source that was not rendered. -/
structure RenderFailure where
  message : Text
  /-- The fault that the failure was raised from. -/
  cause : Fault
deriving DecidableEq, Repr

/-- The failure that a fault is raised as. -/
def RenderFailure.ofFault (fault : Fault) : RenderFailure :=
  { message := "Failed to render PlantUML: " ++ fault.message, cause := fault }

/-- Renders a source: reads, lays out, draws and prints its diagram. Any fault is raised as a
failure to render. -/
def rendering (font : Font) (source : Text) : Work RenderFailure Text :=
  Work.mapError .ofFault do
    let lines := Text.sourceLines source
    let kind ← classification lines
    let diagram ← .of (Diagram.read lines kind)
    Work.tell (Event.read diagram)
    Work.tell [.drawing lines.length diagram.kind]
    let scene ← .of (diagram.scene font)
    let root ← .of scene.element
    Work.tell (Event.omissions scene)
    .of (Svg.print root)

/-- The document that shows the diagram of a source. -/
def render (font : Font) (source : Text) : Except RenderFailure Text :=
  (rendering font source).result

/-- A source is rendered as the diagram that its lines describe is printed. -/
theorem render_eq (font : Font) (source : Text) :
    render font source = ((Diagram.ofLines (Text.sourceLines source)).bind
      (Diagram.print font)).mapError .ofFault := by
  simp only [render, rendering, classification, Work.result_mapError, Work.result_bind,
    Work.result_of, Work.result_tell, Work.result_pure]
  rfl

end DiagramSketch
