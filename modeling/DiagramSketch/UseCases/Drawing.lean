import DiagramSketch.UseCases.Basic
import DiagramSketch.Scene

/-!
# Drawing use cases

The actors stand under each other on the left, the use cases on the right. A link runs
from the right side of an actor's head to the left end of a use case's ellipse.
-/

namespace DiagramSketch.UseCases

/-- Where everything is. The place of an actor is the middle of its head. -/
structure Layout where
  canvas : Canvas
  actors : Keyed Point
  useCases : Keyed Point
deriving DecidableEq, Repr

/-- Names under each other at a horizontal place, a number of pixels apart. -/
def column (x spacing : Rat) (names : List Text) : Keyed Point :=
  Keyed.ofList (names.zipIdx.map fun (name, index) => (name, ⟨x, 100 + index * spacing⟩))

/-- The columns of actors and use cases, on a canvas that is high enough for both. -/
def layout (useCases : UseCases) : Layout :=
  let longest : Rat := larger (useCases.actors.length * 100) (useCases.labels.length * 80)
  { canvas := { width := 800, height := larger 600 (100 + longest + 100) }
    actors := column 100 100 useCases.actors
    useCases := column 400 80 useCases.labels }

/-- An actor: a figure of a head, a body, arms and legs, with the name below it. -/
def actorEntity (name : Text) (head : Point) : Entity :=
  let x := head.x
  let y := head.y
  { className := "entity actor"
    figures :=
      [{ shape := .circle head 15
         paint := [("fill", "#ffeb3b"), ("stroke", "#f57f17"), ("stroke_width", 2)] },
       .line ⟨x, y + 15⟩ ⟨x, y + 45⟩ {},
       .line ⟨x - 15, y + 25⟩ ⟨x + 15, y + 25⟩ {},
       .line ⟨x, y + 45⟩ ⟨x - 10, y + 65⟩ {},
       .line ⟨x, y + 45⟩ ⟨x + 10, y + 65⟩ {},
       .label ⟨x, y + 85⟩ name { isBold := true }] }

/-- A use case: an ellipse around its label. -/
def useCaseEntity (label : Text) (center : Point) : Entity :=
  { className := "entity usecase"
    figures :=
      [{ shape := .ellipse center 80 30
         paint := [("fill", "#e8f5e8"), ("stroke", "#4caf50"), ("stroke_width", 2)] },
       .label ⟨center.x, center.y + 5⟩ label {}] }

/-- A link between an actor and a use case. -/
def linkGroup (head center : Point) : Group :=
  { className := "relation link"
    figures := [.line ⟨head.x + 15, head.y⟩ ⟨center.x - 80, center.y⟩ {}] }

/-- The places of both ends of a link, where the diagram has them. -/
def Layout.ends? (layout : Layout) (link : Link) : Option (Point × Point) := do
  let head ← layout.actors.find? link.actor
  let center ← layout.useCases.find? link.useCase
  return (head, center)

/-- The drawing of the diagram. A link is left out when one of its ends is missing. -/
def scene (useCases : UseCases) : Except Fault Scene := do
  let layout := useCases.layout
  let actors ← useCases.actors.mapM fun name => (layout.actors.get name).map (actorEntity name)
  let labels ← useCases.labels.mapM fun label =>
    (layout.useCases.get label).map (useCaseEntity label)
  return {
    canvas := layout.canvas
    entities := actors ++ labels
    relations := useCases.links.filterMap fun link =>
      (layout.ends? link).map fun (head, center) => linkGroup head center }

end DiagramSketch.UseCases
