import DiagramSketch.Activity.Basic
import DiagramSketch.Font
import DiagramSketch.Scene

/-!
# Drawing an activity

The start, the steps and the stop follow one another on a vertical lane in the middle of
the canvas, with an arrow from each of them to the next.
-/

namespace DiagramSketch.Activity

/-- What stands on the lane. -/
inductive Role where
  | start
  | action
  | decision
  | stop
deriving DecidableEq, Repr

namespace Role

/-- The name of a role. -/
def name : Role → Text
  | start => "start"
  | action => "activity"
  | decision => "decision"
  | stop => "stop"

/-- Half the height of what plays the role. -/
def halfHeight : Role → Rat
  | start | stop => 15
  | action | decision => 20

end Role

/-- A thing on the lane. -/
structure Node where
  role : Role
  label : Text
  y : Rat
  halfWidth : Rat
deriving DecidableEq, Repr

/-- The height of its upper end. -/
def Node.top (node : Node) : Rat :=
  node.y - node.role.halfHeight

/-- The height of its lower end. -/
def Node.bottom (node : Node) : Rat :=
  node.y + node.role.halfHeight

/-- The node of a step at the height `y`, wide enough for the label. -/
def stepNode (font : Font) (y : Rat) (step : ActivityStep) : Except Fault Node :=
  if step.isDecision then do
    let width ← font.width 10 step.label
    return { role := .decision, label := step.label, y, halfWidth := larger 40 (width / 2 + 15) }
  else do
    let width ← font.width 12 step.label
    return { role := .action, label := step.label, y, halfWidth := larger 80 ((width + 20) / 2) }

/-- Where everything is. -/
structure Layout where
  canvas : Canvas
  centerX : Rat
  nodes : List Node
deriving DecidableEq, Repr

/-- The middle of the first thing on the lane. -/
def firstHeight : Rat := 50

/-- The distance of two steps. -/
def stepSpacing : Rat := 80

/-- The height of the first step. -/
def firstStepHeight (activity : Activity) : Rat :=
  if activity.hasStart then firstHeight + 60 else firstHeight

/-- The nodes from top to bottom. -/
def nodes (font : Font) (activity : Activity) : Except Fault (List Node) := do
  let first := activity.firstStepHeight
  let steps ← activity.steps.zipIdx.mapM fun (step, index) =>
    stepNode font (first + index * stepSpacing) step
  let start : List Node :=
    if activity.hasStart then
      [{ role := .start, label := "START", y := firstHeight, halfWidth := 15 }]
    else []
  let stop : List Node :=
    if activity.hasStop then
      [{ role := .stop, label := "STOP", y := first + activity.steps.length * stepSpacing
         halfWidth := 15 }]
    else []
  return start ++ steps ++ stop

/-- The lane in the middle of a canvas that the widest node fits on. -/
def layout (font : Font) (activity : Activity) : Except Fault Layout := do
  let nodes ← activity.nodes font
  let widest := largest 0 (nodes.map fun node => node.halfWidth * 2)
  let width : Rat := larger 400 ((widest + 80).ceil : Int)
  let startHeight : Rat := if activity.hasStart then 50 else 0
  let stopHeight : Rat := if activity.hasStop then 50 else 0
  return {
    canvas :=
      { width, height := 100 + activity.steps.length * stepSpacing + startHeight + stopHeight }
    centerX := width / 2
    nodes }

/-- The ends of the arrows: from the lower end of each node to the upper end of the next. -/
def Layout.connectors (layout : Layout) : List (Point × Point) :=
  (layout.nodes.zip (layout.nodes.drop 1)).map fun (upper, lower) =>
    (⟨layout.centerX, upper.bottom⟩, ⟨layout.centerX, lower.top⟩)

/-- A circle at an end of the lane. -/
def terminalFigures (center : Point) (label fill stroke : Text) : List Figure :=
  [{ shape := .circle center 15
     paint := [("fill", .text fill), ("stroke", .text stroke), ("stroke_width", 2)] },
   .label ⟨center.x, center.y + 5⟩ label { size := 10, fill := "white" }]

/-- A node with its middle on the lane. -/
def nodeEntity (centerX : Rat) (node : Node) : Entity :=
  let x := centerX
  let y := node.y
  let half := node.halfWidth
  { className := "entity " ++ node.role.name
    figures :=
      match node.role with
      | .start => terminalFigures ⟨x, y⟩ node.label "#4caf50" "#2e7d32"
      | .stop => terminalFigures ⟨x, y⟩ node.label "#f44336" "#c62828"
      | .decision =>
          [{ shape := .polygon [⟨x, y - 20⟩, ⟨x + half, y⟩, ⟨x, y + 20⟩, ⟨x - half, y⟩]
             paint := [("fill", "#fff3e0"), ("stroke", "#ff9800"), ("stroke_width", 2)] },
           .label ⟨x, y + 5⟩ node.label { size := 10 }]
      | .action =>
          [{ shape := .rectangle ⟨x - half, y - 20, half * 2, 40⟩
             paint := [("fill", "#e3f2fd"), ("stroke", "#1976d2"), ("stroke_width", 2),
               ("rx", 5)] },
           .label ⟨x, y + 5⟩ node.label {}] }

/-- An arrow from one node to the next. -/
def flowGroup (first last : Point) : Group :=
  { className := "relation flow"
    figures := [.line first last { endMarker := .text Svg.Marker.arrowhead.name }] }

/-- The drawing of an activity. -/
def Layout.scene (layout : Layout) : Scene :=
  { canvas := layout.canvas
    entities := layout.nodes.map (nodeEntity layout.centerX)
    relations := layout.connectors.map fun (first, last) => flowGroup first last }

end DiagramSketch.Activity
