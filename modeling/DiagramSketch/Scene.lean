import DiagramSketch.Geometry
import DiagramSketch.Lookup
import DiagramSketch.Svg.Document

/-!
# Scenes

What a diagram looks like, before it is written: a canvas, entities, and the relations
between them. The entities come first, so that connecting lines lie on top of them.
-/

namespace DiagramSketch

open Xml (Element)

/-- The outline of a figure, or where its label stands. -/
inductive Shape where
  | rectangle (box : Box)
  | circle (center : Point) (radius : Rat)
  | ellipse (center : Point) (radiusX radiusY : Rat)
  | polygon (corners : List Point)
  | line (first last : Point)
  | label (anchor : Point) (content : Text)
deriving DecidableEq, Repr

namespace Shape

/-- The tag of the element that shows the shape. -/
def tag : Shape → Text
  | rectangle _ => "rect"
  | circle _ _ => "circle"
  | ellipse _ _ _ => "ellipse"
  | polygon _ => "polygon"
  | line _ _ => "line"
  | label _ _ => "text"

/-- The values that say where the shape is. -/
def geometry : Shape → Except Fault (Keyed Svg.Value)
  | rectangle box =>
      .ok [("x", box.x), ("y", box.y), ("width", box.width), ("height", box.height)]
  | circle center radius => .ok [("cx", center.x), ("cy", center.y), ("r", radius)]
  | ellipse center radiusX radiusY =>
      .ok [("cx", center.x), ("cy", center.y), ("rx", radiusX), ("ry", radiusY)]
  | polygon corners => do
      let joined ← Svg.corners
        (corners.map fun corner => (Number.ofRat corner.x, Number.ofRat corner.y))
      return [("points", .text joined)]
  | line first last =>
      .ok [("x1", first.x), ("y1", first.y), ("x2", last.x), ("y2", last.y)]
  | label anchor _ => .ok [("x", anchor.x), ("y", anchor.y)]

/-- The label that the shape consists of. -/
def content? : Shape → Option Text
  | label _ content => some content
  | _ => none

end Shape

/-- A shape with its colours and strokes, or with the looks of its label. -/
structure Figure where
  shape : Shape
  paint : Keyed Svg.Value

namespace Figure

/-- A line in a style. -/
def line (first last : Point) (style : Svg.LineStyle) : Figure :=
  { shape := .line first last, paint := style.values }

/-- A label in a style. -/
def label (anchor : Point) (content : Text) (style : Svg.LabelStyle) : Figure :=
  { shape := .label anchor content, paint := style.values }

/-- The element that shows the figure. -/
def element (figure : Figure) : Except Fault Element := do
  let geometry ← figure.shape.geometry
  let attributes ← Svg.attributes (geometry ++ figure.paint)
  return { tag := figure.shape.tag, attributes, text := figure.shape.content?, children := []
           tail := none }

end Figure

/-- Figures that belong together. The class says what they show. -/
structure Group where
  className : Text
  figures : List Figure

/-- The element that shows a group. -/
def Group.element (group : Group) : Except Fault Element := do
  return .enclosing "g" [("class", group.className)] (← group.figures.mapM Figure.element)

/-- A thing that is shown: its own figures, and the groups of the things inside it. -/
structure Entity extends Group where
  members : List Group := []

/-- The element that shows an entity. -/
def Entity.element (entity : Entity) : Except Fault Element := do
  let own ← entity.figures.mapM Figure.element
  let inner ← entity.members.mapM Group.element
  return .enclosing "g" [("class", entity.className)] (own ++ inner)

/-- A whole drawing. -/
structure Scene where
  canvas : Canvas
  markers : List Svg.Marker := []
  entities : List Entity
  relations : List Group
  /-- What there is to tell about relations that are left out. -/
  omissions : List Text := []

namespace Scene

/-- The document that shows a scene. -/
def element (scene : Scene) : Except Fault Element := do
  let root ← Svg.document (.ofRat scene.canvas.width) (.ofRat scene.canvas.height)
    (scene.markers.map Svg.Marker.name)
  let entities ← scene.entities.mapM Entity.element
  let relations ← scene.relations.mapM Group.element
  return { root with children := root.children ++ (entities ++ relations) }

/-- The text of the document that shows a scene. -/
def print (scene : Scene) : Except Fault Text :=
  scene.element.bind Svg.print

end Scene

end DiagramSketch
