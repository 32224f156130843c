import DiagramSketch.Svg.Attribute

/-!
# Elements of a drawing

The elements that drawings are made of: groups, shapes, lines, polygons and labels. Each
one is described by named values, and cannot be made when one of them has no spelling or
has a name that is in use for something else.
-/

namespace DiagramSketch.Svg

open Xml (Element)

/-- Refuses values under the names that the maker of an element uses for something else. -/
def refuseNames (maker : Text) (inUse : List Text) (values : Keyed Value) : Except Fault Unit :=
  match values.names.find? fun name => inUse.contains name with
  | some name => .error (.nameInUse maker name)
  | none => .ok ()

/-- An empty group. Its class comes first, unless the values give another one. -/
def group (className : Text) (values : Keyed Value) : Except Fault Element := do
  refuseNames "group" ["parent", "css_class"] values
  return .empty "g" (← attributes (("class", .text className) :: values))

/-- A shape without anything inside it. -/
def shape (tag : Text) (values : Keyed Value) : Except Fault Element := do
  refuseNames "shape" ["parent", "tag"] values
  return .empty tag (← attributes values)

/-- The colour of lines and markers. -/
def inkColour : Text := "#333"

/-- How a line is drawn. The markers stand at its ends. -/
structure LineStyle where
  stroke : Value := .text inkColour
  isDashed : Bool := false
  startMarker : Value := .absent
  endMarker : Value := .absent

/-- The reference to a marker, where there is one. -/
def markerReference (marker : Value) : Value :=
  if marker.isAffirmed then .text ("url(#" ++ marker.display ++ ")") else .absent

/-- The values that a line style stands for. -/
def LineStyle.values (style : LineStyle) : Keyed Value :=
  [("stroke", style.stroke), ("stroke_width", 2),
   ("stroke_dasharray", if style.isDashed then "5,5" else .absent),
   ("marker_start", markerReference style.startMarker),
   ("marker_end", markerReference style.endMarker)]

/-- The places of both ends of a line. -/
def lineValues (startX startY endX endY : Number) : Keyed Value :=
  [("x1", .number startX), ("y1", .number startY), ("x2", .number endX), ("y2", .number endY)]

/-- A line between two points. -/
def line (startX startY endX endY : Number) (style : LineStyle) : Except Fault Element :=
  shape "line" (lineValues startX startY endX endY ++ style.values)

/-- How a label is drawn. -/
structure LabelStyle where
  size : Value := 12
  anchor : Value := "middle"
  isBold : Bool := false
  fill : Value := .absent

/-- The values that a label style stands for. -/
def LabelStyle.values (style : LabelStyle) : Keyed Value :=
  [("text_anchor", style.anchor), ("font_family", "Arial, sans-serif"),
   ("font_size", style.size), ("font_weight", if style.isBold then "bold" else .absent),
   ("fill", style.fill)]

/-- The place of a label. -/
def labelValues (x y : Number) : Keyed Value :=
  [("x", .number x), ("y", .number y)]

/-- A label at a point. -/
def label (x y : Number) (content : Text) (style : LabelStyle) : Except Fault Element :=
  (attributes (labelValues x y ++ style.values)).map fun found =>
    Element.labelled "text" found content

/-- A corner of a polygon as it is written. -/
def corner (point : Number × Number) : Except Fault Text := do
  return (← point.1.format) ++ ',' :: (← point.2.format)

/-- The corners of a polygon as they are written, with a space between two of them. -/
def corners (points : List (Number × Number)) : Except Fault Text := do
  return List.intercalate [' '] (← points.mapM corner)

/-- A polygon with its corners at the points. -/
def polygon (points : List (Number × Number)) (values : Keyed Value) : Except Fault Element := do
  refuseNames "polygon" ["parent", "points"] values
  let joined ← corners points
  shape "polygon" (("points", .text joined) :: values)

end DiagramSketch.Svg
