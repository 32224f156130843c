import DiagramSketch.Svg.Element
import DiagramSketch.Xml.Document

/-!
# Documents

A document begins with its size, the definitions of its markers and a white background.
The arrowhead is always defined, and always first.
-/

namespace DiagramSketch.Svg

open Xml (Element)

/-- The namespace of all elements of a drawing. -/
def namespaceName : Text := "http://www.w3.org/2000/svg"

/-- What a line may have at an end. -/
inductive Marker where
  /-- A filled tip. -/
  | arrowhead
  /-- A hollow triangle. -/
  | inheritance
deriving DecidableEq, Repr

namespace Marker

/-- The name by which lines refer to the marker. -/
def name : Marker → Text
  | arrowhead => "arrowhead"
  | inheritance => "inheritance"

/-- The marker with the name. -/
def ofName? (wanted : Text) : Option Marker :=
  [arrowhead, inheritance].find? fun marker => marker.name == wanted

/-- The definition of the marker. -/
def element : Marker → Element
  | arrowhead =>
      .enclosing "marker"
        [("id", arrowhead.name), ("markerWidth", "10"), ("markerHeight", "7"), ("refX", "9"),
         ("refY", "3.5"), ("orient", "auto-start-reverse")]
        [.empty "polygon" [("points", "0 0, 10 3.5, 0 7"), ("fill", inkColour)]]
  | inheritance =>
      .enclosing "marker"
        [("id", inheritance.name), ("markerWidth", "12"), ("markerHeight", "12"), ("refX", "10"),
         ("refY", "6"), ("orient", "auto")]
        [.empty "polygon"
          [("points", "0 0, 10 6, 0 12"), ("fill", "white"), ("stroke", inkColour),
           ("stroke-width", "1")]]

theorem ofName?_name (marker : Marker) : ofName? marker.name = some marker := by
  cases marker <;> decide

end Marker

/-- The definition of the marker with the name. -/
def markerElement (name : Text) : Except Fault Element :=
  match Marker.ofName? name with
  | some marker => .ok marker.element
  | none => .error (.unknownMarker name)

/-- The rectangle behind everything. -/
def background : Element :=
  .empty "rect"
    [("width", "100%"), ("height", "100%"), ("fill", "white"), ("stroke", "#ddd"),
     ("stroke-width", "1")]

/-- A document of the size, with the arrowhead and the named markers defined. -/
def document (width height : Number) (markers : List Text) : Except Fault Element := do
  if !(width.isExtent && height.isExtent) then
    throw (.canvasNotPositive width height)
  let widthText ← width.format
  let heightText ← height.format
  let others ← (markers.filter (· != Marker.arrowhead.name)).mapM markerElement
  return .enclosing "svg"
    [("width", widthText), ("height", heightText),
     ("viewBox", "0 0 " ++ widthText ++ ' ' :: heightText)]
    [.enclosing "defs" [] (Marker.arrowhead.element :: others), background]

/-- An element as a document of its own: it is indented from its own tag on and written, unless one
of its names cannot be read. -/
def print (element : Element) : Except Fault Text :=
  (element.indented 0).document namespaceName

end DiagramSketch.Svg
