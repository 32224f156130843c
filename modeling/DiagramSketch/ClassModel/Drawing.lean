import DiagramSketch.ClassModel.Basic
import DiagramSketch.Font
import DiagramSketch.Scene

/-!
# Drawing a class model

Classes stand side by side. Each one is a box, wide enough for its longest line and as
high as its members need: a header with the name, the attributes, a separating line when
there are both kinds of members, and the methods. Relationships run at a fixed height
between the middles of the boxes.
-/

namespace DiagramSketch.ClassModel

/-- The height of one member's line. -/
def memberSpacing : Rat := 20

/-- The distance of two boxes. -/
def boxGap : Rat := 50

/-- The left edge of the first box, and the upper edge of all boxes. -/
def margin : Rat := 50

/-- The height at which relationships are drawn. -/
def relationshipHeight : Rat := 150

/-- The width of a box: that of the name or of the widest member, whichever is more, and some
space on both sides, in whole pixels. -/
def boxWidth (font : Font) (entry : ClassEntry) : Except Fault Rat := do
  let nameWidth ← font.width 14 entry.name
  let memberWidths ← (entry.attributes ++ entry.methods).mapM (font.width 12)
  return larger 200 ((largest nameWidth memberWidths + 20).ceil : Int)

/-- The height of a box. -/
def boxHeight (entry : ClassEntry) : Rat :=
  80 + entry.memberCount * memberSpacing

/-- The boxes of classes with the widths, the first one with its left edge at `x`. -/
def boxesFrom (x : Rat) : List (ClassEntry × Rat) → List (Text × Box)
  | [] => []
  | (entry, width) :: rest =>
      (entry.name, ⟨x, margin, width, boxHeight entry⟩) :: boxesFrom (x + (width + boxGap)) rest

/-- Where everything is. -/
structure Layout where
  canvas : Canvas
  boxes : Keyed Box
deriving DecidableEq, Repr

/-- The place at which relationships of the class with the name begin and end. -/
def Layout.anchor (layout : Layout) (name : Text) : Option Point :=
  (layout.boxes.find? name).map fun box => ⟨box.center.x, relationshipHeight⟩

/-- Boxes follow one another from the left. -/
def layout (font : Font) (model : ClassModel) : Except Fault Layout := do
  let widths ← model.classes.mapM (boxWidth font)
  let count := model.classes.length
  let right := widths.foldl (fun x width => x + (width + boxGap)) margin
  let tallest := largest 0 (model.classes.map boxHeight)
  return {
    canvas :=
      { width := larger (larger 800 (count * 250)) right
        height := larger (400 + (count - 2 : Nat) * 100) (tallest + 100) }
    boxes := Keyed.ofList (boxesFrom margin (model.classes.zip widths)) }

/-- The lines of members under each other, the first one at the height `y`. -/
def memberLabels (box : Box) (y : Rat) (members : List Text) : List Figure :=
  members.zipIdx.map fun (member, index) =>
    .label ⟨box.x + 10, y + index * memberSpacing⟩ member { anchor := .absent }

/-- A class: the box with its header and its members. -/
def classEntity (box : Box) (entry : ClassEntry) : Entity :=
  let separator := box.y + 50 + entry.attributes.length * memberSpacing
  let isSeparated := !entry.attributes.isEmpty && !entry.methods.isEmpty
  { className := "entity class"
    figures :=
      [{ shape := .rectangle box
         paint := [("fill", "#fff3e0"), ("stroke", "#f57c00"), ("stroke_width", 2)] },
       { shape := .rectangle { box with height := 30 }, paint := [("fill", "#f57c00")] },
       .label ⟨box.center.x, box.y + 20⟩ entry.name
         { size := 14, isBold := true, fill := "white" }]
      ++ memberLabels box (box.y + 50) entry.attributes
      ++ (if isSeparated then
          [{ shape := .line ⟨box.x, separator⟩ ⟨box.right, separator⟩
             paint := [("stroke", "#f57c00"), ("stroke_width", 1)] }]
        else [])
      ++ memberLabels box (if isSeparated then separator + 10 else separator) entry.methods }

/-- A relationship between two places. -/
def relationshipGroup (relationship : Relationship) (first last : Point) : Group :=
  let (className, marker) : Text × Svg.Marker :=
    if relationship.isInheritance then ("relation inheritance", .inheritance)
    else ("relation association", .arrowhead)
  { className, figures := [.line first last { endMarker := .text marker.name }] }

/-- The places of both ends of a relationship, where the model has both classes. -/
def Layout.ends? (layout : Layout) (relationship : Relationship) : Option (Point × Point) := do
  let first ← layout.anchor relationship.endpoints.1
  let last ← layout.anchor relationship.endpoints.2
  return (first, last)

/-- What there is to tell about a relationship that is left out. -/
def omission (relationship : Relationship) : Text :=
  "class: dropping relationship " ++ relationship.left ++ ' ' :: relationship.relation
    ++ ' ' :: relationship.right

/-- The relationships that a drawing leaves out. -/
def dropped (model : ClassModel) (layout : Layout) : List Relationship :=
  model.relationships.filter fun relationship => (layout.ends? relationship).isNone

/-- The drawing of the model. A relationship is left out when one of its classes is missing. -/
def scene (model : ClassModel) (layout : Layout) : Except Fault Scene := do
  let entities ← model.classes.mapM fun entry =>
    (layout.boxes.get entry.name).map fun box => classEntity box entry
  return {
    canvas := layout.canvas
    markers := [.inheritance]
    entities
    relations := model.relationships.filterMap fun relationship =>
      (layout.ends? relationship).map fun (first, last) =>
        relationshipGroup relationship first last
    omissions := (model.dropped layout).map omission }

end DiagramSketch.ClassModel
