import DiagramSketch.Components.Basic
import DiagramSketch.Scene

/-!
# Drawing components

Packages stand side by side, each with its components in two columns below its title. The
components on their own form a row below the highest package. Connections run between the
middles of components, wherever a key leads to one.
-/

namespace DiagramSketch.Components

/-- The distance of the left edges of two packages. -/
def packageSpacing : Rat := 350

/-- The upper edge of all packages. -/
def packageTop : Rat := 50

/-- The smallest height of a package. -/
def packageMinHeight : Rat := 200

/-- The box of a component with its upper left corner at a place. -/
def componentBox (x y : Rat) : Box :=
  ⟨x, y, 120, 50⟩

/-- The box of the package with the number. -/
def packageBox (index : Nat) (package : Package) : Box :=
  ⟨50 + index * packageSpacing, packageTop, 300, larger packageMinHeight (60 + 70 * package.rows)⟩

/-- The box of the component with the number in a package. -/
def memberBox (box : Box) (slot : Nat) : Box :=
  componentBox (box.x + 20 + (slot % 2 : Nat) * 130) (box.y + 50 + (slot / 2 : Nat) * 70)

/-- Where everything is: the packages, the components by name, and the place that each key leads
to. -/
structure Layout where
  canvas : Canvas
  packages : List Box
  components : Keyed Box
  positions : Keyed Point
deriving DecidableEq, Repr

/-- The boxes of all packages. -/
def packageBoxes (components : Components) : List Box :=
  components.packages.zipIdx.map fun (package, index) => packageBox index package

/-- The height of the highest package, or that of an empty one. -/
def tallest (components : Components) : Rat :=
  match components.packageBoxes.map Box.height with
  | [] => packageMinHeight
  | height :: heights => largest height heights

/-- The upper edge of the row of components on their own. -/
def rowTop (components : Components) : Rat :=
  packageTop + components.tallest + 50

/-- The boxes of the components in packages. -/
def memberBoxes (components : Components) : List (Text × Box) :=
  components.packages.zipIdx.flatMap fun (package, index) =>
    package.members.zipIdx.map fun (name, slot) => (name, memberBox (packageBox index package) slot)

/-- The boxes of the components on their own. -/
def rowBoxes (components : Components) : List (Text × Box) :=
  components.standalone.zipIdx.map fun (name, slot) =>
    (name, componentBox (50 + slot * 150) components.rowTop)

/-- The layout of the diagram. The canvas has room for the packages and the row. -/
def layout (components : Components) : Except Fault Layout := do
  let row := components.rowBoxes
  let boxes := Keyed.ofList (components.memberBoxes ++ row)
  let right := ((row.map fun (_, box) => box.right).getLast?).getD 0
  let bottom :=
    if row.isEmpty then packageTop + components.tallest else components.rowTop + 50
  let positions ← components.registry.mapM fun (key, name) =>
    (boxes.get name).map fun box => (key, box.center)
  return {
    canvas :=
      { width := larger (larger 800 (components.packages.length * packageSpacing)) (right + 50)
        height := larger 600 (bottom + 100) }
    packages := components.packageBoxes
    components := boxes
    positions }

/-- A component: its name in a box. -/
def componentGroup (fill stroke : Text) (name : Text) (box : Box) : Group :=
  { className := "component"
    figures :=
      [{ shape := .rectangle box
         paint := [("fill", .text fill), ("stroke", .text stroke), ("stroke_width", 2),
           ("rx", 5)] },
       .label ⟨box.center.x, box.y + 30⟩ name { size := 11, isBold := true }] }

/-- The groups of components by name. -/
def Layout.groups (layout : Layout) (fill stroke : Text) (names : List Text) :
    Except Fault (List Group) :=
  names.mapM fun name => (layout.components.get name).map (componentGroup fill stroke name)

/-- A package: a dashed box with its title, and the components in it. -/
def packageEntity (package : Package) (box : Box) (members : List Group) : Entity :=
  { className := "entity package"
    figures :=
      [{ shape := .rectangle box
         paint := [("fill", "#f3e5f5"), ("stroke", "#9c27b0"), ("stroke_width", 2),
           ("stroke_dasharray", "5,5"), ("rx", 10)] },
       .label ⟨box.x + 10, box.y + 25⟩ (package.name.getD [])
         { size := 16, anchor := .absent, isBold := true, fill := "#9c27b0" }]
    members }

/-- The row of the components on their own. -/
def standaloneEntity (members : List Group) : Entity :=
  { className := "entity standalone", figures := [], members }

/-- The packages with the components in them. -/
def Layout.packageEntities (layout : Layout) (packages : List Package) :
    Except Fault (List Entity) :=
  (packages.zip layout.packages).mapM fun (package, box) =>
    (layout.groups "#e8f5e8" "#4caf50" package.members).map (packageEntity package box)

/-- The components on their own, if there are any. -/
def Layout.standaloneEntities (layout : Layout) (names : List Text) :
    Except Fault (List Entity) :=
  if names.isEmpty then .ok []
  else (layout.groups "#e3f2fd" "#2196f3" names).map fun members => [standaloneEntity members]

/-- The places of both ends of a connection, where its keys lead to components. -/
def Layout.ends? (layout : Layout) (connection : Connection) : Option (Point × Point) := do
  let first ← layout.positions.find? connection.source
  let last ← layout.positions.find? connection.target
  return (first, last)

/-- A connection between two places, with its label above the middle. -/
def connectionGroup (connection : Connection) (first last : Point) : Group :=
  let style : Svg.LineStyle :=
    if connection.isDirected then { endMarker := .text Svg.Marker.arrowhead.name } else {}
  let middle : Point := ⟨(first.x + last.x) / 2, (first.y + last.y) / 2 - 8⟩
  { className := "relation connection"
    figures :=
      if connection.label.isEmpty then [.line first last style]
      else [.line first last style, .label middle connection.label { size := 11 }] }

/-- What there is to tell about a connection that is left out. -/
def omission (connection : Connection) : Text :=
  "component: dropping connection " ++ connection.source ++ " -> " ++ connection.target

/-- The connections that a drawing leaves out. -/
def dropped (components : Components) (layout : Layout) : List Connection :=
  components.connections.filter fun connection => (layout.ends? connection).isNone

/-- The drawing of the diagram. A connection is left out when one of its keys leads nowhere. -/
def scene (components : Components) (layout : Layout) : Except Fault Scene := do
  let packages ← layout.packageEntities components.packages
  let standalone ← layout.standaloneEntities components.standalone
  return {
    canvas := layout.canvas
    entities := packages ++ standalone
    relations := components.connections.filterMap fun connection =>
      (layout.ends? connection).map fun (first, last) => connectionGroup connection first last
    omissions := (components.dropped layout).map omission }

end DiagramSketch.Components
