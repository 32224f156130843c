import DiagramSketch.MindMap.Basic
import DiagramSketch.Scene

/-!
# Drawing a mind map

Every node has a row of its own; its level says how far to the right it stands and how
wide its ellipse is. A branch runs from a node to each of the nodes below it.
-/

namespace DiagramSketch.MindMap

/-- Half the width of a node's ellipse. -/
def halfWidth (node : MindMapNode) : Rat :=
  60 + node.level * 10

/-- Where a node is that has the number. -/
def centerOf (node : MindMapNode) (index : Nat) : Point :=
  ⟨100 + node.level * 150, 100 + index * 60⟩

/-- Where everything is. -/
structure Layout where
  canvas : Canvas
  centers : List Point
  parents : List (Option Nat)
deriving DecidableEq, Repr

/-- The places of all nodes, in order. -/
def centers (map : MindMap) : List Point :=
  map.nodes.zipIdx.map fun (node, index) => centerOf node index

/-- The right end of the node that reaches farthest, or the origin if there is none. -/
def rightmost (map : MindMap) : Rat :=
  match (map.nodes.zip map.centers).map fun (node, center) => center.x + halfWidth node with
  | [] => 0
  | right :: rights => largest right rights

/-- The layout of the map. -/
def layout (map : MindMap) : Layout :=
  { canvas :=
      { width := larger 800 (map.rightmost + 40)
        height := larger 600 (100 + map.nodes.length * 60 + 40) }
    centers := map.centers
    parents := map.parents }

/-- A node: an ellipse around its text. -/
def nodeEntity (node : MindMapNode) (center : Point) : Entity :=
  let color := colorOf node.level
  { className := "entity node level-" ++ Number.signedDigits node.level
    figures :=
      [{ shape := .ellipse center (halfWidth node) 25
         paint := [("fill", .text color), ("fill_opacity", (1 / 8 : Rat)), ("stroke", .text color),
           ("stroke_width", 2)] },
       .label ⟨center.x, center.y + 5⟩ node.text { isBold := true }] }

/-- A branch between two nodes. -/
def branchGroup (parent child : Point) : Group :=
  { className := "relation branch"
    figures := [.line ⟨parent.x + 60, parent.y⟩ ⟨child.x - 60, child.y⟩ { stroke := "#666" }] }

/-- The branch to a node from its parent, if it has one. -/
def Layout.branch? (layout : Layout) (parent : Option Nat) (child : Point) :
    Except Fault (Option Group) :=
  match parent with
  | none => .ok none
  | some index => (entryAt layout.centers index).map fun center => some (branchGroup center child)

/-- The drawing of the map. -/
def scene (map : MindMap) : Except Fault Scene := do
  let layout := map.layout
  let branches ← (layout.parents.zip layout.centers).mapM fun (parent, child) =>
    layout.branch? parent child
  return {
    canvas := layout.canvas
    entities := (map.nodes.zip layout.centers).map fun (node, center) => nodeEntity node center
    relations := branches.filterMap id }

end DiagramSketch.MindMap
