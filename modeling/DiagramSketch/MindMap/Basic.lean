import DiagramSketch.Text.Basic

/-!
# Mind maps

A mind map is a list of nodes, each on a level. A node is below the nearest earlier node
that is one level up, if there is one; nodes on the first level are below nothing.
-/

namespace DiagramSketch

/-- A node of a mind map. -/
structure MindMapNode where
  level : Int
  text : Text
deriving DecidableEq, Repr

/-- A mind map. -/
structure MindMap where
  nodes : List MindMapNode
deriving DecidableEq, Repr

namespace MindMap

/-- Reads a node: asterisks, as many as its level, blanks and a text up to the end of the line.
The text must have a character. When there are only blanks after the asterisks, one of them is
the text; when there is nothing, the last asterisk is, and the level is one less. -/
def node? (line : Text) : Option MindMapNode :=
  let level := (line.takeWhile (· == '*')).length
  let rest := line.dropWhile (· == '*')
  if level = 0 then none
  else
    match Text.dropBlanks rest with
    | text@(_ :: _) => some { level, text := Text.trim (Text.upToLineFeed text) }
    | [] =>
        if rest.any (· != '\n') then some { level, text := [] }
        else if 2 ≤ level then some { level := level - 1, text := "*" }
        else none

/-- The mind map that the lines of a source describe. -/
def ofLines (lines : List Text) : MindMap :=
  { nodes := (Text.contentLines lines).filterMap node? }

/-- The number of the last node on the level, among those before the one with the number. -/
def lastAt? (map : MindMap) (level : Int) (before : Nat) : Option Nat :=
  ((map.nodes.take before).zipIdx.reverse.find? fun (node, _) => node.level == level).map Prod.snd

/-- The number of the node that the one with the number is below. -/
def parent? (map : MindMap) (index : Nat) : Option Nat := do
  let node ← map.nodes[index]?
  if node.level ≤ 1 then none else map.lastAt? (node.level - 1) index

/-- The numbers of all parents, in the order of the nodes. -/
def parents (map : MindMap) : List (Option Nat) :=
  (List.range map.nodes.length).map map.parent?

/-- The colours of the levels, which are used again and again. -/
def palette : List Text :=
  ["#ff9800", "#2196f3", "#4caf50", "#e91e63", "#9c27b0"]

/-- The colour of a level. -/
def colorOf (level : Int) : Text :=
  palette.getD (level % palette.length).toNat []

end MindMap

end DiagramSketch
