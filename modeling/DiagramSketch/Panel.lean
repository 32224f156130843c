import DiagramSketch.Scene

/-!
# Panels

A source whose kind is not recognised is drawn as a panel that tells its number of lines.
-/

namespace DiagramSketch

/-- The panel for a source. -/
structure Panel where
  lineCount : Int
deriving DecidableEq, Repr

namespace Panel

/-- The panel for the lines of a source, of which all count. -/
def ofLines (lines : List Text) : Panel :=
  { lineCount := lines.length }

/-- What the panel tells. -/
def summary (panel : Panel) : Text :=
  Number.signedDigits panel.lineCount ++ " lines of PlantUML code detected"

/-- The canvas of every panel. -/
def canvas : Canvas :=
  { width := 600, height := 400 }

/-- The drawing of a panel. -/
def scene (panel : Panel) : Scene :=
  { canvas
    entities :=
      [{ className := "entity panel"
         figures :=
          [{ shape := .rectangle ⟨50, 50, 500, 300⟩
             paint := [("fill", "#f5f5f5"), ("stroke", "#999"), ("stroke_width", 2),
               ("rx", 10)] },
           .label ⟨300, 150⟩ "PlantUML Diagram" { size := 16, isBold := true },
           .label ⟨300, 180⟩ "Parsed from your code" { size := 14 },
           .label ⟨300, 220⟩ panel.summary { fill := "#666" }] }]
    relations := [] }

end Panel

end DiagramSketch
