import DiagramSketch.Sequence.Basic
import DiagramSketch.Scene

/-!
# Drawing a sequence

Every participant has a column: its name in a box at the top and a dashed line below it.
Every interaction has a row, with an arrow from one column to another.
-/

namespace DiagramSketch.Sequence

/-- The distance of two columns. -/
def columnSpacing : Rat := 150

/-- The distance of two rows. -/
def rowSpacing : Rat := 60

/-- Where everything is: the column of each participant and the row of each interaction. -/
structure Layout where
  canvas : Canvas
  columns : Keyed Rat
  rows : List Rat
deriving DecidableEq, Repr

/-- The middle of the column with the number. -/
def columnAt (index : Nat) : Rat :=
  100 + index * columnSpacing

/-- The height of the row with the number. -/
def rowAt (index : Nat) : Rat :=
  100 + index * rowSpacing

/-- Columns follow one another from the left, rows from the top. -/
def layout (sequence : Sequence) : Layout :=
  { canvas :=
      { width := larger 600 (sequence.participants.length * columnSpacing)
        height := 200 + sequence.interactions.length * rowSpacing }
    columns := Keyed.ofList (sequence.participants.zipIdx.map fun (name, index) =>
      (name, columnAt index))
    rows := (List.range sequence.interactions.length).map rowAt }

/-- A participant: its name in a box and the line of its life. -/
def participantEntity (bottom : Rat) (name : Text) (x : Rat) : Entity :=
  { className := "entity participant"
    figures :=
      [{ shape := .rectangle ⟨x - 40, 20, 80, 40⟩
         paint := [("fill", "#e3f2fd"), ("stroke", "#1976d2"), ("stroke_width", 2), ("rx", 5)] },
       .label ⟨x, 45⟩ name { size := 14, isBold := true },
       .line ⟨x, 60⟩ ⟨x, bottom⟩ { stroke := "#ddd", isDashed := true }] }

/-- An interaction: an arrow between two columns, and the message above its middle. -/
def interactionGroup (interaction : Interaction) (sourceX targetX y : Rat) : Group :=
  let style : Svg.LineStyle :=
    if interaction.isRightward then
      { isDashed := interaction.isDashed, endMarker := .text Svg.Marker.arrowhead.name }
    else { isDashed := interaction.isDashed, startMarker := .text Svg.Marker.arrowhead.name }
  let arrow : Figure := .line ⟨sourceX, y⟩ ⟨targetX, y⟩ style
  { className := "relation interaction"
    figures :=
      if interaction.message.isEmpty then [arrow]
      else [arrow, .label ⟨(sourceX + targetX) / 2, y - 10⟩ interaction.message {}] }

/-- The arrow of an interaction in a row, where both of its participants have columns. -/
def Layout.arrow? (layout : Layout) (interaction : Interaction) (y : Rat) : Option Group := do
  let sourceX ← layout.columns.find? interaction.source
  let targetX ← layout.columns.find? interaction.target
  return interactionGroup interaction sourceX targetX y

/-- The drawing of the diagram. An interaction is left out when one of its participants is
missing. -/
def scene (sequence : Sequence) : Except Fault Scene := do
  let layout := sequence.layout
  let entities ← sequence.participants.mapM fun name =>
    (layout.columns.get name).map (participantEntity (layout.canvas.height - 20) name)
  return {
    canvas := layout.canvas
    entities
    relations := (sequence.interactions.zip layout.rows).filterMap fun (interaction, y) =>
      layout.arrow? interaction y }

end DiagramSketch.Sequence
