import DiagramSketch.Proofs.Components.Store
import DiagramSketch.Proofs.Diagram.Bounds
import DiagramSketch.Proofs.Diagram.Extents
import DiagramSketch.Proofs.Font.Bundled
import DiagramSketch.Proofs.Scene.Outlines

/-!
# Drawings on their canvas

Whatever is drawn for lines lies on the canvas, as far as its bounding box reaches.  Lines never
describe a level or a duration that could move something off it.
-/

namespace DiagramSketch.Diagram

theorem isOnCanvas_drawing_of_read (font : Font) {lines : List Text} {kind : Kind}
    {diagram : Diagram} (success : read lines kind = .ok diagram) :
    (diagram.drawing font).IsOnCanvas := by
  cases kind with
  | sequence =>
      cases success
      exact Sequence.isOnCanvas_drawing _
  | classes =>
      cases success
      exact ClassModel.isOnCanvas_drawing font _
  | useCase =>
      cases success
      exact UseCases.isOnCanvas_drawing _
  | activity =>
      cases success
      exact Activity.isOnCanvas_drawing font _
  | component =>
      cases success
      exact Components.isOnCanvas_drawing _ (Components.isStored_ofLines lines).complete
  | mindMap =>
      cases success
      apply MindMap.isOnCanvas_drawing
      intro node member
      exact MindMap.level_pos_of_mem_ofLines member
  | gantt =>
      obtain ⟨schedule, readSchedule, rfl⟩ := map_eq_ok_iff.mp success
      exact Schedule.isOnCanvas_scene (Schedule.isBounded_ofLines readSchedule).forward
  | panel =>
      cases success
      exact Panel.isOnCanvas_scene _

/-- What is drawn for lines is drawn on the canvas that they are laid out on, and no place in the
bounding box of a shape and no anchor of a label is outside of it. -/
theorem isOn_of_covers_of_read {font : Font} {lines : List Text} {kind : Kind} {diagram : Diagram}
    {scene : Scene} (success : read lines kind = .ok diagram)
    (drawn : diagram.scene font = .ok scene) :
    diagram.canvas font = .ok scene.canvas ∧
      ∀ group ∈ scene.groups, ∀ figure ∈ group.figures, ∀ point : Point,
        figure.shape.Covers point → point.IsOn scene.canvas := by
  obtain ⟨drawable, rfl⟩ := scene_eq_ok_iff.mp drawn
  refine ⟨canvas_eq_ok_iff.mpr ⟨drawable, rfl⟩, ?_⟩
  intro group member figure inside point covers
  exact (isOnCanvas_drawing_of_read font success group member figure inside).of_covers covers

/-- The corner of the box around a diamond, which the diamond itself does not reach. -/
theorem isOn_diamond_corner :
    let lines : List Text := ["start", "if (ready) then", "stop"]
    let diagram := activity (.ofLines lines)
    read lines .activity = .ok diagram ∧
      diagram.scene .bundled = .ok (diagram.drawing .bundled) ∧
      diagram.canvas .bundled = .ok ⟨400, 280⟩ ∧ Point.IsOn ⟨400, 280⟩ ⟨160, 90⟩ := by
  intro lines diagram
  have success : read lines .activity = .ok diagram := rfl
  have measurable : diagram.IsDrawable .bundled := by
    have short : ∀ step ∈ (Activity.ofLines lines).steps,
        step.label.length ≤ Font.lengthLimit := by decide +kernel
    exact fun step member => Font.measures_bundled_iff.mpr (short step member)
  have drawn : diagram.scene .bundled = .ok (diagram.drawing .bundled) :=
    scene_eq_ok_iff.mpr ⟨measurable, rfl⟩
  have canvas : (diagram.drawing .bundled).canvas = ⟨400, 280⟩ := by decide +kernel
  obtain ⟨group, member, figure, inside, shape⟩ : ∃ group ∈ (diagram.drawing .bundled).groups,
      ∃ figure ∈ group.figures, figure.shape =
        .polygon [⟨200, 90⟩, ⟨240, 110⟩, ⟨200, 130⟩, ⟨160, 110⟩] := by decide +kernel
  have covers : figure.shape.Covers ⟨160, 90⟩ := by
    rw [shape]
    constructor
    all_goals decide +kernel
  obtain ⟨laid, each⟩ := isOn_of_covers_of_read success drawn
  have on := each group member figure inside ⟨160, 90⟩ covers
  rw [canvas] at laid on
  exact ⟨success, drawn, laid, on⟩

end DiagramSketch.Diagram
