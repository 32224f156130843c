import DiagramSketch.Diagram
import DiagramSketch.Proofs.Activity.Drawing
import DiagramSketch.Proofs.ClassModel.Drawing
import DiagramSketch.Proofs.Components.Drawing
import DiagramSketch.Proofs.MindMap.Drawing
import DiagramSketch.Proofs.Schedule.Drawing
import DiagramSketch.Proofs.Sequence.Drawing
import DiagramSketch.Proofs.UseCases.Drawing

/-!
# What is drawn for a diagram

For every kind there is one drawing.  A diagram that has a scene has this one, and it is sound.
-/

namespace DiagramSketch

namespace Panel

variable (panel : Panel)

theorem isSound_scene : panel.scene.IsSound := by
  refine ⟨Scene.forall_groups.mpr ⟨?_, List.forall_mem_nil _⟩, List.nodup_nil⟩
  exact List.forall_mem_singleton.mpr
    (List.forall_mem_singleton.mpr (Group.isSound_of_isChecked rfl))

theorem isOnCanvas_scene : panel.scene.IsOnCanvas := by
  have wide : canvas.width = 600 := rfl
  have high : canvas.height = 400 := rfl
  have outline : (Shape.rectangle ⟨50, 50, 500, 300⟩).IsOn canvas := by
    refine Shape.isOn_rectangle ?_ ?_ ?_ ?_ ⟨?_, ?_⟩
    all_goals linarith
  have label {y : Rat} (top : 0 ≤ y) (bottom : y ≤ 400) (content : Text) :
      (Shape.label ⟨300, y⟩ content).IsOn canvas := by
    refine Shape.isOn_label (Point.isOn_mk ?_ ?_ ?_ ?_) content
    all_goals linarith
  refine Scene.forall_groups.mpr ⟨?_, List.forall_mem_nil _⟩
  refine List.forall_mem_singleton.mpr (List.forall_mem_singleton.mpr ?_)
  exact List.forall_mem_cons.mpr ⟨outline,
    List.forall_mem_cons.mpr ⟨label (by norm_num) (by norm_num) _,
      List.forall_mem_cons.mpr ⟨label (by norm_num) (by norm_num) _,
        List.forall_mem_singleton.mpr (label (by norm_num) (by norm_num) _)⟩⟩⟩

theorem isExtentFor_canvas (count : Nat) :
    IsExtentFor count canvas.width ∧ IsExtentFor count canvas.height := by
  have some : (0 : Rat) ≤ count := Nat.cast_nonneg count
  have wide : canvas.width = 600 := rfl
  have high : canvas.height = 400 := rfl
  exact ⟨⟨by linarith, by linarith⟩, ⟨by linarith, by linarith⟩⟩

end Panel

namespace Diagram

/-- What is drawn for a diagram. -/
def drawing (font : Font) : Diagram → Scene
  | sequence read => read.drawing
  | classes model => model.drawing font
  | useCase read => read.drawing
  | activity read => read.drawing font
  | component read => read.drawing
  | mindMap map => map.drawing
  | gantt schedule => schedule.scene
  | panel read => read.scene

/-- A diagram whose labels can be measured, and of which nothing lacks its place. -/
def IsDrawable (font : Font) : Diagram → Prop
  | classes model => ∀ entry ∈ model.classes, ClassModel.IsMeasurable font entry
  | activity read => read.IsMeasurable font
  | component read => read.IsComplete
  | _ => True

variable {font : Font}

/-- A diagram has its drawing as a scene exactly when it can be drawn, and has no other. -/
theorem scene_eq_ok_iff {diagram : Diagram} {scene : Scene} :
    diagram.scene font = .ok scene ↔
      diagram.IsDrawable font ∧ scene = diagram.drawing font := by
  have total {found : Scene} : (Except.ok found : Except Fault Scene) = .ok scene ↔
      True ∧ scene = found := by
    rw [Except.ok.injEq, true_and]
    exact eq_comm
  cases diagram with
  | sequence read =>
      change read.scene = .ok scene ↔ _
      rw [read.scene_eq]
      exact total
  | classes model =>
      exact bind_eq_ok_iff_of_only (fun _ => ClassModel.layout_eq_ok_iff)
        (model.scene_plan font)
  | useCase read =>
      change read.scene = .ok scene ↔ _
      rw [read.scene_eq]
      exact total
  | activity read => exact map_eq_ok_iff_of_only fun _ => Activity.layout_eq_ok_iff
  | component read =>
      exact bind_eq_ok_iff_of_only (fun _ => Components.layout_eq_ok_iff) read.scene_plan
  | mindMap map =>
      change map.scene = .ok scene ↔ _
      rw [map.scene_eq]
      exact total
  | gantt schedule => exact total
  | panel read => exact total

theorem isSound_drawing (font : Font) (diagram : Diagram) : (diagram.drawing font).IsSound := by
  cases diagram with
  | sequence read => exact read.isSound_drawing
  | classes model => exact model.isSound_drawing font
  | useCase read => exact read.isSound_drawing
  | activity read => exact Activity.Layout.isSound_scene _
  | component read => exact read.isSound_drawing
  | mindMap map => exact map.isSound_drawing
  | gantt schedule => exact schedule.isSound_scene
  | panel read => exact read.isSound_scene

/-- The document of a diagram is that of its drawing. -/
theorem print_eq_ok_iff {diagram : Diagram} {document : Text} :
    diagram.print font = .ok document ↔
      diagram.IsDrawable font ∧ (diagram.drawing font).print = .ok document := by
  unfold print
  rw [bind_eq_ok_iff]
  simp only [scene_eq_ok_iff]
  constructor
  · rintro ⟨scene, ⟨drawable, rfl⟩, printed⟩
    exact ⟨drawable, printed⟩
  · rintro ⟨drawable, printed⟩
    exact ⟨_, ⟨drawable, rfl⟩, printed⟩

theorem exists_print {diagram : Diagram} (drawable : diagram.IsDrawable font)
    (on : (diagram.drawing font).IsOnCanvas) {count : Nat} (few : count ≤ 2 ^ 130)
    (extents : IsExtentFor count (diagram.drawing font).canvas.width ∧
      IsExtentFor count (diagram.drawing font).canvas.height) :
    ∃ document, diagram.print font = .ok document := by
  have writable := Canvas.isWritable_of_isExtentFor extents.1 extents.2 few
  obtain ⟨document, printed⟩ := Scene.exists_print (diagram.isSound_drawing font) on writable
  exact ⟨document, print_eq_ok_iff.mpr ⟨drawable, printed⟩⟩

end Diagram

end DiagramSketch
