import DiagramSketch.Proofs.Components.Store
import DiagramSketch.Proofs.Diagram.Bounds
import DiagramSketch.Proofs.Diagram.Drawing
import DiagramSketch.Proofs.Font.Bundled
import DiagramSketch.Render

/-!
# When a source cannot be rendered

There are four obstacles: a numeral that is too long to be read, a schedule that is too wide for
any canvas, and names and labels that are too long to be measured.  They are told from the lines
alone, whatever the font is that refuses long texts, and a source is rendered exactly when its lines
have none of them.
-/

namespace DiagramSketch

open Text (AreBounded capacity)

/-- Why a line of a schedule cannot be taken into account. -/
def Schedule.refusal : Schedule.Line → Option Fault
  | .duration _ amount =>
      if 4300 < amount.digits.length then some (.numeralTooLong amount.digits.length) else none
  | .start _ | .order _ _ => none

/-- What stands in the way of lines, and the fault that tells it. -/
inductive Obstacle (lines : List Text) : Fault → Prop
  /-- The first numeral with more than 4300 digits among the durations of a schedule. -/
  | numeral {fault : Fault} (kind : Kind.classify lines = .gantt)
      (refused : ((Text.contentLines lines).filterMap Schedule.Line.read?).findSome?
        Schedule.refusal = some fault) : Obstacle lines fault
  /-- A schedule whose width rounds to more than all double-precision numbers. -/
  | width {schedule : Schedule} (kind : Kind.classify lines = .gantt)
      (read : Schedule.ofLines lines = .ok schedule)
      (wide : (2 : Rat) ^ (1024 : Nat) ≤ Number.Binary64.nearest
        ((max 800 (320 + 20 * schedule.longestDays) : Int) : Rat)) :
      Obstacle lines .wholeTooLarge
  /-- A class with a name or a member of more than a million characters, whatever the font says
  about it. -/
  | member {entry : ClassEntry} {label : Nat × Text} (message : Text)
      (kind : Kind.classify lines = .classes)
      (inside : entry ∈ (ClassModel.ofLines lines).classes) (listed : label ∈ entry.labels)
      (long : 1000000 < label.2.length) : Obstacle lines (.unmeasured message)
  /-- A step with a label of more than a million characters. -/
  | step {step : ActivityStep} (message : Text) (kind : Kind.classify lines = .activity)
      (inside : step ∈ (Activity.ofLines lines).steps) (long : 1000000 < step.label.length) :
      Obstacle lines (.unmeasured message)

/-! ## Schedules -/

namespace Schedule

theorem follow_eq_error_iff (schedule : Schedule) (line : Line) (fault : Fault) :
    schedule.follow line = .error fault ↔ refusal line = some fault := by
  cases line with
  | start date => exact iff_of_false (fun failure => by cases failure) (fun found => by cases found)
  | order name predecessor =>
      exact iff_of_false (fun failure => by cases failure) (fun found => by cases found)
  | duration name amount =>
      have decided : amount.days = .error fault ↔ refusal (.duration name amount) = some fault := by
        by_cases long : 4300 < amount.digits.length
        · have failed : amount.days = .error (.numeralTooLong amount.digits.length) := if_pos long
          have refused : refusal (.duration name amount) =
              some (.numeralTooLong amount.digits.length) := if_pos long
          rw [failed, refused, Except.error.injEq, Option.some.injEq]
        · have counted : amount.days =
              .ok (Text.numeral amount.digits * if amount.isWeeks then 7 else 1) := if_neg long
          have accepted : refusal (.duration name amount) = none := if_neg long
          rw [counted, accepted]
          exact iff_of_false (fun failure => by cases failure) (fun found => by cases found)
      refine Iff.trans ?_ decided
      unfold follow
      rw [map_eq_error_iff]
      refine bind_eq_error_iff.trans (or_iff_left ?_)
      rintro ⟨days, -, failure⟩
      cases failure

/-- Lines cannot be read as a schedule exactly when one of them is refused. -/
theorem ofLines_eq_error_iff {lines : List Text} {fault : Fault} :
    ofLines lines = .error fault ↔
      ((Text.contentLines lines).filterMap Line.read?).findSome? refusal = some fault :=
  foldlM_eq_error_iff follow_eq_error_iff

theorem not_fits_neededWidth_iff {schedule : Schedule} :
    ¬ Number.Fits schedule.neededWidth ↔
      (2 : Rat) ^ (1024 : Nat) ≤ Number.Binary64.nearest (schedule.neededWidth : Rat) := by
  have large : (1 : Rat) ≤ schedule.neededWidth := by
    have least : (800 : Int) ≤ schedule.neededWidth := le_max_left 800 _
    have cast : (800 : Rat) ≤ schedule.neededWidth := by exact_mod_cast least
    linarith
  have positive := Number.Binary64.nearest_pos large
  have overflow := Number.Binary64.le_abs_nearest_iff_overflow (schedule.neededWidth : Rat)
  rw [abs_of_pos positive] at overflow
  rw [overflow, Number.Fits, not_lt]

theorem print_of_not_fits {schedule : Schedule} (forward : schedule.IsForward)
    (wide : ¬ Number.Fits schedule.neededWidth) :
    schedule.scene.print = .error .wholeTooLarge := by
  obtain ⟨least, -⟩ := schedule.canvas_bounds
  have height := schedule.isExtentFor_height (Nat.le_refl schedule.tasks.length)
  exact Scene.print_of_not_fits (width_eq forward) wide (by
    change 1 ≤ schedule.layout.canvas.width
    linarith) height.positive

end Schedule

/-! ## Diagrams of lines that are few and short -/

variable {font : Font} {lines : List Text}

theorem capacity_le :
    capacity ≤ 2 ^ 130 ∧ 2 * capacity ≤ 2 ^ 130 ∧ capacity * capacity ≤ 2 ^ 130 := by
  unfold capacity
  norm_num

theorem Sequence.exists_print_ofLines (bounded : AreBounded capacity lines) :
    ∃ document, (Diagram.sequence (ofLines lines)).print font = .ok document := by
  obtain ⟨participants, interactions⟩ := bounds_ofLines bounded
  have extents := isExtentFor_canvas _ participants
    (interactions.trans (Nat.le_mul_of_pos_left capacity two_pos))
  exact Diagram.exists_print trivial (isOnCanvas_drawing _) capacity_le.2.1 extents

theorem ClassModel.exists_print_ofLines (limited : font.IsLimited)
    (bounded : AreBounded capacity lines)
    (measurable : ∀ entry ∈ (ofLines lines).classes, IsMeasurable font entry) :
    ∃ document, (Diagram.classes (ofLines lines)).print font = .ok document := by
  obtain ⟨classes, members⟩ := bounds_ofLines bounded
  have extents := isExtentFor_canvas _ limited classes members
  exact Diagram.exists_print measurable (isOnCanvas_drawing font _) capacity_le.1 extents

theorem UseCases.exists_print_ofLines (bounded : AreBounded capacity lines) :
    ∃ document, (Diagram.useCase (ofLines lines)).print font = .ok document := by
  obtain ⟨actors, labels⟩ := bounds_ofLines bounded
  have extents := isExtentFor_canvas _ (actors.trans (Nat.le_mul_self capacity)) labels
  exact Diagram.exists_print trivial (isOnCanvas_drawing _) capacity_le.2.2 extents

theorem Activity.exists_print_ofLines (limited : font.IsLimited)
    (bounded : AreBounded capacity lines) (measurable : (ofLines lines).IsMeasurable font) :
    ∃ document, (Diagram.activity (ofLines lines)).print font = .ok document := by
  have extents := isExtentFor_canvas _ limited (length_steps_le bounded)
  exact Diagram.exists_print measurable (isOnCanvas_drawing font _) capacity_le.1 extents

theorem Components.exists_print_ofLines (bounded : AreBounded capacity lines) :
    ∃ document, (Diagram.component (ofLines lines)).print font = .ok document := by
  have complete := (isStored_ofLines lines).complete
  obtain ⟨packages, members, standalone⟩ := bounds_ofLines bounded
  have extents := isExtentFor_canvas _ packages members standalone
  exact Diagram.exists_print complete (isOnCanvas_drawing _ complete) capacity_le.1 extents

theorem MindMap.exists_print_ofLines (bounded : AreBounded capacity lines) :
    ∃ document, (Diagram.mindMap (ofLines lines)).print font = .ok document := by
  obtain ⟨nodes, levels⟩ := bounds_ofLines bounded
  have extents := isExtentFor_canvas nodes fun node member => (levels node member).2
  have on := isOnCanvas_drawing fun node member => (levels node member).1
  exact Diagram.exists_print trivial on capacity_le.1 extents

theorem Schedule.exists_print_of_fits (bounded : AreBounded capacity lines) {schedule : Schedule}
    (read : ofLines lines = .ok schedule) (fits : Number.Fits schedule.neededWidth) :
    ∃ document, (Diagram.gantt schedule).print font = .ok document := by
  obtain ⟨tasks, forward⟩ := bounds_ofLines bounded read
  have height := schedule.isExtentFor_height tasks
  have writable : schedule.layout.canvas.IsWritable := by
    refine ⟨?_, height.positive, ?_, height.fits capacity_le.1⟩
    · linarith [schedule.canvas_bounds.1]
    · rw [width_eq forward]
      exact fits
  exact Scene.exists_print schedule.isSound_scene (isOnCanvas_scene forward) writable

theorem Panel.exists_print (font : Font) (lines : List Text) :
    ∃ document, (Diagram.panel (ofLines lines)).print font = .ok document :=
  Diagram.exists_print trivial (isOnCanvas_scene _) capacity_le.1 (isExtentFor_canvas capacity)

/-! ## Obstacles -/

namespace Obstacle

theorem kind_of {fault : Fault} (obstacle : Obstacle lines fault) :
    Kind.classify lines = .gantt ∨ Kind.classify lines = .classes ∨
      Kind.classify lines = .activity := by
  cases obstacle with
  | numeral kind => exact .inl kind
  | width kind => exact .inl kind
  | member message kind => exact .inr (.inl kind)
  | step message kind => exact .inr (.inr kind)

/-- No lines with an obstacle are drawn. -/
theorem exists_fault (limited : font.IsLimited) {fault : Fault}
    (obstacle : Obstacle lines fault) :
    ∃ other, (Diagram.ofLines lines).bind (Diagram.print font) = .error other := by
  unfold Diagram.ofLines
  cases obstacle with
  | numeral kind refused =>
      rw [kind]
      have failed := Schedule.ofLines_eq_error_iff.mpr refused
      exact ⟨_, bind_eq_error_iff.mpr (.inl (map_eq_error_iff.mpr failed))⟩
  | width kind read wide =>
      rw [kind]
      have forward : Schedule.IsForward _ := (Schedule.isBounded_ofLines read).forward
      have failed := Schedule.print_of_not_fits forward
        (Schedule.not_fits_neededWidth_iff.mpr wide)
      exact ⟨.wholeTooLarge, bind_eq_error_iff.mpr
        (.inr ⟨_, map_eq_ok_iff.mpr ⟨_, read, rfl⟩, failed⟩)⟩
  | @member entry label message kind inside listed long =>
      rw [kind]
      obtain ⟨told, refused⟩ :=
        limited.exists_refused (ClassModel.size_mem_of_mem_labels listed) long
      cases laid : (ClassModel.ofLines lines).layout font with
      | ok layout =>
          obtain ⟨width, measured⟩ :=
            (ClassModel.layout_eq_ok_iff.mp laid).1 entry inside label listed
          rw [refused] at measured
          cases measured
      | error other =>
          exact ⟨other, bind_eq_error_iff.mpr (.inr ⟨_, rfl, bind_eq_error_iff.mpr
            (.inl (bind_eq_error_iff.mpr (.inl laid)))⟩)⟩
  | @step step message kind inside long =>
      rw [kind]
      obtain ⟨told, refused⟩ := limited.exists_refused (Activity.labelSize_mem step) long
      cases laid : (Activity.ofLines lines).layout font with
      | ok layout =>
          obtain ⟨width, measured⟩ := (Activity.layout_eq_ok_iff.mp laid).1 step inside
          rw [refused] at measured
          cases measured
      | error other =>
          exact ⟨other, bind_eq_error_iff.mpr (.inr ⟨_, rfl, bind_eq_error_iff.mpr
            (.inl (map_eq_error_iff.mpr laid))⟩)⟩

/-- Lines that are few and short are drawn, or one of the obstacles is the reason. -/
theorem exists_document_or (limited : font.IsLimited) (bounded : AreBounded capacity lines) :
    (∃ document, (Diagram.ofLines lines).bind (Diagram.print font) = .ok document) ∨
      ∃ fault, (Diagram.ofLines lines).bind (Diagram.print font) = .error fault ∧
        Obstacle lines fault := by
  unfold Diagram.ofLines
  cases kind : Kind.classify lines with
  | sequence => exact .inl (Sequence.exists_print_ofLines bounded)
  | classes =>
      cases laid : (ClassModel.ofLines lines).layout font with
      | ok layout =>
          have measurable := (ClassModel.layout_eq_ok_iff.mp laid).1
          exact .inl (ClassModel.exists_print_ofLines limited bounded measurable)
      | error fault =>
          obtain ⟨entry, inside, label, listed, message, refused, rfl⟩ :=
            ClassModel.exists_of_layout_eq_error laid
          refine .inr ⟨_, bind_eq_error_iff.mpr (.inr ⟨_, rfl, bind_eq_error_iff.mpr
            (.inl (bind_eq_error_iff.mpr (.inl laid)))⟩), ?_⟩
          exact .member message kind inside listed (limited.lt_length_of_refused
            (ClassModel.size_mem_of_mem_labels listed) refused)
  | useCase => exact .inl (UseCases.exists_print_ofLines bounded)
  | activity =>
      cases laid : (Activity.ofLines lines).layout font with
      | ok layout =>
          have measurable := (Activity.layout_eq_ok_iff.mp laid).1
          exact .inl (Activity.exists_print_ofLines limited bounded measurable)
      | error fault =>
          obtain ⟨step, inside, message, refused, rfl⟩ := Activity.exists_of_layout_eq_error laid
          refine .inr ⟨_, bind_eq_error_iff.mpr (.inr ⟨_, rfl, bind_eq_error_iff.mpr
            (.inl (map_eq_error_iff.mpr laid))⟩), ?_⟩
          exact .step message kind inside
            (limited.lt_length_of_refused (Activity.labelSize_mem step) refused)
  | component => exact .inl (Components.exists_print_ofLines bounded)
  | mindMap => exact .inl (MindMap.exists_print_ofLines bounded)
  | gantt =>
      cases read : Schedule.ofLines lines with
      | error fault =>
          exact .inr ⟨fault, bind_eq_error_iff.mpr (.inl (map_eq_error_iff.mpr read)),
            .numeral kind (Schedule.ofLines_eq_error_iff.mp read)⟩
      | ok schedule =>
          have reading : Diagram.read lines .gantt = .ok (.gantt schedule) :=
            map_eq_ok_iff.mpr ⟨_, read, rfl⟩
          by_cases fits : Number.Fits schedule.neededWidth
          · obtain ⟨document, printed⟩ := Schedule.exists_print_of_fits bounded read fits
            exact .inl ⟨document, bind_eq_ok_iff.mpr ⟨_, reading, printed⟩⟩
          · have forward : schedule.IsForward := (Schedule.isBounded_ofLines read).forward
            have failed := Schedule.print_of_not_fits forward fits
            exact .inr ⟨_, bind_eq_error_iff.mpr (.inr ⟨_, reading, failed⟩),
              .width kind read (Schedule.not_fits_neededWidth_iff.mp fits)⟩
  | panel => exact .inl (Panel.exists_print font lines)

end Obstacle

theorem render_eq_ok_iff {source document : Text} : render font source = .ok document ↔
    (Diagram.ofLines (Text.sourceLines source)).bind (Diagram.print font) = .ok document := by
  rw [render_eq, mapError_eq_ok_iff]

theorem render_eq_error_iff_ofFault {source : Text} {failure : RenderFailure} :
    render font source = .error failure ↔
      ∃ fault,
        (Diagram.ofLines (Text.sourceLines source)).bind (Diagram.print font) = .error fault ∧
          .ofFault fault = failure := by
  rw [render_eq, mapError_eq_error_iff]

/-- A sequence is rendered, whatever it says and whatever the font is. -/
theorem exists_render_sequence {source : Text} (short : source.length < capacity)
    (kind : Kind.classify (Text.sourceLines source) = .sequence) :
    ∃ document, render font source = .ok document := by
  obtain ⟨document, printed⟩ := Sequence.exists_print_ofLines (Text.areBounded_sourceLines short)
  refine ⟨document, render_eq_ok_iff.mpr ?_⟩
  rw [Diagram.ofLines, kind]
  exact printed

/-- A source is refused for an obstacle in its lines and for nothing else, and what is raised is
a failure that tells which it is. -/
theorem render_eq_error_iff (limited : font.IsLimited) {source : Text}
    (short : source.length < capacity) :
    ((∃ failure, render font source = .error failure) ↔
        ∃ fault, Obstacle (Text.sourceLines source) fault) ∧
      ((∃ document, render font source = .ok document) ↔
        ∀ fault, ¬ Obstacle (Text.sourceLines source) fault) ∧
      ∀ failure, render font source = .error failure →
        Obstacle (Text.sourceLines source) failure.cause ∧
          failure.message = "Failed to render PlantUML: ".toList ++ failure.cause.message := by
  have raised : ∀ failure, render font source = .error failure →
      Obstacle (Text.sourceLines source) failure.cause ∧
        failure.message = "Failed to render PlantUML: ".toList ++ failure.cause.message := by
    intro failure failed
    obtain ⟨fault, unprinted, rfl⟩ := render_eq_error_iff_ofFault.mp failed
    rcases Obstacle.exists_document_or limited (Text.areBounded_sourceLines short) with
      ⟨document, printed⟩ | ⟨other, refused, obstacle⟩
    · rw [unprinted] at printed
      cases printed
    · rw [unprinted] at refused
      cases refused
      exact ⟨obstacle, rfl⟩
  have refused : ∀ fault, Obstacle (Text.sourceLines source) fault →
      ∃ failure, render font source = .error failure := by
    intro fault obstacle
    obtain ⟨other, unprinted⟩ := obstacle.exists_fault limited
    exact ⟨_, render_eq_error_iff_ofFault.mpr ⟨other, unprinted, rfl⟩⟩
  refine ⟨⟨?_, fun ⟨fault, obstacle⟩ => refused fault obstacle⟩, ⟨?_, fun none => ?_⟩, raised⟩
  · rintro ⟨failure, failed⟩
    exact ⟨failure.cause, (raised failure failed).1⟩
  · rintro ⟨document, printed⟩ fault obstacle
    obtain ⟨failure, failed⟩ := refused fault obstacle
    rw [printed] at failed
    cases failed
  · cases outcome : render font source with
    | ok document => exact ⟨document, rfl⟩
    | error failure => exact absurd (raised failure outcome).1 (none failure.cause)

/-- An interaction is nothing that could be too long. -/
theorem render_interaction : ¬ ∃ failure, render .bundled "A -> B: a < b" = .error failure := by
  have short : "A -> B: a < b".toList.length < capacity := by decide
  intro failed
  obtain ⟨fault, obstacle⟩ := (render_eq_error_iff Font.isLimited_bundled short).1.mp failed
  have others := obstacle.kind_of
  revert others
  decide

end DiagramSketch
