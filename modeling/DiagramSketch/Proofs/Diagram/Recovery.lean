import DiagramSketch.Proofs.Diagram.Placement
import DiagramSketch.Proofs.Diagram.Provenance
import DiagramSketch.Proofs.Number.Exact
import DiagramSketch.Proofs.Scene.Recovery
import DiagramSketch.Proofs.Sequence.Source

/-!
# Documents that tell everything

Two diagrams with one document show the same entities, and their relations look alike.  For
sequences, mind maps and schedules that are read from a source this is enough: names, messages and
captions are told by the labels, levels by the classes, and what an interaction is by its line.  The
column of a participant is a whole number, whose digits an attribute keeps.
-/

namespace DiagramSketch

open Text (IsLine)

/-! ## Sequences -/

/-- An arrow is known by how its line is dashed and pointed. -/
theorem Interaction.arrow_eq {told other : Interaction} (listed : told.arrow ∈ Sequence.arrows)
    (otherListed : other.arrow ∈ Sequence.arrows) (dashed : told.isDashed = other.isDashed)
    (rightward : told.isRightward = other.isRightward) : told.arrow = other.arrow := by
  have known : Sequence.arrows.all (fun first => Sequence.arrows.all fun last =>
      first == last || Text.occursIn "--" first != Text.occursIn "--" last ||
        Text.occursIn "->" first != Text.occursIn "->" last) = true := by decide
  have apart := List.all_eq_true.mp (List.all_eq_true.mp known _ listed) _ otherListed
  simp only [Bool.or_eq_true, beq_iff_eq, bne_iff_ne] at apart
  rcases apart with (same | dashes) | heads
  · exact same
  · exact absurd dashed dashes
  · exact absurd rightward heads

namespace Sequence

/-- What every sequence that is read is like. -/
structure IsTold (sequence : Sequence) : Prop where
  connected : sequence.connected = sequence.interactions.zipIdx
  source : ∀ told ∈ sequence.interactions, told.source ∈ sequence.participants
  target : ∀ told ∈ sequence.interactions, told.target ∈ sequence.participants
  arrows : ∀ told ∈ sequence.interactions, told.arrow ∈ arrows

theorem isTold_ofLines (lines : List Text) : (ofLines lines).IsTold where
  connected := connected_ofLines lines
  source told member := (connects_ofLines lines told member).1
  target told member := (connects_ofLines lines told member).2
  arrows := mem_arrows_ofLines lines

theorem columnAt_eq (index : Nat) : columnAt index = ((100 + index * 150 : Int) : Rat) := by
  rw [columnAt, columnSpacing]
  push_cast
  rfl

/-- The columns of two participants that are written alike have the same number. -/
theorem eq_of_formatRounded_columnAt {index other : Nat} (few : index < 10 ^ 9)
    (otherFew : other < 10 ^ 9)
    (same : (Number.ofRat (columnAt index)).formatRounded =
      (Number.ofRat (columnAt other)).formatRounded) : index = other := by
  rw [columnAt_eq, columnAt_eq] at same
  have columns := Number.eq_of_formatRounded (by rw [abs_lt]; omega) (by rw [abs_lt]; omega) same
  omega

variable {sequence other : Sequence}

/-- Among few participants, the one of a column is known by how the column is written. -/
theorem eq_of_formatRounded_columnOf (few : sequence.participants.length < 10 ^ 9)
    (participants : sequence.participants = other.participants) {name otherName : Text}
    (member : name ∈ sequence.participants) (otherMember : otherName ∈ other.participants)
    (same : (Number.ofRat (sequence.columnOf name)).formatRounded =
      (Number.ofRat (other.columnOf otherName)).formatRounded) : name = otherName := by
  obtain ⟨index, numbered, place⟩ := sequence.exists_columnOf member
  obtain ⟨otherIndex, otherNumbered, otherPlace⟩ := other.exists_columnOf otherMember
  rw [← participants] at otherNumbered
  have below := (List.getElem?_eq_some_iff.mp numbered).1
  have otherBelow := (List.getElem?_eq_some_iff.mp otherNumbered).1
  rw [place, otherPlace] at same
  obtain rfl := eq_of_formatRounded_columnAt (below.trans few) (otherBelow.trans few) same
  exact Option.some.inj (numbered.symm.trans otherNumbered)

/-- The first figure of an interaction is its line. -/
theorem exists_figures_interactionGroup (told : Interaction) (sourceX targetX y : Rat) :
    ∃ style rest, (interactionGroup told sourceX targetX y).figures =
        .line ⟨sourceX, y⟩ ⟨targetX, y⟩ style :: rest ∧
      style.isDashed = told.isDashed ∧
      (Svg.markerReference style.endMarker).spelled =
        .ok (if told.isRightward then some (Svg.reference Svg.Marker.arrowhead.name)
          else none) := by
  unfold interactionGroup
  cases told.isRightward <;> cases told.message.isEmpty
  all_goals exact ⟨_, _, rfl, rfl, rfl⟩

/-- The label of an interaction is its message. -/
theorem head?_labels_interactionGroup (told : Interaction) (sourceX targetX y : Rat) :
    (interactionGroup told sourceX targetX y).subject.labels.head?.getD [] = told.message := by
  unfold interactionGroup Group.subject Group.labels
  cases message : told.message with
  | nil => rfl
  | cons first rest => rfl

/-- Two interactions between the same participants that look alike are the same. -/
theorem eq_of_isAlike_arrowOf (told : sequence.IsTold) (otherTold : other.IsTold)
    (few : sequence.participants.length < 10 ^ 9)
    (participants : sequence.participants = other.participants) {interaction : Interaction}
    {otherInteraction : Interaction} (member : interaction ∈ sequence.interactions)
    (otherMember : otherInteraction ∈ other.interactions) {index otherIndex : Nat}
    (alike : (sequence.arrowOf interaction index).IsAlike
      (other.arrowOf otherInteraction otherIndex)) : interaction = otherInteraction := by
  unfold arrowOf at alike
  obtain ⟨style, rest, figures, dashed, marker⟩ := exists_figures_interactionGroup interaction
    (sequence.columnOf interaction.source) (sequence.columnOf interaction.target) (rowAt index)
  obtain ⟨otherStyle, otherRest, otherFigures, otherDashed, otherMarker⟩ :=
    exists_figures_interactionGroup otherInteraction (other.columnOf otherInteraction.source)
      (other.columnOf otherInteraction.target) (rowAt otherIndex)
  have lines := alike.figures
  rw [figures, otherFigures, List.forall₂_cons] at lines
  obtain ⟨sourceX, targetX, dashes, markers⟩ := lines.1.of_lines
  have source := eq_of_formatRounded_columnOf few participants (told.source _ member)
    (otherTold.source _ otherMember) sourceX
  have target := eq_of_formatRounded_columnOf few participants (told.target _ member)
    (otherTold.target _ otherMember) targetX
  have rightward : interaction.isRightward = otherInteraction.isRightward := by
    rw [marker, otherMarker, Except.ok.injEq] at markers
    cases first : interaction.isRightward <;> cases last : otherInteraction.isRightward <;>
      simp_all
  have arrow := Interaction.arrow_eq (told.arrows _ member) (otherTold.arrows _ otherMember)
    (dashed.symm.trans (dashes.trans otherDashed)) rightward
  have message : interaction.message = otherInteraction.message := by
    rw [← head?_labels_interactionGroup interaction, alike.subject, head?_labels_interactionGroup]
  cases interaction
  cases otherInteraction
  simp_all

theorem eq_of_isAlike {font : Font} (told : sequence.IsTold) (otherTold : other.IsTold)
    (few : sequence.participants.length < 10 ^ 9)
    (participants : sequence.participants = other.participants)
    (alike : List.Forall₂ Group.IsAlike ((Diagram.sequence sequence).relations font)
      ((Diagram.sequence other).relations font)) : sequence = other := by
  simp only [Diagram.relations, told.connected, otherTold.connected] at alike
  rw [List.forall₂_map_left_iff, List.forall₂_map_right_iff] at alike
  have same : List.Forall₂ (fun entry otherEntry => entry.1 = otherEntry.1)
      sequence.interactions.zipIdx other.interactions.zipIdx := by
    refine (forall₂_and_mem alike).imp fun entry otherEntry ⟨looks, member, otherMember⟩ => ?_
    exact eq_of_isAlike_arrowOf told otherTold few participants (List.fst_mem_of_mem_zipIdx member)
      (List.fst_mem_of_mem_zipIdx otherMember) looks
  have interactions : sequence.interactions = other.interactions := by
    rw [← List.zipIdx_map_fst 0 sequence.interactions, ← List.zipIdx_map_fst 0 other.interactions,
      ← List.forall₂_eq_eq_eq, List.forall₂_map_left_iff, List.forall₂_map_right_iff]
    exact same
  cases sequence
  cases other
  simp_all

end Sequence

/-! ## Mind maps -/

theorem MindMap.eq_of_exhibits {map other : MindMap}
    (exhibits : (Diagram.mindMap map).exhibits = (Diagram.mindMap other).exhibits) :
    map = other := by
  have injective : Function.Injective fun node : MindMapNode =>
      ({ className := "entity node level-" ++ Number.signedDigits node.level
         labels := [node.text] } : Exhibit) := by
    intro node otherNode same
    have level := Number.signedDigits_injective
      (List.append_cancel_left (congrArg (fun exhibit : Exhibit => exhibit.className) same))
    have text := congrArg (fun exhibit : Exhibit => exhibit.labels) same
    cases node
    cases otherNode
    simp_all
  have nodes := List.map_injective_iff.mpr injective exhibits
  cases map
  cases other
  exact congrArg MindMap.mk nodes

/-! ## Schedules -/

/-- What is written behind the number of days in a caption. -/
def Task.remark (task : Task) : Text :=
  match task.predecessor? with
  | none => []
  | some name => " (after " ++ name ++ ")"

theorem Task.drawnCaption_eq (task : Task) :
    task.drawnCaption = Number.signedDigits task.days ++
      ' ' :: ((if task.days = 1 then "day" else "days") ++ task.remark) := by
  unfold drawnCaption captionWith remark
  cases task.predecessor? <;> split <;> simp

theorem Task.predecessor?_eq_of_remark {task other : Task} (same : task.remark = other.remark) :
    task.predecessor? = other.predecessor? := by
  unfold remark at same
  cases first : task.predecessor? <;> cases last : other.predecessor? <;> simp_all

/-- A caption begins with the number of days. -/
theorem Task.takeWhile_drawnCaption (task : Task) :
    task.drawnCaption.takeWhile (· != ' ') = Number.signedDigits task.days := by
  have solid : ∀ sign ∈ Number.signedDigits task.days, (sign != ' ') = true := by
    intro sign member
    refine bne_iff_ne.mpr fun space => ?_
    exact absurd (Number.isNumeral_signedDigits task.days sign member) (space ▸ by decide)
  rw [drawnCaption_eq]
  exact (splitWhile_append solid (by simp)).1

/-- A caption tells the duration and what the task comes after. -/
theorem Task.eq_of_drawnCaption {task other : Task}
    (same : task.drawnCaption = other.drawnCaption) :
    task.days = other.days ∧ task.predecessor? = other.predecessor? := by
  have days : task.days = other.days := by
    refine Number.signedDigits_injective ?_
    rw [← takeWhile_drawnCaption, ← takeWhile_drawnCaption, same]
  rw [drawnCaption_eq, drawnCaption_eq, days] at same
  have remark := List.append_cancel_left (List.cons.inj (List.append_cancel_left same)).2
  exact ⟨days, predecessor?_eq_of_remark remark⟩

namespace Schedule

variable {schedule other : Schedule}

theorem ne_nil_of_date? {text date : Text} (unbroken : Text.IsUnbroken text)
    (ends : text ≠ [] → Text.EndsSolid text) (read : date? text = some date) : date ≠ [] := by
  unfold date? at read
  rw [Text.toEnd?_eq_self unbroken] at read
  split at read
  · next first rest whole =>
      cases whole
      cases read
      exact (ends (List.cons_ne_nil first rest)).trim_ne_nil
  · cases read

/-- No text that is read from a line is empty. -/
theorem ne_nil_of_read? {text : Text} (isLine : IsLine text) {line : Line}
    (read : Line.read? text = some line) : ∀ part ∈ line.texts, part ≠ [] := by
  unfold Line.read? at read
  split at read
  · next date started =>
      cases read
      obtain ⟨rest, within, dated⟩ := exists_of_start? started
      refine List.forall_mem_singleton.mpr (ne_nil_of_date? ?_ ?_ dated)
      · exact fun character member => isLine.unbroken character (within.subset member)
      · exact isLine.ends.of_suffix within
  · simp only [taskLine?, Option.bind_eq_bind, Option.bind_eq_some_iff] at read
    obtain ⟨⟨name, rest⟩, enclosed, read⟩ := read
    have named := (Text.enclosed?_eq_some_iff.mp enclosed).1
    split at read
    · cases read
      exact List.forall_mem_singleton.mpr named
    · obtain ⟨predecessor, found, same⟩ := Option.bind_eq_some_iff.mp read
      cases same
      obtain ⟨bracket, after, -, enclosed⟩ := exists_of_predecessor? found
      exact List.forall_mem_cons.mpr ⟨named,
        List.forall_mem_singleton.mpr (Text.enclosed?_eq_some_iff.mp enclosed).1⟩

/-- No text of a schedule that is read from lines is empty. -/
theorem ne_nil_of_ofLines {lines : List Text} (each : ∀ line ∈ lines, IsLine line)
    (success : ofLines lines = .ok schedule) : ∀ text ∈ schedule.texts, text ≠ [] := by
  refine foldlM_counts (fun _ (read : Schedule) => ∀ text ∈ read.texts, text ≠ []) empty
    ((Text.contentLines lines).filterMap Line.read?) ?_ (List.forall_mem_nil _) success
  intro done read line next member before stepped
  obtain ⟨text, kept, found⟩ := List.mem_filterMap.mp member
  exact texts_follow before (ne_nil_of_read? (each text (List.mem_filter.mp kept).1) found) stepped

theorem filter_eq_self_of_filled {text? : Option Text} (filled : ∀ text ∈ text?, text ≠ []) :
    (text?.filter fun text => !text.isEmpty) = text? := by
  cases text? with
  | none => rfl
  | some text =>
      have proper : (!text.isEmpty) = true := by simpa using filled text rfl
      exact Option.filter_some_pos proper

theorem predecessor?_eq_after {task : Task} (filled : ∀ text ∈ taskTexts task, text ≠ []) :
    task.predecessor? = task.after :=
  filter_eq_self_of_filled fun name found =>
    filled name (List.mem_cons_of_mem _ (Option.mem_toList.mpr found))

/-- Two schedules without empty texts that are shown alike are the same. -/
theorem eq_of_exhibits (filled : ∀ text ∈ schedule.texts, text ≠ [])
    (otherFilled : ∀ text ∈ other.texts, text ≠ [])
    (exhibits : (Diagram.gantt schedule).exhibits = (Diagram.gantt other).exhibits) :
    schedule = other := by
  obtain ⟨startFilled, tasksFilled⟩ := List.forall_mem_append.mp filled
  obtain ⟨otherStartFilled, otherTasksFilled⟩ := List.forall_mem_append.mp otherFilled
  obtain ⟨header, bars⟩ := List.cons.inj exhibits
  have start : schedule.start = other.start := by
    have labels := (List.cons.inj (congrArg (fun exhibit : Exhibit => exhibit.labels) header)).2
    rw [filter_eq_self_of_filled fun date found => startFilled date (Option.mem_toList.mpr found),
      filter_eq_self_of_filled fun date found =>
        otherStartFilled date (Option.mem_toList.mpr found)] at labels
    cases first : schedule.start <;> cases last : other.start <;> simp_all
  have tasks : schedule.tasks = other.tasks := by
    refine eq_of_map_eq bars fun task member otherTask otherMember same => ?_
    have labels := congrArg (fun exhibit : Exhibit => exhibit.labels) same
    simp only [List.cons.injEq, and_true] at labels
    obtain ⟨days, predecessor⟩ := Task.eq_of_drawnCaption labels.2
    rw [predecessor?_eq_after fun text inside =>
        tasksFilled text (List.mem_flatMap.mpr ⟨task, member, inside⟩),
      predecessor?_eq_after fun text inside =>
        otherTasksFilled text (List.mem_flatMap.mpr ⟨otherTask, otherMember, inside⟩)]
      at predecessor
    cases task
    cases otherTask
    simp_all
  cases schedule
  cases other
  simp_all

end Schedule

/-! ## All of them -/

namespace Diagram

theorem isSorted_drawing (font : Font) (diagram : Diagram) : (diagram.drawing font).IsSorted where
  entities := diagram.exhibits_drawing font ▸ diagram.className_exhibits
  relations := diagram.relations_drawing font ▸ diagram.className_relations font

/-- Two diagrams of any kinds with one document show the same entities, and relations that look
alike. -/
theorem exhibits_eq_of_print {font : Font} {diagram other : Diagram} {document : Text}
    (printed : diagram.print font = .ok document) (otherPrinted : other.print font = .ok document) :
    diagram.exhibits = other.exhibits ∧
      List.Forall₂ Group.IsAlike (diagram.relations font) (other.relations font) := by
  have shown := Scene.exhibits_eq_of_print (diagram.isSound_drawing font)
    (other.isSound_drawing font) (diagram.isSorted_drawing font) (other.isSorted_drawing font)
    (print_eq_ok_iff.mp printed).2 (print_eq_ok_iff.mp otherPrinted).2
  rwa [exhibits_drawing, exhibits_drawing, relations_drawing, relations_drawing] at shown

/-- Sequences and mind maps with less than a billion of everything, and schedules that have a
document. -/
def IsModest : Diagram → Prop
  | sequence read => read.participants.length < 10 ^ 9 ∧ read.interactions.length < 10 ^ 9
  | mindMap map => map.nodes.length < 10 ^ 9 ∧ ∀ node ∈ map.nodes, node.level < 10 ^ 9
  | gantt schedule => ∃ document, schedule.scene.print = .ok document
  | _ => False

theorem exists_print_of_isModest (font : Font) {lines : List Text} {kind : Kind}
    {diagram : Diagram} (success : read lines kind = .ok diagram) (modest : diagram.IsModest) :
    ∃ document, diagram.print font = .ok document := by
  have on := isOnCanvas_drawing_of_read font success
  have small : 10 ^ 9 ≤ 2 ^ 130 := by norm_num
  cases diagram with
  | sequence read =>
      exact exists_print trivial on small (read.isExtentFor_canvas modest.1.le modest.2.le)
  | mindMap map =>
      exact exists_print trivial on small (MindMap.isExtentFor_canvas modest.1.le
        fun node member => (modest.2 node member).le)
  | gantt schedule => exact modest
  | classes | useCase | activity | component | panel => exact absurd modest id

/-- A modest diagram that is read from trimmed lines has a document, and no other such diagram of
its kind has the same one. -/
theorem eq_of_print (font : Font) {lines otherLines : List Text} {kind : Kind}
    {diagram other : Diagram}
    (each : ∀ line ∈ lines, IsLine line) (otherEach : ∀ line ∈ otherLines, IsLine line)
    (success : read lines kind = .ok diagram) (otherSuccess : read otherLines kind = .ok other)
    (modest : diagram.IsModest) (otherModest : other.IsModest) :
    (∃ document, diagram.print font = .ok document) ∧
      (diagram.print font = other.print font → diagram = other) := by
  obtain ⟨document, printed⟩ := exists_print_of_isModest font success modest
  refine ⟨⟨document, printed⟩, fun same => ?_⟩
  obtain ⟨exhibits, relations⟩ := exhibits_eq_of_print printed (same.symm.trans printed)
  cases kind with
  | sequence =>
      cases success
      cases otherSuccess
      have participants : (Sequence.ofLines lines).participants =
          (Sequence.ofLines otherLines).participants :=
        eq_of_map_eq exhibits fun name _ otherName _ alike => by simpa using alike
      exact congrArg sequence (Sequence.eq_of_isAlike (Sequence.isTold_ofLines lines)
        (Sequence.isTold_ofLines otherLines) modest.1 participants relations)
  | mindMap =>
      cases success
      cases otherSuccess
      exact congrArg mindMap (MindMap.eq_of_exhibits exhibits)
  | gantt =>
      obtain ⟨schedule, readSchedule, rfl⟩ := map_eq_ok_iff.mp success
      obtain ⟨otherSchedule, otherReadSchedule, rfl⟩ := map_eq_ok_iff.mp otherSuccess
      exact congrArg gantt (Schedule.eq_of_exhibits (Schedule.ne_nil_of_ofLines each readSchedule)
        (Schedule.ne_nil_of_ofLines otherEach otherReadSchedule) exhibits)
  | classes | useCase | activity | component | panel =>
      cases success
      exact absurd modest id

/-- A dashed arrow makes another document than a plain one. -/
theorem print_ne_of_dashed :
    let plain := sequence (.ofLines (Text.sourceLines "A -> B: hi"))
    let dashed := sequence (.ofLines (Text.sourceLines "A --> B: hi"))
    (∃ document, plain.print .bundled = .ok document) ∧
      plain.print .bundled ≠ dashed.print .bundled := by
  intro plain dashed
  have modest : plain.IsModest ∧ dashed.IsModest := by
    refine ⟨⟨?_, ?_⟩, ⟨?_, ?_⟩⟩ <;> decide +kernel
  have success : read (Text.sourceLines "A -> B: hi") .sequence = .ok plain := rfl
  have dashedSuccess : read (Text.sourceLines "A --> B: hi") .sequence = .ok dashed := rfl
  obtain ⟨written, injective⟩ := eq_of_print .bundled (fun line => Text.isLine_of_mem_sourceLines)
    (fun line => Text.isLine_of_mem_sourceLines) success dashedSuccess modest.1 modest.2
  have apart : plain ≠ dashed := by decide +kernel
  exact ⟨written, fun same => apart (injective same)⟩

end Diagram

end DiagramSketch
