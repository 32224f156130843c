import DiagramSketch.Proofs.Diagram.Document
import DiagramSketch.Proofs.Diagram.Provenance

/-!
# Characters of a source in its document

Every label is made of texts of the source and of what is written around them, which is legal.  An
illegal character that stands inside a line can thus reach the document, and nothing else can make
the document illegal.
-/

namespace DiagramSketch

open Xml (IsLegalText isLegal isLegalText_append)

theorem isLegalText_signedDigits (value : Int) : IsLegalText (Number.signedDigits value) :=
  Svg.isLegalText_of_isNumeral (Number.isNumeral_signedDigits value)

/-! ## Labels -/

theorem Sequence.labels_arrowOf (sequence : Sequence) (interaction : Interaction) (index : Nat) :
    ∀ label ∈ (sequence.arrowOf interaction index).labels, label = interaction.message := by
  unfold arrowOf interactionGroup Group.labels
  dsimp only
  split
  · exact List.forall_mem_nil _
  · exact List.forall_mem_singleton.mpr rfl

theorem Components.labels_lineOf (components : Components) (connection : Connection) :
    ∀ label ∈ (components.lineOf connection).labels, label = connection.label := by
  unfold lineOf connectionGroup Group.labels
  dsimp only
  split
  · exact List.forall_mem_nil _
  · exact List.forall_mem_singleton.mpr rfl

theorem Schedule.isLegalText_drawnCaption {task : Task}
    (legal : ∀ text ∈ taskTexts task, IsLegalText text) : IsLegalText task.drawnCaption := by
  have days : IsLegalText (Number.signedDigits task.days ++
      (if task.days = 1 then " day" else " days").toList) := by
    refine isLegalText_append.mpr ⟨isLegalText_signedDigits task.days, ?_⟩
    split <;> exact List.all_eq_true.mp rfl
  unfold Task.drawnCaption Task.captionWith
  dsimp only
  split
  · exact days
  · next name found =>
      have given : task.after = some name := (Option.filter_eq_some_iff.mp found).1
      have own := legal name (List.mem_cons_of_mem _ (given ▸ List.mem_singleton_self name))
      refine isLegalText_append.mpr
        ⟨isLegalText_append.mpr ⟨isLegalText_append.mpr ⟨days, ?_⟩, own⟩, ?_⟩
      · exact List.all_eq_true.mp rfl
      · exact List.all_eq_true.mp rfl

theorem Exhibit.forall_texts {exhibit : Exhibit} {holds : Text → Prop} :
    (∀ text ∈ exhibit.texts, holds text) ↔ (∀ label ∈ exhibit.labels, holds label) ∧
      ∀ member ∈ exhibit.members, ∀ label ∈ member.labels, holds label := by
  simp only [texts, List.forall_mem_append, List.mem_flatMap, forall_exists_index, and_imp]
  refine and_congr_right fun _ => ⟨fun all member inside label listed => ?_,
    fun all label member inside listed => ?_⟩
  · exact all label member inside listed
  · exact all member inside label listed

/-- What is shown without members has its labels only. -/
theorem Exhibit.forall_texts_plain {labels : List Text} {holds : Text → Prop}
    (shown : ∀ label ∈ labels, holds label) (className : Text) :
    ∀ text ∈ ({ className, labels } : Exhibit).texts, holds text :=
  forall_texts.mpr ⟨shown, List.forall_mem_nil _⟩

theorem Activity.isLegalText_lane {activity : Activity}
    (legal : ∀ text ∈ activity.texts, IsLegalText text) :
    ∀ entry ∈ activity.lane, IsLegalText entry.2 := by
  unfold lane
  refine List.forall_mem_append.mpr ⟨List.forall_mem_append.mpr ⟨?_, ?_⟩, ?_⟩
  · split
    · exact List.forall_mem_singleton.mpr (List.all_eq_true.mp rfl)
    · exact List.forall_mem_nil _
  · exact List.forall_mem_map.mpr fun step told => legal step.label (List.mem_map_of_mem told)
  · split
    · exact List.forall_mem_singleton.mpr (List.all_eq_true.mp rfl)
    · exact List.forall_mem_nil _

theorem Components.isLegalText_subjects {names : List Text}
    (legal : ∀ name ∈ names, IsLegalText name) :
    ∀ member ∈ names.map subjectOf, ∀ label ∈ member.labels, IsLegalText label := by
  refine List.forall_mem_map.mpr fun name inside => ?_
  exact List.forall_mem_singleton.mpr (legal name inside)

theorem Components.isLegalText_exhibits {components : Components}
    (legal : ∀ text ∈ components.texts, IsLegalText text) :
    ∀ exhibit ∈ (Diagram.component components).exhibits, ∀ text ∈ exhibit.texts,
      IsLegalText text := by
  obtain ⟨packages, standalone, -⟩ := forall_texts.mp legal
  refine List.forall_mem_append.mpr ⟨List.forall_mem_map.mpr fun package member => ?_, ?_⟩
  · obtain ⟨called, members⟩ := List.forall_mem_cons.mp (packages package member)
    exact Exhibit.forall_texts.mpr
      ⟨List.forall_mem_singleton.mpr called, isLegalText_subjects members⟩
  · split
    · exact List.forall_mem_nil _
    · exact List.forall_mem_singleton.mpr
        (Exhibit.forall_texts.mpr ⟨List.forall_mem_nil _, isLegalText_subjects standalone⟩)

theorem Schedule.isLegalText_exhibits {schedule : Schedule}
    (legal : ∀ text ∈ schedule.texts, IsLegalText text) :
    ∀ exhibit ∈ (Diagram.gantt schedule).exhibits, ∀ text ∈ exhibit.texts,
      IsLegalText text := by
  obtain ⟨start, tasks⟩ := List.forall_mem_append.mp legal
  have header : ∀ label ∈ ((schedule.start.filter fun date => !date.isEmpty).map
      fun date => "Start: ".toList ++ date).toList, IsLegalText label := by
    intro label told
    obtain ⟨date, found, rfl⟩ := Option.map_eq_some_iff.mp (Option.mem_toList.mp told)
    have given : date ∈ schedule.start.toList :=
      Option.mem_toList.mpr (Option.filter_eq_some_iff.mp found).1
    exact isLegalText_append.mpr ⟨List.all_eq_true.mp rfl, start date given⟩
  refine List.forall_mem_cons.mpr
    ⟨Exhibit.forall_texts_plain (List.forall_mem_cons.mpr ⟨?_, header⟩) _,
      List.forall_mem_map.mpr fun task member => Exhibit.forall_texts_plain ?_ _⟩
  · exact List.all_eq_true.mp rfl
  · have own : ∀ text ∈ taskTexts task, IsLegalText text := fun text within =>
      tasks text (List.mem_flatMap.mpr ⟨task, member, within⟩)
    exact List.forall_mem_cons.mpr ⟨own task.name List.mem_cons_self,
      List.forall_mem_singleton.mpr (isLegalText_drawnCaption own)⟩

theorem Panel.isLegalText_summary (panel : Panel) : IsLegalText panel.summary :=
  isLegalText_append.mpr ⟨isLegalText_signedDigits panel.lineCount, List.all_eq_true.mp rfl⟩

namespace Diagram

theorem isLegalText_exhibits {diagram : Diagram}
    (legal : ∀ text ∈ diagram.texts, IsLegalText text) :
    ∀ exhibit ∈ diagram.exhibits, ∀ text ∈ exhibit.texts, IsLegalText text := by
  have single {label : Text} (own : IsLegalText label) :=
    Exhibit.forall_texts_plain (List.forall_mem_singleton.mpr own)
  cases diagram with
  | sequence read =>
      obtain ⟨participants, -⟩ := List.forall_mem_append.mp legal
      exact List.forall_mem_map.mpr fun name member => single (participants name member) _
  | classes model =>
      refine List.forall_mem_map.mpr fun entry member =>
        Exhibit.forall_texts_plain (fun line listed => ?_) _
      exact legal line (List.mem_flatMap.mpr ⟨entry, member, listed⟩)
  | useCase read =>
      obtain ⟨actors, labels⟩ := List.forall_mem_append.mp legal
      exact List.forall_mem_append.mpr
        ⟨List.forall_mem_map.mpr fun name member => single (actors name member) _,
          List.forall_mem_map.mpr fun label member => single (labels label member) _⟩
  | activity read =>
      exact List.forall_mem_map.mpr fun entry member =>
        single (Activity.isLegalText_lane legal entry member) _
  | component read => exact Components.isLegalText_exhibits legal
  | mindMap map =>
      exact List.forall_mem_map.mpr fun node member =>
        single (legal node.text (List.mem_map_of_mem member)) _
  | gantt schedule => exact Schedule.isLegalText_exhibits legal
  | panel read =>
      refine List.forall_mem_singleton.mpr (Exhibit.forall_texts_plain
        (List.forall_mem_cons.mpr ⟨?_, List.forall_mem_cons.mpr ⟨?_, ?_⟩⟩) _)
      · exact List.all_eq_true.mp rfl
      · exact List.all_eq_true.mp rfl
      · exact List.forall_mem_singleton.mpr read.isLegalText_summary

theorem isLegalText_relations {font : Font} {diagram : Diagram}
    (legal : ∀ text ∈ diagram.texts, IsLegalText text) :
    ∀ group ∈ diagram.relations font, ∀ label ∈ group.labels, IsLegalText label := by
  cases diagram with
  | sequence read =>
      refine List.forall_mem_map.mpr fun entry member label shown => ?_
      have told : entry.1 ∈ read.interactions :=
        List.fst_mem_of_mem_zipIdx (List.mem_filter.mp member).1
      rw [read.labels_arrowOf entry.1 entry.2 label shown]
      exact (List.forall_mem_append.mp legal).2 _ (List.mem_map_of_mem told)
  | classes model => exact List.forall_mem_map.mpr fun _ _ => List.forall_mem_nil _
  | useCase read => exact List.forall_mem_map.mpr fun _ _ => List.forall_mem_nil _
  | activity read => exact List.forall_mem_map.mpr fun _ _ => List.forall_mem_nil _
  | component read =>
      refine List.forall_mem_map.mpr fun connection member label shown => ?_
      rw [read.labels_lineOf connection label shown]
      exact (Components.forall_texts.mp legal).2.2 connection (List.mem_filter.mp member).1
  | mindMap map =>
      intro group member
      cases MindMap.isBranch_of_mem member with
      | between => exact List.forall_mem_nil _
  | gantt schedule => exact List.forall_mem_nil _
  | panel read => exact List.forall_mem_nil _

theorem isLegalText_labels {font : Font} {diagram : Diagram}
    (legal : ∀ text ∈ diagram.texts, IsLegalText text) :
    ∀ label ∈ (diagram.drawing font).labels, IsLegalText label := by
  rw [Scene.labels_eq, exhibits_drawing font diagram, relations_drawing font diagram]
  refine List.forall_mem_append.mpr ⟨fun label shown => ?_, fun label shown => ?_⟩
  · obtain ⟨exhibit, member, inside⟩ := List.mem_flatMap.mp shown
    exact isLegalText_exhibits legal exhibit member label inside
  · obtain ⟨group, member, inside⟩ := List.mem_flatMap.mp shown
    exact isLegalText_relations legal group member label inside

end Diagram

/-! ## Documents -/

/-- A document that is well-formed: it can be read, and its characters are legal. -/
structure Xml.IsWellFormed (document : Text) : Prop where
  legal : IsLegalText document
  read : ∃ root, Xml.read? document = some root

variable {font : Font} {source document : Text} {diagram : Diagram}

/-- A rendered document is always read, so that its labels decide whether it is well-formed. -/
theorem isWellFormed_iff_labels (read : Diagram.ofLines (Text.sourceLines source) = .ok diagram)
    (rendered : render font source = .ok document) :
    Xml.IsWellFormed document ↔ ∀ label ∈ (diagram.drawing font).labels, IsLegalText label := by
  obtain ⟨same, scene, drawn, found, shown, sound, element, printed⟩ :=
    exists_drawn_of_render rendered
  obtain rfl : same = diagram := Except.ok.inj (found.symm.trans read)
  obtain ⟨-, rfl⟩ := Diagram.scene_eq_ok_iff.mp shown
  have regular := Scene.isRegular_element sound element
  obtain ⟨back, readBack, -, -⟩ :=
    Svg.exists_read?_print regular (Scene.undeclared_element element) printed
  have characters := Svg.isLegalText_print regular printed
  rw [(Scene.areDrawn_element sound element).2] at characters
  exact ⟨fun formed => characters.mp formed.legal,
    fun legal => ⟨characters.mpr legal, back, readBack⟩⟩

theorem isLegalText_labels_of_clean
    (read : Diagram.ofLines (Text.sourceLines source) = .ok diagram)
    (clean : ∀ character ∈ source, isLegal character = true ∨ Text.isLineBreak character = true) :
    ∀ label ∈ (diagram.drawing font).labels, IsLegalText label := by
  refine Diagram.isLegalText_labels fun text told character inside => ?_
  obtain ⟨line, listed, within⟩ := List.mem_flatten.mp (Diagram.texts_ofLines read text told inside)
  have taken := (Text.isInfix_of_mem_sourceLines listed).subset within
  have other := Text.not_isLineBreak_of_mem_sourceLines listed character within
  exact (clean character taken).resolve_right (Bool.eq_false_iff.mp other)

/-- The document of a source is well-formed exactly when its labels are legal, and they are when
all characters of the source are that are not line breaks. -/
theorem isWellFormed_iff_of_render (rendered : render font source = .ok document) :
    ∃ diagram scene, Diagram.ofLines (Text.sourceLines source) = .ok diagram ∧
      diagram.scene font = .ok scene ∧
      (Xml.IsWellFormed document ↔ ∀ label ∈ scene.labels, IsLegalText label) ∧
      ((∀ character ∈ source, isLegal character = true ∨ Text.isLineBreak character = true) →
        Xml.IsWellFormed document) := by
  obtain ⟨diagram, scene, -, read, found, -⟩ := exists_drawn_of_render rendered
  obtain ⟨-, rfl⟩ := Diagram.scene_eq_ok_iff.mp found
  have formed := isWellFormed_iff_labels read rendered
  exact ⟨diagram, diagram.drawing font, read, found, formed,
    fun clean => formed.mpr (isLegalText_labels_of_clean read clean)⟩

theorem isWellFormed_markup : ∃ document, render .bundled "A -> B: a < b" = .ok document ∧
    Xml.IsWellFormed document := by
  have short : "A -> B: a < b".toList.length < Text.capacity := by decide
  obtain ⟨document, rendered⟩ := exists_render_sequence short (by decide)
  obtain ⟨-, -, -, -, -, formed⟩ := isWellFormed_iff_of_render rendered
  refine ⟨document, rendered, formed fun character member => .inl ?_⟩
  exact List.all_eq_true.mp rfl character member

/-- The illegal characters are the first ones, apart from three of them, and two others. -/
theorem Xml.toNat_of_not_isLegal {character : Char} (illegal : isLegal character = false) :
    character.toNat ∈ List.range 0x20 ++ [0xFFFE, 0xFFFF] := by
  have valid : character.toNat < 0xD800 ∨ 0xDFFF < character.toNat ∧ character.toNat < 0x110000 :=
    character.valid
  simp only [isLegal, Bool.or_eq_false_iff, beq_eq_false_iff_ne, Bool.and_eq_false_iff,
    decide_eq_false_iff_not] at illegal
  simp only [List.mem_append, List.mem_range, List.mem_cons, List.not_mem_nil, or_false]
  omega

/-- A source that has an illegal character in a message. -/
def spoiled (character : Char) : Text :=
  "A -> B: a" ++ [character, 'b']

/-- The message is read with the character, unless that ends the line. -/
theorem ofLines_spoiled {character : Char} (illegal : isLegal character = false)
    (inside : Text.isLineBreak character = false) :
    Diagram.ofLines (Text.sourceLines (spoiled character)) =
      .ok (.sequence ⟨["A", "B"], [⟨"A", "B", "->", ['a', character, 'b']⟩]⟩) := by
  have each : ∀ code ∈ List.range 0x20 ++ [0xFFFE, 0xFFFF],
      Text.isLineBreak (Char.ofNat code) = false →
      Diagram.ofLines (Text.sourceLines (spoiled (Char.ofNat code))) =
        .ok (.sequence ⟨["A", "B"], [⟨"A", "B", "->", ['a', Char.ofNat code, 'b']⟩]⟩) := by
    decide +kernel
  have same := each character.toNat (Xml.toNat_of_not_isLegal illegal)
  rw [Char.ofNat_toNat] at same
  exact same inside

/-- Every illegal character that does not end a line can reach the document of a source. -/
theorem not_isWellFormed_spoiled {character : Char} (illegal : isLegal character = false)
    (inside : Text.isLineBreak character = false) :
    ∃ document, render font (spoiled character) = .ok document ∧ ¬ Xml.IsWellFormed document := by
  have read := ofLines_spoiled illegal inside
  have kind : Kind.classify (Text.sourceLines (spoiled character)) = .sequence :=
    (Diagram.kind_of_read read).symm
  have short : (spoiled character).length < Text.capacity := by
    change 11 < Text.capacity
    decide
  obtain ⟨document, rendered⟩ := exists_render_sequence short kind
  refine ⟨document, rendered, fun formed => ?_⟩
  have labels : ((Diagram.sequence
      ⟨["A", "B"], [⟨"A", "B", "->", ['a', character, 'b']⟩]⟩).drawing font).labels =
        ["A".toList, "B".toList, ['a', character, 'b']] := rfl
  have legal := (isWellFormed_iff_labels read rendered).mp formed
  rw [labels] at legal
  have message := legal ['a', character, 'b'] (by simp)
  rw [message character (by simp)] at illegal
  cases illegal

/-- A control character in a message makes a document that is not well-formed. -/
theorem not_isWellFormed_control : ∃ document,
    render .bundled "A -> B: a\u0001b" = .ok document ∧ ¬ Xml.IsWellFormed document := by
  have illegal : isLegal '\u0001' = false := rfl
  exact not_isWellFormed_spoiled illegal rfl

end DiagramSketch
