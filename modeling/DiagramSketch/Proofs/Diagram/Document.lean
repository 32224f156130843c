import DiagramSketch.Proofs.Diagram.Rendering

/-!
# What a rendered document holds

A reader that knows nothing of the writer finds in a document just what was drawn, with all its
labels; but a label with a character that XML excludes makes a document that no such reader should
accept.
-/

namespace DiagramSketch

open Xml (Element IsLegalText)

variable {font : Font} {source document : Text}

/-- A document is a printed drawing of the diagram that was read. -/
theorem exists_drawn_of_render (rendered : render font source = .ok document) :
    ∃ diagram scene drawn, Diagram.ofLines (Text.sourceLines source) = .ok diagram ∧
      diagram.scene font = .ok scene ∧ scene.IsSound ∧ scene.element = .ok drawn ∧
      Svg.print drawn = .ok document := by
  obtain ⟨diagram, read, printed⟩ := bind_eq_ok_iff.mp (render_eq_ok_iff.mp rendered)
  obtain ⟨scene, found, printed⟩ := bind_eq_ok_iff.mp printed
  obtain ⟨drawn, shown, printed⟩ := bind_eq_ok_iff.mp printed
  obtain ⟨-, same⟩ := Diagram.scene_eq_ok_iff.mp found
  exact ⟨diagram, scene, drawn, read, found, same ▸ diagram.isSound_drawing font, shown, printed⟩

theorem Xml.getLast?_closed (tag inside : Text) : (Xml.closed tag inside).getLast? = some '>' := by
  unfold Xml.closed
  split
  · rfl
  · simp [List.getLast?_cons]

/-- What is written of an element that no text follows ends with a tag. -/
theorem Xml.Element.getLast?_document {home : Text} {element : Element} (bare : element.tail = none)
    (written : element.document home = .ok document) : document.getLast? = some '>' := by
  obtain ⟨names, -, same⟩ := bind_eq_ok_iff.mp written
  cases same
  obtain ⟨tag, attributes, text, children, tail⟩ := element
  obtain rfl : tail = none := bare
  simp [Xml.Element.renamed, Xml.Element.written, Xml.escaped, Xml.getLast?_closed,
    List.getLast?_cons]

/-- A document does not end its last line. -/
theorem getLast?_render (rendered : render font source = .ok document) :
    document.getLast? = some '>' := by
  obtain ⟨-, scene, drawn, -, -, sound, shown, printed⟩ := exists_drawn_of_render rendered
  have bare := (Scene.isRegular_element sound shown drawn drawn.mem_descendants_self).bare
  refine Xml.Element.getLast?_document ?_ printed
  cases drawn
  exact bare

/-- Whatever the labels are, a document is read back as the tree that was drawn, with the
declaration of its namespace and with blanks between its elements, and with the same labels. -/
theorem exists_read?_render (rendered : render font source = .ok document) :
    ∃ diagram scene drawn back, Diagram.ofLines (Text.sourceLines source) = .ok diagram ∧
      diagram.scene font = .ok scene ∧ scene.element = .ok drawn ∧
      (∀ part ∈ drawn.descendants, Svg.IsRegular part) ∧
      Xml.read? document = some back ∧
      back.withoutLayout = (Svg.declared drawn).withoutLayout ∧ back.labels = scene.labels := by
  obtain ⟨diagram, scene, drawn, read, found, sound, shown, printed⟩ :=
    exists_drawn_of_render rendered
  have regular := Scene.isRegular_element sound shown
  obtain ⟨back, readBack, same, labels⟩ :=
    Svg.exists_read?_print regular (Scene.undeclared_element shown) printed
  exact ⟨diagram, scene, drawn, back, read, found, shown, regular, readBack, same,
    labels.trans (Scene.areDrawn_element sound shown).2⟩

/-- Signs of markup in a message are read back. -/
theorem labels_read?_markup : ∃ document back,
    render .bundled "A -> B: a < b & \"c\" ]]>" = .ok document ∧
      Xml.read? document = some back ∧
      back.labels = ["A".toList, "B".toList, "a < b & \"c\" ]]>".toList] := by
  have short : "A -> B: a < b & \"c\" ]]>".toList.length < Text.capacity := by decide
  obtain ⟨document, rendered⟩ := exists_render_sequence short (by decide)
  obtain ⟨diagram, scene, drawn, back, read, found, -, -, readBack, -, labels⟩ :=
    exists_read?_render rendered
  have told : Diagram.ofLines (Text.sourceLines "A -> B: a < b & \"c\" ]]>") =
      .ok (.sequence ⟨["A", "B"], [⟨"A", "B", "->", "a < b & \"c\" ]]>"⟩]⟩) := by decide +kernel
  rw [told] at read
  cases read
  obtain ⟨-, rfl⟩ := Diagram.scene_eq_ok_iff.mp found
  exact ⟨document, back, rendered, readBack, labels⟩

end DiagramSketch
