import DiagramSketch.Proofs.Diagram.Distinct
import DiagramSketch.Proofs.UseCases.Drawing
import DiagramSketch.Proofs.UseCases.Lines

/-!
# Which links are drawn

A link leads to a use case that its own line introduces, so it is drawn exactly if its actor is
declared somewhere.  It does not matter which end of a link is written first.
-/

namespace DiagramSketch.UseCases

open Text (IsName EndsName IsGap)

/-- The link that a line describes. -/
def Line.link? : Line → Option Link
  | .declaration _ => none
  | .content _ link => link

variable {line actor label : Text} {lines before after : List Text} {link : Link}

/-! ## Lines as they are read -/

theorem read_of_isDeclaration (declaration : IsDeclaration line) :
    ∃ actor, Line.read line = .declaration actor := by
  obtain ⟨actor, declares⟩ := declaration
  exact ⟨actor, by rw [Line.read, declared?_eq_some_iff.mpr declares]⟩

theorem read_of_not_isDeclaration (content : ¬ IsDeclaration line) :
    Line.read line = .content (labelsOf line) (link? line) := by
  have none : declared? line = none :=
    Option.not_isSome_iff_eq_none.mp (mt isSome_declared?_iff.mp content)
  rw [Line.read, none]

theorem labels_read (line : Text) :
    (Line.read line).labels = if IsDeclaration line then [] else labelsOf line := by
  split
  · next declaration =>
      obtain ⟨actor, read⟩ := read_of_isDeclaration declaration
      rw [read]
      rfl
  · next content =>
      rw [read_of_not_isDeclaration content]
      rfl

end DiagramSketch.UseCases
