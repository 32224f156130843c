import DiagramSketch.Proofs.Text.LineEnds

/-!
# Laws of the lines of a source

A source can be cut wherever a line ends, also between a carriage return and its line feed, without
a difference to its lines.  Its lines cannot be cut or trimmed any further, and they hold all of the
source that is not blank.
-/

namespace DiagramSketch.Text

/-- What ends a line.  A carriage return and the line feed behind it are one end. -/
def lineEnds : List Text :=
  [[0x0D, 0x0A], [0x0A], [0x0B], [0x0C], [0x0D], [0x1C], [0x1D], [0x1E], [0x85], [0x2028],
    [0x2029]].map (List.map Char.ofNat)

/-- A line that is left as it is when it is cut and trimmed. -/
structure IsSettled (line : Text) : Prop where
  filled : line ≠ []
  starts : ∀ character ∈ line.head?, isBlank character = false
  ends : ∀ character ∈ line.getLast?, isBlank character = false
  unbroken : ∀ ending ∈ lineEnds, ¬ ending <:+: line

variable {text line ending : Text}

/-! ## Line ends -/

theorem all_lineEnds :
    (lineEnds.all fun ending => !ending.isEmpty && ending.all isLineBreak) = true := by
  decide

theorem ne_nil_of_mem_lineEnds (listed : ending ∈ lineEnds) : ending ≠ [] := by
  have both := List.all_eq_true.mp all_lineEnds ending listed
  rw [Bool.and_eq_true] at both
  simpa using both.1

theorem isLineBreak_of_mem_lineEnds (listed : ending ∈ lineEnds) :
    ∀ character ∈ ending, isLineBreak character = true := by
  have both := List.all_eq_true.mp all_lineEnds ending listed
  rw [Bool.and_eq_true] at both
  exact List.all_eq_true.mp both.2

/-- A source can be cut at any number of line breaks side by side. -/
theorem sourceLines_append_breaks (filled : ending ≠ [])
    (breaks : ∀ character ∈ ending, isLineBreak character = true) (before after : Text) :
    sourceLines (before ++ ending ++ after) = sourceLines before ++ sourceLines after := by
  induction ending generalizing before with
  | nil => exact absurd rfl filled
  | cons character ending induction =>
      obtain ⟨own, others⟩ := List.forall_mem_cons.mp breaks
      rw [List.append_assoc, List.cons_append, sourceLines_append_cons own]
      cases ending with
      | nil => rfl
      | cons next ending =>
          apply congrArg (sourceLines before ++ ·)
          apply induction (List.cons_ne_nil _ _) others []

theorem IsLine.isSettled (isLine : IsLine line) : IsSettled line := by
  constructor
  case filled => exact isLine.starts.ne_nil
  case starts => exact isLine.starts.endsGap
  case ends =>
    intro character found
    apply isLine.ends.endsGap_reverse
    rw [List.head?_reverse]
    exact found
  case unbroken =>
    intro ending listed within
    obtain ⟨character, more, rfl⟩ := List.exists_cons_of_ne_nil (ne_nil_of_mem_lineEnds listed)
    have breaks := isLineBreak_of_mem_lineEnds listed character List.mem_cons_self
    have plain := isLine.unbroken character (within.subset List.mem_cons_self)
    exact Bool.noConfusion (breaks.symm.trans plain)

/-! ## What is not blank -/

/-- The characters of a text that are not blank, in order. -/
def solids (text : Text) : Text :=
  text.filter fun character => !isBlank character

theorem solids_append (text other : Text) : solids (text ++ other) = solids text ++ solids other :=
  List.filter_append text other

theorem solids_of_isGap (blank : IsGap text) : solids text = [] := by
  apply List.filter_eq_nil_iff.mpr
  intro character member
  simp [blank character member]

theorem solids_reverse (text : Text) : solids text.reverse = (solids text).reverse :=
  List.filter_reverse

theorem solids_dropBlanks (text : Text) : solids (dropBlanks text) = solids text := by
  obtain ⟨gap, blank, whole⟩ := exists_gap text
  calc solids (dropBlanks text)
      _ = solids gap ++ solids (dropBlanks text) := by rw [solids_of_isGap blank, List.nil_append]
      _ = solids (gap ++ dropBlanks text) := (solids_append _ _).symm
      _ = solids text := by rw [← whole]

theorem solids_dropBlanksRight (text : Text) : solids (dropBlanksRight text) = solids text :=
  calc solids (dropBlanksRight text)
      _ = (solids (dropBlanks text.reverse)).reverse := solids_reverse _
      _ = (solids text.reverse).reverse := by rw [solids_dropBlanks]
      _ = solids text := by rw [solids_reverse, List.reverse_reverse]

theorem solids_trim (text : Text) : solids (trim text) = solids text := by
  rw [trim, solids_dropBlanksRight, solids_dropBlanks]

theorem flatten_modifyHead_cons {α : Type} (entry : α) {pieces : List (List α)}
    (filled : pieces ≠ []) :
    (pieces.modifyHead (entry :: ·)).flatten = entry :: pieces.flatten := by
  obtain ⟨first, more, rfl⟩ := List.exists_cons_of_ne_nil filled
  rw [List.modifyHead_cons, List.flatten_cons, List.flatten_cons, List.cons_append]

/-- The pieces of a list hold everything but what separates them. -/
theorem flatten_splitOnP {α : Type} (separates : α → Bool) (entries : List α) :
    (entries.splitOnP separates).flatten = entries.filter fun entry => !separates entry := by
  induction entries with
  | nil => rfl
  | cons entry entries induction =>
      rw [List.splitOnP_cons_eq_if_modifyHead]
      split
      · next outside =>
          rw [List.flatten_cons, List.nil_append, induction,
            List.filter_cons_of_neg (by simp [outside])]
      · next inside =>
          rw [flatten_modifyHead_cons entry (List.splitOnP_ne_nil separates entries), induction,
            List.filter_cons_of_pos (by simp [inside])]

theorem solids_flatten (pieces : List Text) :
    solids pieces.flatten = (pieces.map solids).flatten :=
  List.filter_flatten

/-- Line breaks are blank, so that cutting takes away nothing else. -/
theorem solids_flatten_splitOnP (text : Text) :
    solids (text.splitOnP isLineBreak).flatten = solids text := by
  rw [flatten_splitOnP, solids, List.filter_filter]
  apply List.filter_congr
  intro character _
  cases broken : isLineBreak character with
  | false => simp
  | true => simp [isBlank_of_isLineBreak broken]

theorem solids_flatten_sourceLines (source : Text) :
    solids (sourceLines source).flatten = solids source := by
  have kept : (solids ∘ trim) = solids := funext solids_trim
  calc solids (sourceLines source).flatten
      _ = solids ((source.splitOnP isLineBreak).map trim).flatten := by
        rw [sourceLines_eq_trimmed_splitOnP, trimmed, List.flatten_filter_not_isEmpty]
      _ = ((source.splitOnP isLineBreak).map solids).flatten := by
        rw [solids_flatten, List.map_map, kept]
      _ = solids source := by rw [← solids_flatten, solids_flatten_splitOnP]

/-! ## The laws -/

/-- The lines of a source are those before and those after any of its line ends.  They are settled,
they are their own lines when they are written one after the other, and they keep everything that is
not blank, in order. -/
theorem sourceLines_laws :
    (∀ before after : Text, ∀ ending ∈ lineEnds,
      sourceLines (before ++ ending ++ after) = sourceLines before ++ sourceLines after) ∧
    ∀ source : Text,
      (∀ line ∈ sourceLines source, IsSettled line) ∧
      sourceLines (List.intercalate ['\n'] (sourceLines source)) = sourceLines source ∧
      (sourceLines source).flatten.filter (fun character => !isBlank character) =
        source.filter fun character => !isBlank character := by
  refine ⟨fun before after ending listed => ?_, fun source => ⟨?_, ?_, ?_⟩⟩
  · exact sourceLines_append_breaks (ne_nil_of_mem_lineEnds listed)
      (isLineBreak_of_mem_lineEnds listed) before after
  · intro line member
    exact (isLine_of_mem_sourceLines member).isSettled
  · apply sourceLines_intercalate
    intro line member
    exact isLine_of_mem_sourceLines member
  · exact solids_flatten_sourceLines source

/-- A carriage return before the cut and its line feed behind it, separators that are blanks and
line ends at once, and blanks that stay inside a line. -/
theorem sourceLines_laws_carriage_return :
    let before : Text := [' ', 'a', '\t', 'b', '\r']
    let after : Text := ['\n', Char.ofNat 0x2028, 'c', Char.ofNat 0x1C]
    let source := before ++ [Char.ofNat 0x85] ++ after
    [Char.ofNat 0x85] ∈ lineEnds ∧ sourceLines source = sourceLines before ++ sourceLines after ∧
      ['a', '\t', 'b'] ∈ sourceLines source ∧ IsSettled ['a', '\t', 'b'] ∧
      sourceLines (List.intercalate ['\n'] (sourceLines source)) = sourceLines source ∧
      (sourceLines source).flatten.filter (fun character => !isBlank character) =
        ['a', 'b', 'c'] := by
  intro before after source
  obtain ⟨cut, laws⟩ := sourceLines_laws
  obtain ⟨settled, again, kept⟩ := laws source
  have listed : [Char.ofNat 0x85] ∈ lineEnds := by decide
  have first : ['a', '\t', 'b'] ∈ sourceLines source := by decide
  exact ⟨listed, cut before after _ listed, first, settled _ first, again, kept⟩

end DiagramSketch.Text
