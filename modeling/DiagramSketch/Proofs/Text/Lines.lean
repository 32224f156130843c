import DiagramSketch.Proofs.Results
import DiagramSketch.Text.Basic

/-!
# The lines of a source

It makes no difference whether a carriage return and its line feed are one break or two, since
nothing is between them: the lines are what is left of the pieces between any two breaks.  Every
line is a piece of the source, so that there are no more lines than the source has characters, but
for one, and none is longer than the source.
-/

namespace DiagramSketch.Text

theorem trimmed_append (first second : List Text) :
    trimmed (first ++ second) = trimmed first ++ trimmed second := by
  simp only [trimmed, List.map_append, List.filter_append]

/-- What is read of a line before its break is a piece by itself. -/
theorem splitOnP_reverse_append_cons {read : Text}
    (unbroken : ∀ character ∈ read, isLineBreak character = false) {ending : Char}
    (ends : isLineBreak ending = true) (rest : Text) :
    (read.reverse ++ ending :: rest).splitOnP isLineBreak =
      read.reverse :: rest.splitOnP isLineBreak := by
  apply List.splitOnP_append_cons_of_forall_mem _ ending ends
  exact fun character member => unbroken character (List.mem_reverse.mp member)

theorem trimmed_splitLinesFrom (lines : List Text) {read : Text}
    (unbroken : ∀ character ∈ read, isLineBreak character = false) (text : Text) :
    trimmed (splitLinesFrom lines read text) =
      trimmed lines.reverse ++ trimmed ((read.reverse ++ text).splitOnP isLineBreak) := by
  have returns : isLineBreak '\r' = true := by decide
  have feeds : isLineBreak '\n' = true := by decide
  have none : ∀ character ∈ ([] : Text), isLineBreak character = false := List.forall_mem_nil _
  fun_induction splitLinesFrom lines read text with
  | case1 lines read =>
      have whole : (read.reverse ++ []).splitOnP isLineBreak = [read.reverse] := by
        rw [List.append_nil]
        apply List.splitOnP_eq_singleton
        intro character member
        exact unbroken character (List.mem_reverse.mp member)
      rw [whole]
      cases read with
      | nil => exact (List.append_nil _).symm
      | cons character read => rw [← trimmed_append, ← List.reverse_cons]; rfl
  | case2 lines read rest induction =>
      have between : ('\n' :: rest).splitOnP isLineBreak = [] :: rest.splitOnP isLineBreak :=
        splitOnP_reverse_append_cons none feeds rest
      rw [induction none, splitOnP_reverse_append_cons unbroken returns, between,
        List.reverse_cons, trimmed_append, List.append_assoc, ← trimmed_append]
      rfl
  | case3 lines read character rest _ ends induction =>
      rw [induction none, splitOnP_reverse_append_cons unbroken ends, List.reverse_cons,
        trimmed_append, List.append_assoc, ← trimmed_append]
      rfl
  | case4 lines read character rest _ inside induction =>
      have longer : ∀ other ∈ character :: read, isLineBreak other = false :=
        List.forall_mem_cons.mpr ⟨Bool.eq_false_of_not_eq_true inside, unbroken⟩
      rw [induction longer, List.reverse_cons, List.append_assoc]
      rfl

/-- A source can be cut at every single line break, as far as its lines are concerned. -/
theorem sourceLines_eq_trimmed_splitOnP (source : Text) :
    sourceLines source = trimmed (source.splitOnP isLineBreak) :=
  trimmed_splitLinesFrom [] (List.forall_mem_nil _) source

/-- The lines of a source are trimmed pieces of it between line breaks. -/
theorem exists_piece_of_mem_sourceLines {source line : Text} (member : line ∈ sourceLines source) :
    line ≠ [] ∧ ∃ piece ∈ source.splitOnP isLineBreak, trim piece = line := by
  rw [sourceLines_eq_trimmed_splitOnP] at member
  obtain ⟨cut, filled⟩ := List.mem_filter.mp member
  exact ⟨by simpa using filled, List.mem_map.mp cut⟩

/-- The number of characters that no text in memory has: lengths are machine words. -/
def capacity : Nat := 2 ^ 63

/-- There are few lines, and all of them are short. -/
structure AreBounded (count : Nat) (lines : List Text) : Prop where
  few : lines.length ≤ count
  short : ∀ line ∈ lines, line.length ≤ count

theorem length_splitOnP_le {α : Type} (separates : α → Bool) (entries : List α) :
    (entries.splitOnP separates).length ≤ entries.length + 1 := by
  induction entries with
  | nil => simp
  | cons entry entries induction =>
      rw [List.splitOnP_cons_eq_if_modifyHead]
      split
      · exact Nat.succ_le_succ induction
      · rw [List.length_modifyHead, List.length_cons]
        omega

/-- The first piece is at the start, and all pieces are within. -/
theorem isInfix_of_mem_splitOnP {α : Type} (separates : α → Bool) (entries : List α) :
    (∀ piece ∈ (entries.splitOnP separates).head?, piece <+: entries) ∧
      ∀ piece ∈ entries.splitOnP separates, piece <:+: entries := by
  induction entries with
  | nil => simp
  | cons entry entries induction =>
      obtain ⟨start, within⟩ := induction
      rw [List.splitOnP_cons_eq_if_modifyHead]
      split
      · refine ⟨fun piece first => ?_, List.forall_mem_cons.mpr ⟨List.nil_infix, ?_⟩⟩
        · cases first
          exact List.nil_prefix
        · exact fun piece member => (within piece member).trans (List.suffix_cons _ _).isInfix
      · cases pieces : entries.splitOnP separates with
        | nil => exact absurd pieces (List.splitOnP_ne_nil separates entries)
        | cons first pieces =>
            rw [pieces] at start within
            have begins : entry :: first <+: entry :: entries :=
              (List.prefix_cons_inj entry).mpr (start first rfl)
            refine ⟨fun piece found => ?_, List.forall_mem_cons.mpr ⟨begins.isInfix, ?_⟩⟩
            · cases found
              exact begins
            · intro piece member
              exact (within piece (List.mem_cons_of_mem first member)).trans
                (List.suffix_cons _ _).isInfix

theorem isSuffix_dropBlanks (text : Text) : dropBlanks text <:+ text :=
  List.dropWhile_suffix isBlank

theorem isPrefix_dropBlanksRight (text : Text) : dropBlanksRight text <+: text := by
  have reversed := List.dropWhile_suffix (l := text.reverse) isBlank
  exact List.reverse_suffix.mp ((List.reverse_reverse _).symm ▸ reversed)

theorem isInfix_trim (text : Text) : trim text <:+: text :=
  (isPrefix_dropBlanksRight (dropBlanks text)).isInfix.trans (isSuffix_dropBlanks text).isInfix

theorem isInfix_of_mem_sourceLines {source line : Text} (member : line ∈ sourceLines source) :
    line <:+: source := by
  obtain ⟨-, piece, inside, rfl⟩ := exists_piece_of_mem_sourceLines member
  exact (isInfix_trim piece).trans ((isInfix_of_mem_splitOnP isLineBreak source).2 piece inside)

/-- The pieces of a list hold none of the entries that separate them. -/
theorem not_of_mem_splitOnP {α : Type} (separates : α → Bool) (entries : List α) :
    ∀ piece ∈ entries.splitOnP separates, ∀ entry ∈ piece, separates entry = false := by
  induction entries with
  | nil => simp
  | cons entry entries induction =>
      rw [List.splitOnP_cons_eq_if_modifyHead]
      split
      · exact List.forall_mem_cons.mpr ⟨List.forall_mem_nil _, induction⟩
      · next other =>
          cases pieces : entries.splitOnP separates with
          | nil => exact absurd pieces (List.splitOnP_ne_nil separates entries)
          | cons first pieces =>
              rw [pieces] at induction
              obtain ⟨start, rest⟩ := List.forall_mem_cons.mp induction
              refine List.forall_mem_cons.mpr ⟨List.forall_mem_cons.mpr ⟨?_, start⟩, rest⟩
              exact Bool.eq_false_of_not_eq_true other

theorem not_isLineBreak_of_mem_sourceLines {source line : Text}
    (member : line ∈ sourceLines source) : ∀ character ∈ line, isLineBreak character = false := by
  obtain ⟨-, piece, inside, rfl⟩ := exists_piece_of_mem_sourceLines member
  intro character within
  exact not_of_mem_splitOnP isLineBreak source piece inside character
    ((isInfix_trim piece).subset within)

theorem length_sourceLines_le (source : Text) :
    (sourceLines source).length ≤ source.length + 1 := by
  have pieces := length_splitOnP_le isLineBreak source
  rw [sourceLines_eq_trimmed_splitOnP]
  refine (List.length_filter_le _ _).trans ?_
  rw [List.length_map]
  exact pieces

theorem areBounded_sourceLines {source : Text} (short : source.length < capacity) :
    AreBounded capacity (sourceLines source) where
  few := (length_sourceLines_le source).trans short
  short _ member := ((isInfix_of_mem_sourceLines member).length_le.trans_lt short).le

theorem AreBounded.contentLines {count : Nat} {lines : List Text}
    (bounded : AreBounded count lines) : AreBounded count (contentLines lines) where
  few := (List.length_filter_le _ _).trans bounded.few
  short line member := bounded.short line (List.mem_filter.mp member).1

end DiagramSketch.Text
