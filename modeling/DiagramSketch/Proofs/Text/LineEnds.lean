import DiagramSketch.Proofs.Text.Sources
import DiagramSketch.Text.Utf8

/-!
# Line ends

A source is cut wherever there is a line break, so it does not matter to its lines how they end.
There are none exactly when there is nothing in the source but blanks.
-/

namespace DiagramSketch.Text

variable {text : Text}

/-! ## Line breaks -/

theorem sourceLines_append_cons {ending : Char} (ends : isLineBreak ending = true)
    (before after : Text) :
    sourceLines (before ++ ending :: after) = sourceLines before ++ sourceLines after := by
  simp only [sourceLines_eq_trimmed_splitOnP, List.splitOnP_append_cons before after ends,
    trimmed_append]

theorem sourceLines_append_cons_cons {first second : Char} (ends : isLineBreak first = true)
    (endsToo : isLineBreak second = true) (before after : Text) :
    sourceLines (before ++ first :: second :: after) = sourceLines (before ++ second :: after) := by
  have nothing : sourceLines (second :: after) = sourceLines after :=
    sourceLines_append_cons endsToo [] after
  rw [sourceLines_append_cons ends, sourceLines_append_cons endsToo, nothing]

/-- Where a carriage return has just been read, its line feed has already been written. -/
theorem sourceLines_unifyLineEndsFrom {afterReturn : Bool} {before : Text}
    (written : afterReturn = true → before.head? = some '\n') (text : Text) :
    sourceLines (unifyLineEndsFrom afterReturn before text) =
      sourceLines (before.reverse ++ text) := by
  have feeds : isLineBreak '\n' = true := by decide
  have returns : isLineBreak '\r' = true := by decide
  induction text generalizing afterReturn before with
  | nil => rw [unifyLineEndsFrom, List.append_nil]
  | cons character text induction =>
      have onward (read : Text) : sourceLines (unifyLineEndsFrom false read text) =
          sourceLines (read.reverse ++ text) :=
        induction fun after => absurd after Bool.false_ne_true
      rw [unifyLineEndsFrom]
      split
      · next feed =>
          subst feed
          rw [onward]
          cases afterReturn with
          | false => rw [if_neg Bool.false_ne_true, List.reverse_cons, List.append_assoc,
              List.singleton_append]
          | true =>
              -- The line feed is dropped, but one stands before it already.
              obtain ⟨earlier, rfl⟩ := List.head?_eq_some_iff.mp (written rfl)
              rw [if_pos rfl, List.reverse_cons, List.append_assoc, List.append_assoc]
              exact (sourceLines_append_cons_cons feeds feeds _ _).symm
      · split
        · next carriage =>
            subst carriage
            rw [induction fun _ => rfl, List.reverse_cons, List.append_assoc,
              List.singleton_append, sourceLines_append_cons feeds, sourceLines_append_cons returns]
        · rw [onward, List.reverse_cons, List.append_assoc, List.singleton_append]

/-- A source has the same lines, whatever they end with. -/
theorem sourceLines_unifyLineEnds (text : Text) :
    sourceLines (unifyLineEnds text) = sourceLines text :=
  sourceLines_unifyLineEndsFrom (fun after => absurd after Bool.false_ne_true) text

/-! ## Sources without lines -/

/-- Nothing but what separates the pieces of a list is in none of them. -/
theorem exists_mem_splitOnP {α : Type} {separates : α → Bool} {entries : List α} {entry : α}
    (member : entry ∈ entries) (inside : separates entry = false) :
    ∃ piece ∈ entries.splitOnP separates, entry ∈ piece := by
  induction entries with
  | nil => cases member
  | cons first entries induction =>
      rw [List.splitOnP_cons_eq_if_modifyHead]
      split
      · next outside =>
          have later : entry ∈ entries := by
            refine (List.mem_cons.mp member).resolve_left ?_
            rintro rfl
            exact Bool.noConfusion (outside.symm.trans inside)
          obtain ⟨piece, listed, within⟩ := induction later
          exact ⟨piece, List.mem_cons_of_mem _ listed, within⟩
      · obtain ⟨start, pieces, shape⟩ :=
          List.exists_cons_of_ne_nil (List.splitOnP_ne_nil separates entries)
        rw [shape] at induction ⊢
        rw [List.modifyHead_cons]
        rcases List.mem_cons.mp member with rfl | later
        · exact ⟨entry :: start, List.mem_cons_self, List.mem_cons_self⟩
        · obtain ⟨piece, listed, within⟩ := induction later
          rcases List.mem_cons.mp listed with rfl | listed
          · exact ⟨first :: piece, List.mem_cons_self, List.mem_cons_of_mem first within⟩
          · exact ⟨piece, List.mem_cons_of_mem _ listed, within⟩

theorem trim_eq_nil_iff : trim text = [] ↔ IsGap text := by
  have right : trim text = [] ↔ IsGap (dropBlanks text) := by
    rw [trim, dropBlanksRight, List.reverse_eq_nil_iff, List.dropWhile_eq_nil_iff]
    simp only [List.mem_reverse]
    rfl
  rw [right]
  obtain ⟨gap, blank, whole⟩ := exists_gap text
  constructor
  · intro rest
    rw [whole]
    exact List.forall_mem_append.mpr ⟨blank, rest⟩
  · intro all character member
    exact all character ((isSuffix_dropBlanks text).subset member)

/-- There are no lines in a source exactly when it is blank. -/
theorem sourceLines_eq_nil_iff : sourceLines text = [] ↔ IsGap text := by
  have pieces : sourceLines text = [] ↔ ∀ piece ∈ text.splitOnP isLineBreak, IsGap piece := by
    rw [sourceLines_eq_trimmed_splitOnP, trimmed, List.filter_eq_nil_iff, List.forall_mem_map]
    simp only [Bool.not_eq_true', Bool.not_eq_false, List.isEmpty_iff, trim_eq_nil_iff]
  rw [pieces]
  constructor
  · intro each character member
    by_cases ends : isLineBreak character = true
    · exact isBlank_of_isLineBreak ends
    · obtain ⟨piece, listed, within⟩ :=
        exists_mem_splitOnP member (Bool.eq_false_of_not_eq_true ends)
      exact each piece listed character within
  · intro blank piece listed character within
    exact blank character
      (((isInfix_of_mem_splitOnP isLineBreak text).2 piece listed).subset within)

end DiagramSketch.Text
