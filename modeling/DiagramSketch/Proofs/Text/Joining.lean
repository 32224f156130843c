import DiagramSketch.Text.Case
import Mathlib.Data.List.Basic
import Mathlib.Data.List.Infix

/-!
# Lines side by side

Lines are joined with a space between two of them.  A token without a space stands in the joined
text only where it stands in a line.  A token with one space can also stand across two lines, with
its space between them.
-/

namespace DiagramSketch.Text

theorem lowered_intercalate (lines : List Text) :
    lowered (List.intercalate [' '] lines) = List.intercalate [' '] (lines.map lowered) := by
  induction lines with
  | nil => rfl
  | cons line lines induction =>
      cases lines with
      | nil => simp only [List.map_cons, List.map_nil, List.intercalate_singleton]
      | cons next lines =>
          have space : lowered [' '] = [' '] := rfl
          rw [List.intercalate_cons_cons, lowered_append, lowered_append, space, induction]
          simp only [List.map_cons, List.intercalate_cons_cons]

/-! ## Lines among others -/

theorem isPrefix_intercalate_append (separator : Text) (lines after : List Text) :
    List.intercalate separator lines <+: List.intercalate separator (lines ++ after) := by
  induction lines with
  | nil => exact List.nil_prefix
  | cons line lines induction =>
      cases lines with
      | nil =>
          cases after with
          | nil => exact List.prefix_refl _
          | cons next after =>
              rw [List.intercalate_singleton, List.singleton_append, List.intercalate_cons_cons,
                List.append_assoc]
              exact List.prefix_append line _
      | cons next lines =>
          rw [List.cons_append] at induction ⊢
          rw [List.cons_append, List.intercalate_cons_cons, List.intercalate_cons_cons]
          exact (List.prefix_append_right_inj _).mpr induction

theorem isSuffix_intercalate_append (separator : Text) (before lines : List Text) :
    List.intercalate separator lines <:+ List.intercalate separator (before ++ lines) := by
  induction before with
  | nil => exact List.suffix_refl _
  | cons line before induction =>
      by_cases none : before ++ lines = []
      · rw [(List.append_eq_nil_iff.mp none).2]
        exact List.nil_suffix
      · rw [List.cons_append, List.intercalate_cons_of_ne_nil none]
        exact induction.trans (List.suffix_append _ _)

/-- What lines make side by side is found wherever they stand among others. -/
theorem isInfix_intercalate_append (separator : Text) (before lines after : List Text) :
    List.intercalate separator lines <:+:
      List.intercalate separator (before ++ lines ++ after) :=
  (isSuffix_intercalate_append separator before lines).isInfix.trans
    (isPrefix_intercalate_append separator (before ++ lines) after).isInfix

/-! ## Tokens in joined lines -/

/-- A token in two texts with a character between them stands in one of them, or around the
character. -/
theorem isInfix_append_cons_iff {token line rest : Text} {between : Char} :
    token <:+: line ++ between :: rest ↔ token <:+: line ∨ token <:+: rest ∨
      ∃ first second, token = first ++ between :: second ∧ first <:+ line ∧ second <+: rest := by
  rw [List.infix_append_iff, List.infix_cons_iff]
  constructor
  · rintro (inside | (starts | inside) | ⟨first, last, rfl, ends, starts⟩)
    · exact .inl inside
    · rcases List.prefix_cons_iff.mp starts with rfl | ⟨second, rfl, next⟩
      · exact .inl List.nil_infix
      · exact .inr (.inr ⟨[], second, rfl, List.nil_suffix, next⟩)
    · exact .inr (.inl inside)
    · rcases List.prefix_cons_iff.mp starts with rfl | ⟨second, rfl, next⟩
      · rw [List.append_nil]
        exact .inl ends.isInfix
      · exact .inr (.inr ⟨first, second, rfl, ends, next⟩)
  · rintro (inside | inside | ⟨first, second, rfl, ends, starts⟩)
    · exact .inl inside
    · exact .inr (.inl (.inr inside))
    · refine .inr (.inr ⟨first, between :: second, rfl, ends, ?_⟩)
      exact (List.prefix_append_right_inj [between]).mpr starts

theorem isInfix_intercalate_iff {token : Text} (solid : ' ' ∉ token) (filled : token ≠ [])
    {lines : List Text} :
    token <:+: List.intercalate [' '] lines ↔ ∃ line ∈ lines, token <:+: line := by
  induction lines with
  | nil => simp [filled]
  | cons line lines induction =>
      cases lines with
      | nil => simp
      | cons next lines =>
          rw [List.intercalate_cons_cons, List.append_assoc, List.singleton_append,
            isInfix_append_cons_iff, induction, List.exists_mem_cons_iff _ _ (next :: lines)]
          constructor
          · rintro (inside | inside | ⟨first, second, rfl, -, -⟩)
            · exact .inl inside
            · exact .inr inside
            · exact absurd (by simp) solid
          · exact fun either => either.imp_right .inl

/-- A text without a space that starts joined lines starts the first of them. -/
theorem isPrefix_intercalate_cons_iff {text : Text} (solid : ' ' ∉ text) {line : Text}
    {lines : List Text} :
    text <+: List.intercalate [' '] (line :: lines) ↔ text <+: line := by
  cases lines with
  | nil => rw [List.intercalate_singleton]
  | cons next lines =>
      rw [List.intercalate_cons_cons, List.append_assoc, List.singleton_append]
      refine ⟨fun starts => ?_, fun starts => starts.trans (List.prefix_append _ _)⟩
      rcases List.prefix_or_prefix_of_prefix starts (List.prefix_append line _) with
        inside | ⟨more, rfl⟩
      · exact inside
      · -- What goes beyond the line would begin with the space after it.
        rcases List.prefix_cons_iff.mp ((List.prefix_append_right_inj line).mp starts) with
          rfl | ⟨rest, rfl, -⟩
        · rw [List.append_nil]
        · exact absurd (by simp) solid

/-- Whether a line ends with the first text and the line after it starts with the second one. -/
def meets (first second : Text) : List Text → Bool
  | line :: next :: lines =>
      (first.isSuffixOf line && second.isPrefixOf next) || meets first second (next :: lines)
  | _ => false

/-- A token with one space stands in a line, or has its parts where two lines meet. -/
theorem isInfix_intercalate_iff_or_meets {first second : Text} (solid : ' ' ∉ first)
    (solidToo : ' ' ∉ second) {lines : List Text} :
    first ++ ' ' :: second <:+: List.intercalate [' '] lines ↔
      (∃ line ∈ lines, first ++ ' ' :: second <:+: line) ∨ meets first second lines = true := by
  induction lines with
  | nil => simp [meets]
  | cons line lines induction =>
      cases lines with
      | nil => simp [meets]
      | cons next lines =>
          rw [List.intercalate_cons_cons, List.append_assoc, List.singleton_append,
            isInfix_append_cons_iff, induction, List.exists_mem_cons_iff _ _ (next :: lines),
            meets, Bool.or_eq_true, Bool.and_eq_true, List.isSuffixOf_iff_suffix,
            List.isPrefixOf_iff_prefix]
          constructor
          · rintro (inside | (inside | later) | ⟨left, right, same, ends, starts⟩)
            · exact .inl (.inl inside)
            · exact .inl (.inr inside)
            · exact .inr (.inr later)
            · obtain ⟨rfl, -, rfl⟩ := (List.append_cons_inj_of_notMem solid solidToo).mp same
              exact .inr (.inl ⟨ends, (isPrefix_intercalate_cons_iff solidToo).mp starts⟩)
          · rintro ((inside | inside) | ⟨ends, starts⟩ | later)
            · exact .inl inside
            · exact .inr (.inl (.inl inside))
            · exact .inr (.inr ⟨first, second, rfl, ends,
                (isPrefix_intercalate_cons_iff solidToo).mpr starts⟩)
            · exact .inr (.inl (.inr later))

end DiagramSketch.Text
