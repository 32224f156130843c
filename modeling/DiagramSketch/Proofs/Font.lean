import DiagramSketch.Font
import Mathlib

/-!
# Measured labels

A font measures a text, or says why it does not.  Most of what is drawn is as it is for every font;
where a canvas has to be finite, it matters that no label is wider than can be counted.
-/

namespace DiagramSketch.Font

variable (font : Font) {pixels : Nat} {text : Text}

/-- A text can be measured. -/
def Measures (pixels : Nat) (text : Text) : Prop :=
  ∃ width, font.length pixels text = .ok width

/-- The width of a text, where it can be measured. -/
def extent (pixels : Nat) (text : Text) : Rat :=
  match font.length pixels text with
  | .ok width => width
  | .error _ => 0

/-- The sizes that the labels of classes and steps have. -/
def labelSizes : List Nat := [10, 12, 14]

/-- What is known of the fonts that sources are rendered with. -/
structure IsLimited (font : Font) : Prop where
  /-- Just the texts of more than a million characters cannot be measured. -/
  measures_iff : ∀ pixels ∈ labelSizes, ∀ text,
    font.Measures pixels text ↔ text.length ≤ 1000000
  /-- Widths are counted in 64ths of a pixel, and counts fit into 64 bits with a sign. -/
  width_le : ∀ pixels ∈ labelSizes, ∀ text width,
    font.length pixels text = .ok width → width ≤ 2 ^ 57

variable {font}

theorem Measures.width_eq (measured : font.Measures pixels text) :
    font.width pixels text = .ok (font.extent pixels text) := by
  obtain ⟨width, found⟩ := measured
  rw [Font.width, extent, found]
  rfl

theorem width_eq_ok_iff {width : Rat} : font.width pixels text = .ok width ↔
    font.Measures pixels text ∧ width = font.extent pixels text := by
  constructor
  · intro success
    cases found : font.length pixels text with
    | error message =>
        rw [Font.width, found] at success
        cases success
    | ok length =>
        have measured : font.Measures pixels text := ⟨length, found⟩
        rw [measured.width_eq] at success
        exact ⟨measured, (Except.ok.inj success).symm⟩
  · rintro ⟨measured, rfl⟩
    exact measured.width_eq

theorem exists_of_width_eq_error {fault : Fault} (failed : font.width pixels text = .error fault) :
    ∃ message, font.length pixels text = .error message ∧ fault = .unmeasured message := by
  cases found : font.length pixels text with
  | error message =>
      rw [Font.width, found] at failed
      exact ⟨message, rfl, (Except.error.inj failed).symm⟩
  | ok length =>
      rw [Font.width, found] at failed
      cases failed

theorem IsLimited.lt_length_of_refused (limited : font.IsLimited) (size : pixels ∈ labelSizes)
    {message : Text} (refused : font.length pixels text = .error message) :
    1000000 < text.length := by
  by_contra short
  obtain ⟨width, measured⟩ := (limited.measures_iff pixels size text).mpr (Nat.le_of_not_lt short)
  rw [refused] at measured
  cases measured

theorem IsLimited.exists_refused (limited : font.IsLimited) (size : pixels ∈ labelSizes)
    (long : 1000000 < text.length) : ∃ message, font.length pixels text = .error message := by
  cases found : font.length pixels text with
  | error message => exact ⟨message, rfl⟩
  | ok width =>
      exact absurd ((limited.measures_iff pixels size text).mp ⟨width, found⟩)
        (Nat.not_le_of_lt long)

theorem IsLimited.extent_le (limited : font.IsLimited) (size : pixels ∈ labelSizes) :
    font.extent pixels text ≤ 2 ^ 57 := by
  unfold extent
  split
  · next width found => exact limited.width_le pixels size text width found
  · norm_num

end DiagramSketch.Font
