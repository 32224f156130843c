import DiagramSketch.Font.Bundled
import DiagramSketch.Proofs.Font

/-!
# What the bundled font measures

No character advances by more than thirteen pixels, so the width of a label is bounded by its
length, and the length of a label that is measured is bounded as well.
-/

namespace DiagramSketch.Font

/-- No advance is more than thirteen pixels. -/
def Advances.IsNarrow (advances : Advances) : Prop :=
  advances.atOne ≤ 13 ∧ advances.atTen ≤ 13 ∧ advances.atTwelve ≤ 13 ∧ advances.atFourteen ≤ 13

instance (advances : Advances) : Decidable advances.IsNarrow :=
  inferInstanceAs (Decidable (_ ∧ _ ∧ _ ∧ _))

theorem Advances.IsNarrow.atSize_le {advances : Advances} (narrow : advances.IsNarrow)
    (pixels : Nat) : advances.atSize pixels ≤ 13 := by
  obtain ⟨atOne, atTen, atTwelve, atFourteen⟩ := narrow
  unfold Advances.atSize
  split
  · exact atFourteen
  · split
    · exact atTwelve
    · split
      · exact atTen
      · exact atOne

theorem isNarrow_ascii : ∀ advances ∈ asciiAdvances.toList, advances.IsNarrow := by
  decide

theorem isNarrow_other : ∀ entry ∈ otherAdvances, entry.2.IsNarrow := by
  decide

theorem isNarrow_missing : missing.IsNarrow := by
  decide

theorem isNarrow_advances (character : Char) : (advances character).IsNarrow := by
  unfold advances
  dsimp only
  split
  · exact isNarrow_missing
  · split
    · rw [Array.getD_eq_getD_getElem?]
      cases found : asciiAdvances[character.toNat - 0x20]? with
      | none => exact isNarrow_missing
      | some entry => exact isNarrow_ascii entry (Array.mem_of_getElem? found).val
    · cases found : otherAdvances.lookup character.toNat with
      | none => exact isNarrow_missing
      | some entry =>
          obtain ⟨before, after, split, -⟩ := List.lookup_eq_some_iff.mp found
          exact isNarrow_other (character.toNat, entry) (by rw [split]; simp)

theorem advanceWidth_le (pixels : Nat) (text : Text) :
    advanceWidth pixels text ≤ 13 * text.length := by
  have grows (start : Nat) : text.foldl (fun width character =>
      width + (advances character).atSize pixels) start ≤ start + 13 * text.length := by
    induction text generalizing start with
    | nil => exact Nat.le_refl start
    | cons character text induction =>
        have step := (isNarrow_advances character).atSize_le pixels
        have rest := induction (start + (advances character).atSize pixels)
        rw [List.foldl_cons, List.length_cons]
        omega
  have whole := grows 0
  rwa [Nat.zero_add] at whole

theorem length_bundled_of_le {pixels : Nat} {text : Text} (short : text.length ≤ lengthLimit) :
    bundled.length pixels text = .ok (advanceWidth pixels text : Nat) :=
  if_neg (Nat.not_lt.mpr short)

theorem length_bundled_of_lt {pixels : Nat} {text : Text} (long : lengthLimit < text.length) :
    bundled.length pixels text = .error tooLong :=
  if_pos long

theorem measures_bundled_iff {pixels : Nat} {text : Text} :
    bundled.Measures pixels text ↔ text.length ≤ lengthLimit := by
  constructor
  · rintro ⟨width, found⟩
    by_contra long
    rw [length_bundled_of_lt (Nat.lt_of_not_le long)] at found
    cases found
  · intro short
    exact ⟨_, length_bundled_of_le short⟩

theorem isLimited_bundled : bundled.IsLimited := by
  constructor
  case measures_iff => exact fun pixels _ text => measures_bundled_iff
  case width_le =>
    intro pixels _ text width found
    have short := measures_bundled_iff.mp ⟨width, found⟩
    rw [length_bundled_of_le short] at found
    cases found
    have bound := advanceWidth_le pixels text
    have narrow : advanceWidth pixels text ≤ 2 ^ 57 := by
      unfold lengthLimit at short
      omega
    exact_mod_cast narrow

end DiagramSketch.Font
