import DiagramSketch.Text.Utf8
import Mathlib.Tactic.Common

/-!
# Texts and their bytes

Whatever characters a text has, its bytes are read back as the text.
-/

namespace DiagramSketch.Text

/-- A byte that carries six bits of a value behind the first byte of a character. -/
def continuing (value : Nat) : UInt8 :=
  UInt8.ofNat (0x80 + value % 0x40)

theorem toNat_continuing (value : Nat) : (continuing value).toNat = 0x80 + value % 0x40 := by
  rw [continuing, UInt8.toNat_ofNat']
  omega

theorem isContinuation_continuing (value : Nat) : isContinuation (continuing value) = true := by
  simp only [isContinuation, Bool.and_eq_true, decide_eq_true_eq, UInt8.le_iff_toNat_le,
    toNat_continuing, UInt8.reduceToNat]
  omega

theorem payload_continuing (value : Nat) : payload (continuing value) = value % 0x40 := by
  rw [payload, toNat_continuing]
  omega

theorem secondOfThree_continuing {first : UInt8} {value : Nat}
    (long : first = 0xE0 → 0x20 ≤ value % 0x40) (other : first = 0xED → value % 0x40 < 0x20) :
    secondOfThree first (continuing value) = true := by
  simp only [secondOfThree, isContinuation_continuing, Bool.true_and, Bool.and_eq_true,
    Bool.not_eq_true', Bool.and_eq_false_imp, beq_iff_eq, decide_eq_false_iff_not,
    UInt8.lt_iff_toNat_lt, UInt8.le_iff_toNat_le, ge_iff_le, toNat_continuing, UInt8.reduceToNat]
  exact ⟨fun same => by have := long same; omega, fun same => by have := other same; omega⟩

theorem secondOfFour_continuing {first : UInt8} {value : Nat}
    (long : first = 0xF0 → 0x10 ≤ value % 0x40) (last : first = 0xF4 → value % 0x40 < 0x10) :
    secondOfFour first (continuing value) = true := by
  simp only [secondOfFour, isContinuation_continuing, Bool.true_and, Bool.and_eq_true,
    Bool.not_eq_true', Bool.and_eq_false_imp, beq_iff_eq, decide_eq_false_iff_not,
    UInt8.lt_iff_toNat_lt, UInt8.le_iff_toNat_le, ge_iff_le, toNat_continuing, UInt8.reduceToNat]
  exact ⟨fun same => by have := long same; omega, fun same => by have := last same; omega⟩

/-! ## Characters by their length -/

theorem not_lt_of_le_toNat {byte limit : UInt8} {least : Nat} (low : least ≤ byte.toNat)
    (beyond : limit.toNat ≤ least) : ¬ byte < limit :=
  UInt8.not_lt.mpr (UInt8.le_iff_toNat_le.mpr (Nat.le_trans beyond low))

section

variable {first second third fourth : UInt8} (position : Nat) (before : Text) (rest : List UInt8)

theorem ofUtf8From_one (small : first < 0x80) : ofUtf8From position before (first :: rest) =
    ofUtf8From (position + 1) (Char.ofNat first.toNat :: before) rest := by
  rw [ofUtf8From.eq_def]
  exact if_pos small

theorem ofUtf8From_two (low : 0xC2 ≤ first.toNat) (high : first.toNat < 0xE0)
    (continues : isContinuation second = true) :
    ofUtf8From position before (first :: second :: rest) =
      ofUtf8From (position + 2)
        (Char.ofNat (first.toNat % 0x20 * 0x40 + payload second) :: before) rest := by
  have notOne : ¬ first < 0x80 := not_lt_of_le_toNat low (by decide)
  have notNone : ¬ first < 0xC2 := not_lt_of_le_toNat low (by decide)
  have two : first < 0xE0 := UInt8.lt_iff_toNat_lt.mpr high
  rw [ofUtf8From.eq_def]
  dsimp only
  rw [if_neg notOne, if_neg notNone, if_pos two]
  exact if_pos continues

theorem ofUtf8From_three (low : 0xE0 ≤ first.toNat) (high : first.toNat < 0xF0)
    (continues : secondOfThree first second = true) (ends : isContinuation third = true) :
    ofUtf8From position before (first :: second :: third :: rest) =
      ofUtf8From (position + 3)
        (Char.ofNat (first.toNat % 0x10 * 0x1000 + payload second * 0x40 + payload third) :: before)
        rest := by
  have notOne : ¬ first < 0x80 := not_lt_of_le_toNat low (by decide)
  have notNone : ¬ first < 0xC2 := not_lt_of_le_toNat low (by decide)
  have notTwo : ¬ first < 0xE0 := not_lt_of_le_toNat low (by decide)
  have three : first < 0xF0 := UInt8.lt_iff_toNat_lt.mpr high
  rw [ofUtf8From.eq_def]
  dsimp only
  rw [if_neg notOne, if_neg notNone, if_neg notTwo, if_pos three]
  exact (if_pos continues).trans (if_pos ends)

theorem ofUtf8From_four (low : 0xF0 ≤ first.toNat) (high : first.toNat < 0xF5)
    (continues : secondOfFour first second = true) (more : isContinuation third = true)
    (ends : isContinuation fourth = true) :
    ofUtf8From position before (first :: second :: third :: fourth :: rest) =
      ofUtf8From (position + 4)
        (Char.ofNat (first.toNat % 0x08 * 0x40000 + payload second * 0x1000 + payload third * 0x40
          + payload fourth) :: before) rest := by
  have notOne : ¬ first < 0x80 := not_lt_of_le_toNat low (by decide)
  have notNone : ¬ first < 0xC2 := not_lt_of_le_toNat low (by decide)
  have notTwo : ¬ first < 0xE0 := not_lt_of_le_toNat low (by decide)
  have notThree : ¬ first < 0xF0 := not_lt_of_le_toNat low (by decide)
  have four : first < 0xF5 := UInt8.lt_iff_toNat_lt.mpr high
  rw [ofUtf8From.eq_def]
  dsimp only
  rw [if_neg notOne, if_neg notNone, if_neg notTwo, if_neg notThree, if_pos four]
  exact (if_pos continues).trans ((if_pos more).trans (if_pos ends))

end

/-! ## Texts -/

/-- A code that needs three bytes is not spelled as one that needs fewer, nor as a surrogate. -/
theorem secondOfThree_of_code {code : Nat} (long : 0x800 ≤ code) (short : code < 0x10000)
    (valid : code < 0xD800 ∨ 0xDFFF < code) :
    secondOfThree (UInt8.ofNat (0xE0 + code / 0x1000)) (continuing (code / 0x40)) = true := by
  have lead := UInt8.toNat_ofNat_of_lt' (show 0xE0 + code / 0x1000 < 0x100 by omega)
  refine secondOfThree_continuing (fun same => ?_) fun same => ?_
  all_goals
    have value := congrArg UInt8.toNat same
    simp only [lead, UInt8.reduceToNat] at value
    omega

/-- A code that needs four bytes is not spelled as one that needs fewer, nor as one beyond the
last. -/
theorem secondOfFour_of_code {code : Nat} (long : 0x10000 ≤ code) (short : code < 0x110000) :
    secondOfFour (UInt8.ofNat (0xF0 + code / 0x40000)) (continuing (code / 0x1000)) = true := by
  have lead := UInt8.toNat_ofNat_of_lt' (show 0xF0 + code / 0x40000 < 0x100 by omega)
  refine secondOfFour_continuing (fun same => ?_) fun same => ?_
  all_goals
    have value := congrArg UInt8.toNat same
    simp only [lead, UInt8.reduceToNat] at value
    omega

/-- The bytes of a character are read as the character. -/
theorem exists_ofUtf8From_utf8Char (position : Nat) (before : Text) (character : Char)
    (rest : List UInt8) : ∃ next, ofUtf8From position before (utf8Char character ++ rest) =
      ofUtf8From next (character :: before) rest := by
  have valid : character.toNat < 0xD800 ∨ 0xDFFF < character.toNat ∧ character.toNat < 0x110000 :=
    character.valid
  have spelled (code : Nat) (same : code = character.toNat) : Char.ofNat code = character := by
    rw [same, Char.ofNat_toNat]
  -- The cases are the lengths, so that the first byte has the bounds that its reader asks for.
  unfold utf8Char
  dsimp only
  split
  · next one =>
      have lead := UInt8.toNat_ofNat_of_lt' (show character.toNat < 0x100 by omega)
      have small : UInt8.ofNat character.toNat < 0x80 := by
        rw [UInt8.lt_iff_toNat_lt, lead]
        exact one
      have read := ofUtf8From_one position before rest small
      rw [spelled _ lead] at read
      exact ⟨_, read⟩
  split
  · next many two =>
      have lead := UInt8.toNat_ofNat_of_lt' (show 0xC0 + character.toNat / 0x40 < 0x100 by omega)
      have low : 0xC2 ≤ (UInt8.ofNat (0xC0 + character.toNat / 0x40)).toNat := by omega
      have read := ofUtf8From_two position before rest low (by omega)
        (isContinuation_continuing character.toNat)
      rw [lead, payload_continuing, spelled _ (by omega)] at read
      exact ⟨_, read⟩
  split
  · next many three =>
      have lead := UInt8.toNat_ofNat_of_lt' (show 0xE0 + character.toNat / 0x1000 < 0x100 by omega)
      have second := secondOfThree_of_code (Nat.le_of_not_lt many) three (by omega)
      have read := ofUtf8From_three position before rest (by omega) (by omega) second
        (isContinuation_continuing character.toNat)
      rw [lead, payload_continuing, payload_continuing, spelled _ (by omega)] at read
      exact ⟨_, read⟩
  · next many =>
      have lead := UInt8.toNat_ofNat_of_lt' (show 0xF0 + character.toNat / 0x40000 < 0x100 by omega)
      have second := secondOfFour_of_code (Nat.le_of_not_lt many) (by omega)
      have read := ofUtf8From_four position before rest (by omega) (by omega) second
        (isContinuation_continuing (character.toNat / 0x40))
        (isContinuation_continuing character.toNat)
      rw [lead, payload_continuing, payload_continuing, payload_continuing,
        spelled _ (by omega)] at read
      exact ⟨_, read⟩

theorem ofUtf8From_toUtf8 (position : Nat) (before text : Text) :
    ofUtf8From position before (toUtf8 text) = .ok (before.reverse ++ text) := by
  induction text generalizing position before with
  | nil =>
      rw [List.append_nil]
      rfl
  | cons character text induction =>
      obtain ⟨next, read⟩ :=
        exists_ofUtf8From_utf8Char position before character (toUtf8 text)
      rw [toUtf8, List.flatMap_cons]
      refine read.trans ((induction next _).trans ?_)
      rw [List.reverse_cons, List.append_assoc, List.singleton_append]

/-- A text is read back from its bytes. -/
theorem ofUtf8_toUtf8 (text : Text) : ofUtf8 (toUtf8 text) = .ok text :=
  ofUtf8From_toUtf8 0 [] text

end DiagramSketch.Text
