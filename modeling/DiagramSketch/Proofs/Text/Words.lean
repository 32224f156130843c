import DiagramSketch.Proofs.Text.Joining
import DiagramSketch.Proofs.Text.Reading

/-!
# Words in a row

A text is a row of words with gaps between them, and no gap has a word character.  A token that is
made of small letters stands in such a text only where it stands in one of the words.  With a space
behind it, it stands only at the end of a word that has a space behind it.
-/

namespace DiagramSketch.Text

/-- A text that is made of small ASCII letters. -/
structure IsLetters (token : Text) : Prop where
  filled : token ≠ []
  small : ∀ character ∈ token, character.isLower = true

/-- A text between two words, without any word character. -/
structure IsSeparator (gap : Text) : Prop where
  filled : gap ≠ []
  wordless : ∀ character ∈ gap, isWord character = false

variable {token word gap rest : Text}

theorem isLetters_of_all (filled : token ≠ []) (small : token.all Char.isLower = true) :
    IsLetters token :=
  ⟨filled, List.all_eq_true.mp small⟩

theorem IsLetters.not_mem (letters : IsLetters token) {character : Char}
    (other : character.isLower = false) : character ∉ token := by
  intro member
  have small := letters.small character member
  rw [other] at small
  cases small

theorem IsSeparator.plain (separator : IsSeparator gap) :
    ∀ character ∈ gap, character.isLower = false := by
  intro character member
  by_contra small
  have word := isWord_of_isLower (Bool.eq_true_of_not_eq_false small)
  exact Bool.noConfusion (word.symm.trans (separator.wordless character member))

/-! ## Letters behind a gap -/

theorem IsLetters.isInfix_append_cons_iff (letters : IsLetters token) {between : Char}
    (other : between.isLower = false) :
    token <:+: word ++ between :: rest ↔ token <:+: word ∨ token <:+: rest := by
  rw [Text.isInfix_append_cons_iff]
  refine or_congr_right (or_iff_left ?_)
  rintro ⟨first, second, rfl, -⟩
  exact letters.not_mem other (by simp)

theorem IsLetters.isInfix_gap_append_iff (letters : IsLetters token)
    (plain : ∀ character ∈ gap, character.isLower = false) :
    token <:+: gap ++ rest ↔ token <:+: rest := by
  induction gap with
  | nil => rfl
  | cons between gap induction =>
      obtain ⟨own, others⟩ := List.forall_mem_cons.mp plain
      have behind : token <:+: [] ++ between :: (gap ++ rest) ↔
          token <:+: [] ∨ token <:+: gap ++ rest :=
        letters.isInfix_append_cons_iff own
      rw [List.nil_append, induction others] at behind
      rw [List.cons_append, behind]
      exact or_iff_right (mt List.infix_nil.mp letters.filled)

theorem IsLetters.isInfix_append_gap_iff (letters : IsLetters token) (separator : IsSeparator gap) :
    token <:+: word ++ (gap ++ rest) ↔ token <:+: word ∨ token <:+: rest := by
  obtain ⟨between, gap, rfl⟩ := List.exists_cons_of_ne_nil separator.filled
  obtain ⟨own, others⟩ := List.forall_mem_cons.mp separator.plain
  rw [List.cons_append, letters.isInfix_append_cons_iff own, letters.isInfix_gap_append_iff others]

/-- Letters with a space behind them do not begin in a gap. -/
theorem IsLetters.isInfix_of_gap_append (letters : IsLetters token)
    (plain : ∀ character ∈ gap, character.isLower = false)
    (inside : token ++ [' '] <:+: gap ++ rest) : token ++ [' '] <:+: rest := by
  induction gap with
  | nil => exact inside
  | cons between gap induction =>
      obtain ⟨own, others⟩ := List.forall_mem_cons.mp plain
      rcases List.infix_cons_iff.mp inside with starts | later
      · obtain ⟨first, more, rfl⟩ := List.exists_cons_of_ne_nil letters.filled
        obtain ⟨rfl, -⟩ := List.cons_prefix_cons.mp starts
        exact absurd List.mem_cons_self (letters.not_mem own)
      · exact induction others later

theorem IsLetters.isInfix_of_append_gap (letters : IsLetters token) (separator : IsSeparator gap)
    (solid : ' ' ∉ word) (inside : token ++ [' '] <:+: word ++ (gap ++ rest)) :
    token <:+ word ∧ gap.head? = some ' ' ∨ token ++ [' '] <:+: rest := by
  obtain ⟨between, gap, rfl⟩ := List.exists_cons_of_ne_nil separator.filled
  obtain ⟨own, others⟩ := List.forall_mem_cons.mp separator.plain
  rcases Text.isInfix_append_cons_iff.mp inside with inWord | inRest |
    ⟨first, second, same, ends, -⟩
  · exact absurd (inWord.subset (by simp)) solid
  · exact .inr (letters.isInfix_of_gap_append others inRest)
  · left
    by_cases space : between = ' '
    · subst space
      have none : ' ' ∉ token := letters.not_mem own
      obtain ⟨rfl, -⟩ := (List.append_cons_inj_of_notMem none List.not_mem_nil).mp same
      exact ⟨ends, rfl⟩
    · -- A character between the words that is no space would be one of the letters.
      have member : between ∈ token ++ [' '] := by simp [same]
      rcases List.mem_append.mp member with inToken | last
      · exact absurd inToken (letters.not_mem own)
      · exact absurd (List.mem_singleton.mp last) space

/-! ## Rows of words -/

/-- A word and the words after it, each with the gap before it. -/
def row (word : Text) (pieces : List (Text × Text)) : Text :=
  word ++ pieces.flatMap fun (gap, next) => gap ++ next

/-- The words that have a space behind them. -/
def spaced (word : Text) : List (Text × Text) → List Text
  | [] => []
  | (gap, next) :: pieces =>
      (if gap.head? = some ' ' then [word] else []) ++ spaced next pieces

theorem row_cons (word gap next : Text) (pieces : List (Text × Text)) :
    row word ((gap, next) :: pieces) = word ++ (gap ++ row next pieces) := by
  simp [row]

theorem IsLetters.isInfix_row_iff (letters : IsLetters token) {pieces : List (Text × Text)}
    (apart : ∀ piece ∈ pieces, IsSeparator piece.1) :
    token <:+: row word pieces ↔ ∃ other ∈ word :: pieces.map Prod.snd, token <:+: other := by
  induction pieces generalizing word with
  | nil => simp [row]
  | cons piece pieces induction =>
      obtain ⟨gap, next⟩ := piece
      obtain ⟨own, others⟩ := List.forall_mem_cons.mp apart
      rw [row_cons, letters.isInfix_append_gap_iff own, induction others, List.map_cons,
        List.exists_mem_cons_iff _ word]

/-- Letters with a space behind them end a word that has a space behind it. -/
theorem IsLetters.exists_of_isInfix_row (letters : IsLetters token) {pieces : List (Text × Text)}
    (apart : ∀ piece ∈ pieces, IsSeparator piece.1)
    (solid : ∀ other ∈ word :: pieces.map Prod.snd, ' ' ∉ other)
    (inside : token ++ [' '] <:+: row word pieces) :
    ∃ other ∈ spaced word pieces, token <:+ other := by
  induction pieces generalizing word with
  | nil =>
      rw [row, List.flatMap_nil, List.append_nil] at inside
      exact absurd (inside.subset (by simp)) (solid word List.mem_cons_self)
  | cons piece pieces induction =>
      obtain ⟨gap, next⟩ := piece
      obtain ⟨own, others⟩ := List.forall_mem_cons.mp apart
      obtain ⟨first, later⟩ := List.forall_mem_cons.mp solid
      rw [row_cons] at inside
      rcases letters.isInfix_of_append_gap own first inside with ⟨ends, space⟩ | further
      · exact ⟨word, by simp [spaced, space], ends⟩
      · obtain ⟨other, member, ends⟩ := induction others later further
        exact ⟨other, List.mem_append_right _ member, ends⟩

/-! ## Words in lower case -/

/-- The characters between words are left as they are. -/
theorem loweredChar_of_not_isWord {character : Char} (other : isWord character = false) :
    loweredChar character = [character] := by
  unfold loweredChar asciiLower
  split_ifs with kelvin dotted capital
  · have word : isWord '\u212A' = true := by decide +kernel
    rw [beq_iff_eq.mp kelvin, word] at other
    cases other
  · have word : isWord '\u0130' = true := by decide +kernel
    rw [beq_iff_eq.mp dotted, word] at other
    cases other
  · have each : ∀ offset < 26, wordTable.contains (65 + offset) = true := by decide +kernel
    have low : 65 ≤ character.toNat := capital.1
    have high : character.toNat ≤ 90 := capital.2
    have place := each (character.toNat - 65) (by omega)
    rw [Nat.add_sub_cancel' low] at place
    exact Bool.noConfusion (place.symm.trans other)
  · rfl

theorem lowered_eq_self {text : Text} (other : ∀ character ∈ text, isWord character = false) :
    lowered text = text := by
  induction text with
  | nil => rfl
  | cons first text induction =>
      obtain ⟨own, others⟩ := List.forall_mem_cons.mp other
      rw [lowered, List.flatMap_cons, loweredChar_of_not_isWord own]
      exact congrArg (List.cons first) (induction others)

theorem lowered_row {pieces : List (Text × Text)} (word : Text)
    (apart : ∀ piece ∈ pieces, IsSeparator piece.1) :
    lowered (row word pieces) = row (lowered word) (pieces.map (Prod.map id lowered)) := by
  induction pieces generalizing word with
  | nil => simp [row]
  | cons piece pieces induction =>
      obtain ⟨gap, next⟩ := piece
      obtain ⟨own, others⟩ := List.forall_mem_cons.mp apart
      rw [row_cons, lowered_append, lowered_append, lowered_eq_self own.wordless,
        induction next others, List.map_cons, Prod.map, row_cons]
      rfl

theorem spaced_map_lowered (word : Text) (pieces : List (Text × Text)) :
    spaced (lowered word) (pieces.map (Prod.map id lowered)) =
      (spaced word pieces).map lowered := by
  induction pieces generalizing word with
  | nil => rfl
  | cons piece pieces induction =>
      obtain ⟨gap, next⟩ := piece
      rw [List.map_cons, Prod.map, spaced, spaced, induction, List.map_append]
      simp only [id]
      split <;> rfl

variable {pieces : List (Text × Text)}

theorem words_map_lowered (word : Text) (pieces : List (Text × Text)) :
    lowered word :: (pieces.map (Prod.map id lowered)).map Prod.snd =
      (word :: pieces.map Prod.snd).map lowered := by
  simp

theorem isSeparator_map_lowered (apart : ∀ piece ∈ pieces, IsSeparator piece.1) :
    ∀ piece ∈ pieces.map (Prod.map id lowered), IsSeparator piece.1 :=
  List.forall_mem_map.mpr apart

/-- A token of letters is found in a row that is written in lower case if it is found in a word. -/
theorem IsLetters.isInfix_lowered_row_iff (letters : IsLetters token)
    (apart : ∀ piece ∈ pieces, IsSeparator piece.1) :
    token <:+: lowered (row word pieces) ↔
      ∃ other ∈ word :: pieces.map Prod.snd, token <:+: lowered other := by
  rw [lowered_row word apart, letters.isInfix_row_iff (isSeparator_map_lowered apart),
    words_map_lowered]
  simp only [List.mem_map, exists_exists_and_eq_and]

theorem isLower_asciiLower {character : Char} (capital : 'A' ≤ character ∧ character ≤ 'Z') :
    (Char.ofNat (character.toNat + 32)).isLower = true := by
  have each : ∀ offset < 26, (Char.ofNat (65 + offset + 32)).isLower = true := by decide
  have low : 65 ≤ character.toNat := capital.1
  have high : character.toNat ≤ 90 := capital.2
  have place := each (character.toNat - 65) (by omega)
  rwa [Nat.add_sub_cancel' low] at place

/-- A character that is neither a small letter nor a combining dot stands in a text that is written
in lower case only where it stood before. -/
theorem mem_of_mem_lowered {text : Text} {character : Char} (member : character ∈ lowered text)
    (other : character.isLower = false) (dotless : character ≠ '\u0307') : character ∈ text := by
  obtain ⟨source, inside, written⟩ := List.mem_flatMap.mp member
  unfold loweredChar asciiLower at written
  split_ifs at written with kelvin dotted capital
  · obtain rfl := List.mem_singleton.mp written
    cases other
  · rcases List.mem_pair.mp written with rfl | rfl
    · cases other
    · exact absurd rfl dotless
  · obtain rfl := List.mem_singleton.mp written
    rw [isLower_asciiLower capital] at other
    cases other
  · obtain rfl := List.mem_singleton.mp written
    exact inside

/-- With a space behind it, the token ends a word that has a space behind it. -/
theorem IsLetters.exists_of_isInfix_lowered_row (letters : IsLetters token)
    (apart : ∀ piece ∈ pieces, IsSeparator piece.1)
    (solid : ∀ other ∈ word :: pieces.map Prod.snd, ' ' ∉ other)
    (inside : token ++ [' '] <:+: lowered (row word pieces)) :
    ∃ other ∈ spaced word pieces, token <:+ lowered other := by
  have spaceless : ∀ other ∈ (word :: pieces.map Prod.snd).map lowered, ' ' ∉ other :=
    List.forall_mem_map.mpr fun other member space =>
      solid other member (mem_of_mem_lowered space rfl (by decide))
  rw [← words_map_lowered] at spaceless
  rw [lowered_row word apart] at inside
  obtain ⟨found, member, ends⟩ :=
    letters.exists_of_isInfix_row (isSeparator_map_lowered apart) spaceless inside
  rw [spaced_map_lowered] at member
  obtain ⟨other, known, rfl⟩ := List.mem_map.mp member
  exact ⟨other, known, ends⟩

end DiagramSketch.Text
