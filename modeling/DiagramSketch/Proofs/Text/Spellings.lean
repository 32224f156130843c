import DiagramSketch.Proofs.Text.Reading
import DiagramSketch.Text.Digit

/-!
# Words in any letter case

Some lines are close to sentences: their words may be written in any letter case, with as many
blanks between them as one likes, and with the digits of any script.
-/

namespace DiagramSketch.Text

/-- One or more blanks stand before the rest. -/
def Spaced (text rest : Text) : Prop :=
  ∃ gap, gap ≠ [] ∧ IsGap gap ∧ text = gap ++ rest

/-- The text begins with the word, which is in lower case, in any letter case. -/
def Begins (word text rest : Text) : Prop :=
  ∃ spelled, spelled.map folded = word ∧ text = spelled ++ rest

/-- The text begins with blanks and the word. -/
def BeginsSpaced (word text rest : Text) : Prop :=
  ∃ afterBlanks, Spaced text afterBlanks ∧ Begins word afterBlanks rest

/-- The text consists of the body, which is not empty and has no line feeds, and perhaps of a line
feed at its end. -/
structure IsLineOf (body text : Text) : Prop where
  filled : body ≠ []
  unbroken : '\n' ∉ body
  whole : text = body ∨ text = body ++ ['\n']

variable {text rest word body : Text}

/-! ## Letters -/

/-- No blank is a letter in another case. -/
theorem not_isBlank_of_isLower_folded {character : Char}
    (lower : (folded character).isLower = true) : isBlank character = false :=
  not_isBlank_of_each (fun letter => (folded letter).isLower) lower (by decide +kernel)

theorem keyword?_eq_some_iff : keyword? word text = some rest ↔ Begins word text rest := by
  unfold Begins
  induction word generalizing text with
  | nil => simp [keyword?, eq_comm]
  | cons expected word induction =>
      cases text with
      | nil => simp [keyword?]
      | cons found text =>
          simp only [keyword?, List.map_eq_cons_iff]
          constructor
          · intro read
            split at read
            · next same =>
                obtain ⟨spelled, spells, whole⟩ := induction.mp read
                rw [whole]
                exact ⟨found :: spelled, ⟨found, spelled, rfl, same.symm, spells⟩, rfl⟩
            · cases read
          · rintro ⟨_, ⟨letter, spelled, rfl, same, spells⟩, whole⟩
            obtain ⟨rfl, behind⟩ := List.cons.inj whole
            rw [if_pos same.symm]
            exact induction.mpr ⟨spelled, spells, behind⟩

theorem isSome_keyword?_iff :
    (keyword? word text).isSome = true ↔ ∃ rest, Begins word text rest := by
  simp only [Option.isSome_iff_exists, keyword?_eq_some_iff]

/-- The first characters of the text and of the word are the same letter. -/
theorem Begins.head (begins : Begins word text rest) (filled : word ≠ []) :
    text.head?.map folded = word.head? := by
  obtain ⟨spelled, rfl, rfl⟩ := begins
  cases spelled with
  | nil => exact absurd rfl filled
  | cons first spelled => rfl

theorem Begins.unique {other : Text} (begins : Begins word text rest)
    (otherwise : Begins word text other) : rest = other := by
  have same := keyword?_eq_some_iff.mpr begins
  rw [keyword?_eq_some_iff.mpr otherwise] at same
  exact (Option.some.inj same).symm

theorem ne_nil_of_head? {holds : Char → Bool} (first : word.head?.any holds = true) :
    word ≠ [] := by
  rintro rfl
  cases first

theorem Begins.endsGap (begins : Begins word text rest)
    (lower : word.head?.any Char.isLower = true) : EndsGap text := by
  intro first starts
  have same := begins.head (ne_nil_of_head? lower)
  rw [starts, Option.map_some] at same
  rw [← same, Option.any_some] at lower
  exact not_isBlank_of_isLower_folded lower

/-! ## Blanks -/

theorem spaced_cons_iff {first : Char} : Spaced (first :: text) rest ↔
    isBlank first = true ∧ (rest = text ∨ Spaced text rest) := by
  constructor
  · rintro ⟨gap, filled, blank, whole⟩
    obtain ⟨start, more, rfl⟩ := List.exists_cons_of_ne_nil filled
    obtain ⟨rfl, rfl⟩ := List.cons.inj whole
    obtain ⟨own, others⟩ := List.forall_mem_cons.mp blank
    apply And.intro own
    cases more with
    | nil => exact .inl rfl
    | cons second more => exact .inr ⟨second :: more, List.cons_ne_nil _ _, others, rfl⟩
  · rintro ⟨own, rfl | ⟨gap, filled, blank, rfl⟩⟩
    · exact ⟨[first], List.cons_ne_nil _ _, List.forall_mem_singleton.mpr own, rfl⟩
    · exact ⟨first :: gap, List.cons_ne_nil _ _, List.forall_mem_cons.mpr ⟨own, blank⟩, rfl⟩

theorem Spaced.length_lt (spaced : Spaced text rest) : rest.length < text.length := by
  obtain ⟨gap, filled, -, rfl⟩ := spaced
  have positive := List.length_pos_iff.mpr filled
  rw [List.length_append]
  omega

theorem Spaced.isBlank_head (spaced : Spaced text rest) :
    ∃ first ∈ text.head?, isBlank first = true := by
  obtain ⟨gap, filled, blank, rfl⟩ := spaced
  obtain ⟨first, more, rfl⟩ := List.exists_cons_of_ne_nil filled
  exact ⟨first, rfl, blank first List.mem_cons_self⟩

theorem Spaced.not_endsGap (spaced : Spaced text rest) : ¬ EndsGap text := by
  obtain ⟨first, starts, blank⟩ := spaced.isBlank_head
  intro ends
  exact Bool.noConfusion ((ends first starts).symm.trans blank)

/-- A reader that cannot begin with a blank is sure to get all of them out of its way. -/
theorem blanks?_bind_eq_some_iff {α : Type} {reader : Text → Option α} {result : α}
    (solid : ∀ text, reader text = some result → EndsGap text) :
    (blanks? text).bind reader = some result ↔
      ∃ rest, Spaced text rest ∧ reader rest = some result := by
  rw [Option.bind_eq_some_iff]
  constructor
  · rintro ⟨rest, blanks, read⟩
    exact ⟨rest, (blanks?_eq_some_iff.mp blanks).2, read⟩
  · rintro ⟨rest, spaced, read⟩
    exact ⟨rest, blanks?_eq_some_iff.mpr ⟨solid rest read, spaced⟩, read⟩

theorem blanks?_bind_keyword? (lower : word.head?.any Char.isLower = true) :
    (blanks? text).bind (keyword? word) = some rest ↔ BeginsSpaced word text rest := by
  rw [blanks?_bind_eq_some_iff fun afterBlanks read =>
    (keyword?_eq_some_iff.mp read).endsGap lower]
  simp only [keyword?_eq_some_iff]
  rfl

/-- What begins with two words begins with the same letter. -/
theorem BeginsSpaced.head_eq {other otherRest : Text} (begins : BeginsSpaced word text rest)
    (otherwise : BeginsSpaced other text otherRest) (lower : word.head?.any Char.isLower = true)
    (otherLower : other.head?.any Char.isLower = true) : word.head? = other.head? := by
  obtain ⟨first, spaced, begins⟩ := begins
  obtain ⟨second, otherSpaced, otherwise⟩ := otherwise
  have read := blanks?_eq_some_iff.mpr ⟨begins.endsGap lower, spaced⟩
  have otherRead := blanks?_eq_some_iff.mpr ⟨otherwise.endsGap otherLower, otherSpaced⟩
  obtain rfl := Option.some.inj (read.symm.trans otherRead)
  rw [← begins.head (ne_nil_of_head? lower), ← otherwise.head (ne_nil_of_head? otherLower)]

/-! ## Digits -/

theorem not_isBlank_of_isDigit {character : Char} (digit : isDigit character = true) :
    isBlank character = false :=
  not_isBlank_of_each isDigit digit (by decide +kernel)

/-- Digits do not go on with blanks. -/
theorem Spaced.endsDigits (spaced : Spaced text rest) :
    ∀ character ∈ text.head?, isDigit character = false := by
  obtain ⟨first, starts, blank⟩ := spaced.isBlank_head
  intro character same
  obtain rfl := Option.mem_unique starts same
  by_contra digit
  have solid := not_isBlank_of_isDigit (Bool.eq_true_of_not_eq_false digit)
  exact Bool.noConfusion (solid.symm.trans blank)

theorem numeral_eq_ofDigits (digits : Text) :
    numeral digits = Nat.ofDigits 10 (digits.map digitValue).reverse := by
  rw [Nat.ofDigits_eq_foldr, List.foldr_reverse, List.foldl_map]
  unfold numeral
  congr 1
  funext value digit
  exact Nat.add_comm _ _

/-! ## The end of a line -/

theorem toEnd?_eq_some_iff :
    toEnd? text = some body ↔ '\n' ∉ body ∧ (text = body ∨ text = body ++ ['\n']) := by
  constructor
  · intro read
    obtain rfl := eq_of_toEnd? read
    have unbroken : '\n' ∉ upToLineFeed text := fun member => by
      simpa using List.mem_takeWhile_imp member
    have whole : upToLineFeed text ++ text.dropWhile (· != '\n') = text :=
      List.takeWhile_append_dropWhile
    apply And.intro unbroken
    unfold toEnd? at read
    split at read
    · next none =>
        rw [none, List.append_nil] at whole
        exact .inl whole.symm
    · next last =>
        rw [last] at whole
        exact .inr whole.symm
    · cases read
  · rintro ⟨unbroken, whole⟩
    have plain : ∀ character ∈ body, (character != '\n') = true := fun character member =>
      bne_iff_ne.mpr fun same => unbroken (same ▸ member)
    have read (ending : Text) (last : ending = [] ∨ ending = ['\n']) :
        toEnd? (body ++ ending) = some body := by
      have stops : ∀ character ∈ ending.head?, (character != '\n') = false := by
        rcases last with rfl | rfl
        · simp
        · simp
      obtain ⟨taken, dropped⟩ := splitWhile_append plain stops
      unfold toEnd? upToLineFeed
      rw [dropped, taken]
      rcases last with rfl | rfl
      · rfl
      · rfl
    rcases whole with rfl | rfl
    · simpa using read [] (.inl rfl)
    · exact read ['\n'] (.inr rfl)

theorem isLineOf_iff : IsLineOf body text ↔ body ≠ [] ∧ toEnd? text = some body := by
  rw [toEnd?_eq_some_iff]
  exact ⟨fun line => ⟨line.filled, line.unbroken, line.whole⟩,
    fun ⟨filled, unbroken, whole⟩ => ⟨filled, unbroken, whole⟩⟩

end DiagramSketch.Text
