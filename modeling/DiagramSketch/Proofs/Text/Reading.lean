import DiagramSketch.Proofs.Text.Scanning

/-!
# What readers take

A reader takes what it is made for, whatever follows that does not go on with it, and nothing else:
names, the gaps between them, texts that are enclosed, and the signs of a list.
-/

namespace DiagramSketch.Text

/-- A name: one or more word characters. -/
structure IsName (name : Text) : Prop where
  filled : name ≠ []
  solid : ∀ character ∈ name, isWord character = true

/-- What may follow a name does not go on with it. -/
def EndsName (rest : Text) : Prop :=
  ∀ character ∈ rest.head?, isWord character = false

/-- A text that consists of blanks, or of nothing. -/
def IsGap (gap : Text) : Prop :=
  ∀ character ∈ gap, isBlank character = true

/-- What may follow a gap does not go on with it. -/
def EndsGap (rest : Text) : Prop :=
  ∀ character ∈ rest.head?, isBlank character = false

variable {text rest name gap : Text}

theorem endsName_nil : EndsName [] := by
  intro character none
  cases none

theorem endsName_cons {first : Char} : EndsName (first :: rest) ↔ isWord first = false := by
  simp [EndsName]

theorem endsGap_cons {first : Char} : EndsGap (first :: rest) ↔ isBlank first = false := by
  simp [EndsGap]

/-! ## Classes of characters -/

/-- The code points of the blanks. -/
def blankCodes : List Nat :=
  [0x09, 0x0A, 0x0B, 0x0C, 0x0D, 0x1C, 0x1D, 0x1E, 0x1F, 0x20, 0x85, 0xA0, 0x1680, 0x2000, 0x2001,
   0x2002, 0x2003, 0x2004, 0x2005, 0x2006, 0x2007, 0x2008, 0x2009, 0x200A, 0x2028, 0x2029, 0x202F,
   0x205F, 0x3000]

theorem isBlank_iff {character : Char} :
    isBlank character = true ↔ character.toNat ∈ blankCodes := by
  simp only [isBlank, blankCodes, Bool.or_eq_true, Bool.and_eq_true, decide_eq_true_eq,
    beq_iff_eq, List.mem_cons, List.not_mem_nil, or_false]
  omega

/-- A character is not blank if it belongs to a class that no blank belongs to. -/
theorem not_isBlank_of_each (holds : Char → Bool) {character : Char} (own : holds character = true)
    (each : ∀ code ∈ blankCodes, holds (Char.ofNat code) = false) :
    isBlank character = false := by
  by_contra blank
  have other := each _ (isBlank_iff.mp (Bool.eq_true_of_not_eq_false blank))
  rw [Char.ofNat_toNat] at other
  exact Bool.noConfusion (own.symm.trans other)

theorem not_isBlank_of_isWord {character : Char} (word : isWord character = true) :
    isBlank character = false :=
  not_isBlank_of_each isWord word (by decide +kernel)

theorem not_isWord_of_isBlank {character : Char} (blank : isBlank character = true) :
    isWord character = false := by
  by_contra word
  have other := not_isBlank_of_isWord (Bool.eq_true_of_not_eq_false word)
  exact Bool.noConfusion (blank.symm.trans other)

/-- The signs that lines are written with.  None of them is in a name, and none is blank. -/
def signs : List Char :=
  ['-', '<', '>', '|', ':', '"', '[', ']', '(', ')', '\x7b', '\x7d']

theorem not_isWord_sign {sign : Char} (listed : sign ∈ signs) : isWord sign = false := by
  have each : signs.all (fun sign => !isWord sign) = true := by decide +kernel
  simpa using List.all_eq_true.mp each sign listed

theorem not_isBlank_sign {sign : Char} (listed : sign ∈ signs) : isBlank sign = false := by
  have each : signs.all (fun sign => !isBlank sign) = true := by decide +kernel
  simpa using List.all_eq_true.mp each sign listed

theorem endsName_sign {sign : Char} (listed : sign ∈ signs) (rest : Text) :
    EndsName (sign :: rest) :=
  endsName_cons.mpr (not_isWord_sign listed)

theorem endsGap_sign {sign : Char} (listed : sign ∈ signs) (rest : Text) :
    EndsGap (sign :: rest) :=
  endsGap_cons.mpr (not_isBlank_sign listed)

theorem IsGap.sign_not_mem {sign : Char} (blank : IsGap gap) (listed : sign ∈ signs) :
    sign ∉ gap := by
  intro member
  exact Bool.noConfusion ((blank sign member).symm.trans (not_isBlank_sign listed))

/-- A text that is made of signs. -/
structure IsSigned (text : Text) : Prop where
  filled : text ≠ []
  signs : ∀ character ∈ text, character ∈ signs

theorem isSigned_of_mem {tokens : List Text} {token : Text}
    (each : tokens.all (fun token => !token.isEmpty && token.all signs.contains) = true)
    (listed : token ∈ tokens) : IsSigned token := by
  have made := List.all_eq_true.mp each token listed
  simp only [Bool.and_eq_true, Bool.not_eq_true', List.isEmpty_eq_false_iff, List.all_eq_true,
    List.contains_iff_mem] at made
  exact ⟨made.1, made.2⟩

theorem IsSigned.endsName_append (signed : IsSigned text) (rest : Text) :
    EndsName (text ++ rest) := by
  obtain ⟨sign, others, rfl⟩ := List.exists_cons_of_ne_nil signed.filled
  exact endsName_sign (signed.signs sign List.mem_cons_self) (others ++ rest)

theorem IsSigned.endsGap_append (signed : IsSigned text) (rest : Text) :
    EndsGap (text ++ rest) := by
  obtain ⟨sign, others, rfl⟩ := List.exists_cons_of_ne_nil signed.filled
  exact endsGap_sign (signed.signs sign List.mem_cons_self) (others ++ rest)

theorem IsSigned.not_isBlank (signed : IsSigned text) :
    ∀ character ∈ text, isBlank character = false :=
  fun character member => not_isBlank_sign (signed.signs character member)

theorem isWord_of_isLower {character : Char} (lower : character.isLower = true) :
    isWord character = true := by
  have each : ∀ offset < 26, wordTable.contains (97 + offset) = true := by decide +kernel
  simp only [Char.isLower, ge_iff_le, Bool.and_eq_true, decide_eq_true_eq,
    UInt32.le_iff_toNat_le] at lower
  have low : 97 ≤ character.toNat := lower.1
  have high : character.toNat ≤ 122 := lower.2
  have place := each (character.toNat - 97) (by omega)
  rwa [Nat.add_sub_cancel' low] at place

/-- A word in lower case is a name. -/
theorem isName_of_isLower (filled : name ≠ []) (lower : name.all Char.isLower = true) :
    IsName name :=
  ⟨filled, fun character member => isWord_of_isLower (List.all_eq_true.mp lower character member)⟩

theorem IsName.endsGap_append (named : IsName name) (rest : Text) : EndsGap (name ++ rest) := by
  obtain ⟨first, more, rfl⟩ := List.exists_cons_of_ne_nil named.filled
  exact endsGap_cons.mpr (not_isBlank_of_isWord (named.solid first List.mem_cons_self))

theorem IsName.head?_append_ne (named : IsName name) {sign : Char} (other : isWord sign = false)
    (rest : Text) : (name ++ rest).head? ≠ some sign := by
  obtain ⟨first, more, rfl⟩ := List.exists_cons_of_ne_nil named.filled
  intro starts
  cases starts
  have word := named.solid sign List.mem_cons_self
  exact Bool.noConfusion (word.symm.trans other)

/-- Something that begins with a gap does not go on with a name. -/
theorem IsGap.endsName_append (blank : IsGap gap) (ends : EndsName rest) :
    EndsName (gap ++ rest) := by
  cases gap with
  | nil => exact ends
  | cons first gap =>
      exact endsName_cons.mpr (not_isWord_of_isBlank (blank first List.mem_cons_self))

/-! ## Names and gaps -/

theorem word?_eq_some_iff :
    word? text = some (name, rest) ↔ IsName name ∧ EndsName rest ∧ text = name ++ rest := by
  constructor
  · intro read
    obtain ⟨filled, whole⟩ := word?_eq_some read
    unfold word? at read
    split at read
    · cases read
    · cases read
      exact ⟨⟨filled, fun character member => List.mem_takeWhile_imp member⟩,
        head?_dropWhile isWord text, whole⟩
  · rintro ⟨named, ends, rfl⟩
    obtain ⟨taken, dropped⟩ := splitWhile_append named.solid ends
    unfold word?
    split
    · next none => exact absurd (taken.symm.trans none) named.filled
    · rw [taken, dropped]

theorem word?_append (named : IsName name) (ends : EndsName rest) :
    word? (name ++ rest) = some (name, rest) :=
  word?_eq_some_iff.mpr ⟨named, ends, rfl⟩

theorem word?_eq_self (named : IsName name) : word? name = some (name, []) := by
  have whole := word?_append named endsName_nil
  rwa [List.append_nil] at whole

/-- There is no name at the start of what does not go on with one. -/
theorem word?_eq_none (ends : EndsName text) : word? text = none := by
  rw [word?, (dropWhile_eq_of_head? ends).2]

theorem dropBlanks_eq_iff :
    dropBlanks text = rest ↔ EndsGap rest ∧ ∃ gap, IsGap gap ∧ text = gap ++ rest := by
  constructor
  · rintro rfl
    refine ⟨head?_dropWhile isBlank text, text.takeWhile isBlank, ?_, ?_⟩
    · exact fun character member => List.mem_takeWhile_imp member
    · exact List.takeWhile_append_dropWhile.symm
  · rintro ⟨ends, gap, blank, rfl⟩
    exact (splitWhile_append blank ends).2

theorem exists_gap (text : Text) : ∃ gap, IsGap gap ∧ text = gap ++ dropBlanks text :=
  (dropBlanks_eq_iff.mp rfl).2

theorem dropBlanks_append (blank : IsGap gap) (ends : EndsGap rest) :
    dropBlanks (gap ++ rest) = rest :=
  dropBlanks_eq_iff.mpr ⟨ends, gap, blank, rfl⟩

theorem blanks?_eq_some_iff : blanks? text = some rest ↔
    EndsGap rest ∧ ∃ gap, gap ≠ [] ∧ IsGap gap ∧ text = gap ++ rest := by
  constructor
  · intro read
    cases text with
    | nil => cases read
    | cons first text =>
        simp only [blanks?] at read
        split at read
        · next blank =>
            obtain ⟨ends, gap, blanks, rfl⟩ := dropBlanks_eq_iff.mp (Option.some.inj read)
            refine ⟨ends, first :: gap, List.cons_ne_nil _ _, ?_, rfl⟩
            exact List.forall_mem_cons.mpr ⟨blank, blanks⟩
        · cases read
  · rintro ⟨ends, gap, filled, blank, rfl⟩
    obtain ⟨first, more, rfl⟩ := List.exists_cons_of_ne_nil filled
    obtain ⟨own, others⟩ := List.forall_mem_cons.mp blank
    rw [List.cons_append, blanks?, if_pos own, dropBlanks_append others ends]

/-- A name behind a keyword and a gap is read where it is written, as far as it goes. -/
theorem named?_eq_some_iff {keyword : Text} :
    (do
      let (found, _) ← word? (← blanks? (← literal? keyword text))
      return found) = some name ↔
      ∃ gap rest, gap ≠ [] ∧ IsGap gap ∧ IsName name ∧ EndsName rest ∧
        text = keyword ++ (gap ++ (name ++ rest)) := by
  simp only [Option.bind_eq_bind, Option.bind_eq_some_iff, Option.pure_def, Option.some.injEq]
  constructor
  · rintro ⟨afterKeyword, first, afterGap, blanks, ⟨found, rest⟩, word, rfl⟩
    obtain ⟨-, gap, filled, blank, rfl⟩ := blanks?_eq_some_iff.mp blanks
    obtain ⟨named, ends, rfl⟩ := word?_eq_some_iff.mp word
    exact ⟨gap, rest, filled, blank, named, ends, literal?_eq_some_iff.mp first⟩
  · rintro ⟨gap, rest, filled, blank, named, ends, rfl⟩
    refine ⟨gap ++ (name ++ rest), literal?_append _ _, name ++ rest, ?_, (name, rest), ?_, rfl⟩
    · exact blanks?_eq_some_iff.mpr ⟨named.endsGap_append rest, gap, filled, blank, rfl⟩
    · exact word?_append named ends

theorem isGap_space : IsGap [' '] :=
  List.forall_mem_singleton.mpr rfl

theorem blanks?_space (ends : EndsGap rest) : blanks? (' ' :: rest) = some rest :=
  blanks?_eq_some_iff.mpr ⟨ends, [' '], List.cons_ne_nil _ _, isGap_space, rfl⟩

theorem dropBlanks_space (ends : EndsGap rest) : dropBlanks (' ' :: rest) = rest :=
  dropBlanks_append isGap_space ends

/-- A keyword with blanks after it is the whole name at the start of a text. -/
theorem eq_of_literal?_of_blanks? {keyword left after : Text} (letters : IsName keyword)
    (named : IsName name) (ends : EndsName rest)
    (first : literal? keyword (name ++ rest) = some left) (blanks : blanks? left = some after) :
    name = keyword ∧ left = rest := by
  obtain ⟨-, gap, filled, blank, rfl⟩ := blanks?_eq_some_iff.mp blanks
  have endsKeyword : EndsName (gap ++ after) := by
    obtain ⟨start, more, rfl⟩ := List.exists_cons_of_ne_nil filled
    exact endsName_cons.mpr (not_isWord_of_isBlank (blank start List.mem_cons_self))
  have same := literal?_eq_some_iff.mp first
  have taken := splitWhile_append named.solid ends
  rw [same] at taken
  obtain ⟨takenToo, droppedToo⟩ := splitWhile_append letters.solid endsKeyword
  exact ⟨taken.1.symm.trans takenToo, droppedToo.symm.trans taken.2⟩

/-- Where a name is written with a sign behind it, the sign comes next even if the name is a
keyword. -/
theorem eq_append_of_literal?_of_blanks? {keyword token left after : Text}
    (letters : IsName keyword) (named : IsName name) (signed : IsSigned token)
    (first : literal? keyword (name ++ ' ' :: (token ++ rest)) = some left)
    (blanks : blanks? left = some after) : after = token ++ rest := by
  have ends : EndsName (' ' :: (token ++ rest)) :=
    isGap_space.endsName_append (signed.endsName_append rest)
  obtain ⟨-, rfl⟩ := eq_of_literal?_of_blanks? letters named ends first blanks
  rw [blanks?_space (signed.endsGap_append rest)] at blanks
  exact (Option.some.inj blanks).symm

/-! ## Enclosed texts -/

theorem enclosed?_eq_some_iff {opening closing : Char} {body : Text} :
    enclosed? opening closing text = some (body, rest) ↔
      body ≠ [] ∧ closing ∉ body ∧ text = opening :: (body ++ closing :: rest) := by
  refine ⟨enclosed?_eq_some, ?_⟩
  rintro ⟨filled, plain, rfl⟩
  have all : ∀ character ∈ body, (character != closing) = true := fun character member =>
    bne_iff_ne.mpr fun same => plain (same ▸ member)
  have stops : ∀ character ∈ (closing :: rest).head?, (character != closing) = false := by simp
  obtain ⟨taken, dropped⟩ := splitWhile_append all stops
  obtain ⟨first, more, rfl⟩ := List.exists_cons_of_ne_nil filled
  rw [enclosed?, if_pos rfl, taken, dropped]

/-! ## Signs -/

/-- A token is found in the same way before a character that it does not have. -/
theorem literal?_append_cons {token : Text} {stop : Char} (other : stop ∉ token)
    (text rest : Text) : literal? token (text ++ stop :: rest) =
      (literal? token text).map (· ++ stop :: rest) := by
  induction token generalizing text with
  | nil => rfl
  | cons expected token induction =>
      obtain ⟨different, other⟩ := not_or.mp (mt List.mem_cons.mpr other)
      cases text with
      | nil => exact if_neg (Ne.symm different)
      | cons found text =>
          rw [List.cons_append, literal?, literal?]
          split
          · exact induction other text
          · rfl

theorem anyOf?_append_cons {tokens : List Text} {stop : Char}
    (other : ∀ token ∈ tokens, stop ∉ token) (text rest : Text) :
    anyOf? tokens (text ++ stop :: rest) =
      (anyOf? tokens text).map fun (token, left) => (token, left ++ stop :: rest) := by
  induction tokens with
  | nil => rfl
  | cons token tokens induction =>
      obtain ⟨own, others⟩ := List.forall_mem_cons.mp other
      rw [anyOf?, anyOf?, literal?_append_cons own]
      cases literal? token text with
      | some left => rfl
      | none => exact induction others

/-- Where no sign is taken for another one, each is found before a blank. -/
theorem anyOf?_append_space {tokens : List Text} {token : Text}
    (signed : ∀ token ∈ tokens, IsSigned token)
    (own : anyOf? tokens token = some (token, [])) (rest : Text) :
    anyOf? tokens (token ++ ' ' :: rest) = some (token, ' ' :: rest) := by
  have solid : ∀ token ∈ tokens, ' ' ∉ token := by
    intro token listed member
    cases (signed token listed).not_isBlank ' ' member
  rw [anyOf?_append_cons solid, own]
  rfl

end DiagramSketch.Text
