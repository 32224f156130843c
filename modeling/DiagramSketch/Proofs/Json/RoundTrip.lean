import DiagramSketch.Proofs.Json.Reader
import DiagramSketch.Text.JsonString
import Mathlib.Tactic.Common

/-!
# Reading back what is written

Whatever characters a text has, its spelling as a JSON string is read back as the text, and it has
nothing but printable ASCII characters.  The same holds of an object with such members.
-/

namespace DiagramSketch.Json

open DiagramSketch (Text)

/-! ## Numerals -/

theorem digitValue?_hexDigit {value : Nat} (digit : value < 16) :
    digitValue? (Text.hexDigit value) = some value := by
  have all : ∀ value < 16, digitValue? (Text.hexDigit value) = some value := by decide
  exact all value digit

/-- The digits of a value are read back, as far as there is room for them. -/
theorem numeralValue?_hexadecimal (width value : Nat) :
    numeralValue? (Text.hexadecimal width value) = some (value % 16 ^ width) := by
  induction width generalizing value with
  | zero => simp [Text.hexadecimal, numeralValue?, Nat.mod_one]
  | succ width induction =>
      have last := digitValue?_hexDigit (Nat.mod_lt value (by decide : 0 < 16))
      have split : 16 * (value / 16 % 16 ^ width) + value % 16 = value % 16 ^ (width + 1) := by
        rw [Nat.pow_succ', Nat.mod_mul]
        exact Nat.add_comm _ _
      simp only [numeralValue?] at induction ⊢
      rw [Text.hexadecimal, List.foldlM_append, induction]
      simp [last, split]

/-! ## Characters -/

/-- The code units of a character are read back as the character. -/
theorem characters?_codeUnits (character : Char) (pieces : List Piece) :
    characters? ((Text.codeUnits character).map .unit ++ pieces) =
      (characters? pieces).map (character :: ·) := by
  have valid : character.toNat < 0xD800 ∨ 0xDFFF < character.toNat ∧ character.toNat < 0x110000 :=
    character.valid
  unfold Text.codeUnits
  dsimp only
  split
  · have single : character.toNat < 0xD800 ∨ 0xDFFF < character.toNat := valid.imp_right And.left
    rw [List.map_singleton, List.singleton_append, characters?.eq_def]
    dsimp only
    rw [if_pos single, Char.ofNat_toNat]
  · next large =>
      have pair : ¬ (0xD800 + (character.toNat - 0x10000) / 0x400 < 0xD800 ∨
          0xDFFF < 0xD800 + (character.toNat - 0x10000) / 0x400) := by omega
      have halves : 0xD800 + (character.toNat - 0x10000) / 0x400 < 0xDC00 ∧
          0xDC00 ≤ 0xDC00 + (character.toNat - 0x10000) % 0x400 ∧
          0xDC00 + (character.toNat - 0x10000) % 0x400 ≤ 0xDFFF := by omega
      have code : 0x10000 + (0xD800 + (character.toNat - 0x10000) / 0x400 - 0xD800) * 0x400 +
          (0xDC00 + (character.toNat - 0x10000) % 0x400 - 0xDC00) = character.toNat := by omega
      simp only [List.map_cons, List.map_nil, List.cons_append, List.nil_append, characters?]
      rw [if_neg pair, if_pos halves, code, Char.ofNat_toNat]

/-- What is read first, before all the rest. -/
def withFirst (first : List Piece) : List Piece × Text → List Piece × Text :=
  fun (pieces, after) => (first ++ pieces, after)

theorem pieces?_escape {letter character : Char} (known : escapes.lookup letter = some character)
    (rest : Text) : pieces? ('\\' :: letter :: rest) =
      (pieces? rest).map (withFirst [.character character]) := by
  rw [pieces?, known]
  · cases pieces? rest <;> rfl
  · rintro _ _ _ _ _ rfl
    cases known

theorem pieces?_plain {character : Char} (noQuote : character ≠ '"')
    (noEscape : character ≠ '\\') (noControl : ' ' ≤ character) (rest : Text) :
    pieces? (character :: rest) = (pieces? rest).map (withFirst [.character character]) := by
  rw [pieces?, if_neg (not_or.mpr ⟨noEscape, Char.not_lt.mpr noControl⟩)]
  · cases pieces? rest <;> rfl
  · exact noQuote
  · exact fun _ _ _ _ _ same => absurd same noEscape
  · exact fun _ _ same => absurd same noEscape

theorem pieces?_unit {unit : Nat} (small : unit < 0x10000) (rest : Text) :
    pieces? (('\\' :: 'u' :: Text.hexadecimal 4 unit) ++ rest) =
      (pieces? rest).map (withFirst [.unit unit]) := by
  have value := numeralValue?_hexadecimal 4 unit
  rw [Nat.mod_eq_of_lt (by exact small)] at value
  obtain ⟨first, second, third, fourth, same⟩ : ∃ first second third fourth,
      Text.hexadecimal 4 unit = [first, second, third, fourth] := ⟨_, _, _, _, rfl⟩
  rw [same] at value ⊢
  simp only [List.cons_append, List.nil_append, pieces?, value]
  cases pieces? rest <;> rfl

theorem pieces?_units {units : List Nat} (small : ∀ unit ∈ units, unit < 0x10000) (rest : Text) :
    pieces? ((units.flatMap fun unit => '\\' :: 'u' :: Text.hexadecimal 4 unit) ++ rest) =
      (pieces? rest).map (withFirst (units.map .unit)) := by
  induction units with
  | nil =>
      rw [List.flatMap_nil, List.nil_append]
      cases pieces? rest <;> rfl
  | cons unit units induction =>
      obtain ⟨own, others⟩ := List.forall_mem_cons.mp small
      rw [List.flatMap_cons, List.append_assoc, pieces?_unit own, induction others]
      cases pieces? rest <;> rfl

theorem codeUnits_lt {character : Char} {unit : Nat} (member : unit ∈ Text.codeUnits character) :
    unit < 0x10000 := by
  have valid : character.toNat < 0xD800 ∨ 0xDFFF < character.toNat ∧ character.toNat < 0x110000 :=
    character.valid
  unfold Text.codeUnits at member
  dsimp only at member
  split at member
  · rw [List.mem_singleton] at member
    omega
  · simp only [List.mem_cons, List.not_mem_nil, or_false] at member
    omega

/-- The pieces stand for a character, whatever follows them. -/
def StandFor (character : Char) (first : List Piece) : Prop :=
  ∀ pieces, characters? (first ++ pieces) = (characters? pieces).map (character :: ·)

/-- The spelling of a character is read as pieces that stand for it. -/
theorem exists_pieces?_jsonChar (character : Char) :
    ∃ first, StandFor character first ∧ ∀ rest,
      pieces? (Text.jsonChar character ++ rest) = (pieces? rest).map (withFirst first) := by
  have plain : StandFor character [.character character] := fun _ => rfl
  have named {letter own : Char} (known : escapes.lookup letter = some own)
      (same : (character == own) = true) : ∃ first, StandFor character first ∧ ∀ rest,
        pieces? (['\\', letter] ++ rest) = (pieces? rest).map (withFirst first) := by
    rw [← eq_of_beq same] at known
    exact ⟨_, plain, pieces?_escape known⟩
  unfold Text.jsonChar
  split
  · next special =>
      rcases (Bool.or_eq_true _ _).mp special with same | same
      · rw [eq_of_beq same] at named ⊢
        exact named rfl (beq_self_eq_true _)
      · rw [eq_of_beq same] at named ⊢
        exact named rfl (beq_self_eq_true _)
  · next ordinary =>
      obtain ⟨noQuote, noEscape⟩ : character ≠ '"' ∧ character ≠ '\\' := by simpa using ordinary
      split
      · next same => exact named rfl same
      split
      · next same => exact named rfl same
      split
      · next same => exact named rfl same
      split
      · next same => exact named rfl same
      split
      · next same => exact named rfl same
      split
      · next printable => exact ⟨_, plain, pieces?_plain noQuote noEscape printable.1⟩
      · exact ⟨_, characters?_codeUnits character, pieces?_units fun _ => codeUnits_lt⟩

/-! ## Strings -/

theorem exists_pieces?_text (text rest : Text) :
    ∃ pieces, characters? pieces = some text ∧
      pieces? (text.flatMap Text.jsonChar ++ '"' :: rest) = some (pieces, rest) := by
  induction text with
  | nil => exact ⟨[], rfl, rfl⟩
  | cons character text induction =>
      obtain ⟨first, stands, own⟩ := exists_pieces?_jsonChar character
      obtain ⟨pieces, resolved, later⟩ := induction
      refine ⟨first ++ pieces, ?_, ?_⟩
      · rw [stands, resolved]
        rfl
      · rw [List.flatMap_cons, List.append_assoc, own, later]
        rfl

/-- A text is read back from its spelling as a string. -/
theorem string?_jsonString (text rest : Text) :
    string? (Text.jsonString text ++ rest) = some (text, rest) := by
  obtain ⟨pieces, resolved, read⟩ := exists_pieces?_text text rest
  have whole : Text.jsonString text ++ rest =
      '"' :: (text.flatMap Text.jsonChar ++ '"' :: rest) := by
    simp [Text.jsonString]
  rw [whole, string?, read]
  simp [resolved]

/-! ## Objects -/

/-- The spelling of what a member is. -/
def Scalar.written : Scalar → Text
  | null => "null"
  | truth true => "true"
  | truth false => "false"
  | text content => Text.jsonString content

/-- The spelling of a member. -/
def writtenMember (entry : Text × Scalar) : Text :=
  Text.jsonString entry.1 ++ ": " ++ entry.2.written

/-- The spelling of an object. -/
def writtenObject (members : List (Text × Scalar)) : Text :=
  '{' :: List.intercalate ", " (members.map writtenMember) ++ ['}']

theorem token?_string (text rest : Text) :
    token? (Text.jsonString text ++ rest) = some (.scalar (.text text), rest) := by
  have read : scalar? (Text.jsonString text ++ rest) = some (.text text, rest) := by
    rw [scalar?, string?_jsonString]
  have falls : token? (Text.jsonString text ++ rest) =
      (scalar? (Text.jsonString text ++ rest)).map fun read => (.scalar read.1, read.2) := rfl
  rw [falls, read]
  rfl

theorem token?_written (value : Scalar) (rest : Text) :
    token? (value.written ++ rest) = some (.scalar value, rest) := by
  match value with
  | .null => rfl
  | .truth true => rfl
  | .truth false => rfl
  | .text content => exact token?_string content rest

theorem tokens?_of_token? {text rest : Text} {token : Token}
    (read : token? (text.dropWhile isSpace) = some (token, rest)) :
    tokens? text = (tokens? rest).map (token :: ·) := by
  have some : (text.dropWhile isSpace).isEmpty = false := by
    cases found : text.dropWhile isSpace with
    | nil => rw [found] at read; cases read
    | cons => rfl
  rw [tokens?, some, if_neg Bool.false_ne_true]
  split
  · next none =>
      rw [read] at none
      cases none
  · next same =>
      rw [read] at same
      cases same
      rfl

theorem tokens?_space (text : Text) : tokens? (' ' :: text) = tokens? text := by
  rw [tokens?, tokens?.eq_def text]
  rfl

/-- A member is read as its name, a colon and its value. -/
theorem tokens?_writtenMember (entry : Text × Scalar) (rest : Text) :
    tokens? (writtenMember entry ++ rest) = (tokens? rest).map fun tokens =>
      .scalar (.text entry.1) :: .colon :: .scalar entry.2 :: tokens := by
  obtain ⟨name, value⟩ := entry
  have whole : writtenMember (name, value) ++ rest =
      Text.jsonString name ++ ':' :: ' ' :: (value.written ++ rest) := by
    simp [writtenMember]
  have solid : (value.written ++ rest).dropWhile isSpace = value.written ++ rest := by
    match value with
    | .null | .truth true | .truth false | .text content => rfl
  have atValue : tokens? (value.written ++ rest) = (tokens? rest).map (.scalar value :: ·) :=
    tokens?_of_token? ((congrArg token? solid).trans (token?_written value rest))
  rw [whole, tokens?_of_token? (by exact token?_string name _), tokens?_of_token? (by exact rfl),
    tokens?_space, atValue, Option.map_map, Option.map_map]
  rfl

/-- Members in a row are read back, up to the end of their object. -/
theorem exists_tokens?_members {members : List (Text × Scalar)} (some : members ≠ []) {rest : Text}
    (blank : tokens? rest = .some []) :
    ∃ tokens, tokens? (List.intercalate ", " (members.map writtenMember) ++ '}' :: rest) =
      .some tokens ∧ members? tokens = .some members := by
  have ending : tokens? ('}' :: rest) = .some [.closing] := by
    rw [tokens?_of_token? (by exact rfl), blank]
    rfl
  induction members with
  | nil => exact absurd rfl some
  | cons entry members induction =>
      cases members with
      | nil =>
          refine ⟨[.scalar (.text entry.1), .colon, .scalar entry.2, .closing], ?_, rfl⟩
          rw [List.map_singleton, List.intercalate_singleton, tokens?_writtenMember, ending]
          rfl
      | cons next members =>
          obtain ⟨tokens, read, together⟩ := induction (List.cons_ne_nil _ _)
          refine ⟨.scalar (.text entry.1) :: .colon :: .scalar entry.2 :: .comma :: tokens, ?_, ?_⟩
          · have whole : List.intercalate ", " ((entry :: next :: members).map writtenMember) ++
                '}' :: rest = writtenMember entry ++ ',' :: ' ' ::
                  (List.intercalate ", " ((next :: members).map writtenMember) ++ '}' :: rest) := by
              simp [List.intercalate_cons_cons]
            rw [whole, tokens?_writtenMember, tokens?_of_token? (by exact rfl), tokens?_space, read]
            rfl
          · rw [members?, together]
            rfl

/-- An object whose members have different names is read back from its spelling, whatever white
space follows. -/
theorem object?_writtenObject {members : List (Text × Scalar)}
    (distinct : (members.map Prod.fst).Nodup) {rest : Text} (blank : tokens? rest = some []) :
    object? (writtenObject members ++ rest) = some members := by
  have whole : writtenObject members ++ rest =
      '{' :: (List.intercalate ", " (members.map writtenMember) ++ '}' :: rest) := by
    simp [writtenObject]
  rw [whole, object?, tokens?_of_token? (by exact rfl)]
  cases members with
  | nil =>
      rw [List.map_nil, List.intercalate_nil, List.nil_append, tokens?_of_token? (by exact rfl),
        blank]
      rfl
  | cons entry members =>
      obtain ⟨tokens, read, together⟩ :=
        exists_tokens?_members (List.cons_ne_nil entry members) blank
      have more : tokens ≠ [.closing] := by
        rintro rfl
        cases together
      rw [read]
      simpa [together] using distinct

/-! ## Printable ASCII characters -/

/-- A printable ASCII character. No line ends at one. -/
def IsPrintable (character : Char) : Prop :=
  ' ' ≤ character ∧ character ≤ '~'

instance : DecidablePred IsPrintable :=
  fun character => inferInstanceAs (Decidable (' ' ≤ character ∧ character ≤ '~'))

theorem isPrintable_hexDigit (value : Nat) : IsPrintable (Text.hexDigit (value % 16)) := by
  have all : ∀ digit < 16, IsPrintable (Text.hexDigit digit) := by decide
  exact all (value % 16) (Nat.mod_lt value (by decide))

theorem isPrintable_hexadecimal (width value : Nat) :
    ∀ character ∈ Text.hexadecimal width value, IsPrintable character := by
  induction width generalizing value with
  | zero => exact List.forall_mem_nil _
  | succ width induction =>
      rw [Text.hexadecimal, List.forall_mem_append]
      exact ⟨induction _, List.forall_mem_singleton.mpr (isPrintable_hexDigit value)⟩

theorem isPrintable_jsonChar (character : Char) :
    ∀ spelled ∈ Text.jsonChar character, IsPrintable spelled := by
  have escaped {letter : Char} (own : IsPrintable letter) :
      ∀ spelled ∈ ['\\', letter], IsPrintable spelled :=
    List.forall_mem_cons.mpr ⟨by decide, List.forall_mem_singleton.mpr own⟩
  unfold Text.jsonChar
  split
  · next special =>
      rcases (Bool.or_eq_true _ _).mp special with same | same
      · rw [eq_of_beq same]
        exact escaped (by decide)
      · rw [eq_of_beq same]
        exact escaped (by decide)
  split
  · exact escaped (by decide)
  split
  · exact escaped (by decide)
  split
  · exact escaped (by decide)
  split
  · exact escaped (by decide)
  split
  · exact escaped (by decide)
  split
  · next printable => exact List.forall_mem_singleton.mpr printable
  · intro spelled member
    obtain ⟨unit, -, inside⟩ := List.mem_flatMap.mp member
    rcases List.mem_cons.mp inside with rfl | inside
    · decide
    · rcases List.mem_cons.mp inside with rfl | inside
      · decide
      · exact isPrintable_hexadecimal 4 unit spelled inside

theorem isPrintable_jsonString (text : Text) :
    ∀ character ∈ Text.jsonString text, IsPrintable character := by
  intro character member
  rw [Text.jsonString, List.cons_append, List.mem_cons, List.mem_append, List.mem_singleton,
    List.mem_flatMap] at member
  rcases member with rfl | ⟨source, -, inside⟩ | rfl
  · decide
  · exact isPrintable_jsonChar source character inside
  · decide

theorem isPrintable_writtenMember (entry : Text × Scalar) :
    ∀ character ∈ writtenMember entry, IsPrintable character := by
  obtain ⟨name, value⟩ := entry
  have own : ∀ character ∈ value.written, IsPrintable character := by
    match value with
    | .null | .truth true | .truth false => simp [Scalar.written, IsPrintable]
    | .text content => exact isPrintable_jsonString content
  rw [writtenMember, List.forall_mem_append, List.forall_mem_append]
  exact ⟨⟨isPrintable_jsonString name, by simp [IsPrintable]⟩, own⟩

theorem isPrintable_intercalate {separator : Text}
    (between : ∀ character ∈ separator, IsPrintable character) {texts : List Text}
    (all : ∀ text ∈ texts, ∀ character ∈ text, IsPrintable character) :
    ∀ character ∈ List.intercalate separator texts, IsPrintable character := by
  induction texts with
  | nil => exact List.forall_mem_nil _
  | cons text texts induction =>
      obtain ⟨own, others⟩ := List.forall_mem_cons.mp all
      cases texts with
      | nil => rwa [List.intercalate_singleton]
      | cons next texts =>
          rw [List.intercalate_cons_cons, List.forall_mem_append, List.forall_mem_append]
          exact ⟨⟨own, between⟩, induction others⟩

/-- An object is spelled in printable ASCII characters, so it stands on one line. -/
theorem isPrintable_writtenObject (members : List (Text × Scalar)) :
    ∀ character ∈ writtenObject members, IsPrintable character := by
  have inside : ∀ text ∈ members.map writtenMember, ∀ character ∈ text, IsPrintable character := by
    intro text member
    obtain ⟨entry, -, rfl⟩ := List.mem_map.mp member
    exact isPrintable_writtenMember entry
  rw [writtenObject, List.cons_append, List.forall_mem_cons, List.forall_mem_append,
    List.forall_mem_singleton]
  exact ⟨by decide, isPrintable_intercalate (by simp [IsPrintable]) inside, by decide⟩

end DiagramSketch.Json
