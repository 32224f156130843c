import DiagramSketch.Proofs.Text.Scanning
import DiagramSketch.Proofs.Xml.Reader
import DiagramSketch.Xml.Print

/-!
# Reading back what is written

Every piece of a written document is read back as what it was written for, whatever follows it
that cannot belong to it: references, names, attributes, tags and the text between tags.
-/

namespace DiagramSketch.Xml

/-- A name as the reader takes it. -/
def isName : Text → Bool
  | [] => false
  | first :: rest => isNameStart first && rest.all isNamePart

/-- What may follow a name does not go on with it. -/
def EndsName (rest : Text) : Prop :=
  ∀ character ∈ rest.head?, isNamePart character = false

/-- What may follow a text between tags is the next tag, or nothing. -/
def BeginsTag (rest : Text) : Prop :=
  ∀ character ∈ rest.head?, character = '<'

theorem name?_append {name rest : Text} (named : isName name = true) (ends : EndsName rest) :
    name? (name ++ rest) = some (name, rest) := by
  cases name with
  | nil => cases named
  | cons first name =>
      simp only [isName, Bool.and_eq_true, List.all_eq_true] at named
      obtain ⟨taken, dropped⟩ := splitWhile_append named.2 ends
      rw [List.cons_append, name?, if_pos named.1, taken, dropped]

theorem isSpace_of_isNameStart {character : Char} (starts : isNameStart character = true) :
    isSpace character = false := by
  unfold isSpace
  simp only [Bool.or_eq_false_iff, beq_eq_false_iff_ne]
  refine ⟨⟨⟨?_, ?_⟩, ?_⟩, ?_⟩
  all_goals
    rintro rfl
    revert starts
    decide

/-! ## References -/

/-- A character that begins no reference stands for itself. -/
theorem resolved?_cons {character : Char} (plain : character ≠ '&') (rest : Text) :
    resolved? (character :: rest) = (resolved? rest).map (character :: ·) := by
  rw [resolved?]
  · rw [if_neg plain]
  all_goals
    intro following equal
    cases equal
    exact fun _ => plain rfl

theorem resolved?_escapedChar (character : Char) (rest : Text) :
    resolved? (escapedChar character ++ rest) = (resolved? rest).map (character :: ·) := by
  unfold escapedChar
  split
  · next equal =>
      obtain rfl : character = '&' := by simpa using equal
      simp [resolved?]
  · next noAmpersand =>
      split
      · next equal =>
          obtain rfl : character = '<' := by simpa using equal
          simp [resolved?]
      · split
        · next equal =>
            obtain rfl : character = '>' := by simpa using equal
            simp [resolved?]
        · exact resolved?_cons (by simpa using noAmpersand) rest

theorem resolved?_escapedAttributeChar (character : Char) (rest : Text) :
    resolved? (escapedAttributeChar character ++ rest) = (resolved? rest).map (character :: ·) := by
  unfold escapedAttributeChar
  split
  · next equal =>
      obtain rfl : character = '"' := by simpa using equal
      simp [resolved?]
  · split
    · next equal =>
        obtain rfl : character = '\r' := by simpa using equal
        simp [resolved?]
    · split
      · next equal =>
          obtain rfl : character = '\n' := by simpa using equal
          simp [resolved?]
      · split
        · next equal =>
            obtain rfl : character = '\t' := by simpa using equal
            simp [resolved?]
        · exact resolved?_escapedChar character rest

/-- Where every character is written so that it is read back, so is the text. -/
theorem resolved?_flatMap {escape : Char → Text}
    (each : ∀ character rest,
      resolved? (escape character ++ rest) = (resolved? rest).map (character :: ·))
    (text : Text) : resolved? (text.flatMap escape) = some text := by
  induction text with
  | nil => rfl
  | cons character text induction =>
      rw [List.flatMap_cons, each, induction]
      rfl

theorem resolved?_escaped (text : Text) : resolved? (escaped text) = some text :=
  resolved?_flatMap resolved?_escapedChar text

theorem not_mem_escaped {bracket : Char} (isBracket : bracket = '<' ∨ bracket = '>')
    (text : Text) : bracket ∉ escaped text := by
  intro member
  obtain ⟨character, -, inside⟩ := List.mem_flatMap.mp member
  unfold escapedChar at inside
  rcases isBracket with rfl | rfl
  · split at inside
    · exact absurd inside (by decide)
    · split at inside
      · exact absurd inside (by decide)
      · next noBracket =>
          split at inside
          · exact absurd inside (by decide)
          · obtain rfl := List.mem_singleton.mp inside
            exact noBracket rfl
  · split at inside
    · exact absurd inside (by decide)
    · split at inside
      · exact absurd inside (by decide)
      · split at inside
        · exact absurd inside (by decide)
        · next noBracket =>
            obtain rfl := List.mem_singleton.mp inside
            exact noBracket rfl

theorem not_mem_escapedAttribute {forbidden : Char}
    (isForbidden : forbidden = '"' ∨ forbidden = '<') (value : Text) :
    forbidden ∉ value.flatMap escapedAttributeChar := by
  intro member
  obtain ⟨character, -, inside⟩ := List.mem_flatMap.mp member
  unfold escapedAttributeChar at inside
  have inReference : ∀ reference ∈ (["&quot;", "&#13;", "&#10;", "&#09;"] : List String),
      forbidden ∉ reference.toList := by
    rcases isForbidden with rfl | rfl <;> decide
  split at inside
  · exact inReference _ (by simp) inside
  · next noQuote =>
      split at inside
      · exact inReference _ (by simp) inside
      · split at inside
        · exact inReference _ (by simp) inside
        · split at inside
          · exact inReference _ (by simp) inside
          · rcases isForbidden with rfl | rfl
            · unfold escapedChar at inside
              split at inside
              · exact absurd inside (by decide)
              · split at inside
                · exact absurd inside (by decide)
                · split at inside
                  · exact absurd inside (by decide)
                  · obtain rfl := List.mem_singleton.mp inside
                    exact noQuote rfl
            · refine not_mem_escaped (.inl rfl) [character] ?_
              rw [escaped, List.flatMap_singleton]
              exact inside

/-! ## Attributes -/

theorem value?_append (value rest : Text) :
    value? (value.flatMap escapedAttributeChar ++ '"' :: rest) = some (value, rest) := by
  have unquoted : ∀ character ∈ value.flatMap escapedAttributeChar, (character != '"') = true := by
    intro character member
    refine bne_iff_ne.mpr ?_
    rintro rfl
    exact not_mem_escapedAttribute (.inl rfl) value member
  have ends : ∀ character ∈ ('"' :: rest).head?, (character != '"') = false := by simp
  obtain ⟨taken, dropped⟩ := splitWhile_append unquoted ends
  have noTag : ¬ (value.flatMap escapedAttributeChar).contains '<' = true := by
    rw [List.contains_iff_mem]
    exact not_mem_escapedAttribute (.inr rfl) value
  unfold value?
  rw [taken, dropped]
  simp only [if_neg noTag]
  rw [resolved?_flatMap resolved?_escapedAttributeChar]
  rfl

theorem attribute?_append {entry : Attribute} (named : isName entry.1 = true) (rest : Text) :
    attribute? (Attribute.written entry ++ rest) = some (entry, rest) := by
  obtain ⟨name, value⟩ := entry
  have ends : EndsName ('=' :: '"' :: (value.flatMap escapedAttributeChar ++ '"' :: rest)) := by
    intro character member
    obtain rfl : '=' = character := by simpa using member
    rfl
  have begins :
      (name ++ '=' :: '"' :: (value.flatMap escapedAttributeChar ++ '"' :: rest)).dropWhile isSpace =
        name ++ '=' :: '"' :: (value.flatMap escapedAttributeChar ++ '"' :: rest) := by
    cases name with
    | nil => cases named
    | cons first name =>
        simp only [isName, Bool.and_eq_true] at named
        refine (dropWhile_eq_of_head? ?_).1
        intro character member
        obtain rfl : first = character := by simpa using member
        exact isSpace_of_isNameStart named.1
  have written : Attribute.written (name, value) ++ rest =
      ' ' :: (name ++ '=' :: '"' :: (value.flatMap escapedAttributeChar ++ '"' :: rest)) := by
    simp [Attribute.written]
  have sign := Text.literal?_append ['=', '"'] (value.flatMap escapedAttributeChar ++ '"' :: rest)
  rw [written, attribute?, if_pos (show isSpace ' ' = true from rfl), begins,
    name?_append named ends]
  exact Option.bind_eq_some_iff.mpr ⟨_, rfl, Option.bind_eq_some_iff.mpr ⟨_, sign,
    Option.bind_eq_some_iff.mpr ⟨_, value?_append value rest, rfl⟩⟩⟩

/-- Attributes are read back, as long as no further one can be read. -/
theorem leadingAttributes_append {entries : List Attribute} {rest : Text}
    (named : ∀ entry ∈ entries, isName entry.1 = true) (ends : attribute? rest = none) :
    leadingAttributes (entries.flatMap Attribute.written ++ rest) = (entries, rest) := by
  induction entries with
  | nil =>
      rw [List.flatMap_nil, List.nil_append, leadingAttributes]
      split
      · rfl
      · next read =>
          rw [ends] at read
          cases read
  | cons entry entries induction =>
      have first := attribute?_append (named entry List.mem_cons_self)
        (entries.flatMap Attribute.written ++ rest)
      have others := induction fun other member => named other (List.mem_cons_of_mem entry member)
      rw [List.flatMap_cons, List.append_assoc, leadingAttributes]
      split
      · next read =>
          rw [first] at read
          cases read
      · next read =>
          rw [first] at read
          cases read
          rw [others]

/-! ## Tokens -/

/-- The tag and the attributes of an element have names that can be read, and no two attributes
have the same one. -/
structure Element.IsNamed (element : Element) : Prop where
  tag : isName element.tag = true
  attributes : ∀ entry ∈ element.attributes, isName entry.1 = true
  distinct : (element.attributes.map Prod.fst).Nodup

/-- The written form of an element up to the end of its first tag. -/
def Element.head (element : Element) : Text :=
  '<' :: (element.tag ++ element.attributes.flatMap Attribute.written)

/-- What begins with a name begins with no slash. -/
theorem token?_of_isName {name : Text} (named : isName name = true) (rest : Text) :
    token? ('<' :: (name ++ rest)) = opening? (name ++ rest) := by
  cases name with
  | nil => cases named
  | cons first name =>
      simp only [isName, Bool.and_eq_true] at named
      rw [List.cons_append, token?]
      rintro following equal
      cases equal
      exact absurd named.1 (by decide)

/-- An attribute ends a name as a space does. -/
theorem endsName_attributes (entries : List Attribute) {rest : Text} (ends : EndsName rest) :
    EndsName (entries.flatMap Attribute.written ++ rest) := by
  cases entries with
  | nil => exact ends
  | cons entry entries =>
      intro character member
      obtain rfl : ' ' = character := by simpa [Attribute.written] using member
      rfl

theorem opening?_head {element : Element} (named : element.IsNamed) {rest : Text}
    (ends : EndsName rest) (noAttribute : attribute? rest = none) :
    opening? (element.tag ++ (element.attributes.flatMap Attribute.written ++ rest)) =
      match rest.dropWhile isSpace with
      | '>' :: rest => some (.opening element.tag element.attributes, rest)
      | '/' :: '>' :: rest => some (.empty element.tag element.attributes, rest)
      | _ => none := by
  unfold opening?
  rw [name?_append named.tag (endsName_attributes element.attributes ends)]
  have entries := leadingAttributes_append named.attributes noAttribute
  change (if ((leadingAttributes _).1.map Prod.fst).Nodup then _ else none) = _
  rw [entries]
  exact if_pos named.distinct

theorem token?_empty {element : Element} (named : element.IsNamed) (rest : Text) :
    token? (element.head ++ ' ' :: '/' :: '>' :: rest) =
      some (.empty element.tag element.attributes, rest) := by
  rw [Element.head, List.cons_append, List.append_assoc, token?_of_isName named.tag,
    opening?_head named _ rfl]
  · rfl
  · intro character member
    obtain rfl : ' ' = character := by simpa using member
    rfl

theorem token?_opening {element : Element} (named : element.IsNamed) (rest : Text) :
    token? (element.head ++ '>' :: rest) =
      some (.opening element.tag element.attributes, rest) := by
  rw [Element.head, List.cons_append, List.append_assoc, token?_of_isName named.tag,
    opening?_head named _ rfl]
  · rfl
  · intro character member
    obtain rfl : '>' = character := by simpa using member
    rfl

theorem token?_closing {tag : Text} (named : isName tag = true) (rest : Text) :
    token? ('<' :: '/' :: (tag ++ '>' :: rest)) = some (.closing tag, rest) := by
  have ends : EndsName ('>' :: rest) := by
    intro character member
    obtain rfl : '>' = character := by simpa using member
    rfl
  rw [token?, closing?, name?_append named ends]
  rfl

theorem token?_content {text rest : Text} (nonempty : text ≠ []) (begins : BeginsTag rest) :
    token? (escaped text ++ rest) = some (.content text, rest) := by
  have noTag : ∀ character ∈ escaped text, (character != '<') = true := by
    intro character member
    refine bne_iff_ne.mpr ?_
    rintro rfl
    exact not_mem_escaped (.inl rfl) text member
  have ends : ∀ character ∈ rest.head?, (character != '<') = false := by
    intro character member
    rw [begins character member]
    rfl
  obtain ⟨taken, dropped⟩ := splitWhile_append noTag ends
  have noSectionEnd : ¬ Text.occursIn [']', ']', '>'] (escaped text) = true := by
    rw [Text.occursIn_iff]
    intro inside
    exact not_mem_escaped (.inr rfl) text (inside.subset (by simp))
  have asContent : token? (escaped text ++ rest) = content? (escaped text ++ rest) := by
    cases shape : escaped text with
    | nil => exact absurd (resolved?_escaped text) (by simp [shape, resolved?, Ne.symm nonempty])
    | cons first others =>
        have first' : first ≠ '<' := by
          rintro rfl
          exact not_mem_escaped (.inl rfl) text (by simp [shape])
        rw [List.cons_append, token?]
        · rintro following equal
          exact absurd equal first'
        · exact first'
  rw [asContent, content?, taken, dropped, if_neg noSectionEnd, resolved?_escaped]
  rfl

end DiagramSketch.Xml
