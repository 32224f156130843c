import DiagramSketch.ClassModel.Basic
import DiagramSketch.Proofs.Text.Reading

/-!
# What a line of a class model says

Declarations, relations and members are told by what a line looks like, without the readers: where
its pieces are, and which of several places is the first.
-/

namespace DiagramSketch

open Text (IsName EndsName IsGap)

namespace Relationship

/-- The text starts with the relationship: two names with one of the signs between them, and gaps
around the sign. The second name goes as far as it can. -/
def Starts (relationship : Relationship) (text : Text) : Prop :=
  ∃ before after rest, IsGap before ∧ IsGap after ∧ IsName relationship.left ∧
    relationship.relation ∈ ClassModel.relations ∧ IsName relationship.right ∧ EndsName rest ∧
    text = relationship.left ++ (before ++ (relationship.relation ++
      (after ++ (relationship.right ++ rest))))

/-- The relationship is the leftmost one in the text: nothing before it in the text starts with
one. -/
inductive IsLeftmost (relationship : Relationship) : Text → Prop where
  | here {text : Text} (starts : relationship.Starts text) : IsLeftmost relationship text
  | there {character : Char} {text : Text}
      (before : ∀ other : Relationship, ¬ other.Starts (character :: text))
      (later : IsLeftmost relationship text) : IsLeftmost relationship (character :: text)

end Relationship

namespace ClassModel

/-- The line begins with the declaration of the class: the keyword, a gap and the name, which goes
as far as it can. -/
def Declares (line name : Text) : Prop :=
  ∃ gap rest, gap ≠ [] ∧ IsGap gap ∧ IsName name ∧ EndsName rest ∧
    line = "class" ++ (gap ++ (name ++ rest))

/-- The line declares some class. -/
def IsDeclaration (line : Text) : Prop :=
  ∃ name, Declares line name

/-- There is a relationship somewhere in the line. -/
def HasRelation (line : Text) : Prop :=
  ∃ before rest, line = before ++ rest ∧ ∃ relationship : Relationship, relationship.Starts rest

variable {line name text : Text} {relationship : Relationship}

/-! ## Declarations -/

theorem declared?_eq_some_iff : declared? line = some name ↔ Declares line name :=
  Text.named?_eq_some_iff

theorem isSome_declared?_iff : (declared? line).isSome = true ↔ IsDeclaration line := by
  simp only [Option.isSome_iff_exists, declared?_eq_some_iff]
  rfl

instance : Decidable (IsDeclaration line) :=
  decidable_of_iff _ isSome_declared?_iff

/-! ## Relationships -/

theorem isSigned_relation {relation : Text} (listed : relation ∈ relations) :
    Text.IsSigned relation :=
  Text.isSigned_of_mem (by decide) listed

/-- No sign is the beginning of another one. -/
theorem anyOf?_relation {relation : Text} (listed : relation ∈ relations) (rest : Text) :
    Text.anyOf? relations (relation ++ rest) = some (relation, rest) := by
  simp only [relations, List.mem_cons, List.not_mem_nil, or_false] at listed
  rcases listed with rfl | rfl | rfl | rfl
  · rfl
  · rfl
  · rfl
  · rfl

theorem relationship?_eq_some_iff : relationship? text = some relationship ↔
    relationship.Starts text := by
  constructor
  · intro read
    simp only [relationship?, Option.bind_eq_bind, Option.bind_eq_some_iff, Option.pure_def,
      Option.some.injEq] at read
    obtain ⟨⟨left, afterLeft⟩, first, ⟨relation, afterRelation⟩, sign, ⟨right, rest⟩, second,
      rfl⟩ := read
    obtain ⟨named, -, rfl⟩ := Text.word?_eq_some_iff.mp first
    obtain ⟨before, blank, gap⟩ := Text.exists_gap afterLeft
    obtain ⟨listed, signed⟩ := Text.anyOf?_eq_some sign
    obtain ⟨after, blankToo, gapToo⟩ := Text.exists_gap afterRelation
    obtain ⟨namedToo, ends, last⟩ := Text.word?_eq_some_iff.mp second
    refine ⟨before, after, rest, blank, blankToo, named, listed, namedToo, ends, ?_⟩
    rw [← last, ← gapToo, ← signed, ← gap]
  · rintro ⟨before, after, rest, blank, blankToo, named, listed, namedToo, ends, rfl⟩
    let afterRelation : Text := after ++ (relationship.right ++ rest)
    let afterGap : Text := relationship.relation ++ afterRelation
    have signed := isSigned_relation listed
    have first : Text.word? (relationship.left ++ (before ++ afterGap)) =
        some (relationship.left, before ++ afterGap) :=
      Text.word?_append named (blank.endsName_append (signed.endsName_append _))
    have gap : Text.dropBlanks (before ++ afterGap) = afterGap :=
      Text.dropBlanks_append blank (signed.endsGap_append _)
    have sign : Text.anyOf? relations afterGap = some (relationship.relation, afterRelation) :=
      anyOf?_relation listed _
    have gapToo : Text.dropBlanks afterRelation = relationship.right ++ rest :=
      Text.dropBlanks_append blankToo (namedToo.endsGap_append rest)
    have second : Text.word? (relationship.right ++ rest) = some (relationship.right, rest) :=
      Text.word?_append namedToo ends
    change relationship? (relationship.left ++ (before ++ afterGap)) = some relationship
    simp only [relationship?, first, gap, sign, gapToo, second, Option.bind_eq_bind,
      Option.bind_some, Option.pure_def]

end ClassModel

namespace Relationship

variable {relationship : Relationship} {character : Char} {text : Text}

/-- A relationship starts with a word character. -/
theorem Starts.isWord (starts : relationship.Starts (character :: text)) :
    Text.isWord character = true := by
  obtain ⟨before, after, rest, -, -, named, -, -, -, whole⟩ := starts
  obtain ⟨first, more, left⟩ := List.exists_cons_of_ne_nil named.filled
  rw [left, List.cons_append] at whole
  have word := named.solid first (left ▸ List.mem_cons_self)
  rwa [(List.cons.inj whole).1]

theorem not_starts_nil : ¬ relationship.Starts [] := by
  rintro ⟨before, after, rest, -, -, named, -, -, -, whole⟩
  exact named.filled (List.append_eq_nil_iff.mp whole.symm).1

/-- A word character in front makes the first name longer. -/
theorem Starts.cons (word : Text.isWord character = true) (starts : relationship.Starts text) :
    Starts { relationship with left := character :: relationship.left } (character :: text) := by
  obtain ⟨before, after, rest, blank, blankToo, named, listed, namedToo, ends, rfl⟩ := starts
  refine ⟨before, after, rest, blank, blankToo, ?_, listed, namedToo, ends, rfl⟩
  exact ⟨List.cons_ne_nil _ _, List.forall_mem_cons.mpr ⟨word, named.solid⟩⟩

end Relationship

namespace ClassModel

variable {line name text : Text} {relationship : Relationship}

/-- What is read at the start of a name is what the text starts with, as long as no name that goes
on in the text is the start of a relationship. -/
theorem readAtName?_eq_some_iff {insideName : Bool} {character : Char}
    (searched : insideName = true → ∀ other : Relationship, ¬ other.Starts (character :: text)) :
    (if Text.isWord character && !insideName then relationship? (character :: text) else none) =
      some relationship ↔ relationship.Starts (character :: text) := by
  by_cases starting : (Text.isWord character && !insideName) = true
  · rw [if_pos starting]
    exact relationship?_eq_some_iff
  · rw [if_neg starting]
    refine iff_of_false (fun found => by cases found) fun starts => ?_
    rw [starts.isWord, Bool.true_and, Bool.not_eq_true', Bool.not_eq_false] at starting
    exact searched starting relationship starts

/-- The search finds the leftmost relationship.  It does not look inside names, and need not: where
none starts at a name, none starts further inside. -/
theorem findRelationship?_eq_some_iff {insideName : Bool}
    (searched : insideName = true → ∀ other : Relationship, ¬ other.Starts text) :
    findRelationship? insideName text = some relationship ↔ relationship.IsLeftmost text := by
  -- Inside a name the hypothesis says that nothing starts at what is left of it, which the next
  -- character keeps: a relationship that starts there would start one character earlier, too.
  induction text generalizing insideName with
  | nil =>
      refine iff_of_false (fun found => by cases found) fun leftmost => ?_
      cases leftmost with
      | here starts => exact Relationship.not_starts_nil starts
  | cons character text induction =>
      have here {relationship : Relationship} :
          _ = some relationship ↔ relationship.Starts (character :: text) :=
        readAtName?_eq_some_iff searched
      rw [findRelationship?, Option.or_eq_some_iff, here]
      constructor
      · rintro (starts | ⟨missing, found⟩)
        · exact .here starts
        · have nowhere (other : Relationship) : ¬ other.Starts (character :: text) := by
            intro starts
            cases missing.symm.trans (here.mpr starts)
          refine .there nowhere ((induction ?_).mp found)
          exact fun word other starts => nowhere _ (starts.cons word)
      · intro leftmost
        cases leftmost with
        | here starts => exact .inl starts
        | there nowhere later =>
            refine .inr ⟨?_, (induction ?_).mpr later⟩
            · exact Option.eq_none_iff_forall_ne_some.mpr fun other found =>
                nowhere other (here.mp found)
            · exact fun word other starts => nowhere _ (starts.cons word)

theorem findRelationship?_false_eq_some_iff :
    findRelationship? false line = some relationship ↔ relationship.IsLeftmost line :=
  findRelationship?_eq_some_iff fun inside => by cases inside

/-- Where there is a relationship, there is a leftmost one. -/
theorem hasRelation_iff : HasRelation line ↔ ∃ relationship : Relationship,
    relationship.IsLeftmost line := by
  constructor
  · rintro ⟨before, rest, rfl, relationship, starts⟩
    induction before with
    | nil => exact ⟨relationship, .here starts⟩
    | cons character before induction =>
        by_cases first : ∃ other : Relationship, other.Starts (character :: (before ++ rest))
        · obtain ⟨other, starts⟩ := first
          exact ⟨other, .here starts⟩
        · obtain ⟨other, later⟩ := induction
          exact ⟨other, .there (not_exists.mp first) later⟩
  · rintro ⟨relationship, leftmost⟩
    induction leftmost with
    | here starts => exact ⟨[], _, rfl, relationship, starts⟩
    | @there character text nowhere later induction =>
        obtain ⟨before, rest, rfl, found⟩ := induction
        exact ⟨character :: before, rest, rfl, found⟩

theorem isSome_findRelationship?_iff :
    (findRelationship? false line).isSome = true ↔ HasRelation line := by
  simp only [Option.isSome_iff_exists, findRelationship?_false_eq_some_iff, hasRelation_iff]

instance : Decidable (HasRelation line) :=
  decidable_of_iff _ isSome_findRelationship?_iff

end ClassModel

end DiagramSketch
