import DiagramSketch.Proofs.Text.Reading
import DiagramSketch.UseCases.Basic

/-!
# What a line about use cases says

Actors, links and labels are told by what a line looks like, without the readers.  The labels of a
line are found from left to right, and a link leads to the first of them.
-/

namespace DiagramSketch.UseCases

open Text (IsName EndsName EndsGap IsGap)

/-- The line begins with the declaration of the actor: the keyword, a gap and the name, which goes
as far as it can. -/
def Declares (line actor : Text) : Prop :=
  ∃ gap rest, gap ≠ [] ∧ IsGap gap ∧ IsName actor ∧ EndsName rest ∧
    line = "actor" ++ (gap ++ (actor ++ rest))

/-- The line declares some actor. -/
def IsDeclaration (line : Text) : Prop :=
  ∃ actor, Declares line actor

/-- A text that can stand in parentheses as a label.  It may have opening ones itself. -/
structure IsLabel (label : Text) : Prop where
  filled : label ≠ []
  plain : ')' ∉ label

/-- The text has the label in parentheses, with a text before and a text behind them. -/
structure Encloses (text before label after : Text) : Prop where
  labelled : IsLabel label
  whole : text = before ++ '(' :: (label ++ ')' :: after)

/-- The labels that are found in a text from left to right: of all labels in parentheses the one
that begins first, and then those that are found behind it. -/
inductive Finds : Text → List Text → Prop where
  | nothing {text : Text} (free : ∀ before label after, ¬ Encloses text before label after) :
      Finds text []
  | label {text before label after : Text} {labels : List Text}
      (here : Encloses text before label after)
      (first : ∀ other label after, Encloses text other label after →
        before.length ≤ other.length)
      (later : Finds after labels) : Finds text (label :: labels)

variable {line text rest piece before label after actor : Text} {link : Link} {labels : List Text}

/-! ## Actors -/

theorem declared?_eq_some_iff : declared? line = some actor ↔ Declares line actor :=
  Text.named?_eq_some_iff

theorem isSome_declared?_iff : (declared? line).isSome = true ↔ IsDeclaration line := by
  simp only [Option.isSome_iff_exists, declared?_eq_some_iff]
  rfl

instance : Decidable (Declares line actor) :=
  decidable_of_iff _ declared?_eq_some_iff

instance : Decidable (IsDeclaration line) :=
  decidable_of_iff _ isSome_declared?_iff

/-! ## Links -/

theorem enclosed?_eq_some_iff :
    Text.enclosed? '(' ')' text = some (label, rest) ↔ Encloses text [] label rest := by
  rw [Text.enclosed?_eq_some_iff]
  exact ⟨fun ⟨filled, plain, whole⟩ => ⟨⟨filled, plain⟩, whole⟩,
    fun ⟨⟨filled, plain⟩, whole⟩ => ⟨filled, plain, whole⟩⟩

/-- A name with the sign of a link behind it goes no further than the sign or the gap before it. -/
theorem endsName_sign (blank : IsGap before) (rest : Text) :
    EndsName (before ++ ("--" ++ rest)) :=
  blank.endsName_append (Text.endsName_sign (by decide) _)

theorem labelIn?_append (filled : label ≠ []) (plain : '(' ∉ before) :
    labelIn? (before ++ '(' :: label) = some label := by
  obtain ⟨first, more, rfl⟩ := List.exists_cons_of_ne_nil filled
  have all : ∀ character ∈ before, (character != '(') = true := fun character member =>
    bne_iff_ne.mpr fun same => plain (same ▸ member)
  have stops : ∀ character ∈ ('(' :: first :: more).head?, (character != '(') = false := by simp
  rw [labelIn?, (splitWhile_append all stops).2]

theorem labelIn?_eq_some (read : labelIn? piece = some label) :
    ∃ before, '(' ∉ before ∧ label ≠ [] ∧ piece = before ++ '(' :: label := by
  have whole : piece.takeWhile (· != '(') ++ piece.dropWhile (· != '(') = piece :=
    List.takeWhile_append_dropWhile
  unfold labelIn? at read
  split at read
  · next first head tail dropped =>
      cases read
      have stops := head?_dropWhile (· != '(') piece
      rw [dropped] at stops whole
      obtain rfl : first = '(' := by simpa using stops first rfl
      refine ⟨piece.takeWhile (· != '('), fun member => ?_, List.cons_ne_nil _ _, whole.symm⟩
      simpa using List.mem_takeWhile_imp member
  · cases read

/-- Where no label begins in a piece, nothing stands behind its opening parentheses. -/
theorem eq_nil_of_labelIn?_eq_none (none : labelIn? (before ++ '(' :: label) = none) :
    label = [] := by
  obtain ⟨start, inside, same, plain⟩ :=
    List.eq_append_cons_of_mem (a := '(') (List.mem_append_right before List.mem_cons_self)
  have nothing : inside = [] := by
    by_contra filled
    rw [same, labelIn?_append filled plain] at none
    cases none
  by_contra filled
  -- The first opening parenthesis is the last character, so there is none before it.
  have starts := congrArg List.dropLast same
  rw [nothing, List.dropLast_concat, List.dropLast_append_of_ne_nil (List.cons_ne_nil _ _),
    List.dropLast_cons_of_ne_nil filled] at starts
  exact plain (starts ▸ List.mem_append_right before List.mem_cons_self)

/-- A text without closing parentheses is one piece. -/
theorem forall_ne_closing (plain : ')' ∉ piece) :
    ∀ character ∈ piece, (character == ')') = false := by
  rintro character member
  exact beq_eq_false_iff_ne.mpr (ne_of_mem_of_not_mem member plain)

theorem labelsOf_eq_nil (plain : ')' ∉ text) : labelsOf text = [] := by
  rw [labelsOf, List.splitOnP_eq_singleton (forall_ne_closing plain)]
  rfl

/-- Up to its first closing parenthesis, a text has one label at most. -/
theorem labelsOf_append (plain : ')' ∉ piece) (rest : Text) :
    labelsOf (piece ++ ')' :: rest) = (labelIn? piece).toList ++ labelsOf rest := by
  have pieces : (piece ++ ')' :: rest).splitOnP (· == ')') =
      piece :: rest.splitOnP (· == ')') :=
    List.splitOnP_append_cons_of_forall_mem (forall_ne_closing plain) ')' rfl rest
  rw [labelsOf, pieces, List.dropLast_cons_of_ne_nil (List.splitOnP_ne_nil _ _),
    List.filterMap_cons]
  cases labelIn? piece <;> rfl

theorem IsLabel.labelsOf_append (labelled : IsLabel label) (noOpening : '(' ∉ before)
    (noClosing : ')' ∉ before) (after : Text) :
    labelsOf (before ++ '(' :: (label ++ ')' :: after)) = label :: labelsOf after := by
  have plain : ')' ∉ before ++ '(' :: label := by
    simp [noClosing, labelled.plain]
  have whole : before ++ '(' :: (label ++ ')' :: after) =
      (before ++ '(' :: label) ++ ')' :: after := by
    simp
  rw [whole, UseCases.labelsOf_append plain, labelIn?_append labelled.filled noOpening]
  rfl

/-- A text in parentheses ends at the first closing parenthesis of a text or is behind it. -/
theorem encloses_append_iff (plain : ')' ∉ piece) :
    Encloses (piece ++ ')' :: rest) before label after ↔
      (label ≠ [] ∧ piece = before ++ '(' :: label ∧ after = rest) ∨
        ∃ between, before = piece ++ ')' :: between ∧ Encloses rest between label after := by
  constructor
  · rintro ⟨labelled, whole⟩
    rcases List.append_eq_append_iff.mp whole with ⟨more, rfl, left⟩ | ⟨more, rfl, left⟩
    · rcases List.cons_eq_append_iff.mp left with ⟨-, same⟩ | ⟨between, rfl, rfl⟩
      · exact absurd (List.cons.inj same).1 (by decide)
      · exact .inr ⟨between, rfl, labelled, rfl⟩
    · rcases List.cons_eq_append_iff.mp left with ⟨-, same⟩ | ⟨inside, rfl, cut⟩
      · exact absurd (List.cons.inj same).1 (by decide)
      · have plainInside : ')' ∉ inside := fun member =>
          plain (List.mem_append_right before (List.mem_cons_of_mem _ member))
        obtain ⟨rfl, rfl⟩ := eq_of_append_cons_eq labelled.plain plainInside cut
        exact .inl ⟨labelled.filled, rfl, rfl⟩
  · rintro (⟨filled, rfl, rfl⟩ | ⟨between, rfl, labelled, rfl⟩)
    · have plainLabel : ')' ∉ label := fun member =>
        plain (List.mem_append_right before (List.mem_cons_of_mem _ member))
      exact ⟨⟨filled, plainLabel⟩, by simp⟩
    · exact ⟨labelled, by simp⟩

theorem Encloses.mem_closing (encloses : Encloses text before label after) : ')' ∈ text := by
  rw [encloses.whole]
  simp

/-- What is found behind the first closing parenthesis is found in the whole text, if no label ends
there. -/
theorem Finds.of_append (plain : ')' ∉ piece) (none : labelIn? piece = none)
    (later : Finds rest labels) : Finds (piece ++ ')' :: rest) labels := by
  have behind : ∀ before label after, Encloses (piece ++ ')' :: rest) before label after →
      ∃ between, before = piece ++ ')' :: between ∧ Encloses rest between label after := by
    intro before label after encloses
    rcases (encloses_append_iff plain).mp encloses with ⟨filled, rfl, -⟩ | found
    · exact absurd (eq_nil_of_labelIn?_eq_none none) filled
    · exact found
  cases later with
  | nothing free =>
      refine .nothing fun before label after encloses => ?_
      obtain ⟨between, -, inside⟩ := behind before label after encloses
      exact free between label after inside
  | @label _ before label after labels here first later =>
      refine .label ((encloses_append_iff plain).mpr (.inr ⟨before, rfl, here⟩)) ?_ later
      intro other label after encloses
      obtain ⟨between, rfl, inside⟩ := behind other label after encloses
      have before := first between label after inside
      simp only [List.length_append, List.length_cons]
      omega

theorem finds_labelsOf (text : Text) : Finds text (labelsOf text) := by
  by_cases closes : ')' ∈ text
  · obtain ⟨piece, rest, whole, plain⟩ := List.eq_append_cons_of_mem closes
    have shorter : rest.length < text.length := by
      simp only [whole, List.length_append, List.length_cons]
      omega
    have later := finds_labelsOf rest
    rw [whole, labelsOf_append plain]
    cases read : labelIn? piece with
    | none => exact later.of_append plain read
    | some label =>
        obtain ⟨before, noOpening, filled, rfl⟩ := labelIn?_eq_some read
        refine .label ((encloses_append_iff plain).mpr (.inl ⟨filled, rfl, rfl⟩)) ?_ later
        intro other otherLabel after encloses
        rcases (encloses_append_iff plain).mp encloses with ⟨-, same, -⟩ | ⟨between, rfl, -⟩
        · exact length_le_of_append_cons_eq noOpening same
        · simp only [List.length_append]
          omega
  · rw [labelsOf_eq_nil closes]
    exact .nothing fun before label after encloses => closes encloses.mem_closing
termination_by text.length

/-- There is only one way to find labels from left to right. -/
theorem Finds.unique (finds : Finds text labels) {others : List Text}
    (findsToo : Finds text others) : labels = others := by
  induction finds generalizing others with
  | nothing free =>
      cases findsToo with
      | nothing => rfl
      | label here => exact absurd here (free _ _ _)
  | @label text before label after labels here first later induction =>
      cases findsToo with
      | nothing free => exact absurd here (free _ _ _)
      | @label _ other otherLabel otherAfter _ hereToo firstToo laterToo =>
          have lengths : before.length = other.length :=
            Nat.le_antisymm (first _ _ _ hereToo) (firstToo _ _ _ here)
          obtain ⟨-, behind⟩ := List.append_inj (here.whole.symm.trans hereToo.whole) lengths
          obtain ⟨rfl, rfl⟩ := eq_of_append_cons_eq here.labelled.plain hereToo.labelled.plain
            (List.cons.inj behind).2
          rw [induction laterToo]

theorem finds_iff : Finds text labels ↔ labels = labelsOf text :=
  ⟨fun finds => finds.unique (finds_labelsOf text), fun same => same ▸ finds_labelsOf text⟩

end DiagramSketch.UseCases
