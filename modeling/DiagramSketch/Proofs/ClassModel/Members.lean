import DiagramSketch.Proofs.ClassModel.Source
import DiagramSketch.Proofs.Diagram.Growth

/-!
# Which members a class keeps

Every line in the body of a class that has both parentheses is kept as a method.  Of the others, an
attribute is lost whose text has the keyword of declarations somewhere, even within a longer word.
-/

namespace DiagramSketch

/-! ## Words in a text -/

namespace Text

/-- The word stands on its own somewhere in the text, not within a longer word. -/
def HasWord (word text : Text) : Prop :=
  ∃ before after, text = before ++ (word ++ after) ∧
    (∀ last ∈ before.getLast?, isWord last = false) ∧ EndsName after

variable {word text : Text}

/-- Looks for a word wherever the text can be cut. -/
def findsWord (word text : Text) : Bool :=
  (List.range (text.length + 1)).any fun cut =>
    word.isPrefixOf (text.drop cut) && (text.take cut).getLast?.all (!isWord ·) &&
      (text.drop (cut + word.length)).head?.all (!isWord ·)

theorem findsWord_iff : findsWord word text = true ↔ HasWord word text := by
  simp only [findsWord, List.any_eq_true, Bool.and_eq_true, List.isPrefixOf_iff_prefix,
    Option.all_eq_true, Bool.not_eq_true']
  constructor
  · rintro ⟨cut, -, ⟨⟨after, whole⟩, starts⟩, ends⟩
    refine ⟨text.take cut, after, ?_, starts, ?_⟩
    · rw [whole, List.take_append_drop]
    · rw [← List.drop_drop, ← whole, List.drop_left] at ends
      exact ends
  · rintro ⟨before, after, rfl, starts, ends⟩
    refine ⟨before.length, List.mem_range.mpr (by simp), ⟨?_, ?_⟩, ?_⟩
    · rw [List.drop_left]
      exact List.prefix_append word after
    · rw [List.take_left]
      exact starts
    · rw [← List.drop_drop, List.drop_left, List.drop_left]
      exact ends

instance : Decidable (HasWord word text) :=
  decidable_of_iff _ findsWord_iff

end Text

namespace ClassModel

open Text (HasWord)

variable {before after lines : List Text} {line name : Text} {member : Member}

theorem hasWord_of_isDeclaration (declaration : IsDeclaration line) : HasWord "class" line := by
  obtain ⟨name, gap, rest, filled, blank, -, -, rfl⟩ := declaration
  refine ⟨[], gap ++ (name ++ rest), rfl, nofun, ?_⟩
  intro first starts
  rw [List.head?_append_of_ne_nil gap filled] at starts
  exact Text.not_isWord_of_isBlank (blank first (List.mem_of_mem_head? starts))

/-! ## Members -/

section

variable {holds : List Text → Text → Prop} [∀ earlier line, Decidable (holds earlier line)]

theorem isPrefix_linesWhere (first second : List Text) :
    linesWhere holds first <+: linesWhere holds (first ++ second) := by
  induction second using List.reverseRecOn with
  | nil => rw [List.append_nil]
  | append_singleton second line induction =>
      rw [← List.append_assoc, linesWhere_append_singleton]
      exact induction.trans (List.prefix_append _ _)

theorem exists_of_mem_linesWhere (listed : line ∈ linesWhere holds lines) :
    ∃ earlier, holds earlier line := by
  obtain ⟨⟨other, index⟩, kept, rfl⟩ := List.mem_map.mp listed
  exact ⟨lines.take index, of_decide_eq_true (List.mem_filter.mp kept).2⟩

end

/-- A line in the body of a class is recorded as a member of it, behind the members that the class
has had before. -/
def IsRecorded (before : List Text) (line : Text) (after : List Text) (name : Text)
    (member : Member) : Prop :=
  ∃ old ∈ (ofLines before).classes, ∃ new ∈ (ofLines (before ++ line :: after)).classes,
    old.name = name ∧ new.name = name ∧
      membersOf old member ++ [line] <+: membersOf new member

theorem exists_mem_classes (isOpen : IsOpenAfter (Text.contentLines before) name)
    (earlier : Text.contentLines before <+: Text.contentLines lines) :
    ∃ entry ∈ (ofLines lines).classes, entry.name = name :=
  List.mem_map.mp (mem_names_readAfter isOpen earlier)

/-- A line in the body of a class is recorded exactly as what it looks like. -/
theorem isRecorded_iff_isShownBy (isOpen : IsOpenAfter (Text.contentLines before) name)
    (content : IsContent line) (filled : line ≠ []) (noOpening : line ≠ ['\x7b'])
    (noMark : line.head? ≠ some '@') :
    IsRecorded before line after name member ↔ member.IsShownBy line := by
  have own : Text.contentLines [line] = [line] :=
    List.filter_eq_self.mpr (List.forall_mem_singleton.mpr (by simp [filled, noMark]))
  have whole : Text.contentLines (before ++ line :: after) =
      Text.contentLines before ++ [line] ++ Text.contentLines after := by
    rw [← List.singleton_append, Text.contentLines_append, Text.contentLines_append, own,
      List.append_assoc]
  constructor
  · rintro ⟨old, -, new, listed, -, rfl, recorded⟩
    have inside : line ∈ membersOf new member :=
      recorded.subset (List.mem_append_right _ (List.mem_singleton_self line))
    rw [membersOf_readAfter _ new listed] at inside
    obtain ⟨earlier, belongs⟩ := exists_of_mem_linesWhere inside
    exact belongs.shown
  · intro shown
    have belongs : IsMemberOf name member (Text.contentLines before) line :=
      ⟨isOpen, content, noOpening, shown⟩
    obtain ⟨old, listed, rfl⟩ := exists_mem_classes isOpen (List.prefix_refl _)
    have earlier : Text.contentLines before <+: Text.contentLines (before ++ line :: after) := by
      rw [whole, List.append_assoc]
      exact List.prefix_append _ _
    obtain ⟨new, listedToo, same⟩ := exists_mem_classes isOpen earlier
    refine ⟨old, listed, new, listedToo, rfl, same, ?_⟩
    rw [membersOf_readAfter _ old listed, membersOf_readAfter _ new listedToo, same, whole]
    -- Whether a line is a member depends on the lines before it only, so later ones leave it there.
    have last : linesWhere (IsMemberOf old.name member) (Text.contentLines before ++ [line]) =
        linesWhere (IsMemberOf old.name member) (Text.contentLines before) ++ [line] := by
      rw [linesWhere_append_singleton, if_pos belongs]
    rw [← last]
    exact isPrefix_linesWhere _ _

/-- In the body of a class, a line without the keyword of declarations as a word is recorded as a
method exactly when it has both parentheses, and as an attribute exactly when it has not and the
keyword is not even a part of one of its words. -/
theorem isRecorded_iff (isOpen : IsOpenAfter (Text.contentLines before) name) (filled : line ≠ [])
    (noOpening : line ≠ ['\x7b']) (noClosing : line ≠ ['\x7d']) (noMark : line.head? ≠ some '@')
    (noKeyword : ¬ HasWord "class" line) (after : List Text) :
    (IsRecorded before line after name .method ↔ '(' ∈ line ∧ ')' ∈ line) ∧
      (IsRecorded before line after name .attribute ↔
        ¬ ('(' ∈ line ∧ ')' ∈ line) ∧ ¬ "class".toList <:+: line) := by
  have content : IsContent line :=
    ⟨fun declaration => noKeyword (hasWord_of_isDeclaration declaration), noClosing⟩
  exact ⟨isRecorded_iff_isShownBy isOpen content filled noOpening noMark,
    isRecorded_iff_isShownBy isOpen content filled noOpening noMark⟩

/-- Methods are kept even if they have the keyword as a part of their names. -/
theorem isRecorded_subclass :
    IsOpenAfter (Text.contentLines ["class A \x7b"]) "A" ∧ ¬ HasWord "class" "subclass(kind)" ∧
      IsRecorded ["class A \x7b"] "subclass(kind)" ["\x7d"] "A" .method := by
  have isOpen : IsOpenAfter (Text.contentLines ["class A \x7b"]) "A" := by decide +kernel
  have noKeyword : ¬ HasWord "class" "subclass(kind)" := by decide +kernel
  refine ⟨isOpen, noKeyword, ?_⟩
  exact (isRecorded_iff isOpen (by decide) (by decide) (by decide) (by decide) noKeyword _).1.mpr
    (by decide)

/-- An attribute is lost whose name begins with the keyword. -/
theorem not_isRecorded_className :
    IsOpenAfter (Text.contentLines ["class A \x7b"]) "A" ∧ ¬ HasWord "class" "className: String" ∧
      ¬ ∃ member, IsRecorded ["class A \x7b"] "className: String" ["\x7d"] "A" member := by
  have isOpen : IsOpenAfter (Text.contentLines ["class A \x7b"]) "A" := by decide +kernel
  refine ⟨isOpen, by decide +kernel, ?_⟩
  rintro ⟨member, recorded⟩
  have shown := (isRecorded_iff_isShownBy isOpen (by decide +kernel) (by decide) (by decide)
    (by decide)).mp recorded
  cases member
  · exact shown.2 ⟨[], "Name: String", rfl⟩
  · exact absurd shown.1 (by decide)

end ClassModel

end DiagramSketch
