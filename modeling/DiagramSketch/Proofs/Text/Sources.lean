import DiagramSketch.Proofs.Text.Reading

/-!
# Sources made of lines

Lines that neither begin nor end with a blank and go over no line break are what a source is cut
into that has them one after the other.
-/

namespace DiagramSketch.Text

/-- The text begins with something that is not blank. -/
def StartsSolid (text : Text) : Prop :=
  ∃ character ∈ text.head?, isBlank character = false

/-- The text ends with something that is not blank. -/
def EndsSolid (text : Text) : Prop :=
  ∃ character ∈ text.getLast?, isBlank character = false

/-- The text goes over no line break. -/
def IsUnbroken (text : Text) : Prop :=
  ∀ character ∈ text, isLineBreak character = false

/-- A line as it is left when a source is cut. -/
structure IsLine (line : Text) : Prop where
  starts : StartsSolid line
  ends : EndsSolid line
  unbroken : IsUnbroken line

variable {text other : Text}

/-! ## Both ends of a text -/

theorem StartsSolid.ne_nil (starts : StartsSolid text) : text ≠ [] := by
  rintro rfl
  obtain ⟨character, none, -⟩ := starts
  cases none

theorem StartsSolid.endsGap (starts : StartsSolid text) : EndsGap text := by
  obtain ⟨first, found, solid⟩ := starts
  intro character foundToo
  cases found.symm.trans foundToo
  exact solid

theorem StartsSolid.append (starts : StartsSolid text) (other : Text) :
    StartsSolid (text ++ other) := by
  obtain ⟨character, found, solid⟩ := starts
  exact ⟨character, List.mem_head?_append_of_mem_head? found, solid⟩

theorem EndsSolid.append (ends : EndsSolid text) (other : Text) : EndsSolid (other ++ text) := by
  obtain ⟨character, found, solid⟩ := ends
  exact ⟨character, List.mem_getLast?_append_of_mem_getLast? found, solid⟩

theorem startsSolid_cons {first : Char} (solid : isBlank first = false) (rest : Text) :
    StartsSolid (first :: rest) :=
  ⟨first, rfl, solid⟩

theorem endsSolid_append_singleton (text : Text) {last : Char} (solid : isBlank last = false) :
    EndsSolid (text ++ [last]) :=
  ⟨last, List.getLast?_concat, solid⟩

theorem isUnbroken_append : IsUnbroken (text ++ other) ↔ IsUnbroken text ∧ IsUnbroken other :=
  List.forall_mem_append

theorem isUnbroken_cons {first : Char} :
    IsUnbroken (first :: text) ↔ isLineBreak first = false ∧ IsUnbroken text :=
  List.forall_mem_cons

theorem IsName.startsSolid (named : IsName text) : StartsSolid text := by
  obtain ⟨first, more, rfl⟩ := List.exists_cons_of_ne_nil named.filled
  exact startsSolid_cons (not_isBlank_of_isWord (named.solid first List.mem_cons_self)) more

theorem IsName.endsSolid (named : IsName text) : EndsSolid text := by
  have last := List.getLast_mem named.filled
  exact ⟨text.getLast named.filled, List.getLast?_eq_some_getLast named.filled,
    not_isBlank_of_isWord (named.solid _ last)⟩

theorem isUnbroken_of_all (plain : text.all (fun character => !isLineBreak character) = true) :
    IsUnbroken text := by
  simpa [IsUnbroken] using plain

theorem isUnbroken_of_not_isBlank (solid : ∀ character ∈ text, isBlank character = false) :
    IsUnbroken text := by
  intro character member
  by_contra broken
  have blank := isBlank_of_isLineBreak (Bool.eq_true_of_not_eq_false broken)
  exact Bool.noConfusion (blank.symm.trans (solid character member))

theorem IsName.isUnbroken (named : IsName text) : IsUnbroken text :=
  isUnbroken_of_not_isBlank fun character member =>
    not_isBlank_of_isWord (named.solid character member)

theorem IsSigned.isUnbroken (signed : IsSigned text) : IsUnbroken text :=
  isUnbroken_of_not_isBlank signed.not_isBlank

theorem IsUnbroken.ne_lineFeed (unbroken : IsUnbroken text) :
    ∀ character ∈ text, (character != '\n') = true := by
  intro character member
  refine bne_iff_ne.mpr fun same => ?_
  rw [same] at member
  cases unbroken '\n' member

theorem upToLineFeed_eq_self (unbroken : IsUnbroken text) : upToLineFeed text = text :=
  List.takeWhile_eq_self_iff.mpr unbroken.ne_lineFeed

/-- A text without line breaks is read to its end. -/
theorem toEnd?_eq_self (unbroken : IsUnbroken text) : toEnd? text = some text := by
  have ends : text.dropWhile (· != '\n') = [] :=
    List.dropWhile_eq_nil_iff.mpr unbroken.ne_lineFeed
  rw [toEnd?, ends, upToLineFeed_eq_self unbroken]

/-! ## Trimmed texts -/

theorem dropBlanks_eq_self_iff : dropBlanks text = text ↔ EndsGap text :=
  ⟨fun same => (dropBlanks_eq_iff.mp same).1, fun ends => (dropWhile_eq_of_head? ends).1⟩

theorem dropBlanksRight_eq_self_iff : dropBlanksRight text = text ↔ EndsGap text.reverse := by
  rw [← dropBlanks_eq_self_iff, dropBlanksRight, List.reverse_eq_iff]
  rfl

/-- Nothing is trimmed off a text whose ends are not blank. -/
theorem trim_eq_self_iff : trim text = text ↔ EndsGap text ∧ EndsGap text.reverse := by
  constructor
  · intro same
    have shorter : (trim text).length ≤ (dropBlanks text).length :=
      (isPrefix_dropBlanksRight (dropBlanks text)).length_le
    rw [same] at shorter
    have left := (isSuffix_dropBlanks text).eq_of_length_le shorter
    rw [trim, left] at same
    exact ⟨dropBlanks_eq_self_iff.mp left, dropBlanksRight_eq_self_iff.mp same⟩
  · rintro ⟨starts, ends⟩
    rw [trim, dropBlanks_eq_self_iff.mpr starts, dropBlanksRight_eq_self_iff.mpr ends]

theorem EndsSolid.endsGap_reverse (ends : EndsSolid text) : EndsGap text.reverse := by
  obtain ⟨last, found, solid⟩ := ends
  intro character foundToo
  rw [List.head?_reverse] at foundToo
  cases found.symm.trans foundToo
  exact solid

theorem endsSolid_of_trim_eq_self (trimmed : trim text = text) (filled : text ≠ []) :
    EndsSolid text := by
  have last := List.getLast?_eq_some_getLast filled
  refine ⟨text.getLast filled, last, (trim_eq_self_iff.mp trimmed).2 _ ?_⟩
  rw [List.head?_reverse]
  exact last

theorem EndsSolid.of_suffix (ends : EndsSolid text) (within : other <:+ text)
    (filled : other ≠ []) : EndsSolid other := by
  obtain ⟨before, rfl⟩ := within
  obtain ⟨last, found, solid⟩ := ends
  rw [List.getLast?_append_of_ne_nil _ filled] at found
  exact ⟨last, found, solid⟩

theorem EndsSolid.trim_ne_nil (ends : EndsSolid text) : trim text ≠ [] := by
  have left : dropBlanks text ≠ [] := by
    intro none
    obtain ⟨gap, blank, same⟩ := exists_gap text
    rw [none, List.append_nil] at same
    obtain ⟨last, found, solid⟩ := ends
    rw [same] at found
    exact Bool.noConfusion (solid.symm.trans (blank last (List.mem_of_getLast? found)))
  have solid := ends.of_suffix (isSuffix_dropBlanks text) left
  rw [trim, dropBlanksRight_eq_self_iff.mpr solid.endsGap_reverse]
  exact left

theorem IsName.isLine (named : IsName text) : IsLine text :=
  ⟨named.startsSolid, named.endsSolid, named.isUnbroken⟩

theorem IsLine.trim_eq (line : IsLine text) : trim text = text :=
  trim_eq_self_iff.mpr ⟨line.starts.endsGap, line.ends.endsGap_reverse⟩

/-! ## Texts behind marks -/

/-- A text behind a mark. Where there is no text, the mark is left out, too. -/
def marked (mark text : Text) : Text :=
  if text.isEmpty then [] else mark ++ text

theorem isUnbroken_marked {mark : Text} (plain : IsUnbroken mark) (unbroken : IsUnbroken text) :
    IsUnbroken (marked mark text) := by
  unfold marked
  split
  · exact List.forall_mem_nil _
  · exact isUnbroken_append.mpr ⟨plain, unbroken⟩

theorem EndsSolid.append_marked (ends : EndsSolid other) (trimmed : trim text = text)
    (mark : Text) : EndsSolid (other ++ marked mark text) := by
  unfold marked
  split
  · rw [List.append_nil]
    exact ends
  · next filled =>
      have solid := endsSolid_of_trim_eq_self trimmed (mt List.isEmpty_iff.mpr filled)
      exact (solid.append mark).append other

/-! ## Sources -/

/-- The lines of a source begin and end with something that is not blank, and go over no line
break. -/
theorem isLine_of_mem_sourceLines {source line : Text} (member : line ∈ sourceLines source) :
    IsLine line := by
  obtain ⟨filled, piece, -, rfl⟩ := exists_piece_of_mem_sourceLines member
  have starts : EndsGap (trim piece) := by
    obtain ⟨after, same⟩ := isPrefix_dropBlanksRight (dropBlanks piece)
    intro character found
    have left : EndsGap (dropBlanks piece) := head?_dropWhile isBlank piece
    refine left character ?_
    rw [← same]
    exact List.mem_head?_append_of_mem_head? found
  have ends : EndsGap (trim piece).reverse := by
    rw [trim, dropBlanksRight, List.reverse_reverse]
    exact head?_dropWhile isBlank _
  obtain ⟨first, more, shape⟩ := List.exists_cons_of_ne_nil filled
  refine ⟨⟨first, ?_, starts first ?_⟩, ?_, not_isLineBreak_of_mem_sourceLines member⟩
  · rw [shape]
    rfl
  · rw [shape]
    rfl
  · exact endsSolid_of_trim_eq_self (trim_eq_self_iff.mpr ⟨starts, ends⟩) filled

theorem sourceLines_append_lineFeed {line : Text} (isLine : IsLine line) (rest : Text) :
    sourceLines (line ++ '\n' :: rest) = line :: sourceLines rest := by
  rw [sourceLines_eq_trimmed_splitOnP, sourceLines_eq_trimmed_splitOnP,
    List.splitOnP_append_cons_of_forall_mem isLine.unbroken _ rfl, trimmed, List.map_cons,
    isLine.trim_eq, List.filter_cons_of_pos (by simpa using isLine.starts.ne_nil)]
  rfl

theorem sourceLines_of_isLine {line : Text} (isLine : IsLine line) : sourceLines line = [line] := by
  rw [sourceLines_eq_trimmed_splitOnP, List.splitOnP_eq_singleton isLine.unbroken, trimmed,
    List.map_singleton, isLine.trim_eq,
    List.filter_cons_of_pos (by simpa using isLine.starts.ne_nil), List.filter_nil]

/-- A source that has lines one after the other is cut into these lines. -/
theorem sourceLines_intercalate {lines : List Text} (each : ∀ line ∈ lines, IsLine line) :
    sourceLines (List.intercalate ['\n'] lines) = lines := by
  induction lines with
  | nil => rfl
  | cons line lines induction =>
      obtain ⟨own, others⟩ := List.forall_mem_cons.mp each
      cases lines with
      | nil =>
          rw [List.intercalate_singleton]
          exact sourceLines_of_isLine own
      | cons next lines =>
          rw [List.intercalate_cons_cons, List.append_assoc, List.singleton_append,
            sourceLines_append_lineFeed own, induction others]

/-- All lines count if none of them is marked. -/
theorem contentLines_eq_self {lines : List Text}
    (each : ∀ line ∈ lines, line ≠ [] ∧ line.head? ≠ some '@') : contentLines lines = lines := by
  refine List.filter_eq_self.mpr fun line member => ?_
  obtain ⟨filled, unmarked⟩ := each line member
  simp [filled, unmarked]

end DiagramSketch.Text
