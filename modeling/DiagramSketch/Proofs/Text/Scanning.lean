import DiagramSketch.Proofs.Text.Lines
import DiagramSketch.Text.Scan
import DiagramSketch.Text.Word

/-!
# What readers leave

A list is cut where a run of entries of one sort ends.  Whatever a reader takes from the start of a
text and whatever it leaves are pieces of the text.
-/

namespace DiagramSketch

/-! ## Runs -/

section Runs

variable {α : Type} {holds : α → Bool} {run rest : List α}

theorem dropWhile_eq_of_head? (ends : ∀ entry ∈ rest.head?, holds entry = false) :
    rest.dropWhile holds = rest ∧ rest.takeWhile holds = [] := by
  cases rest with
  | nil => exact ⟨rfl, rfl⟩
  | cons first rest =>
      have stops : ¬ holds first = true := by simpa using ends first (by simp)
      exact ⟨List.dropWhile_cons_of_neg stops, List.takeWhile_cons_of_neg stops⟩

theorem splitWhile_append (all : ∀ entry ∈ run, holds entry = true)
    (ends : ∀ entry ∈ rest.head?, holds entry = false) :
    (run ++ rest).takeWhile holds = run ∧ (run ++ rest).dropWhile holds = rest := by
  obtain ⟨dropped, taken⟩ := dropWhile_eq_of_head? ends
  rw [List.takeWhile_append_of_pos all, List.dropWhile_append_of_pos all, taken, dropped]
  exact ⟨List.append_nil run, rfl⟩

/-- An entry occurs nowhere before its first occurrence. -/
theorem length_le_of_append_cons_eq {first : α} {other others : List α} (free : first ∉ run)
    (same : run ++ first :: rest = other ++ first :: others) : run.length ≤ other.length := by
  rcases List.append_eq_append_iff.mp same with ⟨between, rfl, -⟩ | ⟨between, rfl, whole⟩
  · exact (List.prefix_append run between).length_le
  · rcases List.cons_eq_append_iff.mp whole with ⟨rfl, -⟩ | ⟨more, rfl, -⟩
    · rw [List.append_nil]
    · exact absurd (List.mem_append_right other List.mem_cons_self) free

theorem eq_of_append_cons_eq {first : α} {other others : List α} (free : first ∉ run)
    (freeToo : first ∉ other) (same : run ++ first :: rest = other ++ first :: others) :
    run = other ∧ rest = others := by
  have lengths : run.length = other.length :=
    Nat.le_antisymm (length_le_of_append_cons_eq free same)
      (length_le_of_append_cons_eq freeToo same.symm)
  obtain ⟨equal, behind⟩ := List.append_inj same lengths
  exact ⟨equal, (List.cons.inj behind).2⟩

theorem head?_dropWhile (holds : α → Bool) (entries : List α) :
    ∀ entry ∈ (entries.dropWhile holds).head?, holds entry = false := by
  intro entry first
  have stops := List.head?_dropWhile_not holds entries
  rwa [first] at stops

end Runs

namespace Text

/-! ## What is left -/

variable {text rest : Text}

theorem trim_subset (text : Text) : trim text ⊆ text :=
  (isInfix_trim text).subset

theorem isPrefix_upToLineFeed (text : Text) : upToLineFeed text <+: text :=
  List.takeWhile_prefix _

theorem isSuffix_of_literal? {token : Text} (read : literal? token text = some rest) :
    rest <:+ text :=
  ⟨token, (literal?_eq_some_iff.mp read).symm⟩

theorem isSuffix_of_keyword? {token : Text} (read : keyword? token text = some rest) :
    rest <:+ text := by
  induction token generalizing text with
  | nil =>
      cases read
      exact List.suffix_refl rest
  | cons expected token induction =>
      cases text with
      | nil => cases read
      | cons found text =>
          unfold keyword? at read
          split at read
          · exact (induction read).trans (List.suffix_cons found text)
          · cases read

theorem anyOf?_eq_some {tokens : List Text} {token : Text}
    (read : anyOf? tokens text = some (token, rest)) : token ∈ tokens ∧ text = token ++ rest := by
  induction tokens with
  | nil => cases read
  | cons first tokens induction =>
      unfold anyOf? at read
      split at read
      · next left found =>
          cases read
          exact ⟨List.mem_cons_self, literal?_eq_some_iff.mp found⟩
      · obtain ⟨member, same⟩ := induction read
        exact ⟨List.mem_cons_of_mem first member, same⟩

theorem isSuffix_of_anyOf? {tokens : List Text} {token : Text}
    (read : anyOf? tokens text = some (token, rest)) : rest <:+ text :=
  ⟨token, (anyOf?_eq_some read).2.symm⟩

theorem isSuffix_of_blanks? (read : blanks? text = some rest) : rest <:+ text := by
  cases text with
  | nil => cases read
  | cons first text =>
      simp only [blanks?] at read
      split at read
      · cases read
        exact (isSuffix_dropBlanks text).trans (List.suffix_cons first text)
      · cases read

theorem word?_eq_some {name : Text} (read : word? text = some (name, rest)) :
    name ≠ [] ∧ text = name ++ rest := by
  unfold word? at read
  split at read
  · cases read
  · next taken filled =>
      cases read
      exact ⟨filled, List.takeWhile_append_dropWhile.symm⟩

theorem subset_of_word? {name : Text} (read : word? text = some (name, rest)) :
    name ⊆ text ∧ rest <:+ text := by
  obtain ⟨-, rfl⟩ := word?_eq_some read
  exact ⟨List.subset_append_left name rest, List.suffix_append name rest⟩

/-- A name that stands after a keyword and blanks. -/
theorem subset_of_named {keyword name : Text}
    (read : (do
      let (found, _) ← word? (← blanks? (← literal? keyword text))
      return found) = some name) : name ⊆ text := by
  simp only [Option.bind_eq_bind, Option.bind_eq_some_iff, Option.pure_def,
    Option.some.injEq] at read
  obtain ⟨afterKeyword, first, afterBlanks, blanks, ⟨found, rest⟩, word, rfl⟩ := read
  exact List.Subset.trans (subset_of_word? word).1
    ((isSuffix_of_blanks? blanks).trans (isSuffix_of_literal? first)).subset

/-- What is enclosed stands between the two characters, and what is left after them. -/
theorem enclosed?_eq_some {opening closing : Char} {body : Text}
    (read : enclosed? opening closing text = some (body, rest)) :
    body ≠ [] ∧ closing ∉ body ∧ text = opening :: (body ++ closing :: rest) := by
  cases text with
  | nil => cases read
  | cons first text =>
      simp only [enclosed?] at read
      split at read
      · next starts =>
          have whole : text.takeWhile (· != closing) ++ text.dropWhile (· != closing) = text :=
            List.takeWhile_append_dropWhile
          have other : ∀ character ∈ text.takeWhile (· != closing), character ≠ closing :=
            fun character member => by simpa using List.mem_takeWhile_imp member
          split at read
          · next head tail ends after taken dropped =>
              cases read
              have stops := List.head?_dropWhile_not (· != closing) text
              rw [dropped] at stops
              obtain rfl : ends = closing := by simpa using stops
              rw [taken] at whole other
              rw [dropped] at whole
              refine ⟨List.cons_ne_nil _ _, fun member => other _ member rfl, ?_⟩
              rw [starts, ← whole]
          · cases read
      · cases read

theorem subset_of_enclosed? {opening closing : Char} {body : Text}
    (read : enclosed? opening closing text = some (body, rest)) : body ⊆ text ∧ rest <:+ text := by
  obtain ⟨-, -, rfl⟩ := enclosed?_eq_some read
  refine ⟨fun character member => ?_, ⟨opening :: (body ++ [closing]), by simp⟩⟩
  exact List.mem_cons_of_mem opening (List.mem_append_left _ member)

theorem subset_of_firstEnclosed? {opening closing : Char} {body : Text}
    (read : firstEnclosed? opening closing text = some (body, rest)) :
    body ⊆ text ∧ rest <:+ text := by
  induction text with
  | nil => cases read
  | cons first text induction =>
      simp only [firstEnclosed?] at read
      split at read
      · next found enclosed =>
          cases read
          exact subset_of_enclosed? enclosed
      · obtain ⟨within, left⟩ := induction read
        exact ⟨List.Subset.trans within (List.subset_cons_self first text),
          left.trans (List.suffix_cons first text)⟩

/-- What is read to the end of a text is its first line. -/
theorem eq_of_toEnd? {line : Text} (read : toEnd? text = some line) : line = upToLineFeed text := by
  unfold toEnd? at read
  split at read
  · cases read
    rfl
  · cases read
    rfl
  · cases read

theorem subset_of_toEnd? {line : Text} (read : toEnd? text = some line) : line ⊆ text := by
  rw [eq_of_toEnd? read]
  exact (isPrefix_upToLineFeed text).subset

end Text

end DiagramSketch
