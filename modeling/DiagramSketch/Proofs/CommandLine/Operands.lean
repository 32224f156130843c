import DiagramSketch.Proofs.CommandLine.GeneralOptions

/-!
# The operand of a command

A command has room for one operand.  What is collected besides is refused, so in a command that is
accepted no word is unknown, and behind two hyphens stands the operand or nothing.
-/

namespace DiagramSketch.CommandLine

section

variable {grammar : Grammar CommandKey} {taken found : Collected}
variable {word : Word CommandKey} {words : List (Word CommandKey)}

theorem Grammar.HasValue.exists_of_usesNext {Key : Type} [DecidableEq Key] {grammar : Grammar Key}
    {key : Key} {attached next : Option Text} {value : Value} {usesNext : Bool}
    (hasValue : grammar.HasValue key attached next value usesNext) (uses : usesNext = true) :
    ∃ text, next = some text := by
  cases hasValue with
  | flag | attached => cases uses
  | next => exact ⟨_, rfl⟩

/-- Every word of a command is collected, options included. -/
theorem exists_collects (collected : collect grammar taken (word :: words) = .ok found) :
    ∃ next rest, Collects taken next word words rest ∧ collect grammar next rest = .ok found := by
  by_cases isOption : ∃ key spelling attached, word = .option key spelling attached
  · obtain ⟨key, spelling, attached, rfl⟩ := isOption
    rw [collect_option] at collected
    obtain ⟨own, takes, collected⟩ := bind_eq_ok_iff.mp collected
    refine ⟨_, _, ?_, collected⟩
    refine ⟨List.prefix_refl _, nofun, fun _ settled => .inl settled, ?_⟩
    cases uses : own.usesNext with
    | false => exact .inl rfl
    | true =>
        obtain ⟨cluster, value, -, isTaken⟩ := Grammar.exists_isTaken takes
        obtain ⟨text, following⟩ := isTaken.hasValue.exists_of_usesNext uses
        obtain ⟨skipped, head, plain⟩ := Option.bind_eq_some_iff.mp following
        obtain ⟨rest, rfl⟩ := List.head?_eq_some_iff.mp head
        refine .inr ⟨skipped, rfl, ?_, ?_⟩
        · rintro _ rfl
          cases plain
        · rintro rfl
          cases plain
  · obtain ⟨next, rest, collects, same⟩ := exists_collect_eq grammar taken
      (fun key spelling attached is => isOption ⟨key, spelling, attached, is⟩) words
    exact ⟨next, rest, collects, same.symm.trans collected⟩

/-- What is collected as having no room stays so, and so does every unknown word. -/
theorem extras_of_collect (collected : collect grammar taken words = .ok found) :
    taken.extras <+: found.extras ∧ ∀ text, .unknown text ∈ words → text ∈ found.extras := by
  induction words using suffix_induction generalizing taken with
  | nil =>
      cases collected
      exact ⟨List.prefix_refl _, fun _ member => absurd member List.not_mem_nil⟩
  | cons word words induction =>
      obtain ⟨next, rest, collects, collected⟩ := exists_collects collected
      obtain ⟨start, known⟩ := induction rest collects.isSuffix collected
      refine ⟨collects.extras.trans start, fun text member => ?_⟩
      obtain rfl | member := List.mem_cons.mp member
      · exact start.subset (collects.unknown text rfl)
      · obtain rfl | ⟨skipped, rfl, other, -⟩ := collects.rest
        · exact known text member
        · exact known text (List.mem_of_ne_of_mem (other text).symm member)

/-- The operand is one of the plain words. -/
theorem operand_of_collect (collected : collect grammar taken words = .ok found) {text : Text}
    (settled : found.operand = some (some text)) :
    taken.operand = some (some text) ∨ .plain text ∈ words := by
  induction words using suffix_induction generalizing taken with
  | nil =>
      cases collected
      exact .inl settled
  | cons word words induction =>
      obtain ⟨next, rest, collects, collected⟩ := exists_collects collected
      obtain settled | member := induction rest collects.isSuffix collected
      · exact collects.operand text settled
      · exact .inr (List.mem_cons_of_mem word (collects.isSuffix.subset member))

/-- Once the operand is settled, there is no room for plain words. -/
theorem collect_plain (settled : taken.operand.isSome) (texts : List Text) :
    collect grammar taken (texts.map .plain) =
      .ok { taken with extras := taken.extras ++ texts } := by
  obtain ⟨given, operand, extras⟩ := taken
  obtain ⟨operand, rfl⟩ := Option.isSome_iff_exists.mp settled
  induction texts generalizing extras with
  | nil =>
      rw [List.append_nil]
      rfl
  | cons text texts induction =>
      have step : collect grammar ⟨given, some operand, extras⟩ ((text :: texts).map .plain) =
          collect grammar ⟨given, some operand, extras ++ [text]⟩ (texts.map .plain) := by
        cases texts <;> rfl
      rw [step, induction (extras ++ [text]) rfl, List.append_assoc]
      rfl

/-- Behind two hyphens there is room for the operand only. -/
theorem operand_of_collect_separator {texts : List Text}
    (collected : collect grammar taken (words ++ .separator :: texts.map .plain) = .ok found)
    (room : found.extras = []) : ∀ text ∈ texts, found.operand = some (some text) := by
  have settled {next : Collected} (settled : next.operand.isSome) {texts : List Text}
      (collected : collect grammar next (texts.map .plain) = .ok found) :
      next.extras = [] ∧ texts = [] := by
    rw [collect_plain settled] at collected
    cases collected
    exact List.append_eq_nil_iff.mp room
  induction words using suffix_induction generalizing taken with
  | nil =>
      obtain ⟨given, operand, extras⟩ := taken
      cases operand with
      | some operand =>
          have step : collect grammar ⟨given, some operand, extras⟩
              (.separator :: texts.map .plain) =
              collect grammar ⟨given, some operand, extras ++ [hyphens]⟩ (texts.map .plain) := by
            cases texts <;> rfl
          obtain ⟨none, -⟩ := settled rfl (step.symm.trans collected)
          exact absurd none (List.append_ne_nil_of_right_ne_nil _ (List.cons_ne_nil _ _))
      | none =>
          cases texts with
          | nil => exact List.forall_mem_nil _
          | cons text texts =>
              have step : collect grammar ⟨given, some (some text), extras⟩ (texts.map .plain) =
                  .ok found := collected
              obtain ⟨-, rfl⟩ := settled rfl step
              cases step
              exact List.forall_mem_singleton.mpr rfl
  | cons word words induction =>
      obtain ⟨next, rest, collects, collected⟩ := exists_collects collected
      obtain rfl | ⟨skipped, same, -, sets⟩ := collects.rest
      · exact induction words (List.suffix_refl words) collected
      · cases words with
        | nil =>
            obtain ⟨rfl, rfl⟩ := List.cons.inj same
            obtain ⟨-, rfl⟩ := settled (sets rfl) collected
            exact List.forall_mem_nil _
        | cons _ words =>
            obtain ⟨rfl, rfl⟩ := List.cons.inj same
            exact induction words (List.suffix_cons _ words) collected

end

end DiagramSketch.CommandLine
