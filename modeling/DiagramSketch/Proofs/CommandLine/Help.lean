import DiagramSketch.CommandLine.Request
import DiagramSketch.Proofs.Results

/-!
# Who is shown the help

Reading the arguments ends with the help only where one of them asks for it: in full, shortened, or
by its letter.
-/

namespace DiagramSketch.CommandLine

namespace Grammar

variable {Key : Type} {grammar : Grammar Key}

theorem listed_of_key? {spelling : Text} {key : Key}
    (found : grammar.key? spelling = some key) : (spelling, key) ∈ grammar.spellings := by
  obtain ⟨before, after, same, -⟩ := List.lookup_eq_some_iff.mp found
  rw [same]
  exact List.mem_append_right _ List.mem_cons_self

theorem isPrefix_of_cutAtEquals {argument start value : Text}
    (cut : cutAtEquals argument = some (start, value)) : start <+: argument := by
  unfold cutAtEquals at cut
  split at cut
  · cases cut
    exact List.takeWhile_prefix _
  · cases cut

/-- An argument with two hyphens has both of them before its equals sign. -/
theorem hyphens_of_cutAtEquals {argument start value : Text} (long : hyphens <+: argument)
    (cut : cutAtEquals argument = some (start, value)) : hyphens <+: start := by
  obtain ⟨rest, rfl⟩ := long
  unfold cutAtEquals at cut
  split at cut
  · cases cut
    exact ⟨rest.takeWhile (· != '='), rfl⟩
  · cases cut

/-- An argument tells the spelling of its option: it begins with it, or is short for it. -/
def Tells (argument spelling : Text) (attached : Option Text) : Prop :=
  spelling <+: argument ∨
    hyphens <+: argument ∧ hyphens <+: spelling ∧ (attached = none → argument <+: spelling)

theorem tells_of_spelledOut? {argument : Text} {key : Key} {spelling : Text}
    {attached : Option Text}
    (spelled : grammar.spelledOut? argument = some (.option key spelling attached)) :
    (spelling, key) ∈ grammar.spellings ∧ Tells argument spelling attached := by
  unfold spelledOut? at spelled
  split at spelled
  · next key found =>
      cases spelled
      exact ⟨listed_of_key? found, .inl (List.prefix_refl _)⟩
  · simp only [Option.bind_eq_bind, Option.bind_eq_some_iff, Option.pure_def,
      Option.some.injEq] at spelled
    obtain ⟨⟨start, value⟩, cut, key, found, same⟩ := spelled
    cases same
    exact ⟨listed_of_key? found, .inl (isPrefix_of_cutAtEquals cut)⟩

theorem tells_of_mem_candidates {argument : Text} {key : Key} {spelling : Text}
    {attached : Option Text} (member : (key, spelling, attached) ∈ grammar.candidates argument) :
    (spelling, key) ∈ grammar.spellings ∧ Tells argument spelling attached := by
  unfold candidates at member
  split at member
  · next long =>
      have long := List.isPrefixOf_iff_prefix.mp long
      cases cut : cutAtEquals argument with
      | none =>
          rw [cut] at member
          obtain ⟨⟨spelled, own⟩, kept, same⟩ := List.mem_map.mp member
          cases same
          obtain ⟨listed, begins⟩ := List.mem_filter.mp kept
          have begins := List.isPrefixOf_iff_prefix.mp begins
          exact ⟨listed, .inr ⟨long, long.trans begins, fun _ => begins⟩⟩
      | some parts =>
          obtain ⟨start, value⟩ := parts
          rw [cut] at member
          obtain ⟨⟨spelled, own⟩, kept, same⟩ := List.mem_map.mp member
          cases same
          obtain ⟨listed, begins⟩ := List.mem_filter.mp kept
          have begins := List.isPrefixOf_iff_prefix.mp begins
          exact ⟨listed, .inr ⟨long, (hyphens_of_cutAtEquals long cut).trans begins, nofun⟩⟩
  · obtain ⟨⟨spelled, own⟩, kept, same⟩ := List.mem_map.mp member
    cases same
    obtain ⟨listed, equal⟩ := List.mem_filter.mp kept
    obtain rfl : spelling = argument.take 2 := of_decide_eq_true equal
    exact ⟨listed, .inl (List.take_prefix 2 argument)⟩

/-- The option that an argument is read as is listed, and the argument tells its spelling. -/
theorem tells_of_word {argument : Text} {key : Key} {spelling : Text} {attached : Option Text}
    (read : grammar.word argument = .ok (.option key spelling attached)) :
    (spelling, key) ∈ grammar.spellings ∧ Tells argument spelling attached := by
  unfold word at read
  split at read
  · cases read
  · split at read
    · next word spelled =>
        cases read
        exact tells_of_spelledOut? spelled
    · split at read
      · cases read
      · split at read
        · next single =>
            cases read
            refine tells_of_mem_candidates ?_
            rw [single]
            exact List.mem_singleton_self _
        · split at read <;> cases read
        · cases read

/-! ## Taking an option -/

variable [DecidableEq Key]

/-- What is attached to an option that takes a value is its value. -/
theorem cluster_of_takesValue {key : Key} (takes : grammar.takesValue key = true)
    (isShort : Bool) (text : Text) :
    grammar.cluster [] key isShort text =
      .ok { flags := [], last := key, attached := some text } := by
  cases text with
  | nil => simp [cluster, takes]
  | cons letter rest => simp [cluster, takes]

/-- Nothing can be attached to an option without a value that is spelled with two hyphens. -/
theorem cluster_ne_ok {key : Key} (takesNone : grammar.takesValue key = false) (text : Text)
    (found : Cluster Key) : grammar.cluster [] key false text ≠ .ok found := by
  cases text with
  | nil => simp [cluster, takesNone]
  | cons letter rest =>
      simp only [cluster, takesNone, Bool.false_eq_true, if_false]
      cases grammar.key? ['-', letter] <;> simp

theorem eq_ok_of_mapError_usage {α : Type} {first : Except UsageError α} {found : α}
    (done : first.mapError Stop.usage = .ok found) : first = .ok found := by
  cases first with
  | error error => cases done
  | ok own => exact congrArg Except.ok (Except.ok.inj done)

end Grammar

/-! ## Reading a command line -/

section

variable {Key : Type} {grammar : Grammar Key}

/-- The words of arguments stand beside them, and an option is what its argument is read as. -/
theorem forall₂_words {arguments : List Text} {words : List (Word Key)}
    (read : grammar.words arguments = .ok words) :
    List.Forall₂ (fun argument word => ∀ key spelling attached,
      word = .option key spelling attached → argument ≠ hyphens ∧ grammar.word argument = .ok word)
      arguments words := by
  induction arguments generalizing words with
  | nil =>
      cases read
      exact .nil
  | cons argument arguments induction =>
      unfold Grammar.words at read
      split at read
      · cases read
        refine .cons nofun ?_
        rw [List.forall₂_map_right_iff, List.forall₂_same]
        exact fun _ _ => nofun
      · next other =>
          obtain ⟨first, own, read⟩ := bind_eq_ok_iff.mp read
          obtain ⟨rest, later, read⟩ := bind_eq_ok_iff.mp read
          cases read
          exact .cons (fun _ _ _ _ => ⟨other, own⟩) (induction later)

end

/-- What is true of a list if it is true of everything behind its head is true of every list. -/
@[elab_as_elim]
theorem suffix_induction {α : Type} {motive : List α → Prop} (nil : motive [])
    (cons : ∀ entry entries, (∀ rest, rest <:+ entries → motive rest) → motive (entry :: entries))
    (entries : List α) : motive entries := by
  have all : ∀ rest, rest <:+ entries → motive rest := by
    induction entries with
    | nil =>
        intro rest suffix
        rw [List.suffix_nil.mp suffix]
        exact nil
    | cons entry entries induction =>
        intro rest suffix
        obtain rfl | later := List.suffix_cons_iff.mp suffix
        · exact cons entry entries induction
        · exact induction rest later
  exact all entries (List.suffix_refl entries)

theorem isSuffix_followers {α : Type} (usesNext : Bool) (entries : List α) :
    (if usesNext then entries.drop 1 else entries) <:+ entries := by
  split
  · exact List.drop_suffix 1 entries
  · exact List.suffix_refl entries

/-! ### The options before a command -/

theorem lead_option (taken : Leading) (argument : Text) (key : GeneralKey) (spelling : Text)
    (attached : Option Text) (arguments : List (Text × Word GeneralKey)) :
    lead taken ((argument, .option key spelling attached) :: arguments) =
      (generalGrammar.take key spelling attached
          (arguments.head?.bind fun next => next.2.plain?)).bind fun found =>
        lead { taken with given := taken.given ++ found.given }
          (if found.usesNext then arguments.drop 1 else arguments) := by
  -- The recursion is within the option's result, where no equation of it reaches.
  delta lead
  refine congrArg (Except.bind _) (funext fun found => ?_)
  obtain ⟨given, usesNext⟩ := found
  cases usesNext <;> cases arguments <;> rfl

theorem collect_option (grammar : Grammar CommandKey) (taken : Collected) (key : CommandKey)
    (spelling : Text) (attached : Option Text) (words : List (Word CommandKey)) :
    collect grammar taken (.option key spelling attached :: words) =
      (grammar.take key spelling attached (words.head?.bind Word.plain?)).bind fun found =>
        collect grammar { taken with given := taken.given ++ found.given }
          (if found.usesNext then words.drop 1 else words) := by
  -- As with the options before a command.
  delta collect
  refine congrArg (Except.bind _) (funext fun found => ?_)
  obtain ⟨given, usesNext⟩ := found
  cases usesNext <;> cases words <;> rfl

/-- A word of a command is collected, perhaps with the word behind it: what has been taken then, and
the words that are left. -/
structure Collects (taken next : Collected) (word : Word CommandKey)
    (words rest : List (Word CommandKey)) : Prop where
  extras : taken.extras <+: next.extras
  unknown : ∀ text, word = .unknown text → text ∈ next.extras
  operand : ∀ text, next.operand = some (some text) →
    taken.operand = some (some text) ∨ .plain text ∈ word :: words
  rest : rest = words ∨ ∃ skipped, words = skipped :: rest ∧ (∀ text, skipped ≠ .unknown text) ∧
    (skipped = .separator → next.operand.isSome)

theorem Collects.isSuffix {taken next : Collected} {word : Word CommandKey}
    {words rest : List (Word CommandKey)} (collects : Collects taken next word words rest) :
    rest <:+ words := by
  obtain rfl | ⟨skipped, rfl, -⟩ := collects.rest
  · exact List.suffix_refl rest
  · exact List.suffix_cons skipped rest

/-- A word that there is no room for is an extra. -/
theorem collects_extra (taken : Collected) (word : Word CommandKey) (text : Text)
    (same : ∀ unknown, word = .unknown unknown → unknown = text)
    (words : List (Word CommandKey)) :
    Collects taken { taken with extras := taken.extras ++ [text] } word words words where
  extras := List.prefix_append _ _
  unknown _ is := List.mem_append_right _ (List.mem_singleton.mpr (same _ is))
  operand _ settled := .inl settled
  rest := .inl rfl

/-- A plain word is the operand, unless that is settled.  A separator behind it is skipped. -/
theorem exists_collect_plain (grammar : Grammar CommandKey) (taken : Collected) (text : Text)
    (words : List (Word CommandKey)) :
    ∃ next rest, Collects taken next (.plain text) words rest ∧
      collect grammar taken (.plain text :: words) = collect grammar next rest := by
  obtain ⟨given, operand, extras⟩ := taken
  cases operand with
  | some operand =>
      refine ⟨_, words, collects_extra _ (.plain text) text nofun words, ?_⟩
      rcases words with _ | ⟨_ | _ | _ | _, words⟩ <;> rfl
  | none =>
      have settles {rest : List (Word CommandKey)}
          (follow : rest = words ∨ words = .separator :: rest) :
          Collects ⟨given, none, extras⟩ ⟨given, some (some text), extras⟩ (.plain text)
            words rest :=
        { extras := List.prefix_refl _
          unknown := nofun
          operand := by rintro _ ⟨⟩; exact .inr List.mem_cons_self
          rest := follow.imp_right fun same => ⟨.separator, same, nofun, fun _ => rfl⟩ }
      rcases words with _ | ⟨_ | _ | _ | _, words⟩
      case cons.separator => exact ⟨_, words, settles (.inr rfl), rfl⟩
      all_goals exact ⟨_, _, settles (.inl rfl), rfl⟩

/-- A separator makes the plain word behind it the operand, or settles that there is none. -/
theorem exists_collect_separator (grammar : Grammar CommandKey) (taken : Collected)
    (words : List (Word CommandKey)) :
    ∃ next rest, Collects taken next .separator words rest ∧
      collect grammar taken (.separator :: words) = collect grammar next rest := by
  obtain ⟨given, operand, extras⟩ := taken
  cases operand with
  | some operand =>
      refine ⟨_, words, collects_extra _ .separator hyphens nofun words, ?_⟩
      rcases words with _ | ⟨_ | _ | _ | _, words⟩ <;> rfl
  | none =>
      have nothing : Collects ⟨given, none, extras⟩ ⟨given, some none, extras⟩ .separator
          words words :=
        { extras := List.prefix_refl _
          unknown := nofun
          operand := by rintro _ ⟨⟩
          rest := .inl rfl }
      rcases words with _ | ⟨text | _ | _ | _, words⟩
      case cons.plain =>
        refine ⟨⟨given, some (some text), extras⟩, words, ?_, rfl⟩
        exact
          { extras := List.prefix_refl _
            unknown := nofun
            operand := by rintro _ ⟨⟩; exact .inr (by simp)
            rest := .inr ⟨_, rfl, nofun, nofun⟩ }
      all_goals exact ⟨_, _, nothing, rfl⟩

/-- What is no option is collected. -/
theorem exists_collect_eq (grammar : Grammar CommandKey) (taken : Collected)
    {word : Word CommandKey}
    (other : ∀ key spelling attached, word ≠ .option key spelling attached)
    (words : List (Word CommandKey)) :
    ∃ next rest, Collects taken next word words rest ∧
      collect grammar taken (word :: words) = collect grammar next rest := by
  cases word with
  | option key spelling attached => exact absurd rfl (other key spelling attached)
  | unknown text =>
      exact ⟨_, words, collects_extra taken (.unknown text) text (by rintro _ ⟨⟩; rfl) words, rfl⟩
  | plain text => exact exists_collect_plain grammar taken text words
  | separator => exact exists_collect_separator grammar taken words

end DiagramSketch.CommandLine
