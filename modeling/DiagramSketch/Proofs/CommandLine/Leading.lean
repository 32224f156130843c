import DiagramSketch.Proofs.CommandLine.GeneralOptions

/-!
# Reading up to the command

Arguments are read one by one up to the command, and what is before it is options and the values
that they take.  The option for a form of failures at their start, whichever way it is spelled, adds
nothing but itself to what is read behind it.
-/

namespace DiagramSketch.CommandLine

/-! ## Arguments and their words -/

/-- How an argument is read: as two hyphens, as plain text behind them, or by itself. -/
def ReadsAs {Key : Type} (grammar : Grammar Key) (argument : Text) (word : Word Key) : Prop :=
  word = .separator ∨ word = .plain argument ∨ grammar.word argument = .ok word

/-- Arguments are read one by one, up to the two hyphens. -/
theorem exists_words_eq {Key : Type} {grammar : Grammar Key} {arguments : List Text}
    {words : List (Word Key)} (read : grammar.words arguments = .ok words) :
    ∃ front own, List.Forall₂ (fun argument word => grammar.word argument = .ok word) front own ∧
      (arguments = front ∧ words = own ∨ ∃ texts, arguments = front ++ hyphens :: texts ∧
        words = own ++ .separator :: texts.map .plain) := by
  induction arguments generalizing words with
  | nil =>
      cases read
      exact ⟨[], [], .nil, .inl ⟨rfl, rfl⟩⟩
  | cons argument arguments induction =>
      unfold Grammar.words at read
      split at read
      · next same =>
          cases read
          exact ⟨[], [], .nil, .inr ⟨arguments, by rw [same, List.nil_append], rfl⟩⟩
      · obtain ⟨first, single, read⟩ := bind_eq_ok_iff.mp read
        obtain ⟨rest, later, read⟩ := bind_eq_ok_iff.mp read
        cases read
        obtain ⟨front, own, each, ⟨rfl, rfl⟩ | ⟨texts, rfl, rfl⟩⟩ := induction later
        · exact ⟨_, _, .cons single each, .inl ⟨rfl, rfl⟩⟩
        · exact ⟨_, _, .cons single each, .inr ⟨texts, rfl, rfl⟩⟩

theorem forall₂_readsAs {Key : Type} {grammar : Grammar Key} {arguments : List Text}
    {words : List (Word Key)} (read : grammar.words arguments = .ok words) :
    List.Forall₂ (ReadsAs grammar) arguments words := by
  obtain ⟨front, own, each, same⟩ := exists_words_eq read
  have front := each.imp fun _ _ single => (.inr (.inr single) : ReadsAs grammar _ _)
  obtain ⟨rfl, rfl⟩ | ⟨texts, rfl, rfl⟩ := same
  · exact front
  · refine List.rel_append front (.cons (.inl rfl) ?_)
    rw [List.forall₂_map_right_iff, List.forall₂_same]
    exact fun _ _ => .inr (.inl rfl)

theorem ReadsAs.eq_of_plain {Key : Type} {grammar : Grammar Key} {argument text : Text}
    (reads : ReadsAs grammar argument (.plain text)) : text = argument := by
  obtain same | same | read := reads
  · cases same
  · cases same
    rfl
  · exact Grammar.eq_of_word_eq_plain read

theorem ReadsAs.word_eq_of_option {Key : Type} {grammar : Grammar Key} {argument : Text} {key : Key}
    {spelling : Text} {attached : Option Text}
    (reads : ReadsAs grammar argument (.option key spelling attached)) :
    grammar.word argument = .ok (.option key spelling attached) := by
  obtain same | same | read := reads
  · cases same
  · cases same
  · exact read

/-! ## What stands before a command -/

/-- What is read before a command: the options that have been taken, and the forms of failures that
they have as their values. -/
structure Leads (taken : Leading) (before : List (Text × Word GeneralKey)) (leading : Leading) :
    Prop where
  extras : taken.extras <+: leading.extras
  given : ∀ key, (∃ value, (key, value) ∈ leading.given) ↔
    (∃ value, (key, value) ∈ taken.given) ∨
      ∃ argument spelling attached, (argument, Word.option key spelling attached) ∈ before
  flags : ∀ argument spelling attached,
    (argument, Word.option .debug spelling attached) ∈ before → attached = none
  values : ∀ argument text, (argument, Word.plain text) ∈ before → text ∈ formatWords
  separator : ∀ argument, (argument, Word.separator) ∉ before

namespace Leads

variable {taken leading : Leading} {before : List (Text × Word GeneralKey)} {argument : Text}

theorem nothing (taken : Leading) (rest : List Text) : Leads taken [] { taken with rest } where
  extras := List.prefix_refl _
  given _ := by simp only [List.not_mem_nil, exists_false, or_false]
  flags _ _ _ member := absurd member List.not_mem_nil
  values _ _ member := absurd member List.not_mem_nil
  separator _ := List.not_mem_nil

theorem cons_unknown {text : Text}
    (later : Leads { taken with extras := taken.extras ++ [text] } before leading) :
    Leads taken ((argument, .unknown text) :: before) leading where
  extras := (List.prefix_append _ _).trans later.extras
  given key := by
    rw [later.given key]
    simp only [List.mem_cons, Prod.mk.injEq, reduceCtorEq, and_false, false_or]
  flags _ _ _ member := later.flags _ _ _ (List.mem_of_ne_of_mem (by simp) member)
  values _ _ member := later.values _ _ (List.mem_of_ne_of_mem (by simp) member)
  separator _ member := later.separator _ (List.mem_of_ne_of_mem (by simp) member)

theorem cons_value {text : Text} (known : text ∈ formatWords) (later : Leads taken before leading) :
    Leads taken ((argument, .plain text) :: before) leading where
  extras := later.extras
  given key := by
    rw [later.given key]
    simp only [List.mem_cons, Prod.mk.injEq, reduceCtorEq, and_false, false_or]
  flags _ _ _ member := later.flags _ _ _ (List.mem_of_ne_of_mem (by simp) member)
  values _ _ member := by
    obtain same | member := List.mem_cons.mp member
    · cases same
      exact known
    · exact later.values _ _ member
  separator _ member := later.separator _ (List.mem_of_ne_of_mem (by simp) member)

theorem cons_option {key : GeneralKey} {spelling : Text} {attached next : Option Text}
    {found : Grammar.Taken GeneralKey} (own : TakenBefore next key attached found)
    (later : Leads { taken with given := taken.given ++ found.given } before leading) :
    Leads taken ((argument, .option key spelling attached) :: before) leading where
  extras := later.extras
  given other := by
    have single : (∃ value, (other, value) ∈ found.given) ↔ other = key := by
      cases own <;> simp
    have split : (∃ value, (other, value) ∈ taken.given ++ found.given) ↔
        (∃ value, (other, value) ∈ taken.given) ∨ other = key := by
      simp only [List.mem_append, exists_or, single]
    have stands : (∃ first spelled value, (first, Word.option other spelled value) ∈
        (argument, .option key spelling attached) :: before) ↔
          other = key ∨
            ∃ first spelled value, (first, Word.option other spelled value) ∈ before := by
      constructor
      · rintro ⟨first, spelled, value, member⟩
        obtain same | member := List.mem_cons.mp member
        · cases same
          exact .inl rfl
        · exact .inr ⟨first, spelled, value, member⟩
      · rintro (rfl | ⟨first, spelled, value, member⟩)
        · exact ⟨argument, spelling, attached, List.mem_cons_self⟩
        · exact ⟨first, spelled, value, List.mem_cons_of_mem _ member⟩
    rw [later.given other, split, stands, or_assoc]
  flags _ _ _ member := by
    obtain same | member := List.mem_cons.mp member
    · cases same
      cases own
      rfl
    · exact later.flags _ _ _ member
  values _ _ member := later.values _ _ (List.mem_of_ne_of_mem (by simp) member)
  separator _ member := later.separator _ (List.mem_of_ne_of_mem (by simp) member)

end Leads

/-- The options among words are those of the grammar. -/
def AreListed (entries : List (Text × Word GeneralKey)) : Prop :=
  ∀ argument key spelling attached, (argument, Word.option key spelling attached) ∈ entries →
    (spelling, key) ∈ generalGrammar.spellings

theorem AreListed.of_subset {entries others : List (Text × Word GeneralKey)}
    (listed : AreListed entries) (fewer : others ⊆ entries) : AreListed others :=
  fun _ _ _ _ member => listed _ _ _ _ (fewer member)

/-- Arguments are read up to the command, which is left with what follows it. -/
theorem exists_leads {taken leading : Leading} {entries : List (Text × Word GeneralKey)}
    (listed : AreListed entries) (start : taken.rest = [])
    (led : lead taken entries = .ok leading) :
    ∃ before after, entries = before ++ after ∧ leading.rest = after.map Prod.fst ∧
      Leads taken before leading := by
  induction entries using suffix_induction generalizing taken with
  | nil =>
      cases led
      refine ⟨[], [], rfl, start, ?_⟩
      have same := Leads.nothing leading []
      rwa [← start] at same
  | cons entry entries induction =>
      have later {next : Leading} {rest : List (Text × Word GeneralKey)} (suffix : rest <:+ entries)
          (start : next.rest = []) (led : lead next rest = .ok leading) :
          ∃ before after, rest = before ++ after ∧ leading.rest = after.map Prod.fst ∧
            Leads next before leading :=
        induction rest suffix
          (listed.of_subset (List.subset_cons_of_subset entry suffix.subset)) start led
      obtain ⟨argument, _ | _ | _ | _⟩ := entry
      case plain text =>
        cases led
        exact ⟨[], (argument, .plain text) :: entries, rfl, rfl, Leads.nothing _ _⟩
      case separator =>
        cases led
        exact ⟨[], (argument, .separator) :: entries, rfl, rfl, Leads.nothing _ _⟩
      case unknown text =>
        obtain ⟨before, after, rfl, rest, leads⟩ := later (List.suffix_refl _) (by exact start) led
        exact ⟨_ :: before, after, rfl, rest, leads.cons_unknown⟩
      case option key spelling attached =>
        rw [lead_option] at led
        obtain ⟨found, taken, led⟩ := bind_eq_ok_iff.mp led
        have own := takenBefore_of_take (listed _ _ _ _ List.mem_cons_self) taken
        cases uses : found.usesNext with
        | false =>
            rw [uses, if_neg Bool.false_ne_true] at led
            obtain ⟨before, after, rfl, rest, leads⟩ :=
              later (List.suffix_refl _) (by exact start) led
            exact ⟨_ :: before, after, rfl, rest, leads.cons_option own⟩
        | true =>
            rw [uses, if_pos rfl] at led
            obtain ⟨text, following, known⟩ := own.exists_of_usesNext uses
            obtain ⟨⟨value, word⟩, head, plain⟩ := Option.bind_eq_some_iff.mp following
            obtain ⟨entries, rfl⟩ := List.head?_eq_some_iff.mp head
            obtain rfl : word = .plain text := by
              cases word <;> cases plain
              rfl
            obtain ⟨before, after, rfl, rest, leads⟩ :=
              later (List.suffix_cons _ _) (by exact start) led
            exact ⟨_ :: _ :: before, after, rfl, rest, (leads.cons_value known).cons_option own⟩

/-- An option stands in its argument. -/
theorem word_of_mem_words {arguments : List Text} {words : List (Word GeneralKey)}
    (read : generalGrammar.words arguments = .ok words) {argument : Text} {key : GeneralKey}
    {spelling : Text} {attached : Option Text}
    (member : (argument, .option key spelling attached) ∈ arguments.zip words) :
    generalGrammar.word argument = .ok (.option key spelling attached) :=
  ((List.forall₂_iff_zip.mp (forall₂_readsAs read)).2 member).word_eq_of_option

theorem areListed_of_words {arguments : List Text} {words : List (Word GeneralKey)}
    (read : generalGrammar.words arguments = .ok words) : AreListed (arguments.zip words) :=
  fun _ _ _ _ member => (Grammar.tells_of_word (word_of_mem_words read member)).1

/-! ## Options and command -/

/-- Reads the options before a command. -/
def Leading.read (arguments : List Text) : Except Stop Leading :=
  ((generalGrammar.words arguments).mapError .usage).bind fun words => lead {} (arguments.zip words)

theorem Leading.read_eq_ok_iff {arguments : List Text} {leading : Leading} :
    read arguments = .ok leading ↔ ∃ words, generalGrammar.words arguments = .ok words ∧
      lead {} (arguments.zip words) = .ok leading := by
  rw [read, bind_eq_ok_iff]
  refine exists_congr fun words => and_congr_left fun _ => ⟨Grammar.eq_ok_of_mapError_usage, ?_⟩
  intro own
  rw [own]
  rfl

/-- A request is made of the options and of the command with what follows it. -/
theorem Request.read_eq (arguments : List Text) :
    Request.read arguments = (Leading.read arguments).bind fun leading =>
      (readCommand leading.extras leading.rest).map fun command =>
        { format := ((lastText .errorFormat leading.given).map ErrorFormat.ofText).getD .text
          isDebugging := (lastGiven .debug leading.given).isSome
          command } := by
  rw [Request.read, Leading.read]
  cases generalGrammar.words arguments with
  | error error => rfl
  | ok words =>
      change (lead {} (arguments.zip words)).bind _ = (lead {} (arguments.zip words)).bind _
      cases lead {} (arguments.zip words) with
      | error stop => rfl
      | ok leading =>
          change (readCommand leading.extras leading.rest).bind _ =
            (readCommand leading.extras leading.rest).map _
          cases readCommand leading.extras leading.rest <;> rfl

/-- The words for the forms of failures are plain. -/
theorem word_of_mem_formatWords {text : Text} (known : text ∈ formatWords) :
    generalGrammar.word text = .ok (.plain text) := by
  have all : ∀ text ∈ formatWords, generalGrammar.word text = .ok (.plain text) := by decide
  exact all text known

/-- Each argument before the command is read by itself. -/
theorem exists_leads_of_read {arguments : List Text} {leading : Leading}
    (read : Leading.read arguments = .ok leading) :
    ∃ before, arguments = before.map Prod.fst ++ leading.rest ∧
      (∀ entry ∈ before, generalGrammar.word entry.1 = .ok entry.2) ∧ Leads {} before leading := by
  obtain ⟨words, own, led⟩ := Leading.read_eq_ok_iff.mp read
  have reads := forall₂_readsAs own
  obtain ⟨before, after, same, rest, leads⟩ :=
    exists_leads (areListed_of_words own) rfl led
  refine ⟨before, ?_, ?_, leads⟩
  · rw [rest, ← List.map_append, ← same, List.map_fst_zip reads.length_eq.le]
  · rintro ⟨argument, word⟩ member
    have inside : (argument, word) ∈ arguments.zip words := same ▸ List.mem_append_left after member
    obtain rfl | rfl | single := (List.forall₂_iff_zip.mp reads).2 inside
    · exact absurd member (leads.separator argument)
    · exact word_of_mem_formatWords (leads.values argument argument member)
    · exact single

/-- What is given before a command stands in an argument, in full or shortened. -/
theorem Leads.exists_of_given {before : List (Text × Word GeneralKey)} {leading : Leading}
    (leads : Leads {} before leading)
    (words : ∀ entry ∈ before, generalGrammar.word entry.1 = .ok entry.2)
    {key : GeneralKey} {spelling : Text} (long : (spelling, key) ∈ longOptions) {value : Value}
    (given : (key, value) ∈ leading.given) :
    ∃ start attached, Shortens spelling start ∧
      (attach start attached, .option key spelling attached) ∈ before := by
  have double : ∀ entry ∈ longOptions, hyphens <+: entry.1 := by decide
  obtain ⟨value, none⟩ | ⟨argument, listed, attached, member⟩ :=
    (leads.given key).mp ⟨value, given⟩
  · cases none
  · have own := words _ member
    obtain rfl := spelling_eq (Grammar.tells_of_word own).1 long
    obtain ⟨start, shortens, rfl⟩ := exists_start_of_word own (double _ long)
    exact ⟨start, attached, shortens, member⟩

/-! ## The option for the form of failures -/

/-- The options before a command after some that were given earlier. -/
def Leading.after (given : List (GeneralKey × Value)) (leading : Leading) : Leading :=
  { leading with given := given ++ leading.given }

/-- What has been given is kept and not looked at. -/
theorem lead_after (given : List (GeneralKey × Value)) (taken : Leading)
    (arguments : List (Text × Word GeneralKey)) :
    lead (taken.after given) arguments = (lead taken arguments).map (Leading.after given) := by
  induction arguments using suffix_induction generalizing taken with
  | nil => rfl
  | cons entry arguments induction =>
      obtain ⟨argument, _ | _ | _ | _⟩ := entry
      case unknown text =>
        exact induction arguments (List.suffix_refl arguments)
          { taken with extras := taken.extras ++ [text] }
      case option key spelling attached =>
        rw [lead_option, lead_option]
        cases generalGrammar.take key spelling attached
            (arguments.head?.bind fun next => next.2.plain?) with
        | error stop => rfl
        | ok found =>
            have later := induction _ (isSuffix_followers found.usesNext arguments)
              { taken with given := taken.given ++ found.given }
            rw [Leading.after, ← List.append_assoc] at later
            exact later
      all_goals rfl

/-- What is read of arguments that give the option for a form. -/
def formGiven (form : ErrorFormat) : List (GeneralKey × Value) :=
  [(.errorFormat, .text form.name)]

/-- The option for a form in full or shortened, with its value in the next argument or behind an
equals sign. -/
inductive FormSpelling (form : ErrorFormat) :
    (spelling : List Text) → (words : List (Word GeneralKey)) → Prop
  | apart {start : Text} (shortens : Shortens formatOption start) :
      FormSpelling form [start, form.name]
        [.option .errorFormat formatOption none, .plain form.name]
  | attached {start : Text} (shortens : Shortens formatOption start) :
      FormSpelling form [attach start (some form.name)]
        [.option .errorFormat formatOption (some form.name)]

namespace FormSpelling

variable {form : ErrorFormat} {spelling rest : List Text} {words : List (Word GeneralKey)}

theorem word_attached (form : ErrorFormat) {start : Text} (shortens : Shortens formatOption start) :
    generalGrammar.word (attach start (some form.name)) =
      .ok (.option .errorFormat formatOption (some form.name)) := by
  have all : ∀ start ∈ formatOption.inits, Shortens formatOption start →
      generalGrammar.word (attach start (some form.name)) =
        .ok (.option .errorFormat formatOption (some form.name)) := by
    cases form <;> decide +kernel
  exact all start ((List.mem_inits _ _).mpr shortens.2) shortens

theorem words_append (spells : FormSpelling form spelling words) (rest : List Text) :
    generalGrammar.words (spelling ++ rest) = (generalGrammar.words rest).map (words ++ ·) := by
  cases spells with
  | apart shortens =>
      have name : generalGrammar.word form.name = .ok (.plain form.name) :=
        word_of_mem_formatWords (by cases form <;> decide)
      rw [List.cons_append, words_cons_general (word_of_shortens List.mem_cons_self shortens),
        List.cons_append, words_cons_general name, List.nil_append]
      cases generalGrammar.words rest <;> rfl
  | attached shortens =>
      rw [List.cons_append, words_cons_general (word_attached form shortens)]
      rfl

theorem lead_append (spells : FormSpelling form spelling words)
    (entries : List (Text × Word GeneralKey)) : lead {} (spelling.zip words ++ entries) =
      (lead {} entries).map (Leading.after (formGiven form)) := by
  cases spells with
  | apart shortens =>
      have taken : generalGrammar.take .errorFormat formatOption none (some form.name) =
          .ok { given := formGiven form, usesNext := true } := by cases form <;> rfl
      rw [← lead_after]
      exact (lead_option _ _ _ _ _ _).trans (congrArg (Except.bind · _) taken)
  | attached shortens =>
      have taken (next : Option Text) : generalGrammar.take .errorFormat formatOption
          (some form.name) next = .ok { given := formGiven form, usesNext := false } := by
        cases form <;> rfl
      rw [← lead_after]
      exact (lead_option _ _ _ _ _ _).trans (congrArg (Except.bind · _) (taken _))

theorem length_eq (spells : FormSpelling form spelling words) : spelling.length = words.length := by
  cases spells <;> rfl

theorem read_append (spells : FormSpelling form spelling words) (rest : List Text) :
    Leading.read (spelling ++ rest) =
      (Leading.read rest).map (Leading.after (formGiven form)) := by
  rw [Leading.read, Leading.read, spells.words_append]
  cases generalGrammar.words rest with
  | error error => rfl
  | ok others =>
      change lead {} ((spelling ++ rest).zip (words ++ others)) = (lead {} (rest.zip others)).map _
      rw [List.zip_append spells.length_eq, spells.lead_append]

end FormSpelling

end DiagramSketch.CommandLine
