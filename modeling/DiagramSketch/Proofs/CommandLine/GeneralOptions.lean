import DiagramSketch.CommandLine.Run
import DiagramSketch.Proofs.CommandLine.Help

/-!
# The options before a command

An option before a command may be shortened to its first letter.  Those that are taken, and do not
lead to the help, are the one for the form of failures, with a form as its value, and the one for
debugging, without a value.
-/

namespace DiagramSketch.CommandLine

/-! ## Spellings -/

/-- What begins like a spelling with two hyphens, up to its first letter at least. -/
def Shortens (spelling start : Text) : Prop :=
  spelling.take 3 <+: start ∧ start <+: spelling

instance (spelling start : Text) : Decidable (Shortens spelling start) :=
  inferInstanceAs (Decidable (spelling.take 3 <+: start ∧ start <+: spelling))

/-- The argument with an option and what an equals sign attaches to it. -/
def attach (start : Text) : Option Text → Text
  | none => start
  | some value => start ++ '=' :: value

section

variable {argument : Text}

theorem eq_attach_of_cutAtEquals {start value : Text}
    (cut : cutAtEquals argument = some (start, value)) : argument = attach start (some value) := by
  unfold cutAtEquals at cut
  split at cut
  · next sign rest dropped =>
      cases cut
      have ends := List.head?_dropWhile_not (· != '=') argument
      rw [dropped] at ends
      obtain rfl : sign = '=' := by simpa using ends
      rw [attach, ← dropped, List.takeWhile_append_dropWhile]
  · cases cut

/-- What an argument may be short for begins with two hyphens like it, in every grammar. -/
theorem exists_start_of_long (long : hyphens <+: argument) :
    ∃ (start : Text) (attached : Option Text), argument = attach start attached ∧
      hyphens <+: start ∧ ∀ {Key : Type} (grammar : Grammar Key), grammar.candidates argument =
        (grammar.spellings.filter fun entry => start.isPrefixOf entry.1).map fun entry =>
          (entry.2, entry.1, attached) := by
  have isLong : hyphens.isPrefixOf argument = true := List.isPrefixOf_iff_prefix.mpr long
  cases cut : cutAtEquals argument with
  | none =>
      refine ⟨argument, none, rfl, long, fun grammar => ?_⟩
      rw [Grammar.candidates, if_pos isLong, cut]
  | some parts =>
      refine ⟨parts.1, some parts.2, eq_attach_of_cutAtEquals cut,
        Grammar.hyphens_of_cutAtEquals long cut, fun grammar => ?_⟩
      rw [Grammar.candidates, if_pos isLong, cut]

theorem exists_start_of_spelledOut? {Key : Type} {grammar : Grammar Key} {key : Key}
    {spelling : Text} {attached : Option Text}
    (spelled : grammar.spelledOut? argument = some (.option key spelling attached)) :
    argument = attach spelling attached := by
  unfold Grammar.spelledOut? at spelled
  split at spelled
  · cases spelled
    rfl
  · simp only [Option.bind_eq_bind, Option.bind_eq_some_iff, Option.pure_def,
      Option.some.injEq] at spelled
    obtain ⟨⟨start, value⟩, cut, key, -, same⟩ := spelled
    cases same
    exact eq_attach_of_cutAtEquals cut

theorem spelledOut?_ne_plain {Key : Type} {grammar : Grammar Key} {text : Text} :
    grammar.spelledOut? argument ≠ some (.plain text) := by
  intro spelled
  unfold Grammar.spelledOut? at spelled
  split at spelled
  · cases spelled
  · obtain ⟨parts, -, spelled⟩ := Option.bind_eq_some_iff.mp spelled
    obtain ⟨key, -, spelled⟩ := Option.bind_eq_some_iff.mp spelled
    cases spelled

theorem Grammar.eq_of_word_eq_plain {Key : Type} {grammar : Grammar Key} {text : Text}
    (plain : grammar.word argument = .ok (.plain text)) : text = argument := by
  unfold word at plain
  split at plain
  · cases plain
    rfl
  · split at plain
    · next spelled =>
        cases plain
        exact absurd spelled spelledOut?_ne_plain
    · split at plain
      · cases plain
        rfl
      · split at plain
        · cases plain
        · split at plain <;> cases plain
          rfl
        · cases plain

/-- What an argument alone may be short for stands in it as a whole or shortened. Two hyphens alone
may be short for several options. -/
theorem exists_start_of_candidates {key : GeneralKey} {spelling : Text} {attached : Option Text}
    (single : generalGrammar.candidates argument = [(key, spelling, attached)])
    (double : hyphens <+: spelling) :
    ∃ start, Shortens spelling start ∧ argument = attach start attached := by
  by_cases long : hyphens <+: argument
  · obtain ⟨start, own, same, begins, all⟩ := exists_start_of_long long
    rw [all] at single
    have several : start ≠ hyphens := by
      rintro rfl
      cases single
    obtain ⟨⟨spelled, other⟩, only, equal⟩ := List.map_eq_singleton_iff.mp single
    cases equal
    have kept := List.mem_filter.mp (only ▸ List.mem_singleton_self (spelled, other))
    have shared : start <+: spelled := List.isPrefixOf_iff_prefix.mp kept.2
    have longer : hyphens.length < start.length := by
      refine lt_of_le_of_ne begins.length_le fun equal => several ?_
      exact (begins.eq_of_length equal).symm
    refine ⟨start, ⟨?_, shared⟩, same⟩
    exact List.prefix_of_prefix_length_le (List.take_prefix 3 spelled) shared
      ((List.length_take_le 3 spelled).trans longer)
  · obtain ⟨-, tells⟩ := Grammar.tells_of_mem_candidates (single ▸ List.mem_singleton_self _)
    obtain begins | ⟨isLong, -⟩ := tells
    · exact absurd (double.trans begins) long
    · exact absurd isLong long

/-- An option before a command that is spelled with two hyphens stands in its argument as a whole or
shortened, with what is attached to it. -/
theorem exists_start_of_word {key : GeneralKey} {spelling : Text} {attached : Option Text}
    (read : generalGrammar.word argument = .ok (.option key spelling attached))
    (double : hyphens <+: spelling) :
    ∃ start, Shortens spelling start ∧ argument = attach start attached := by
  unfold Grammar.word at read
  split at read
  · cases read
  · split at read
    · next spelled =>
        cases read
        exact ⟨spelling, ⟨List.take_prefix 3 spelling, List.prefix_refl spelling⟩,
          exists_start_of_spelledOut? spelled⟩
    · split at read
      · cases read
      · split at read
        · next single =>
            cases read
            exact exists_start_of_candidates single double
        · split at read <;> cases read
        · cases read

/-- The options before a command that are read without leading to the help. -/
def longOptions : List (Text × GeneralKey) :=
  [(formatOption, .errorFormat), (debugOption, .debug)]

theorem spelling_eq {spelling other : Text} {key : GeneralKey}
    (listed : (spelling, key) ∈ generalGrammar.spellings) (long : (other, key) ∈ longOptions) :
    spelling = other := by
  have all : ∀ entry ∈ generalGrammar.spellings, ∀ long ∈ longOptions, entry.2 = long.2 →
      entry.1 = long.1 := by decide
  exact all _ listed _ long rfl

/-- Every shortened spelling is read as its option. -/
theorem word_of_shortens {spelling start : Text} {key : GeneralKey}
    (listed : (spelling, key) ∈ longOptions) (shortens : Shortens spelling start) :
    generalGrammar.word start = .ok (.option key spelling none) := by
  have all : ∀ entry ∈ longOptions, ∀ start ∈ entry.1.inits, Shortens entry.1 start →
      generalGrammar.word start = .ok (.option entry.2 entry.1 none) := by decide +kernel
  exact all _ listed start ((List.mem_inits _ _).mpr shortens.2) shortens

end

/-! ## Taking an option -/

/-- Two hyphens before a command may be short for several options, so what is read is another
argument. -/
theorem words_cons_general {argument : Text} {arguments : List Text} {word : Word GeneralKey}
    (own : generalGrammar.word argument = .ok word) :
    generalGrammar.words (argument :: arguments) =
      (generalGrammar.words arguments).map (word :: ·) := by
  have other : argument ≠ hyphens := by
    rintro rfl
    cases own
  rw [Grammar.words, if_neg other, own]
  cases generalGrammar.words arguments <;> rfl

namespace Grammar

variable {Key : Type} [DecidableEq Key] {grammar : Grammar Key}

theorem flags_subset_of_cluster {flags : List Key} {key : Key} {isShort : Bool} {text : Text}
    {found : Cluster Key} (clustered : grammar.cluster flags key isShort text = .ok found) :
    flags ⊆ found.flags := by
  induction text generalizing flags key isShort with
  | nil =>
      unfold cluster at clustered
      split at clustered
      · cases clustered
        exact List.Subset.refl _
      · cases clustered
  | cons letter rest induction =>
      unfold cluster at clustered
      split at clustered
      · cases clustered
        exact List.Subset.refl _
      · split at clustered
        · split at clustered
          · cases clustered
          · split at clustered
            · cases clustered
              exact List.subset_append_left _ _
            · exact List.Subset.trans (List.subset_append_left _ _) (induction clustered)
        · cases clustered

/-- An option without a value that something is attached to is one of several flags. -/
theorem mem_flags_of_cluster {key : Key} {isShort : Bool} {text : Text} {found : Cluster Key}
    (takesNone : grammar.takesValue key = false)
    (clustered : grammar.cluster [] key isShort text = .ok found) : key ∈ found.flags := by
  cases text with
  | nil => simp [cluster, takesNone] at clustered
  | cons letter rest =>
      unfold cluster at clustered
      rw [if_neg (by simp [takesNone])] at clustered
      split at clustered
      · split at clustered
        · cases clustered
        · split at clustered
          · cases clustered
            exact List.mem_singleton_self key
          · exact flags_subset_of_cluster clustered (List.mem_singleton_self key)
      · cases clustered

/-- The value of an option: none, or what is attached to it, or the next word. -/
inductive HasValue (grammar : Grammar Key) (key : Key) :
    (attached next : Option Text) → (value : Value) → (usesNext : Bool) → Prop
  | flag {attached next : Option Text} (takesNone : grammar.takesValue key = false) :
      HasValue grammar key attached next .flag false
  | attached {text : Text} {next : Option Text} (takes : grammar.takesValue key = true) :
      HasValue grammar key (some text) next (attachedValue text) false
  | next {text : Text} (takes : grammar.takesValue key = true) :
      HasValue grammar key none (some text) (.text text) true

/-- What the options in one argument are, the last of them with its value. -/
structure IsTaken (grammar : Grammar Key) (cluster : Cluster Key) (next : Option Text)
    (found : Taken Key) (value : Value) : Prop where
  hasValue : grammar.HasValue cluster.last cluster.attached next value found.usesNext
  given : ∃ flags last, cluster.flags.mapM (fun flag => grammar.give flag .flag) = .ok flags ∧
    grammar.give cluster.last value = .ok last ∧ found.given = flags ++ [last]

/-- Gives the options in one argument, the last of them with its value. -/
def giveAll (grammar : Grammar Key) (cluster : Cluster Key) (value : Value) (usesNext : Bool) :
    Except Stop (Taken Key) :=
  (cluster.flags.mapM fun flag => grammar.give flag .flag).bind fun flags =>
    (grammar.give cluster.last value).bind fun last => .ok { given := flags ++ [last], usesNext }

theorem isTaken_of_giveAll {cluster : Cluster Key} {value : Value} {usesNext : Bool}
    {next : Option Text} {found : Taken Key}
    (hasValue : grammar.HasValue cluster.last cluster.attached next value usesNext)
    (all : grammar.giveAll cluster value usesNext = .ok found) :
    grammar.IsTaken cluster next found value := by
  obtain ⟨flags, allGiven, all⟩ := bind_eq_ok_iff.mp all
  obtain ⟨last, lastGiven, all⟩ := bind_eq_ok_iff.mp all
  cases all
  exact ⟨hasValue, flags, last, allGiven, lastGiven, rfl⟩

/-- The last option in an argument has no value, or there is one for it. -/
theorem exists_isTaken_of_cluster (cluster : Cluster Key) {next : Option Text} {found : Taken Key}
    (goes : (if grammar.takesValue cluster.last = true then
        match cluster.attached, next with
        | some text, _ => grammar.giveAll cluster (attachedValue text) false
        | none, some text => grammar.giveAll cluster (.text text) true
        | none, none => .error (.usage (.missingValue (grammar.title cluster.last)))
      else grammar.giveAll cluster .flag false) = .ok found) :
    ∃ value, grammar.IsTaken cluster next found value := by
  obtain ⟨flags, last, attached⟩ := cluster
  split at goes
  · next takes =>
      cases attached with
      | some text => exact ⟨_, isTaken_of_giveAll (.attached takes) goes⟩
      | none =>
          cases next with
          | some text => exact ⟨_, isTaken_of_giveAll (.next takes) goes⟩
          | none => cases goes
  · next takesNone =>
      exact ⟨_, isTaken_of_giveAll (.flag (Bool.eq_false_of_not_eq_true takesNone)) goes⟩

theorem exists_isTaken {key : Key} {spelling : Text} {attached next : Option Text}
    {found : Taken Key} (taken : grammar.take key spelling attached next = .ok found) :
    ∃ cluster value, (attached = none ∧ cluster = { flags := [], last := key, attached := none } ∨
      ∃ text, attached = some text ∧
        grammar.cluster [] key (!hyphens.isPrefixOf spelling) text = .ok cluster) ∧
      grammar.IsTaken cluster next found value := by
  unfold take at taken
  cases attached with
  | none =>
      obtain ⟨value, isTaken⟩ := exists_isTaken_of_cluster ⟨[], key, none⟩ taken
      exact ⟨_, value, .inl ⟨rfl, rfl⟩, isTaken⟩
  | some text =>
      obtain ⟨cluster, clustered, taken⟩ := bind_eq_ok_iff.mp taken
      obtain ⟨value, isTaken⟩ := exists_isTaken_of_cluster cluster taken
      exact ⟨_, value, .inr ⟨text, rfl, eq_ok_of_mapError_usage clustered⟩, isTaken⟩

/-- Help is never given. -/
theorem take_ne_ok_of_isHelp {key : Key} (isHelp : grammar.isHelp key = true)
    (takesNone : grammar.takesValue key = false) (spelling : Text) (attached next : Option Text)
    (found : Taken Key) : grammar.take key spelling attached next ≠ .ok found := by
  intro taken
  have refused (value : Value) : grammar.give key value = .error .help := by
    unfold give
    exact if_pos isHelp
  obtain ⟨cluster, value, origin, isTaken⟩ := exists_isTaken taken
  obtain ⟨flags, last, given, gives, -⟩ := isTaken.given
  obtain ⟨-, rfl⟩ | ⟨text, -, clustered⟩ := origin
  · rw [refused] at gives
    cases gives
  · have member := mem_flags_of_cluster takesNone clustered
    obtain ⟨result, -, given⟩ := exists_right_of_mem (mapM_eq_ok_iff.mp given) member
    rw [refused] at given
    cases given

theorem eq_of_give {key : Key} {value : Value} {given : Key × Value}
    (gives : grammar.give key value = .ok given) :
    given = (key, value) ∧ ∀ content, value = .text content →
      grammar.choices key = [] ∨ content ∈ grammar.choices key := by
  unfold give at gives
  split at gives
  · cases gives
  · split at gives
    · next text =>
        dsimp only at gives
        split at gives
        · next known =>
            cases gives
            refine ⟨rfl, fun content same => ?_⟩
            cases same
            simpa using known
        · cases gives
    · next other =>
        cases gives
        exact ⟨rfl, fun content same => absurd same (other content)⟩

end Grammar

/-- The words for the forms of failures. -/
def formatWords : List Text :=
  ErrorFormat.all.map ErrorFormat.name

/-- An option that is taken before a command is the one for debugging, or the one for the form of
failures with its value. -/
inductive TakenBefore (next : Option Text) :
    (key : GeneralKey) → (attached : Option Text) → (found : Grammar.Taken GeneralKey) → Prop
  | debug : TakenBefore next .debug none { given := [(.debug, .flag)], usesNext := false }
  | errorFormat {attached : Option Text} {value : Value} {usesNext : Bool}
      (hasValue : generalGrammar.HasValue .errorFormat attached next value usesNext)
      (known : ∀ content, value = .text content → content ∈ formatWords) :
      TakenBefore next .errorFormat attached { given := [(.errorFormat, value)], usesNext }

theorem takenBefore_of_take {key : GeneralKey} {spelling : Text} {attached next : Option Text}
    {found : Grammar.Taken GeneralKey} (listed : (spelling, key) ∈ generalGrammar.spellings)
    (taken : generalGrammar.take key spelling attached next = .ok found) :
    TakenBefore next key attached found := by
  have single {value : Value} {usesNext : Bool} {given : List (GeneralKey × Value)}
      (all : generalGrammar.IsTaken ⟨[], key, attached⟩ next ⟨given, usesNext⟩ value) :
      given = [(key, value)] ∧ ∀ content, value = .text content →
        generalGrammar.choices key = [] ∨ content ∈ generalGrammar.choices key := by
    obtain ⟨flags, last, none, gives, same⟩ := all.given
    cases none
    obtain ⟨rfl, known⟩ := Grammar.eq_of_give gives
    exact ⟨same, known⟩
  obtain ⟨given, usesNext⟩ := found
  cases key with
  | help => exact absurd taken (Grammar.take_ne_ok_of_isHelp rfl rfl _ _ _ _)
  | debug =>
      obtain ⟨cluster, value, origin, isTaken⟩ := Grammar.exists_isTaken taken
      obtain ⟨rfl, rfl⟩ | ⟨text, rfl, clustered⟩ := origin
      · obtain ⟨rfl, -⟩ := single isTaken
        cases isTaken.hasValue with
        | flag => exact .debug
        | next takes => cases takes
      · have spelled : spelling = debugOption := spelling_eq listed (by decide)
        rw [spelled] at clustered
        exact absurd clustered (Grammar.cluster_ne_ok rfl text cluster)
  | errorFormat =>
      obtain ⟨cluster, value, origin, isTaken⟩ := Grammar.exists_isTaken taken
      have own : cluster = ⟨[], .errorFormat, attached⟩ := by
        obtain ⟨rfl, rfl⟩ | ⟨text, rfl, clustered⟩ := origin
        · rfl
        · rw [Grammar.cluster_of_takesValue rfl] at clustered
          exact (Except.ok.inj clustered).symm
      subst own
      obtain ⟨rfl, known⟩ := single isTaken
      refine .errorFormat isTaken.hasValue fun content same => ?_
      exact (known content same).resolve_left (List.cons_ne_nil _ _)

theorem TakenBefore.exists_of_usesNext {next attached : Option Text} {key : GeneralKey}
    {found : Grammar.Taken GeneralKey} (own : TakenBefore next key attached found)
    (uses : found.usesNext = true) : ∃ text, next = some text ∧ text ∈ formatWords := by
  cases own with
  | debug => cases uses
  | errorFormat hasValue known =>
      obtain rfl : _ = true := uses
      cases hasValue
      exact ⟨_, rfl, known _ rfl⟩

end DiagramSketch.CommandLine
