import DiagramSketch.Proofs.CommandLine.JsonRecords
import DiagramSketch.Proofs.CommandLine.Operands

/-!
# What arguments announce

Arguments are looked at twice: they are searched for the two options about failures, spelled out in
full, and they are read.  What the search finds is not always what is read: it does not see an
option that is shortened or has its value behind an equals sign, and it sees one in an operand
behind two hyphens.
-/

namespace DiagramSketch.CommandLine

/-! ## The option for debugging behind a command -/

section

variable {name : CommandName} {arguments : List Text} {words : List (Word CommandKey)}
variable {taken : Collected}

/-- The option for debugging means nothing behind a command. -/
theorem CommandName.word_debugOption (name : CommandName) :
    name.grammar.word debugOption = .ok (.unknown debugOption) := by
  cases name <;> decide

/-- Behind a command that is understood, the option for debugging is nothing but the operand. -/
theorem debugOption_mem_iff_of_collect (read : name.grammar.words arguments = .ok words)
    (collected : collect name.grammar {} words = .ok taken) (room : taken.extras = []) :
    debugOption ∈ arguments ↔ taken.operand = some (some debugOption) := by
  constructor
  · intro member
    obtain ⟨front, own, each, same⟩ := exists_words_eq read
    have absent : debugOption ∉ front := by
      intro inside
      obtain ⟨word, member, single⟩ := exists_right_of_mem each inside
      obtain rfl : word = .unknown debugOption :=
        Except.ok.inj (single.symm.trans name.word_debugOption)
      have unknown : .unknown debugOption ∈ words := by
        obtain ⟨-, rfl⟩ | ⟨texts, -, rfl⟩ := same
        · exact member
        · exact List.mem_append_left _ member
      have refused := (extras_of_collect collected).2 debugOption unknown
      rw [room] at refused
      cases refused
    obtain ⟨rfl, -⟩ | ⟨texts, rfl, rfl⟩ := same
    · exact absurd member absent
    · obtain inside | behind := List.mem_append.mp member
      · exact absurd inside absent
      · have other : debugOption ≠ hyphens := by decide
        exact operand_of_collect_separator collected room debugOption
          (List.mem_of_ne_of_mem other behind)
  · intro settled
    obtain none | member := operand_of_collect collected settled
    · cases none
    · obtain ⟨argument, inside, reads⟩ := exists_left_of_mem (forall₂_readsAs read) member
      rwa [reads.eq_of_plain]

end

/-! ## Requests -/

/-- The operand of a command. -/
def Command.operand? : Command → Option Text
  | render file _ _ _ => file
  | classify file _ => file
  | examples name => name

theorem Command.operand?_ofCollected (taken : Collected) (name : CommandName) :
    (ofCollected taken name).operand? = taken.operand.getD none := by
  cases name <;> rfl

/-- The operand that a command line gives its command. -/
def Request.operand? (request : Request) : Option Text :=
  request.command.bind Command.operand?

/-- The arguments before the first one that names a command. -/
def beforeCommand (arguments : List Text) : List Text :=
  arguments.takeWhile fun argument => (CommandName.ofText? argument).isNone

theorem CommandName.eq_text_of_ofText? {word : Text} {name : CommandName}
    (found : ofText? word = some name) : word = name.text := by
  have same := List.find?_some found
  exact (beq_iff_eq.mp same).symm

theorem refuse_eq_ok {extras : List Text} {done : Unit} (room : refuse extras = .ok done) :
    extras = [] := by
  unfold refuse at room
  split at room
  · next none => exact List.isEmpty_iff.mp none
  · cases room

/-- Where a command is understood, there is room for all of it. -/
structure IsUnderstood (extras behind : List Text) (command : Option Command) : Prop where
  extras : extras = []
  command : behind = [] ∧ command = none ∨ ∃ name arguments words taken,
    behind = CommandName.text name :: arguments ∧ name.grammar.words arguments = .ok words ∧
      collect name.grammar {} words = .ok taken ∧ taken.extras = [] ∧
      command = some (.ofCollected taken name)

theorem isUnderstood_of_readCommand {extras behind : List Text} {command : Option Command}
    (read : readCommand extras behind = .ok command) : IsUnderstood extras behind command := by
  cases behind with
  | nil =>
      obtain ⟨done, room, rfl⟩ := map_eq_ok_iff.mp read
      exact ⟨refuse_eq_ok room, .inl ⟨rfl, rfl⟩⟩
  | cons word arguments =>
      simp only [readCommand] at read
      split at read
      · obtain ⟨done, room, -⟩ := map_eq_ok_iff.mp read
        exact absurd (refuse_eq_ok room)
          (List.append_ne_nil_of_right_ne_nil _ (List.cons_ne_nil _ _))
      · split at read
        · cases read
        · next name found =>
            obtain ⟨words, own, read⟩ := bind_eq_ok_iff.mp read
            obtain ⟨taken, collected, read⟩ := bind_eq_ok_iff.mp read
            obtain ⟨done, room, read⟩ := bind_eq_ok_iff.mp read
            cases read
            obtain ⟨before, behind⟩ := List.append_eq_nil_iff.mp (refuse_eq_ok room)
            refine ⟨before, .inr ⟨name, arguments, words, taken, ?_,
              Grammar.eq_ok_of_mapError_usage own, collected, behind, rfl⟩⟩
            rw [CommandName.eq_text_of_ofText? found]

theorem IsUnderstood.debugOption_mem_iff {extras behind : List Text} {command : Option Command}
    (understood : IsUnderstood extras behind command) :
    debugOption ∈ behind ↔ command.bind Command.operand? = some debugOption := by
  obtain ⟨rfl, rfl⟩ | ⟨name, arguments, words, taken, rfl, read, collected, room, rfl⟩ :=
    understood.command
  · exact iff_of_false List.not_mem_nil nofun
  · have other : debugOption ≠ name.text := by cases name <;> decide
    have settled : (Command.ofCollected taken name).operand? = some debugOption ↔
        taken.operand = some (some debugOption) := by
      rw [Command.operand?_ofCollected]
      cases taken.operand with
      | none => exact iff_of_false nofun nofun
      | some operand => exact (Option.some_inj).symm
    rw [Option.bind_some, settled, ← debugOption_mem_iff_of_collect read collected room,
      List.mem_cons, or_iff_right other]

/-- A command line that is understood: what stands before the command, each argument with its word,
and what stands behind it. -/
structure Splits (arguments : List Text) (request : Request)
    (before : List (Text × Word GeneralKey)) (leading : Leading) : Prop where
  arguments : arguments = before.map Prod.fst ++ leading.rest
  words : ∀ entry ∈ before, generalGrammar.word entry.1 = .ok entry.2
  leads : Leads {} before leading
  understood : IsUnderstood leading.extras leading.rest request.command
  isDebugging : request.isDebugging = (lastGiven .debug leading.given).isSome

theorem exists_splits {arguments : List Text} {request : Request}
    (read : Request.read arguments = .ok request) :
    ∃ before leading, Splits arguments request before leading := by
  rw [Request.read_eq] at read
  obtain ⟨leading, led, read⟩ := bind_eq_ok_iff.mp read
  obtain ⟨command, understood, rfl⟩ := map_eq_ok_iff.mp read
  obtain ⟨before, whole, words, leads⟩ := exists_leads_of_read led
  exact ⟨before, leading, whole, words, leads, isUnderstood_of_readCommand understood, rfl⟩

namespace Splits

variable {arguments : List Text} {request : Request} {before : List (Text × Word GeneralKey)}
variable {leading : Leading}

/-- The first argument that names a command is the command. -/
theorem beforeCommand_eq (splits : Splits arguments request before leading) :
    beforeCommand arguments = before.map Prod.fst := by
  have none : ∀ argument ∈ before.map Prod.fst, (CommandName.ofText? argument).isNone = true := by
    intro argument member
    obtain ⟨⟨argument, word⟩, inside, rfl⟩ := List.mem_map.mp member
    rw [Option.isNone_iff_eq_none, Option.eq_none_iff_forall_ne_some]
    intro name found
    obtain rfl : argument = name.text := CommandName.eq_text_of_ofText? found
    have plain : generalGrammar.word name.text = .ok (.plain name.text) := by
      cases name <;> decide
    obtain rfl := Except.ok.inj (plain.symm.trans (splits.words _ inside))
    have value := splits.leads.values _ _ inside
    have other : name.text ∉ formatWords := by cases name <;> decide
    exact other value
  rw [beforeCommand, splits.arguments, List.takeWhile_append_of_pos none]
  obtain ⟨rest, -⟩ | ⟨name, following, -, -, rest, -⟩ := splits.understood.command
  · rw [rest, List.takeWhile_nil, List.append_nil]
  · have found : (CommandName.ofText? name.text).isNone = false := by cases name <;> decide
    rw [rest, List.takeWhile_cons_of_neg (by simp [found]), List.append_nil]

/-- Debugging is asked for by an argument before the command that is the option for it, in full or
shortened. -/
theorem isDebugging_iff (splits : Splits arguments request before leading) :
    request.isDebugging = true ↔
      ∃ argument ∈ beforeCommand arguments, Shortens debugOption argument := by
  have given : request.isDebugging = true ↔ ∃ value, (.debug, value) ∈ leading.given := by
    rw [splits.isDebugging, ← Option.not_isNone, Bool.not_eq_true', Bool.eq_false_iff, ne_eq,
      Option.isNone_iff_eq_none, lastGiven_eq_none_iff, not_forall_not]
  have long : (debugOption, GeneralKey.debug) ∈ longOptions := by decide
  rw [given, splits.beforeCommand_eq]
  constructor
  · rintro ⟨value, member⟩
    obtain ⟨start, attached, shortens, stands⟩ :=
      splits.leads.exists_of_given splits.words long member
    obtain rfl := splits.leads.flags _ _ _ stands
    exact ⟨start, List.mem_map.mpr ⟨_, stands, rfl⟩, shortens⟩
  · rintro ⟨argument, member, shortens⟩
    obtain ⟨⟨argument, word⟩, inside, rfl⟩ := List.mem_map.mp member
    have own := word_of_shortens long shortens
    obtain rfl := Except.ok.inj (own.symm.trans (splits.words _ inside))
    exact (splits.leads.given .debug).mpr (.inr ⟨argument, debugOption, none, inside⟩)

/-- The search for the option for debugging finds it before the command, spelled out in full, or as
the operand. -/
theorem showsLog_iff (splits : Splits arguments request before leading) :
    showsLog none arguments = true ↔
      debugOption ∈ beforeCommand arguments ∨ request.operand? = some debugOption := by
  have found : showsLog none arguments = true ↔ debugOption ∈ arguments := by
    simp [showsLog]
  rw [found, splits.beforeCommand_eq, Request.operand?, ← splits.understood.debugOption_mem_iff,
    splits.arguments, List.mem_append]

end Splits

/-! ## The form of failures -/

theorem announcedFormat_cons_of_ne {argument : Text} (other : argument ≠ formatOption)
    (arguments : List Text) :
    announcedFormat (argument :: arguments) = announcedFormat arguments := by
  have passed : (argument :: arguments).dropWhile (· != formatOption) =
      arguments.dropWhile (· != formatOption) := List.dropWhile_cons_of_pos (bne_iff_ne.mpr other)
  rw [announcedFormat, announcedFormat, passed]

/-- The option for JSON is announced if it is spelled out in full with its value behind it. -/
theorem announcedFormat_eq_json_iff {spelling : List Text} (spells : SpellsJson spelling)
    (rest : List Text) : announcedFormat (spelling ++ rest) = .json ↔
      spelling = [formatOption, ErrorFormat.json.name] ∨ announcedFormat rest = .json := by
  obtain ⟨words, spells⟩ := spellsJson_iff.mp spells
  cases spells with
  | @apart start shortens =>
      by_cases whole : start = formatOption
      · subst whole
        exact iff_of_true (announcedFormat_cons .json rest) (.inl rfl)
      · have different : [start, ErrorFormat.json.name] ≠ [formatOption, ErrorFormat.json.name] :=
          fun same => whole (List.cons.inj same).1
        have value : ErrorFormat.json.name ≠ formatOption := by decide
        rw [or_iff_right different, List.cons_append, announcedFormat_cons_of_ne whole,
          List.cons_append, announcedFormat_cons_of_ne value, List.nil_append]
  | @attached start shortens =>
      have different : [attach start (some ErrorFormat.json.name)] ≠
          [formatOption, ErrorFormat.json.name] :=
        fun same => nomatch (List.cons.inj same).2
      have other : attach start (some ErrorFormat.json.name) ≠ formatOption := by
        have sign : '=' ∉ formatOption := by decide
        intro same
        rw [← same] at sign
        exact sign (List.mem_append_right start List.mem_cons_self)
      rw [or_iff_right different, List.cons_append, announcedFormat_cons_of_ne other,
        List.nil_append]

/-- What is read behind the option for JSON asks for JSON. -/
theorem reportedFormat_eq_json_iff {spelling rest : List Text} (spells : SpellsJson spelling)
    (noFurther : ¬ Gives .errorFormat rest) : reportedFormat (spelling ++ rest) = .json ↔
      (∃ request, Request.read (spelling ++ rest) = .ok request) ∨
        spelling = [formatOption, ErrorFormat.json.name] ∨ announcedFormat rest = .json := by
  obtain ⟨words, spelled⟩ := spellsJson_iff.mp spells
  have read := spelled.request_append noFurther
  cases later : Request.read rest with
  | ok request =>
      rw [later] at read
      rw [reportedFormat, read]
      exact iff_of_true rfl (.inl ⟨_, rfl⟩)
  | error stop =>
      rw [later] at read
      rw [reportedFormat, read]
      have refused : ¬ ∃ request, Except.map (fun request : Request =>
          { request with format := .json }) (Except.error stop) = .ok request := by
        rintro ⟨request, same⟩
        cases same
      rw [or_iff_right refused]
      exact announcedFormat_eq_json_iff spells rest

theorem Failure.record_eq_jsonRecord_iff (failure : Failure) (form : ErrorFormat) :
    failure.record form = failure.jsonRecord ↔ form = .json := by
  cases form with
  | json => exact iff_of_true rfl rfl
  | text =>
      refine iff_of_false (fun same => ?_) nofun
      have letter : some 'e' = some '{' := congrArg List.head? same
      cases letter

/-! ## What debugging shows -/

theorem Failure.exists_record_eq (failure : Failure) (form : ErrorFormat) :
    ∃ text, failure.record form = text ++ ['\n'] := by
  cases form with
  | json => exact ⟨_, failure.jsonRecord_eq⟩
  | text =>
      unfold record plainRecord
      cases failure.hint? with
      | none => exact ⟨_, List.append_nil _⟩
      | some hint => exact ⟨_, (List.append_assoc _ _ _).symm⟩

/-- A report of a failure ends with a trace just if debugging shows it. -/
theorem Outcome.isSuffix_traceback_iff {report : Report} {failure : Failure}
    (failed : report.result = .error failure) (format : ErrorFormat) (isDebugging : Bool) :
    traceback <:+ (ofReport format isDebugging report).errors ↔ isDebugging = true := by
  cases isDebugging with
  | true =>
      simp only [ofReport, failed, if_true]
      exact iff_of_true (List.suffix_append _ _) trivial
  | false =>
      rw [ofReport_quiet_of_error failed]
      refine iff_of_false ?_ Bool.false_ne_true
      rintro ⟨before, same⟩
      obtain ⟨text, record⟩ := failure.exists_record_eq format
      have last := congrArg List.getLast? (same.trans record)
      rw [List.getLast?_append, List.getLast?_concat] at last
      cases last

/-- A run with arguments that are understood ends with a report, which shows what the search for the
option for debugging lets it show. -/
theorem run_of_read {State : Type} {font : Font} {files : FileSystem State}
    {arguments : List Text} {request : Request}
    (read : Request.read arguments = .ok request) (input : StandardInput) (state : State) :
    (run font files none arguments input state).1 =
      .finished (.ofReport request.format (showsLog none arguments)
        ((follow font request.command).run files input state).1) := by
  cases arguments with
  | nil =>
      have nothing : Request.read [] = .ok ⟨.text, false, none⟩ := rfl
      cases nothing.symm.trans read
      rfl
  | cons argument arguments =>
      rw [run, converse, List.isEmpty_cons, if_neg Bool.false_ne_true, read]
      exact congrArg Prod.fst (Dialogue.run_map _ _ _ _ _)

/-! ## Both searches -/

/-- A run whose arguments begin with the option for JSON, in any of its spellings, and ask for no
other form reports its failure in JSON just if the arguments are understood, or the search comes
upon the option spelled out in full with that value.  Arguments that are understood ask for
debugging just if the option for it stands before the command, in full or shortened, and a failure
is traced just if it is spelled out in full there, or is the operand. -/
theorem announced_iff {State : Type} (font : Font) (files : FileSystem State)
    (input : StandardInput) (state : State) :
    (∀ (debugVariable : Option Text) (spelling rest : List Text) (outcome : Outcome),
      SpellsJson spelling → ¬ Gives .errorFormat rest →
      showsLog debugVariable (spelling ++ rest) = false →
      (run font files debugVariable (spelling ++ rest) input state).1 = .finished outcome →
      outcome.status ≠ 0 →
      ∃ failure, failure? font files (spelling ++ rest) input state = some failure ∧
        (outcome.errors = failure.jsonRecord ↔
          (∃ request, Request.read (spelling ++ rest) = .ok request) ∨
            spelling = ["--error-format", "json"] ∨ announcedFormat rest = .json)) ∧
    ∀ arguments request, Request.read arguments = .ok request →
      (request.isDebugging = true ↔
        ∃ argument ∈ beforeCommand arguments, Shortens debugOption argument) ∧
      (showsLog none arguments = true ↔
        debugOption ∈ beforeCommand arguments ∨ request.operand? = some debugOption) ∧
      ∃ outcome, (run font files none arguments input state).1 = .finished outcome ∧
        (outcome.status ≠ 0 →
          (Outcome.traceback <:+ outcome.errors ↔ showsLog none arguments = true)) := by
  constructor
  · intro debugVariable spelling rest outcome spells noFurther quiet ends failed
    obtain ⟨failure, found, rfl⟩ := exists_failure_of_run quiet ends failed
    refine ⟨failure, found, ?_⟩
    exact (failure.record_eq_jsonRecord_iff _).trans (reportedFormat_eq_json_iff spells noFurther)
  · intro arguments request read
    obtain ⟨before, leading, splits⟩ := exists_splits read
    refine ⟨splits.isDebugging_iff, splits.showsLog_iff, _, run_of_read read input state, ?_⟩
    intro failed
    cases result : ((follow font request.command).run files input state).1.result with
    | ok output => exact absurd (Outcome.ofReport_of_ok result _ _).1 failed
    | error failure => exact Outcome.isSuffix_traceback_iff result _ _

/-- The option for JSON is shortened and has its value attached, and the one for debugging is
shortened before the command and spelled out behind two hyphens. -/
theorem announced_iff_of_shortened :
    let spelling : List Text := ["--e=json"]
    let rest : List Text := ["examples", "nope"]
    let others : List Text := ["--d", "examples", "--", "--debug"]
    let ending arguments :=
      (run .bundled FileTree.system none arguments .terminal { entries := [] }).1
    SpellsJson spelling ∧ ¬ Gives .errorFormat rest ∧
      (∃ outcome, ending (spelling ++ rest) = .finished outcome ∧
        outcome.errors = (Failure.unknownExample "nope").jsonRecord) ∧
      ∃ request outcome, Request.read others = .ok request ∧ request.isDebugging = true ∧
        ending others = .finished outcome ∧ Outcome.traceback <:+ outcome.errors := by
  intro spelling rest others ending
  have spells : SpellsJson spelling :=
    spellsJson_iff.mpr ⟨_, .attached (by decide : Shortens formatOption "--e")⟩
  have noFurther : ¬ Gives .errorFormat rest := not_gives_of_word (by decide) _ _
  obtain ⟨inJson, traces⟩ := announced_iff .bundled FileTree.system .terminal { entries := [] }
  refine ⟨spells, noFurther, ?_, ?_⟩
  · have own : failure? .bundled FileTree.system (spelling ++ rest) .terminal { entries := [] } =
        some (.unknownExample "nope") := by
      decide +kernel
    have read : Request.read (spelling ++ rest) =
        .ok ⟨.json, false, some (.examples (some "nope"))⟩ := by decide +kernel
    have ends : ending (spelling ++ rest) = .finished (.failed .json (.unknownExample "nope")) := by
      decide +kernel
    obtain ⟨failure, found, json⟩ := inJson none spelling rest _ spells noFurther
      (by decide +kernel) ends (Outcome.status_failed_ne_zero _ _)
    obtain rfl := Option.some.inj (own.symm.trans found)
    exact ⟨_, ends, json.mpr (.inl ⟨_, read⟩)⟩
  · have read : Request.read others = .ok ⟨.text, true, some (.examples (some "--debug"))⟩ := by
      decide +kernel
    have shortened : "--d".toList ∈ beforeCommand others := by decide +kernel
    obtain ⟨asks, searched, outcome, ends, traced⟩ := traces others _ read
    have failed : outcome.status ≠ 0 := by
      intro success
      have status : (match ending others with
          | .finished outcome => outcome.status != 0
          | .help => false) = true := by
        decide +kernel
      rw [show ending others = .finished outcome from ends] at status
      simp [success] at status
    have shows : showsLog none others = true := searched.mpr (.inr rfl)
    exact ⟨_, outcome, read, asks.mpr ⟨_, shortened, by decide⟩, ends, (traced failed).mpr shows⟩

/-- The search does not see the option for JSON with an equals sign, nor the one for debugging if it
is shortened. -/
theorem announced_ne_read :
    (let spelling : List Text := ["--error-format=json"]
      let rest : List Text := ["bogus"]
      let failure : Failure :=
        .usage (.invalidChoice "command" "bogus" ["render", "classify", "examples"])
      SpellsJson spelling ∧ ¬ Gives .errorFormat rest ∧ showsLog none (spelling ++ rest) = false ∧
        failure? .bundled FileTree.system (spelling ++ rest) .terminal { entries := [] } =
          some failure ∧
        ∃ outcome, (run .bundled FileTree.system none (spelling ++ rest) .terminal
            { entries := [] }).1 = .finished outcome ∧
          outcome.status ≠ 0 ∧ outcome.errors ≠ failure.jsonRecord) ∧
      let arguments : List Text := ["--deb", "examples", "nope"]
      ∃ request, Request.read arguments = .ok request ∧ request.isDebugging = true ∧
        showsLog none arguments = false := by
  constructor
  · intro spelling rest failure
    have spells : SpellsJson spelling :=
      spellsJson_iff.mpr ⟨_, .attached (by decide : Shortens formatOption formatOption)⟩
    have noFurther : ¬ Gives .errorFormat rest := not_gives_of_word (by decide) _ _
    have ends : (run .bundled FileTree.system none (spelling ++ rest) .terminal
        { entries := [] }).1 = .finished (.failed .text failure) := by
      decide +kernel
    exact ⟨spells, noFurther, by decide +kernel, by decide +kernel, _, ends,
      Outcome.status_failed_ne_zero _ _, by decide +kernel⟩
  · intro arguments
    have read : Request.read arguments = .ok ⟨.text, true, some (.examples (some "nope"))⟩ := by
      decide +kernel
    exact ⟨_, read, rfl, by decide +kernel⟩

end DiagramSketch.CommandLine
