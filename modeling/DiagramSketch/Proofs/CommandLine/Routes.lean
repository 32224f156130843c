import DiagramSketch.Proofs.CommandLine.GeneralOptions
import DiagramSketch.Proofs.CommandLine.Run
import DiagramSketch.Proofs.Diagram.Document
import DiagramSketch.Proofs.Text.LineEnds
import DiagramSketch.Proofs.Text.Utf8

/-!
# Routes of a source

A source comes from a file, from standard input or with an option.  It does not matter which of
them it takes, nor how its lines end on the way: a command makes the same of it.  Only two hyphens
are no text for the option.
-/

namespace DiagramSketch.CommandLine

variable {State : Type} {font : Font} {files : FileSystem State} {command : CommandName}
variable {input : StandardInput} {state : State} {source : Text}

/-! ## Sources -/

theorem notEmpty_of_lines_eq_nil (none : Text.sourceLines source = []) :
    notEmpty source = .error .emptySource :=
  if_pos (List.all_eq_true.mpr (Text.sourceLines_eq_nil_iff.mp none))

theorem notEmpty_of_lines_ne_nil (some : Text.sourceLines source ≠ []) :
    notEmpty source = .ok source :=
  if_neg fun blank => some (Text.sourceLines_eq_nil_iff.mpr (List.all_eq_true.mp blank))

theorem decoded_toUtf8 (source : Text) : decoded (Text.toUtf8 source) = .ok source := by
  rw [decoded, Text.ofUtf8_toUtf8]
  rfl

theorem decodedFile_toUtf8 (source : Text) :
    decodedFile (Text.toUtf8 source) = .ok (Text.unifyLineEnds source) := by
  rw [decodedFile, decoded_toUtf8]
  rfl

/-! ## What a command makes of a source -/

namespace CommandName

/-- What a command prints for a source is made from it, up to the end of the line. -/
def Makes (font : Font) (source made : Text) : CommandName → Prop
  | render => DiagramSketch.render font source = .ok made
  | classify => made = (Kind.classify (Text.sourceLines source)).name
  | examples => False

/-- The arguments that have a command print what it makes of a file. -/
def printing : CommandName → List Text
  | render => ["--stdout"]
  | classify | examples => []

/-- The job of printing what a command makes of a source. -/
def jobOn (origin : Origin) : CommandName → Job
  | render => .render origin .standardOutput
  | classify => .classify origin
  | examples => .examples none

/-- What comes of the job once the source has been fetched. -/
def reportOn (font : Font) (command : CommandName) : Except Failure Text → Report
  | .error failure => { events := [], result := .error failure }
  | .ok source =>
      match command with
      | render =>
          { events := (rendering font source).events
            result :=
              ((DiagramSketch.render font source).mapError .unrenderable).map (· ++ ['\n']) }
      | classify | examples => Job.classified source

/-- The outcome of a run whose source is this one. -/
def outcomeOn (font : Font) (command : CommandName) (debugVariable : Option Text)
    (source : Text) : Outcome :=
  .ofReport .text (showsLog debugVariable []) (command.reportOn font (notEmpty source))

theorem run_perform_jobOn (reads : command ≠ .examples) (origin : Origin) :
    ((command.jobOn origin).perform font).run files input state =
      (command.reportOn font (origin.fetch.run files input state).1, state) := by
  cases command with
  | examples => exact absurd rfl reads
  | classify =>
      simp only [jobOn, Job.perform, Dialogue.run_map, origin.run_fetch_snd]
      cases (origin.fetch.run files input state).1 <;> rfl
  | render =>
      simp only [jobOn, Job.run_perform_render]
      cases (origin.fetch.run files input state).1 with
      | error failure => rfl
      | ok source =>
          simp only [Job.drawn, reportOn, DiagramSketch.render]
          cases (rendering font source).result <;> rfl

/-- A command sees nothing of its source but the lines. -/
theorem reportOn_notEmpty_congr {other : Text}
    (same : Text.sourceLines other = Text.sourceLines source) :
    command.reportOn font (notEmpty other) = command.reportOn font (notEmpty source) := by
  by_cases none : Text.sourceLines source = []
  · rw [notEmpty_of_lines_eq_nil none, notEmpty_of_lines_eq_nil (same.trans none)]
  · have some : Text.sourceLines other ≠ [] := fun nothing => none (same.symm.trans nothing)
    rw [notEmpty_of_lines_ne_nil none, notEmpty_of_lines_ne_nil some]
    cases command <;>
      simp only [reportOn, DiagramSketch.render, rendering, Job.classified, same]

end CommandName

/-! ## Reading the requests -/

section

variable {argument : Text} {arguments : List Text}

theorem Grammar.words_cons {Key : Type} [DecidableEq Key] {grammar : Grammar Key}
    {first : Word Key} {rest : List (Word Key)} (other : argument ≠ hyphens)
    (own : grammar.word argument = .ok first) (later : grammar.words arguments = .ok rest) :
    grammar.words (argument :: arguments) = .ok (first :: rest) := by
  rw [words, if_neg other, own, later]
  rfl

theorem Request.read_command {general : List (Word GeneralKey)} {words : List (Word CommandKey)}
    {taken : Collected} (known : generalGrammar.words arguments = .ok general)
    (read : command.grammar.words arguments = .ok words)
    (collected : collect command.grammar {} words = .ok taken) (room : taken.extras = []) :
    Request.read (command.text :: arguments) = .ok
      { format := .text, isDebugging := false, command := some (.ofCollected taken command) } := by
  have other : command.text ≠ hyphens := by cases command <;> decide
  have own : generalGrammar.word command.text = .ok (.plain command.text) := by
    cases command <;> decide
  have found : CommandName.ofText? command.text = some command := by cases command <;> decide
  have aligned : (arguments.zip general).map Prod.fst = arguments :=
    List.map_fst_zip (forall₂_words known).length_eq.le
  have led : lead {} ((command.text :: arguments).zip (.plain command.text :: general)) =
      .ok { rest := command.text :: (arguments.zip general).map Prod.fst } := rfl
  rw [aligned] at led
  have followed : readCommand [] (command.text :: arguments) =
      .ok (some (.ofCollected taken command)) := by
    rw [readCommand, if_neg fun same => other same.1, found]
    refine bind_eq_ok_iff.mpr ⟨words, by rw [read]; rfl, ?_⟩
    refine bind_eq_ok_iff.mpr ⟨taken, collected, ?_⟩
    rw [room]
    rfl
  refine bind_eq_ok_iff.mpr ⟨.plain command.text :: general, ?_, ?_⟩
  · rw [Grammar.words_cons other own known]
    rfl
  · exact bind_eq_ok_iff.mpr ⟨_, led, bind_eq_ok_iff.mpr ⟨_, followed, rfl⟩⟩

/-- Where it is open what an argument before a command means, it may be short for the help, as it
may behind the command. -/
theorem exists_help_candidate (several : 1 < (generalGrammar.candidates argument).length)
    (command : CommandName) :
    ∃ attached, (.help, "--help".toList, attached) ∈ command.grammar.candidates argument := by
  by_cases long : hyphens <+: argument
  · obtain ⟨start, attached, -, ⟨rest, rfl⟩, same⟩ := exists_start_of_long long
    rw [same, List.length_map] at several
    rw [same]
    cases rest with
    | nil =>
        refine ⟨attached, List.mem_map.mpr ⟨("--help", .help), List.mem_filter.mpr ⟨?_, rfl⟩, rfl⟩⟩
        cases command <;> decide
    | cons letter rest =>
        -- The third letters are different.
        refine absurd several (Nat.not_lt.mpr ?_)
        refine length_filter_le_one (fun entry => entry.1[2]?) (some letter) (by decide) ?_
        intro entry _ begins
        obtain ⟨more, whole⟩ := List.isPrefixOf_iff_prefix.mp begins
        rw [← whole]
        rfl
  · refine absurd several (Nat.not_lt.mpr ?_)
    have short : hyphens.isPrefixOf argument = false :=
      Bool.eq_false_iff.mpr fun begins => long (List.isPrefixOf_iff_prefix.mp begins)
    rw [Grammar.candidates, short, if_neg Bool.false_ne_true, List.length_map]
    exact length_filter_le_one Prod.fst (argument.take 2) (by decide)
      fun entry _ equal => of_decide_eq_true equal

/-- An argument has no meaning only if it is open which option it is short for. -/
theorem Grammar.several_of_word_eq_error {Key : Type} {grammar : Grammar Key} {error : UsageError}
    (failure : grammar.word argument = .error error) :
    argument.head? = some '-' ∧ argument.length ≠ 1 ∧
      1 < (grammar.candidates argument).length := by
  unfold word at failure
  split at failure
  · cases failure
  · next option =>
      split at failure
      · cases failure
      · split at failure
        · cases failure
        · next long =>
            refine ⟨by simpa using option, long, ?_⟩
            cases found : grammar.candidates argument with
            | nil =>
                rw [found] at failure
                dsimp only at failure
                split at failure <;> cases failure
            | cons first others =>
                cases others with
                | nil =>
                    rw [found] at failure
                    cases failure
                | cons second others => exact Nat.one_lt_succ_succ others.length

/-- An argument with a hyphen is plain only if it is short for no option. -/
theorem Grammar.candidates_eq_nil_of_plain {Key : Type} {grammar : Grammar Key} {text : Text}
    (option : argument.head? = some '-') (long : argument.length ≠ 1)
    (plain : grammar.word argument = .ok (.plain text)) : grammar.candidates argument = [] := by
  unfold word at plain
  rw [if_neg (by simp [option])] at plain
  split at plain
  · next spelled =>
      cases plain
      exact absurd spelled spelledOut?_ne_plain
  · rw [if_neg long] at plain
    split at plain
    · cases plain
    · assumption
    · cases plain

/-- What is plain behind a command has a meaning before it, too. -/
theorem exists_word_of_plain
    (plain : command.grammar.word argument = .ok (.plain argument)) :
    ∃ word, generalGrammar.word argument = .ok word := by
  cases read : generalGrammar.word argument with
  | ok word => exact ⟨word, rfl⟩
  | error error =>
      obtain ⟨option, long, several⟩ := Grammar.several_of_word_eq_error read
      obtain ⟨attached, candidate⟩ := exists_help_candidate several command
      rw [Grammar.candidates_eq_nil_of_plain option long plain] at candidate
      cases candidate

end

/-! ## Routes -/

variable {debugVariable : Option Text}

theorem run_command {arguments : List Text} {general : List (Word GeneralKey)}
    {words : List (Word CommandKey)} {taken : Collected} (quiet : debugOption ∉ arguments)
    (known : generalGrammar.words arguments = .ok general)
    (read : command.grammar.words arguments = .ok words)
    (collected : collect command.grammar {} words = .ok taken) (room : taken.extras = []) :
    run font files debugVariable (command.text :: arguments) input state =
      ((follow font (some (.ofCollected taken command))).map fun report =>
        .finished (.ofReport .text (showsLog debugVariable []) report)).run files input state := by
  have shows : showsLog debugVariable (command.text :: arguments) = showsLog debugVariable [] := by
    have absent : debugOption ∉ command.text :: arguments :=
      List.not_mem_cons_of_ne_of_not_mem (by cases command <;> decide) quiet
    rw [showsLog, showsLog, List.contains_eq_mem, decide_eq_false absent]
    rfl
  rw [run, converse, List.isEmpty_cons, if_neg Bool.false_ne_true,
    Request.read_command known read collected room, shows]

/-- A run that fetches the lines of a source for its command makes of them what there is to make of
the source. -/
theorem run_eq_outcomeOn {arguments : List Text} {general : List (Word GeneralKey)}
    {words : List (Word CommandKey)} {taken : Collected} {origin : Origin} {fetched : Text}
    (reads : command ≠ .examples) (quiet : debugOption ∉ arguments)
    (known : generalGrammar.words arguments = .ok general)
    (read : command.grammar.words arguments = .ok words)
    (collected : collect command.grammar {} words = .ok taken) (room : taken.extras = [])
    (sensible : (Command.ofCollected taken command).job = .ok (command.jobOn origin))
    (fetches : (origin.fetch.run files input state).1 = notEmpty fetched)
    (same : Text.sourceLines fetched = Text.sourceLines source) :
    run font files debugVariable (command.text :: arguments) input state =
      (.finished (command.outcomeOn font debugVariable source), state) := by
  have performed : ((command.jobOn origin).perform font).run files input state =
      (command.reportOn font (notEmpty source), state) := by
    rw [CommandName.run_perform_jobOn reads, fetches, CommandName.reportOn_notEmpty_congr same]
  rw [run_command quiet known read collected room]
  simp only [follow, sensible, Dialogue.run_map, performed, CommandName.outcomeOn]

theorem run_piped (reads : command ≠ .examples) (source : Text) :
    run font files debugVariable [command.text] (.piped (Text.toUtf8 source)) state =
      (.finished (command.outcomeOn font debugVariable source), state) := by
  have sensible : (Command.ofCollected {} command).job = .ok (command.jobOn .standardInput) := by
    cases command <;> rfl
  refine run_eq_outcomeOn reads List.not_mem_nil rfl rfl rfl rfl sensible ?_ rfl
  rw [Origin.fetch, Dialogue.run, Dialogue.run, decoded_toUtf8]
  rfl

theorem run_file (reads : command ≠ .examples) {name : Text} (named : name ≠ [])
    (plain : command.grammar.word name = .ok (.plain name))
    (holds : files.read (.ofText name) state = .content (Text.toUtf8 source)) :
    run font files debugVariable (command.text :: name :: command.printing) input state =
      (.finished (command.outcomeOn font debugVariable source), state) := by
  -- The name is plain behind the command, as neither the separator nor an option is.
  have ne_of_option {option : Text}
      (isOption : command.grammar.word option ≠ .ok (.plain option)) : name ≠ option := by
    rintro rfl
    exact isOption plain
  have other : name ≠ hyphens := ne_of_option (by cases command <;> decide)
  have quiet : debugOption ∉ name :: command.printing :=
    List.not_mem_cons_of_ne_of_not_mem (ne_of_option (by cases command <;> decide)).symm
      (by cases command <;> decide)
  obtain ⟨_, own⟩ := exists_word_of_plain plain
  have fetches : ((Origin.file (.ofText name)).fetch.run files input state).1 =
      notEmpty (Text.unifyLineEnds source) := by
    rw [Origin.fetch, Dialogue.run, holds, Dialogue.run, decodedFile_toUtf8]
    rfl
  have lines := Text.sourceLines_unifyLineEnds source
  obtain ⟨letter, rest, rfl⟩ := List.exists_cons_of_ne_nil named
  cases command with
  | examples => exact absurd rfl reads
  | classify =>
      have known := Grammar.words_cons other own (rfl : generalGrammar.words [] = .ok [])
      have read := Grammar.words_cons other plain
        (rfl : CommandName.classify.grammar.words [] = .ok [])
      exact run_eq_outcomeOn reads quiet known read rfl rfl rfl fetches lines
  | render =>
      have known := Grammar.words_cons other own
        (rfl : generalGrammar.words ["--stdout"] = .ok [.unknown "--stdout"])
      have read := Grammar.words_cons other plain
        (rfl : CommandName.render.grammar.words ["--stdout"] =
          .ok [.option .standardOutput "--stdout" none])
      have collected : collect CommandName.render.grammar {}
          [.plain (letter :: rest), .option .standardOutput "--stdout" none] =
          .ok { given := [(.standardOutput, .flag)], operand := some (some (letter :: rest)) } :=
        (collect_option _ { operand := some (some (letter :: rest)) } _ _ _ _).trans rfl
      exact run_eq_outcomeOn reads quiet known read collected rfl rfl fetches lines

/-! ### A source given with an option -/

theorem exists_words_given (source : Text) :
    ∃ word, generalGrammar.words ["--text=" ++ source] = .ok [word] := by
  have nothing : generalGrammar.candidates ("--text=" ++ source) = [] := rfl
  cases own : generalGrammar.word ("--text=" ++ source) with
  | ok word => exact ⟨word, Grammar.words_cons nofun own rfl⟩
  | error error =>
      obtain ⟨-, -, several⟩ := Grammar.several_of_word_eq_error own
      rw [nothing] at several
      exact absurd several (Nat.not_lt_zero 1)

theorem words_given (reads : command ≠ .examples) (source : Text) :
    command.grammar.words ["--text=" ++ source] = .ok [.option .text "--text" (some source)] := by
  cases command with
  | examples => exact absurd rfl reads
  | _ => rfl

theorem collect_given (command : CommandName) (source : Text) :
    collect command.grammar {} [.option .text "--text" (some source)] =
      .ok { given := [(.text, Grammar.attachedValue source)] } := by
  have takes : command.grammar.takesValue .text = true := by cases command <;> rfl
  have given (value : Value) : command.grammar.give .text value = .ok (.text, value) := by
    cases command <;> cases value <;> rfl
  have taken : command.grammar.take .text "--text" (some source) none =
      .ok { given := [(.text, Grammar.attachedValue source)], usesNext := false } := by
    unfold Grammar.take
    simp only [Grammar.cluster_of_takesValue takes, Except.mapError]
    change (if command.grammar.takesValue .text = true then _ else _) = _
    rw [if_pos takes]
    change (command.grammar.give .text (Grammar.attachedValue source)).bind _ = _
    rw [given]
    rfl
  rw [collect_option]
  refine bind_eq_ok_iff.mpr ⟨_, taken, rfl⟩

theorem quiet_given (source : Text) : debugOption ∉ ["--text=" ++ source] := by
  rw [List.mem_singleton]
  exact nofun

theorem run_given (reads : command ≠ .examples) (text : source ≠ hyphens) :
    run font files debugVariable [command.text, "--text=" ++ source] input state =
      (.finished (command.outcomeOn font debugVariable source), state) := by
  obtain ⟨word, known⟩ := exists_words_given source
  have collected := collect_given command source
  rw [Grammar.attachedValue, if_neg text] at collected
  have sensible : (Command.ofCollected { given := [(.text, .text source)] } command).job =
      .ok (command.jobOn (.given source)) := by
    cases command with
    | examples => exact absurd rfl reads
    | _ => rfl
  exact run_eq_outcomeOn reads (quiet_given source) known (words_given reads source) collected rfl
    sensible rfl rfl

/-- Two hyphens are taken away from the option, which is then left without a source. -/
theorem run_given_hyphens (reads : command ≠ .examples) :
    run font files debugVariable [command.text, "--text=" ++ hyphens] input state =
      (.finished (.ofReport .text (showsLog debugVariable [])
        { events := [], result := .error .valuelessSource }), state) := by
  obtain ⟨word, known⟩ := exists_words_given hyphens
  rw [run_command (quiet_given hyphens) known (words_given reads hyphens)
    (collect_given command hyphens) rfl]
  cases command with
  | examples => exact absurd rfl reads
  | _ => rfl

/-! ## The outcome -/

namespace CommandName

theorem outcomeOn_of_lines_eq_nil (none : Text.sourceLines source = []) :
    command.outcomeOn font debugVariable source = .ofReport .text (showsLog debugVariable [])
      { events := [], result := .error .emptySource } := by
  rw [outcomeOn, notEmpty_of_lines_eq_nil none]
  rfl

/-- A command that makes something of a source prints it with the end of the line. -/
theorem outcomeOn_of_makes {made : Text} (some : Text.sourceLines source ≠ [])
    (makes : command.Makes font source made) :
    (command.outcomeOn font debugVariable source).status = 0 ∧
      (command.outcomeOn font debugVariable source).output = made ++ ['\n'] := by
  rw [outcomeOn, notEmpty_of_lines_ne_nil some]
  cases command with
  | examples => exact makes.elim
  | classify =>
      obtain rfl := makes
      exact ⟨rfl, rfl⟩
  | render =>
      have drawn : DiagramSketch.render font source = .ok made := makes
      rw [reportOn, drawn]
      exact ⟨rfl, rfl⟩

/-- A source with lines is refused for nothing but what cannot be drawn of it. -/
theorem status_outcomeOn_of_lines_ne_nil (some : Text.sourceLines source ≠ []) :
    (command.outcomeOn font debugVariable source).status = 0 ∨
      (command.outcomeOn font debugVariable source).status = FailureCode.rendering.status := by
  rw [outcomeOn, notEmpty_of_lines_ne_nil some]
  cases command with
  | render =>
      rw [reportOn]
      cases DiagramSketch.render font source with
      | ok document => exact .inl rfl
      | error fault => exact .inr rfl
  | _ => exact .inl rfl

theorem exists_makes_of_status_eq_zero (reads : command ≠ .examples)
    (success : (command.outcomeOn font debugVariable source).status = 0) :
    Text.sourceLines source ≠ [] ∧ ∃ made, command.Makes font source made := by
  by_cases none : Text.sourceLines source = []
  · rw [outcomeOn_of_lines_eq_nil none] at success
    cases success
  · refine ⟨none, ?_⟩
    cases command with
    | examples => exact absurd rfl reads
    | classify => exact ⟨_, rfl⟩
    | render =>
        cases drawn : DiagramSketch.render font source with
        | ok document => exact ⟨document, drawn⟩
        | error fault =>
            rw [outcomeOn, notEmpty_of_lines_ne_nil none, reportOn, drawn] at success
            cases success

theorem getLast?_of_makes {made : Text} (makes : command.Makes font source made) :
    made.getLast? ≠ some '\n' := by
  cases command with
  | examples => exact makes.elim
  | classify =>
      obtain rfl := makes
      cases Kind.classify (Text.sourceLines source) <;> decide
  | render =>
      rw [getLast?_render makes]
      decide

end CommandName

/-- A command makes the same of a source, be it in a file, on standard input or given with an
option; only two hyphens cannot be given like this.  It prints what it makes, which ends with one
line feed, and refuses a source as empty exactly when it has no lines. -/
theorem routes_agree (font : Font) (debugVariable : Option Text) (source : Text)
    (reads : command ≠ .examples) :
    ∃ outcome : Outcome,
      (∀ (State : Type) (files : FileSystem State) (state : State),
        (run font files debugVariable [command.text] (.piped (Text.toUtf8 source)) state =
          (.finished outcome, state)) ∧
        (∀ name input, name ≠ [] → command.grammar.word name = .ok (.plain name) →
          files.read (.ofText name) state = .content (Text.toUtf8 source) →
          run font files debugVariable (command.text :: name :: command.printing) input state =
            (.finished outcome, state)) ∧
        ∀ input, run font files debugVariable [command.text, "--text=" ++ source] input state =
          (.finished outcome, state) ↔ source ≠ hyphens) ∧
      (outcome.status = 0 ↔
        Text.sourceLines source ≠ [] ∧ ∃ made, command.Makes font source made) ∧
      (∀ made, outcome.status = 0 → command.Makes font source made →
        outcome.output = made ++ ['\n'] ∧ made.getLast? ≠ some '\n') ∧
      (outcome = .ofReport .text (showsLog debugVariable [])
        { events := [], result := .error .emptySource } ↔ Text.sourceLines source = []) := by
  refine ⟨command.outcomeOn font debugVariable source, fun State files state =>
    ⟨run_piped reads source, fun name input named plain holds => run_file reads named plain holds,
      fun input => ⟨?_, run_given reads⟩⟩,
    ⟨CommandName.exists_makes_of_status_eq_zero reads, ?_⟩, ?_,
    ?_, CommandName.outcomeOn_of_lines_eq_nil⟩
  · -- Two hyphens are a source with a line, which cannot be refused like a missing one.
    rintro same rfl
    rw [run_given_hyphens reads, Prod.mk.injEq, Ending.finished.injEq] at same
    have some : Text.sourceLines hyphens ≠ [] := by decide
    have status : (command.outcomeOn font debugVariable hyphens).status = 0 ∨
        (command.outcomeOn font debugVariable hyphens).status = FailureCode.rendering.status :=
      CommandName.status_outcomeOn_of_lines_ne_nil some
    rw [← same.1] at status
    revert status
    cases showsLog debugVariable [] <;> decide
  · rintro ⟨some, made, makes⟩
    exact (CommandName.outcomeOn_of_makes some makes).1
  · intro made success makes
    have some := (CommandName.exists_makes_of_status_eq_zero reads success).1
    exact ⟨(CommandName.outcomeOn_of_makes some makes).2, CommandName.getLast?_of_makes makes⟩
  · intro refused
    by_contra some
    have status : (command.outcomeOn font debugVariable source).status = 0 ∨
        (command.outcomeOn font debugVariable source).status = FailureCode.rendering.status :=
      CommandName.status_outcomeOn_of_lines_ne_nil some
    rw [refused] at status
    revert status
    cases showsLog debugVariable [] <;> decide

/-- Two hyphens are classified from standard input, but not with the option. -/
theorem run_given_ne_piped :
    let files : FileTree := { entries := [] }
    (run .bundled FileTree.system none ["classify", "--text=--"] .terminal files).1 ≠
      (run .bundled FileTree.system none ["classify"] (.piped (Text.toUtf8 "--")) files).1 := by
  decide +kernel

/-- Carriage returns in a file are no matter. -/
theorem routes_agree_carriage_returns :
    let source : Text := "A -> B\r\nB --> A\r"
    let tree : FileTree := { entries := [(["a.puml"], .file (Text.toUtf8 source))] }
    CommandName.render ≠ .examples ∧ ∃ outcome document,
      (run .bundled FileTree.system none ["render", "a.puml", "--stdout"] .terminal tree).1 =
        .finished outcome ∧
      DiagramSketch.render .bundled source = .ok document ∧
      outcome.status = 0 ∧ outcome.output = document ++ ['\n'] := by
  intro source tree
  have reads : CommandName.render ≠ .examples := by decide
  obtain ⟨outcome, same, success, printed, -⟩ := routes_agree .bundled none source reads
  obtain ⟨-, file, -⟩ := same FileTree FileTree.system tree
  have plain : CommandName.render.grammar.word "a.puml" = .ok (.plain "a.puml") := by decide
  have holds : FileTree.read (.ofText "a.puml") tree = .content (Text.toUtf8 source) := by decide
  have ran := file "a.puml" .terminal nofun plain holds
  have short : source.length < Text.capacity := by decide
  have rendered : ∃ document, DiagramSketch.render .bundled source = .ok document :=
    exists_render_sequence short (by decide)
  obtain ⟨document, drawn⟩ := rendered
  have done : outcome.status = 0 := success.mpr ⟨by decide, document, drawn⟩
  exact ⟨reads, outcome, document, congrArg Prod.fst ran, drawn, done,
    (printed document done drawn).1⟩

end DiagramSketch.CommandLine
