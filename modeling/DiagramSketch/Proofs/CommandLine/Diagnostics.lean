import DiagramSketch.Proofs.CommandLine.Leading
import DiagramSketch.Proofs.CommandLine.Run

/-!
# Diagnostics

Whether a run tells what happens on the way, and in which form it reports a failure, is seen in what
it prints as errors and nowhere else.
-/

namespace DiagramSketch.CommandLine

/-- An ending without what it prints as errors. -/
def Ending.withoutErrors : Ending → Ending
  | help => help
  | finished outcome => finished { outcome with errors := [] }

namespace Dialogue

variable {State α β : Type}

/-- The writes that are tried while a dialogue is answered, each with its text and with what comes
of it. -/
def written (files : FileSystem State) (input : StandardInput) :
    Dialogue α → State → List (Path × Text × Except WriteError Unit)
  | done _, _ => []
  | askInput next, state => written files input (next input) state
  | readFile path next, state => written files input (next (files.read path state)) state
  | writeFile path text next, state =>
      let (answer, left) := files.write path text state
      (path, text, answer) :: written files input (next answer) left

/-- A change of the result is none of what is written. -/
theorem written_map (files : FileSystem State) (input : StandardInput) (change : α → β)
    (dialogue : Dialogue α) (state : State) :
    (dialogue.map change).written files input state = dialogue.written files input state := by
  induction dialogue generalizing state with
  | done result => rfl
  | askInput next induction => exact induction input state
  | readFile path next induction => exact induction (files.read path state) state
  | writeFile path text next induction =>
      simp only [map, andThen, written]
      exact congrArg _ (induction _ _)

end Dialogue

/-- Two runs differ in nothing but what they print as errors, whatever the files are. -/
structure AgreesBesideErrors (first second : Dialogue Ending) : Prop where
  ending {State : Type} (files : FileSystem State) (input : StandardInput) (state : State) :
    (first.run files input state).1.withoutErrors = (second.run files input state).1.withoutErrors
  written {State : Type} (files : FileSystem State) (input : StandardInput) (state : State) :
    first.written files input state = second.written files input state
  left {State : Type} (files : FileSystem State) (input : StandardInput) (state : State) :
    (first.run files input state).2 = (second.run files input state).2

/-! ## What is asked for -/

/-- What a run does, once it is known what its arguments ask for. -/
def respond (font : Font) (format : ErrorFormat) (isDebugging : Bool) :
    Except Stop (Option Command) → Dialogue Ending
  | .error .help => .done .help
  | .error (.usage error) => .done (.finished (.failed format (.usage error)))
  | .ok command =>
      (follow font command).map fun report => .finished (.ofReport format isDebugging report)

theorem withoutErrors_ofReport_congr (format otherFormat : ErrorFormat)
    (isDebugging otherDebugging : Bool) (report : Report) :
    (Ending.finished (.ofReport format isDebugging report)).withoutErrors =
      (Ending.finished (.ofReport otherFormat otherDebugging report)).withoutErrors := by
  simp only [Outcome.ofReport]
  cases report.result <;> rfl

theorem agrees_respond (font : Font) (format otherFormat : ErrorFormat)
    (isDebugging otherDebugging : Bool) (asked : Except Stop (Option Command)) :
    AgreesBesideErrors (respond font format isDebugging asked)
      (respond font otherFormat otherDebugging asked) := by
  cases asked with
  | error stop => cases stop <;> exact ⟨fun _ _ _ => rfl, fun _ _ _ => rfl, fun _ _ _ => rfl⟩
  | ok command =>
      constructor
      case ending =>
        intro State files input state
        simp only [respond, Dialogue.run_map]
        exact withoutErrors_ofReport_congr _ _ _ _ _
      case written =>
        intro State files input state
        simp only [respond, Dialogue.written_map]
      case left =>
        intro State files input state
        simp only [respond, Dialogue.run_map]

theorem exists_converse_eq_respond (font : Font) (debugVariable : Option Text)
    (arguments : List Text) : ∃ format isDebugging, converse font debugVariable arguments =
      respond font format isDebugging ((Request.read arguments).map Request.command) := by
  cases arguments with
  | nil => exact ⟨.text, false, rfl⟩
  | cons argument arguments =>
      rw [converse, List.isEmpty_cons, if_neg Bool.false_ne_true]
      cases Request.read (argument :: arguments) with
      | ok request => exact ⟨request.format, showsLog debugVariable (argument :: arguments), rfl⟩
      | error stop =>
          cases stop with
          | help => exact ⟨.text, false, rfl⟩
          | usage error => exact ⟨announcedFormat (argument :: arguments), false, rfl⟩

theorem agrees_converse (font : Font) {arguments others : List Text}
    (same : (Request.read arguments).map Request.command =
      (Request.read others).map Request.command) (debugVariable otherVariable : Option Text) :
    AgreesBesideErrors (converse font debugVariable arguments)
      (converse font otherVariable others) := by
  obtain ⟨format, isDebugging, first⟩ := exists_converse_eq_respond font debugVariable arguments
  obtain ⟨otherFormat, otherDebugging, second⟩ :=
    exists_converse_eq_respond font otherVariable others
  rw [first, second, same]
  exact agrees_respond font format otherFormat isDebugging otherDebugging _

/-! ## The form of failures -/

/-- The command that arguments ask for does not depend on the other options. -/
theorem map_command_read (arguments : List Text) :
    (Request.read arguments).map Request.command =
      (Leading.read arguments).bind fun leading => readCommand leading.extras leading.rest := by
  rw [Request.read_eq]
  cases Leading.read arguments with
  | error stop => rfl
  | ok leading =>
      change ((readCommand leading.extras leading.rest).map _).map _ =
        readCommand leading.extras leading.rest
      cases readCommand leading.extras leading.rest <;> rfl

/-- The form of failures makes no difference to the command. -/
theorem map_command_read_formatted (form : ErrorFormat) (arguments : List Text) :
    (Request.read (formatOption :: form.name :: arguments)).map Request.command =
      (Request.read arguments).map Request.command := by
  have spells : FormSpelling form [formatOption, form.name] _ := .apart (by decide)
  rw [map_command_read, map_command_read]
  refine (congrArg (Except.bind · _) (spells.read_append arguments)).trans ?_
  cases Leading.read arguments <;> rfl

/-- Neither the variable for debugging nor the form of failures makes a difference to a run, except
in what it prints as errors. -/
theorem diagnostics_agree (font : Font) (arguments : List Text) :
    (∀ first second : Option Text,
      AgreesBesideErrors (converse font first arguments) (converse font second arguments)) ∧
    ∀ debugVariable : Option Text,
      AgreesBesideErrors (converse font debugVariable ("--error-format" :: "json" :: arguments))
        (converse font debugVariable ("--error-format" :: "text" :: arguments)) := by
  refine ⟨agrees_converse font rfl, fun debugVariable => agrees_converse font ?_ _ _⟩
  exact (map_command_read_formatted .json arguments).trans
    (map_command_read_formatted .text arguments).symm

end DiagramSketch.CommandLine
