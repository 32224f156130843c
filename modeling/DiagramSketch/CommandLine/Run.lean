import DiagramSketch.CommandLine.Job

/-!
# Runs

A run from its arguments to its exit status and what it prints. Standard output is for
results, standard error for the log, which only debugging shows, and for the record of a
failure. A failing run prints no result. A run that is asked for help shows it and does nothing
else.
-/

namespace DiagramSketch.CommandLine

/-- What a run comes to that is not asked for help. -/
structure Outcome where
  status : Nat
  output : Text
  errors : Text
deriving DecidableEq, Repr

namespace Outcome

/-- A run that succeeds. -/
def success (output : Text) : Outcome :=
  { status := 0, output, errors := [] }

/-- A run that fails. -/
def failed (format : ErrorFormat) (failure : Failure) : Outcome :=
  { status := failure.code.status, output := [], errors := failure.record format }

/-- What debugging shows after the record of a failure. -/
def traceback : Text := "Traceback"

/-- The outcome of a job. Debugging shows what happened before the outcome, and, if it is a
failure, that there is more to trace. -/
def ofReport (format : ErrorFormat) (isDebugging : Bool) (report : Report) : Outcome :=
  let log : Text := if isDebugging then report.events.flatMap Event.logLine else []
  match report.result with
  | .ok output => { success output with errors := log }
  | .error failure =>
      let trace : Text := if isDebugging then traceback else []
      let outcome := failed format failure
      { outcome with errors := log ++ outcome.errors ++ trace }

end Outcome

/-- How a run ends. -/
inductive Ending where
  /-- The help is shown. -/
  | help
  | finished (outcome : Outcome)
deriving DecidableEq, Repr

/-- The option for the form of failures, as it is spelled out. -/
def formatOption : Text := "--error-format"

/-- The option for debugging, as it is spelled out. -/
def debugOption : Text := "--debug"

/-- The form for failures that arguments show before they are read: the word after the first option
that asks for a form. -/
def announcedFormat (arguments : List Text) : ErrorFormat :=
  match arguments.dropWhile (· != formatOption) with
  | _ :: word :: _ => .ofText word
  | _ => .text

/-- Whether a run shows its log: an argument spells the option for debugging out in full, wherever
it stands, or the variable for debugging asks for it. -/
def showsLog (debugVariable : Option Text) (arguments : List Text) : Bool :=
  arguments.contains debugOption || debugVariable == some "1"

/-- Does what a command asks for. -/
def follow (font : Font) : Option Command → Dialogue Report
  | none => .done { events := [], result := .error .missingCommand }
  | some command =>
      match command.job with
      | .ok job => job.perform font
      | .error failure => .done { events := [], result := .error failure }

/-- What a run asks of the system, and how it ends. The variable is the one for debugging. -/
def converse (font : Font) (debugVariable : Option Text) (arguments : List Text) :
    Dialogue Ending :=
  if arguments.isEmpty then .done (.finished (.failed .text .missingCommand))
  else
    match Request.read arguments with
    | .error .help => .done .help
    | .error (.usage error) =>
        .done (.finished (.failed (announcedFormat arguments) (.usage error)))
    | .ok request =>
        (follow font request.command).map fun report =>
          .finished (.ofReport request.format (showsLog debugVariable arguments) report)

variable {State : Type}

/-- A run with a standard input and a file system in some state. -/
def run (font : Font) (files : FileSystem State) (debugVariable : Option Text)
    (arguments : List Text) (input : StandardInput) (state : State) : Ending × State :=
  (converse font debugVariable arguments).run files input state

end DiagramSketch.CommandLine
