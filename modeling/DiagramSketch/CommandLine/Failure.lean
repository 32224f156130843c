import DiagramSketch.CommandLine.FileSystem
import DiagramSketch.CommandLine.Request
import DiagramSketch.Gallery
import DiagramSketch.Render
import DiagramSketch.Text.JsonString
import DiagramSketch.Text.Utf8

/-!
# Failures

Why a run ends without what was asked for, by cause, and how this is reported: by a code,
which settles the exit status, by a message, and perhaps by a file and a hint. A report is
either one or two lines of plain text or one line of JSON.
-/

namespace DiagramSketch.CommandLine

/-- The codes that failures are reported by. -/
inductive FailureCode where
  | arguments
  | reading
  | gallery
  | rendering
  | writing
  | internal
deriving DecidableEq, Repr

namespace FailureCode

/-- The word for a code. -/
def name : FailureCode → Text
  | arguments => "E_ARGS"
  | reading => "E_IO_READ"
  | gallery => "E_EXAMPLE"
  | rendering => "E_RENDER"
  | writing => "E_IO_WRITE"
  | internal => "E_INTERNAL"

/-- The exit status of a run that fails with a code. -/
def status : FailureCode → Nat
  | arguments | reading | gallery => 2
  | rendering => 3
  | writing => 4
  | internal => 1

/-- Whether it may help to run again with something else. -/
def isRetryable (code : FailureCode) : Bool :=
  code != internal

end FailureCode

/-- Why a run ends without what was asked for. -/
inductive Failure where
  | usage (error : UsageError)
  | missingCommand
  /-- Both standard output and a file are to take the document. -/
  | competingOutputs
  /-- Both a text and a file are to be the source. -/
  | competingSources
  /-- Standard input is a terminal, where nothing is waiting to be read. -/
  | noSource
  | emptySource
  /-- The option for the text of the source was given what is no value. -/
  | valuelessSource
  | fileNotFound (path : Path)
  | fileUnreadable (path : Path) (reason : Text)
  /-- The system cannot tell whether there is a file. -/
  | fileUnreachable (path : Path) (error : SystemError)
  | notUtf8 (error : Text.Utf8Error)
  | unknownExample (name : Text)
  | unrenderable (failure : RenderFailure)
  | fileUnwritable (path : Path) (reason : Text)
  /-- The null character is in the path of a file to write. -/
  | nullInPath
  /-- There are no bytes for the document, which the message is about. -/
  | unencodable (message : Text)
deriving DecidableEq, Repr

namespace Failure

/-- The code of a failure. -/
def code : Failure → FailureCode
  | usage _ | missingCommand | competingOutputs | competingSources | noSource | emptySource =>
      .arguments
  | fileNotFound _ | fileUnreadable _ _ => .reading
  | unknownExample _ => .gallery
  | unrenderable _ => .rendering
  | fileUnwritable _ _ => .writing
  | valuelessSource | fileUnreachable _ _ | notUtf8 _ | nullInPath | unencodable _ => .internal

/-- The message about a failure. -/
def message : Failure → Text
  | usage error => error.message
  | missingCommand => "missing subcommand"
  | competingOutputs => "--stdout and --output are mutually exclusive"
  | competingSources => "--text cannot be combined with file input"
  | noSource => "no input provided"
  | emptySource => "diagram source is empty"
  | valuelessSource => "'list' object has no attribute 'strip'"
  | fileNotFound path => "input file not found: " ++ path.shown
  | fileUnreadable path _ => "failed to read input file: " ++ path.shown
  | fileUnreachable path error => error.messageAbout path
  | notUtf8 error => error.message
  | unknownExample name => "unknown example: " ++ name
  | unrenderable failure => failure.message
  | fileUnwritable path _ => "failed to write output file: " ++ path.shown
  | nullInPath => "embedded null byte"
  | unencodable message => message

/-- The file that a failure is about. -/
def file? : Failure → Option Text
  | fileNotFound path | fileUnreadable path _ | fileUnwritable path _ => some path.shown
  | _ => none

/-- The words for the commands, in a row. -/
def commandNames : Text :=
  joined ", " (CommandName.all.map CommandName.text)

/-- What may help. -/
def hint? : Failure → Option Text
  | usage _ => some ("Use subcommands: " ++ commandNames ++ ".")
  | missingCommand => some ("Use one of: " ++ commandNames ++ ".")
  | competingOutputs => some "Choose either --stdout or --output."
  | competingSources => some "Use either FILE or --text."
  | noSource => some "Use a subcommand with FILE, --text, or pipe stdin."
  | emptySource => some "Please enter some PlantUML code."
  | fileNotFound _ => none
  | fileUnreadable _ reason | fileUnwritable _ reason => some reason
  | unknownExample _ => some ("Use one of: " ++ joined ", " Gallery.names ++ ".")
  | unrenderable _ =>
      some "Check the diagram source and retry; re-run with --debug for details."
  | valuelessSource | fileUnreachable _ _ | notUtf8 _ | nullInPath | unencodable _ =>
      some "Re-run with --debug to see traceback."

/-- The report in plain text. -/
def plainRecord (failure : Failure) : Text :=
  let hint : Text :=
    match failure.hint? with
    | some hint => "hint: " ++ hint ++ "\n"
    | none => []
  "error[" ++ failure.code.name ++ "]: " ++ failure.message ++ "\n" ++ hint

/-- A truth value in JSON. -/
def jsonFlag (holds : Bool) : Text :=
  if holds then "true" else "false"

/-- A text in JSON, if there is one. -/
def jsonText : Option Text → Text
  | some text => Text.jsonString text
  | none => "null"

/-- The fields of the report in JSON. -/
def jsonFields (failure : Failure) : List (Text × Text) :=
  [("ok", jsonFlag false),
   ("code", Text.jsonString failure.code.name),
   ("message", Text.jsonString failure.message),
   ("file", jsonText failure.file?),
   ("hint", jsonText failure.hint?),
   ("retryable", jsonFlag failure.code.isRetryable)]

/-- The report in JSON. -/
def jsonRecord (failure : Failure) : Text :=
  let fields := failure.jsonFields.map fun (name, value) => Text.jsonString name ++ ": " ++ value
  "\x7b" ++ joined ", " fields ++ "\x7d\n"

/-- The report in a form. -/
def record (failure : Failure) : ErrorFormat → Text
  | .text => failure.plainRecord
  | .json => failure.jsonRecord

end Failure

end DiagramSketch.CommandLine
