import DiagramSketch.CommandLine.Dialogue
import DiagramSketch.CommandLine.Failure
import DiagramSketch.Trace

/-!
# Jobs

What a run has to do once its request is known to make sense: render or classify a source
that comes from somewhere, or show the examples. Nothing is written before the document is
complete, and a job writes at most one file.
-/

namespace DiagramSketch.CommandLine

/-- Where a source comes from. -/
inductive Origin where
  | given (text : Text)
  | file (path : Path)
  | standardInput
deriving DecidableEq, Repr

/-- Where a document goes. -/
inductive Destination where
  | standardOutput
  | file (path : Path)
deriving DecidableEq, Repr

/-- What a run has to do. -/
inductive Job where
  | render (origin : Origin) (destination : Destination)
  | classify (origin : Origin)
  | examples (name : Option Text)
deriving DecidableEq, Repr

/-- What has come of a job: what happened on the way, and the text for standard output. -/
structure Report where
  events : List Event
  result : Except Failure Text

/-- Bytes as a text. -/
def decoded (bytes : List UInt8) : Except Failure Text :=
  (Text.ofUtf8 bytes).mapError .notUtf8

/-- The bytes of a file as a text, with one kind of line ends. -/
def decodedFile (bytes : List UInt8) : Except Failure Text :=
  (decoded bytes).map Text.unifyLineEnds

/-- A source must have more than blanks. -/
def notEmpty (source : Text) : Except Failure Text :=
  if source.all Text.isBlank then .error .emptySource else .ok source

namespace Origin

/-- The origin that an operand and an option ask for. An empty operand is none. -/
def ofOptions (operand : Option Text) (text : Option Value) : Except Failure Origin :=
  match operand.filter (!·.isEmpty), text with
  | some _, some _ => .error .competingSources
  | some path, none => .ok (file (.ofText path))
  | none, some (.text content) => .ok (given content)
  | none, some _ => .error .valuelessSource
  | none, none => .ok standardInput

/-- Asks for the source. -/
def fetch : Origin → Dialogue (Except Failure Text)
  | given text => .done (notEmpty text)
  | file path =>
      .readFile path fun
        | .content bytes => .done ((decodedFile bytes).bind notEmpty)
        | .absent => .done (.error (.fileNotFound path))
        | .unreachable error => .done (.error (.fileUnreachable path error))
        | .unopened error => .done (.error (.fileUnreadable path (error.messageAbout path)))
        | .unfinished error => .done (.error (.fileUnreadable path error.message))
  | standardInput =>
      .askInput fun
        | .terminal => .done (.error .noSource)
        | .piped bytes => .done ((decoded bytes).bind notEmpty)

end Origin

namespace Destination

/-- The suffix of documents. -/
def suffix : Text := ".svg"

/-- The destination of the document for a source that comes from somewhere. What comes from a file
goes into the file beside it, unless something else is asked for. -/
def ofOptions (toStandardOutput : Bool) (output : Option Text) (origin : Origin) : Destination :=
  match output, origin with
  | some path, _ => file (.ofText path)
  | none, .file path => if toStandardOutput then standardOutput else file (path.withSuffix suffix)
  | none, _ => standardOutput

/-- The failure that comes of a file that was not written. -/
def refusal (path : Path) : WriteError → Failure
  | .nullCharacter => .nullInPath
  | .unopened error => .fileUnwritable path (error.messageAbout path)
  | .unfinished error => .fileUnwritable path error.message
  | .unencodable message => .unencodable message

/-- Hands a document over. -/
def deliver (events : List Event) (document : Text) : Destination → Dialogue Report
  | standardOutput => .done { events, result := .ok (document ++ "\n") }
  | file path =>
      .writeFile path document fun
        | .ok () => .done { events, result := .ok ("Wrote " ++ path.shown ++ "\n") }
        | .error error => .done { events, result := .error (refusal path error) }

end Destination

/-- What a command has to do, if its options go together. An empty path for the document is
none. -/
def Command.job : Command → Except Failure Job
  | .render operand text toStandardOutput output =>
      let output := output.filter (!·.isEmpty)
      if toStandardOutput && output.isSome then .error .competingOutputs
      else
        (Origin.ofOptions operand text).map fun origin =>
          .render origin (.ofOptions toStandardOutput output origin)
  | .classify operand text => (Origin.ofOptions operand text).map .classify
  | .examples name => .ok (.examples name)

/-- The text of the examples: one of them, or the names of all. -/
def showExamples : Option Text → Except Failure Text
  | none => .ok (Gallery.names.flatMap fun name => name ++ ['\n'])
  | some name => (Gallery.load name).mapError fun _ => .unknownExample name

namespace Job

/-- Renders a source. -/
def drawn (font : Font) (destination : Destination) (source : Text) : Dialogue Report :=
  let work := rendering font source
  match work.result with
  | .ok document => destination.deliver work.events document
  | .error failure => .done { events := work.events, result := .error (.unrenderable failure) }

/-- Tells the kind of a source. -/
def classified (source : Text) : Report :=
  let work : Work Failure Text := do
    let kind ← classification (Text.sourceLines source)
    return kind.name ++ "\n"
  { events := work.events, result := work.result }

/-- Does what is to be done, with labels that are measured with a font. -/
def perform (font : Font) : Job → Dialogue Report
  | render origin destination =>
      origin.fetch.andThen fun
        | .ok source => drawn font destination source
        | .error failure => .done { events := [], result := .error failure }
  | classify origin =>
      origin.fetch.map fun
        | .ok source => classified source
        | .error failure => { events := [], result := .error failure }
  | examples name => .done { events := [], result := showExamples name }

end Job

end DiagramSketch.CommandLine
