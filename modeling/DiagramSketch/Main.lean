import DiagramSketch.CommandLine.Run
import DiagramSketch.Font.Bundled

/-!
# The program

Answers the questions of a run from the system itself, prints what the run comes to, and
ends with its exit status.
-/

namespace DiagramSketch.CommandLine

/-- The number of a system error. Some operations report it below zero, in 32 bits. -/
def errorNumber (reported : UInt32) : Nat :=
  if reported < 0x80000000 then reported.toNat else (-reported).toNat

/-- A system error by its number. -/
def SystemError.ofNumber (reported : UInt32) (description : Text) : SystemError :=
  match errorNumber reported with
  | 2 => notFound
  | 20 => notDirectory
  | 21 => isDirectory
  | 28 => noSpace
  | 36 => nameTooLong
  | 40 => tooManyLinks
  | number => other number description

/-- The system error that an operation failed with. -/
def SystemError.ofFailure : IO.Error → SystemError
  | .alreadyExists _ number description
  | .invalidArgument _ number description
  | .permissionDenied _ number description
  | .resourceExhausted _ number description
  | .inappropriateType _ number description
  | .noSuchThing _ number description
  | .interrupted _ number description
  | .noFileOrDirectory _ number description
  | .otherError number description
  | .resourceBusy number description
  | .resourceVanished number description
  | .unsupportedOperation number description
  | .hardwareFault number description
  | .unsatisfiedConstraints number description
  | .illegalOperation number description
  | .protocolError number description
  | .timeExpired number description => ofNumber number description
  | .unexpectedEof => other 5 "Input/output error"
  | .userError description => other 5 description

/-- What comes of reading a file that cannot be opened. -/
def Reading.ofError : SystemError → Reading
  | .notFound | .notDirectory | .tooManyLinks => absent
  | .nameTooLong => unreachable .nameTooLong
  | error => unopened error

/-- Opens a file of the system. -/
def openSystemFile (path : Path) (mode : IO.FS.Mode) :
    IO (Except SystemError IO.FS.Handle) := do
  try return .ok (← IO.FS.Handle.mk (String.ofList path.shown) mode)
  catch error => return .error (.ofFailure error)

/-- Reads a file of the system. -/
def readSystemFile (path : Path) : IO Reading := do
  if path.hasNull then return .absent
  match ← openSystemFile path .read with
  | .error error => return .ofError error
  | .ok handle =>
      try return .content (← handle.readBinToEnd).toList
      catch error =>
        match SystemError.ofFailure error with
        | .isDirectory => return .unopened .isDirectory
        | error => return .unfinished error

/-- Writes a file of the system. -/
def writeSystemFile (path : Path) (text : Text) : IO (Except WriteError Unit) := do
  if path.hasNull then return .error .nullCharacter
  match ← openSystemFile path .write with
  | .error error => return .error (.unopened error)
  | .ok handle =>
      try
        handle.write ⟨(Text.toUtf8 text).toArray⟩
        handle.flush
        return .ok ()
      catch error => return .error (.unfinished (.ofFailure error))

/-- Reads standard input, unless it is a terminal. -/
def readSystemInput : IO StandardInput := do
  let stream ← IO.getStdin
  if ← stream.isTty then return .terminal
  return .piped (← stream.readBinToEnd).toList

/-- Lets the system answer. -/
def Dialogue.inSystem {α : Type} : Dialogue α → IO α
  | .done result => return result
  | .askInput next => do inSystem (next (← readSystemInput))
  | .readFile path next => do inSystem (next (← readSystemFile path))
  | .writeFile path text next => do inSystem (next (← writeSystemFile path text))

end DiagramSketch.CommandLine

/-- Runs with the arguments. What the help says is not told here. -/
def main (arguments : List String) : IO UInt32 := do
  let debugVariable ← IO.getEnv "PLANTSKETCH_DEBUG"
  let ending ←
    (DiagramSketch.CommandLine.converse .bundled (debugVariable.map String.toList)
      (arguments.map String.toList)).inSystem
  match ending with
  | .help => return 0
  | .finished outcome =>
      IO.print (String.ofList outcome.output)
      IO.eprint (String.ofList outcome.errors)
      return UInt32.ofNat outcome.status
