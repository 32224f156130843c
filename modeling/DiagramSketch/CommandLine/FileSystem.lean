import DiagramSketch.CommandLine.Path
import DiagramSketch.Number.Decimal
import DiagramSketch.Text.Quoted

/-!
# File systems

A run reads files and writes them, and is told what comes of it. What the files are, and where
paths lead to, is a matter of the system.
-/

namespace DiagramSketch.CommandLine

/-- Why the system refuses something. -/
inductive SystemError where
  | notFound
  | notDirectory
  | isDirectory
  | noSpace
  | nameTooLong
  | tooManyLinks
  /-- Any other reason, by its number and its description. -/
  | other (number : Nat) (description : Text)
deriving DecidableEq, Repr

namespace SystemError

/-- The number of a reason. -/
def number : SystemError → Nat
  | notFound => 2
  | notDirectory => 20
  | isDirectory => 21
  | noSpace => 28
  | nameTooLong => 36
  | tooManyLinks => 40
  | other number _ => number

/-- The description of a reason. -/
def description : SystemError → Text
  | notFound => "No such file or directory"
  | notDirectory => "Not a directory"
  | isDirectory => "Is a directory"
  | noSpace => "No space left on device"
  | nameTooLong => "File name too long"
  | tooManyLinks => "Too many levels of symbolic links"
  | other _ description => description

/-- The message about something that is open already. -/
def message (error : SystemError) : Text :=
  "[Errno " ++ Number.digits error.number ++ "] " ++ error.description

/-- The message about a path. -/
def messageAbout (error : SystemError) (path : Path) : Text :=
  error.message ++ ": " ++ Text.quoted path.shown

end SystemError

/-- What comes of reading a file. -/
inductive Reading where
  | content (bytes : List UInt8)
  | absent
  /-- The system cannot tell whether there is a file. -/
  | unreachable (error : SystemError)
  /-- The file was not opened. -/
  | unopened (error : SystemError)
  /-- The file was opened, but it was not read to its end. -/
  | unfinished (error : SystemError)
deriving DecidableEq, Repr

/-- Why a text was not written to a file. -/
inductive WriteError where
  /-- A path cannot hold the null character. -/
  | nullCharacter
  /-- The file was not opened. -/
  | unopened (error : SystemError)
  /-- The file was opened, but it did not take all of the text. -/
  | unfinished (error : SystemError)
  /-- The file was opened, but there are no bytes for the text. -/
  | unencodable (message : Text)
deriving DecidableEq, Repr

/-- Whether the file was opened before. Opening a file to write it takes its content away. -/
def WriteError.isLate : WriteError → Bool
  | nullCharacter | unopened _ => false
  | unfinished _ | unencodable _ => true

/-- A system of files, by what a run can do with it. -/
structure FileSystem (State : Type) where
  read : Path → State → Reading
  /-- Writes a text, over an old one if need be. -/
  write : Path → Text → State → Except WriteError Unit × State

end DiagramSketch.CommandLine
