import DiagramSketch.CommandLine.FileSystem
import DiagramSketch.Text.Utf8

/-!
# Laws of file systems

Paths lead to places, and several paths can lead to one place: over links, over the directory above,
or because they spell a name differently.  Reading goes by places, and writing changes what is at
one place.  A file that is opened to be written is emptied first, so a write that fails later leaves
less than there was.
-/

namespace DiagramSketch.CommandLine

/-- Where the paths of a file system lead to, and whether what is written there stays. -/
structure Places (State Place : Type) where
  /-- The place of the file that a path leads to, or at which a file would be made. -/
  reached : Path → State → Option Place
  /-- A file at the place holds what is written.  A device need not. -/
  Keeps : Place → State → Prop

variable {State Place : Type}

/-- Two paths lead to one place. -/
def Places.Meet (places : Places State Place) (path other : Path) (state : State) : Prop :=
  ∃ place, places.reached path state = some place ∧ places.reached other state = some place

/-- What is known of a file system. -/
structure FileSystem.IsLawful (files : FileSystem State) (places : Places State Place) : Prop where
  /-- A path without names leads to a directory. -/
  named {path : Path} {state : State} {bytes : List UInt8} :
    files.read path state = .content bytes → path.parts ≠ []
  /-- What is read is at a place. -/
  held {path : Path} {state : State} {bytes : List UInt8} :
    files.read path state = .content bytes → ∃ place, places.reached path state = some place
  /-- A file that is not opened is not changed, and nothing else is. -/
  refused {path : Path} {text : Text} {state left : State} {error : WriteError} :
    files.write path text state = (.error error, left) → error.isLate = false → left = state
  /-- Writing a file changes no other file, whatever comes of it. -/
  elsewhere {path other : Path} {state : State} (text : Text) :
    ¬ places.Meet path other state →
      files.read other (files.write path text state).2 = files.read other state
  /-- What is written is at a place, and it is read there if it stays. -/
  stored {path : Path} {text : Text} {state left : State} :
    files.write path text state = (.ok (), left) →
      ∃ place, places.reached path state = some place ∧
        (places.Keeps place state → ∀ other, places.reached other state = some place →
          files.read other left = .content (Text.toUtf8 text))

end DiagramSketch.CommandLine
