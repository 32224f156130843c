import DiagramSketch.CommandLine.FileSystem
import DiagramSketch.Text.Utf8

/-!
# File trees

A file system by the files, directories and links that are in it, and by the directory that
paths start at. The disk may be full.
-/

namespace DiagramSketch.CommandLine

/-- What is found at a place. -/
inductive Entry where
  | file (bytes : List UInt8)
  | directory
  /-- A path to go on with, from the directory that the link is in. -/
  | link (target : Path)
  /-- A device that takes all that is written and holds nothing. -/
  | sink
deriving DecidableEq, Repr

/-- The number of bytes in a file. -/
def Entry.size : Entry → Nat
  | file bytes => bytes.length
  | _ => 0

/-- The names that lead to a place from the root. -/
abbrev Place := List Text

/-- Files and directories, other than the root and the working directory. -/
structure FileTree where
  entries : List (Place × Entry)
  workingDirectory : Place := []
  /-- How many bytes there is room for in all files, if it is limited. -/
  space : Option Nat := none
deriving DecidableEq, Repr

/-- Where a path leads. -/
inductive Target where
  | present (place : Place) (entry : Entry)
  /-- Nothing is there, but the directory that it would be in is. -/
  | vacant (place : Place)
deriving DecidableEq, Repr

namespace FileTree

/-- What is found at a place. -/
def found? (tree : FileTree) (place : Place) : Option Entry :=
  if place = [] ∨ place = tree.workingDirectory then some .directory
  else tree.entries.lookup place

/-- The longest name, in bytes. -/
def nameLimit : Nat := 255

/-- The number of bytes that a path must stay below. -/
def pathLimit : Nat := 4096

/-- How many links a path may lead through. -/
def linkLimit : Nat := 40

/-- Follows names from a place, which must lead through directories. At a link, the way goes on
with its target and the names that are left. -/
def walk (tree : FileTree) (onLink : Place → List Text → Except SystemError Target)
    (place : Place) : List Text → Except SystemError Target
  | [] =>
      match tree.found? place with
      | some entry => .ok (.present place entry)
      | none => .ok (.vacant place)
  | name :: names =>
      match tree.found? place with
      | none => .error .notFound
      | some .directory =>
          if name = ['.', '.'] then walk tree onLink place.dropLast names
          else if nameLimit < (Text.toUtf8 name).length then .error .nameTooLong
          else
            match tree.found? (place ++ [name]) with
            | some (.link target) =>
                onLink (if target.root.isEmpty then place else []) (target.parts ++ names)
            | _ => walk tree onLink (place ++ [name]) names
      | some _ => .error .notDirectory

/-- Follows names from a place, through no more than a number of links. -/
def follow (tree : FileTree) : Nat → Place → List Text → Except SystemError Target
  | 0 => tree.walk fun _ _ => .error .tooManyLinks
  | links + 1 => tree.walk (tree.follow links)

/-- Follows a path. -/
def locate (tree : FileTree) (path : Path) : Except SystemError Target :=
  if pathLimit ≤ (Text.toUtf8 path.shown).length then .error .nameTooLong
  else tree.follow linkLimit (if path.root.isEmpty then tree.workingDirectory else []) path.parts

/-- What comes of reading where a path leads. -/
def readingOf : Except SystemError Target → Reading
  | .ok (.present _ (.file bytes)) => .content bytes
  | .ok (.present _ .sink) => .content []
  | .ok (.present _ .directory) => .unopened .isDirectory
  | .ok (.present _ (.link _)) | .ok (.vacant _) => .absent
  | .error .notFound | .error .notDirectory | .error .tooManyLinks => .absent
  | .error error => .unreachable error

/-- Reads a file. -/
def read (path : Path) (tree : FileTree) : Reading :=
  if path.hasNull then .absent else readingOf (tree.locate path)

/-- Puts an entry at a place. -/
def put (entry : Entry) (place : Place) : List (Place × Entry) → List (Place × Entry)
  | [] => [(place, entry)]
  | (other, old) :: entries =>
      if other = place then (other, entry) :: entries else (other, old) :: put entry place entries

/-- The tree with a file at a place. -/
def withFile (tree : FileTree) (bytes : List UInt8) (place : Place) : FileTree :=
  { tree with entries := put (.file bytes) place tree.entries }

/-- The bytes that there is room for at a place, apart from all other files. -/
def fitting (tree : FileTree) (place : Place) (bytes : List UInt8) : List UInt8 :=
  match tree.space with
  | none => bytes
  | some space =>
      let others := tree.entries.filter fun (other, _) => other != place
      bytes.take (space - others.foldl (fun used (_, entry) => used + entry.size) 0)

/-- Puts bytes into a file, as far as there is room. -/
def store (tree : FileTree) (bytes : List UInt8) (place : Place) :
    Except WriteError Unit × FileTree :=
  let kept := tree.fitting place bytes
  (if kept = bytes then .ok () else .error (.unfinished .noSpace), tree.withFile kept place)

/-- Writes a file. -/
def write (path : Path) (text : Text) (tree : FileTree) : Except WriteError Unit × FileTree :=
  if path.hasNull then (.error .nullCharacter, tree)
  else
    match tree.locate path with
    | .ok (.present place (.file _)) | .ok (.vacant place) => tree.store (Text.toUtf8 text) place
    | .ok (.present _ .sink) => (.ok (), tree)
    | .ok (.present _ .directory) => (.error (.unopened .isDirectory), tree)
    | .ok (.present _ (.link _)) => (.error (.unopened .tooManyLinks), tree)
    | .error error => (.error (.unopened error), tree)

/-- The file system of a tree. -/
def system : FileSystem FileTree where
  read := read
  write := write

end FileTree

end DiagramSketch.CommandLine
