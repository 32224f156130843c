import DiagramSketch.Text.Basic

/-!
# Paths

A path is the names on the way to a file. Repeated slashes and single dots do not matter
and are not shown; two dots lead to the directory above.
-/

namespace DiagramSketch.CommandLine

/-- A path: what it starts at, which is nothing for a path from the working directory, and the
names from there. -/
structure Path where
  root : Text
  parts : List Text
deriving DecidableEq, Repr

namespace Path

/-- What a path starts at. Exactly two slashes are kept apart from one. -/
def rootOf (text : Text) : Text :=
  match (text.takeWhile (· == '/')).length with
  | 0 => []
  | 2 => "//"
  | _ => "/"

/-- The path that a text spells. -/
def ofText (text : Text) : Path :=
  { root := rootOf text
    parts := (text.splitOnP (· == '/')).filter fun part => !part.isEmpty && part != ['.'] }

/-- The path as it is shown. The working directory itself is a dot. -/
def shown (path : Path) : Text :=
  let text := path.root ++ List.intercalate ['/'] path.parts
  if text.isEmpty then "." else text

/-- Whether a path has a character that no name can have. -/
def hasNull (path : Path) : Bool :=
  path.parts.any fun part => part.contains '\x00'

/-- A name without its suffix, the part from the last dot on. A dot at either end of the name
does not begin a suffix. -/
def stem (name : Text) : Text :=
  match name.reverse.takeWhile (· != '.'), name.reverse.dropWhile (· != '.') with
  | _ :: _, _ :: before@(_ :: _) => before.reverse
  | _, _ => name

/-- The path with another suffix of its last name. -/
def withSuffix (suffix : Text) (path : Path) : Path :=
  match path.parts.getLast? with
  | none => path
  | some name => { path with parts := path.parts.dropLast ++ [stem name ++ suffix] }

end Path

end DiagramSketch.CommandLine
