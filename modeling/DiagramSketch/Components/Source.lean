import DiagramSketch.Components.Basic
import DiagramSketch.Text.Scan
import DiagramSketch.Text.Word

/-!
# The source of a component diagram

A line opens a package, closes it, connects two components, or declares one. A component
is declared in the package that is open, and on its own if there is none.
-/

namespace DiagramSketch.Components

/-- The arrows of connections. -/
def arrows : List Text :=
  ["-->", "->", "--"]

/-- Reads the beginning of a package: the keyword, blanks, and a name between double quotes or
a word. What follows does not matter. -/
def package? (line : Text) : Option Text := do
  let rest ← Text.blanks? (← Text.literal? "package" line)
  let (name, _) ← (Text.enclosed? '"' '"' rest).or (Text.word? rest)
  return name

/-- Reads an end of a connection: a word, or a text in brackets with the brackets. -/
def endpoint? (text : Text) : Option (Text × Text) :=
  (Text.word? text).or ((Text.enclosed? '[' ']' text).map fun (name, rest) =>
    ('[' :: (name ++ [']']), rest))

/-- A bracket of either kind. -/
def isBracket (character : Char) : Bool :=
  character == '[' || character == ']'

/-- The text without the brackets at either end, however many there are. -/
def withoutBrackets (text : Text) : Text :=
  ((text.dropWhile isBracket).reverse.dropWhile isBracket).reverse

/-- The label of a connection: what follows a colon, up to the end of the line. -/
def labelOf (text : Text) : Text :=
  match Text.dropBlanks text with
  | ':' :: rest => Text.trim (Text.upToLineFeed (Text.dropBlanks rest))
  | _ => []

/-- Reads a connection: two ends with an arrow between them, and perhaps a label. -/
def connection? (line : Text) : Option Connection := do
  let (source, afterSource) ← endpoint? line
  let (arrow, afterArrow) ← Text.anyOf? arrows (Text.dropBlanks afterSource)
  let (target, afterTarget) ← endpoint? (Text.dropBlanks afterArrow)
  return {
    source := withoutBrackets source
    arrow
    target := withoutBrackets target
    label := labelOf afterTarget }

/-- Reads the alias that may follow a component: the word `as` between blanks, and a name. -/
def givenAlias? (text : Text) : Option Text := do
  let afterAs ← Text.literal? "as" (← Text.blanks? text)
  let (name, _) ← Text.word? (← Text.blanks? afterAs)
  return name

/-- Reads the first component in a line: a name in brackets, and its alias. -/
def component? (line : Text) : Option (Text × Option Text) :=
  (Text.firstEnclosed? '[' ']' line).map fun (name, rest) => (name, givenAlias? rest)

/-- A line of a source. -/
inductive Line where
  | closing
  | package (name : Text)
  | connection (read : Connection)
  | component (name : Text) (given : Option Text)
deriving DecidableEq, Repr

/-- Reads a line. -/
def Line.read? (line : Text) : Option Line :=
  if line = ['}'] then some .closing
  else
    match package? line with
    | some name => some (.package name)
    | none =>
        match connection? line with
        | some read => some (.connection read)
        | none => (component? line).map fun (name, given) => .component name given

/-- The components that have been read, and whether the last package is open. -/
structure Reading where
  components : Components
  isOpen : Bool
deriving DecidableEq, Repr

/-- Where the next component is declared. -/
def Reading.container (reading : Reading) : Container :=
  if reading.isOpen then some (reading.components.packages.length - 1) else none

/-- Takes a line into account. -/
def follow (reading : Reading) : Line → Reading
  | .closing => { reading with isOpen := false }
  | .package name => { components := reading.components.addPackage (some name), isOpen := true }
  | .connection read => { reading with components := reading.components.addConnection read }
  | .component name given =>
      { reading with components := reading.components.declare name given reading.container }

/-- The components that the lines of a source describe. -/
def ofLines (lines : List Text) : Components :=
  (((Text.contentLines lines).filterMap Line.read?).foldl follow
    { components := empty, isOpen := false }).components

end Components

end DiagramSketch
