import DiagramSketch.Text.Case
import DiagramSketch.Fault

/-!
# Kinds of diagrams

The kind of a source is decided by tokens that occur in it, in any letter case. The kinds
are tried in a fixed order of precedence, so that a source with an arrow is a component
diagram before it is a class diagram, and a sequence diagram only after all others. What no
rule recognises is drawn as a panel.
-/

namespace DiagramSketch

/-- The kinds of diagrams, in the order of precedence. -/
inductive Kind where
  | mindMap
  | gantt
  | component
  | classes
  | useCase
  | activity
  | sequence
  | panel
deriving DecidableEq, Repr

namespace Kind

/-- The name of a kind. -/
def name : Kind → Text
  | mindMap => "mindmap"
  | gantt => "gantt"
  | component => "component"
  | classes => "class"
  | useCase => "usecase"
  | activity => "activity"
  | sequence => "sequence"
  | panel => "generic"

/-- All kinds, in the order of precedence. -/
def all : List Kind :=
  [mindMap, gantt, component, classes, useCase, activity, sequence, panel]

/-- The kind with the name. -/
def ofName (wanted : Text) : Except Fault Kind :=
  match all.find? fun kind => kind.name == wanted with
  | some kind => .ok kind
  | none => .error (.unknownKind wanted)

/-- The tokens that show a kind: it is enough that all tokens of one group occur. A panel is
shown by nothing, being what is left. -/
def tokens : Kind → List (List Text)
  | mindMap => [["@startmindmap"], ["@endmindmap"]]
  | gantt => [["@startgantt"], ["@endgantt"]]
  | component => [["package", "[", "]"]]
  | classes => [["class "], ["<|--"], ["--|>"]]
  | useCase => [["actor"], ["usecase"], ["rectangle"]]
  | activity => [["start", "stop"], ["if ("], ["endif"]]
  | sequence => [["->"], ["<-"], ["-->"], ["<--"], ["participant"]]
  | panel => []

/-- The kinds that a rule can recognise, in the order of precedence. -/
def ruled : List Kind :=
  [mindMap, gantt, component, classes, useCase, activity, sequence]

/-- Whether a text in lower case shows the kind. -/
def shownBy (kind : Kind) (code : Text) : Bool :=
  kind.tokens.any fun group => group.all fun token => token.occursIn code

/-- The lines as the rules see them: side by side, with a space between two of them, and in lower
case. -/
def codeOf (lines : List Text) : Text :=
  Text.lowered (List.intercalate [' '] lines)

/-- The kind of the lines: the first one that they show. -/
def classify (lines : List Text) : Kind :=
  let code := codeOf lines
  (ruled.find? fun kind => kind.shownBy code).getD panel

/-- For each rule, whether it holds of the lines. -/
def rulesOf (lines : List Text) : List Bool :=
  let code := codeOf lines
  ruled.map fun kind => kind.shownBy code

end Kind

end DiagramSketch
