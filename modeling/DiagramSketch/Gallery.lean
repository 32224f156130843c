import DiagramSketch.Fault
import DiagramSketch.Keyed

/-!
# Gallery

The bundled examples: a short source for every kind of diagram that has lines of its own,
in the order of their names.
-/

namespace DiagramSketch.Gallery

/-- The text of lines, each of which a line feed ends. -/
def unlines (lines : List String) : Text :=
  lines.flatMap fun line => line.toList ++ ['\n']

/-- An activity with a decision. -/
def activity : Text := unlines
  ["@startuml", "start", ":Read data;", "if (data available?) then (yes)", "  :Process data;",
   "else (no)", "  :Wait for data;", "endif", ":Generate report;", "stop", "@enduml"]

/-- Three classes, two of which inherit from the other. -/
def classModel : Text := unlines
  ["@startuml", "class Animal \x7b", "  +String name", "  +int age", "  +void eat()",
   "  +void sleep()", "\x7d", "", "class Dog \x7b", "  +String breed", "  +void bark()", "\x7d",
   "", "class Cat \x7b", "  +String color", "  +void meow()", "\x7d", "", "Animal <|-- Dog",
   "Animal <|-- Cat", "@enduml"]

/-- Two packages of components. -/
def components : Text := unlines
  ["@startuml", "package \"Frontend\" \x7b", "  [Web Browser] as WB", "  [Mobile App] as MA",
   "\x7d", "", "package \"Backend\" \x7b", "  [API Gateway] as AG", "  [User Service] as US",
   "  [Database] as DB", "\x7d", "", "WB --> AG", "MA --> AG", "AG --> US", "US --> DB",
   "@enduml"]

/-- Three tasks that follow one another. -/
def schedule : Text := unlines
  ["@startgantt", "project starts the 2024-01-01", "[Task 1] lasts 10 days",
   "[Task 2] lasts 5 days", "[Task 2] starts at [Task 1]'s end", "[Task 3] lasts 8 days",
   "[Task 3] starts at [Task 2]'s end", "@endgantt"]

/-- A mind map of three levels. -/
def mindMap : Text := unlines
  ["@startmindmap", "* PlantUML", "** Diagrams", "*** Sequence", "*** Class", "*** Use Case",
   "*** Activity", "** Features", "*** Text-based", "*** Version Control", "*** Easy to maintain",
   "@endmindmap"]

/-- A dialogue of two participants. -/
def sequence : Text := unlines
  ["@startuml", "Alice -> Bob: Authentication Request", "Bob -> Alice: Authentication Response",
   "", "Alice -> Bob: Another authentication Request",
   "Alice <-- Bob: Another authentication Response", "@enduml"]

/-- A shop with two actors. -/
def useCases : Text := unlines
  ["@startuml", "left to right direction", "skinparam packageStyle rectangle", "actor Customer",
   "actor Clerk", "rectangle Checkout \x7b", "  Customer -- (Checkout)",
   "  (Checkout) .> (Payment) : include", "  (Help) .> (Checkout) : extends",
   "  (Checkout) -- Clerk", "\x7d", "@enduml"]

/-- All examples, by name. -/
def examples : Keyed Text :=
  [("activity", activity),
   ("class", classModel),
   ("component", components),
   ("gantt", schedule),
   ("mindmap", mindMap),
   ("sequence", sequence),
   ("usecase", useCases)]

/-- The names of the examples. -/
def names : List Text :=
  examples.names

/-- The example with the name. -/
def load (name : Text) : Except Fault Text :=
  match examples.find? name with
  | some source => .ok source
  | none => .error (.unknownExample name)

end DiagramSketch.Gallery
