import DiagramSketch.Text.Scan

/-!
# Activities

An activity diagram is a lane of steps, each an action or a decision, which may begin with
a start and end with a stop.
-/

namespace DiagramSketch

/-- A step of an activity. -/
structure ActivityStep where
  label : Text
  isDecision : Bool
deriving DecidableEq, Repr

/-- An activity diagram. -/
structure Activity where
  hasStart : Bool
  hasStop : Bool
  steps : List ActivityStep
deriving DecidableEq, Repr

namespace Activity

/-- The labels of the actions. -/
def actions (activity : Activity) : List Text :=
  (activity.steps.filter fun step => !step.isDecision).map ActivityStep.label

/-- The labels of the decisions. -/
def decisions (activity : Activity) : List Text :=
  (activity.steps.filter ActivityStep.isDecision).map ActivityStep.label

/-- A line of a source. -/
inductive Line where
  | start
  | stop
  | step (read : ActivityStep)
deriving DecidableEq, Repr

/-- Reads a decision: the keyword and a condition in parentheses. What follows does not
matter. -/
def decision? (line : Text) : Option Text := do
  let (condition, _) ← Text.enclosed? '(' ')' (Text.dropBlanks (← Text.literal? "if" line))
  return Text.trim condition

/-- Reads an action: a text on one line between a colon and a semicolon. A line feed may follow
the semicolon. -/
def action? (line : Text) : Option Text := do
  let body ← Text.toEnd? (← Text.literal? ":" line)
  match body.reverse with
  | ';' :: label => return Text.trim label.reverse
  | _ => none

/-- Reads a line. -/
def Line.read? (line : Text) : Option Line :=
  if line = "start" then some .start
  else if line = "stop" ∨ line = "end" then some .stop
  else
    match decision? line with
    | some label => some (.step { label, isDecision := true })
    | none => (action? line).map fun label => .step { label, isDecision := false }

/-- A diagram with nothing in it. -/
def empty : Activity :=
  { hasStart := false, hasStop := false, steps := [] }

/-- Takes a line into account. -/
def follow (activity : Activity) : Line → Activity
  | .start => { activity with hasStart := true }
  | .stop => { activity with hasStop := true }
  | .step read => { activity with steps := activity.steps ++ [read] }

/-- The diagram that the lines of a source describe. -/
def ofLines (lines : List Text) : Activity :=
  ((Text.contentLines lines).filterMap Line.read?).foldl follow empty

end Activity

end DiagramSketch
