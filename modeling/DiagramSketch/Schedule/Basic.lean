import DiagramSketch.Number.Format
import DiagramSketch.Text.Digit
import DiagramSketch.Text.Scan

/-!
# Schedules

A Gantt chart has tasks, each with a duration and perhaps a task that it comes after, and
perhaps a start of the project. The lines are close to sentences, and are read in any
letter case.
-/

namespace DiagramSketch

/-- A task of a schedule. -/
structure Task where
  name : Text
  days : Int
  after : Option Text
deriving DecidableEq, Repr

/-- The name of the task that comes before, unless it is empty. -/
def Task.predecessor? (task : Task) : Option Text :=
  task.after.filter fun name => !name.isEmpty

/-- What a duration and the task that comes before are written as. `numeral` is the number of
days in digits. -/
def Task.captionWith (numeral : Text) (task : Task) : Text :=
  let duration := numeral ++ (if task.days = 1 then " day" else " days")
  match task.predecessor? with
  | none => duration
  | some name => duration ++ " (after " ++ name ++ ")"

/-- What is drawn beside the bar of a task. A duration that is too long to be written never gets
so far, since no canvas is wide enough for its bar. -/
def Task.drawnCaption (task : Task) : Text :=
  task.captionWith (Number.signedDigits task.days)

/-- What is written about a task, unless its duration is too long to be written. -/
def Task.caption (task : Task) : Except Fault Text :=
  (Number.numeral task.days).map fun numeral => task.captionWith numeral

/-- A Gantt chart. -/
structure Schedule where
  tasks : List Task
  start : Option Text
deriving DecidableEq, Repr

namespace Schedule

/-- All that may follow one or more blanks at the start of a text, most blanks first. `found` is
what may follow fewer of them. -/
def afterBlanksFrom (found : List Text) : Text → List Text
  | [] => found
  | character :: text =>
      if Text.isBlank character then afterBlanksFrom (text :: found) text else found

/-- All that may follow one or more blanks at the start of a text, most blanks first. -/
def afterBlanks (text : Text) : List Text :=
  afterBlanksFrom [] text

/-- Reads a date: a text to the end of the line, which is not empty. -/
def date? (text : Text) : Option Text :=
  match Text.toEnd? text with
  | some date@(_ :: _) => some (Text.trim date)
  | _ => none

/-- Reads a date that an article may stand before. -/
def dateWithArticle? (text : Text) : Option Text :=
  (((Text.keyword? "the" text).map afterBlanks).getD []).findSome? date? |>.or (date? text)

/-- Reads the start of the project: two words, blanks, perhaps an article, and a date. Where the
blanks take up all of the line, some of them are read as the date. -/
def start? (line : Text) : Option Text := do
  let rest ← Text.keyword? "project starts" line
  (afterBlanks rest).findSome? dateWithArticle?

/-- A number of days or weeks. -/
structure Amount where
  digits : Text
  isWeeks : Bool
deriving DecidableEq, Repr

/-- Reads the first of the words, which are in lower case, in any letter case. -/
def anyKeyword? (first second text : Text) : Option Text :=
  (Text.keyword? first text).or (Text.keyword? second text)

/-- Reads a duration: a verb between blanks, digits, blanks and a unit. What follows does not
matter. -/
def amount? (text : Text) : Option Amount := do
  let afterVerb ← anyKeyword? "lasts" "requires" (← Text.blanks? text)
  let rest ← Text.blanks? afterVerb
  let digits := rest.takeWhile Text.isDigit
  if digits.isEmpty then none
  else
    let unit ← Text.blanks? (rest.dropWhile Text.isDigit)
    if (Text.keyword? "day" unit).isSome then return { digits, isWeeks := false }
    else if (Text.keyword? "week" unit).isSome then return { digits, isWeeks := true }
    else none

/-- The number of days that an amount comes to, if its numeral is not too long to be read. -/
def Amount.days (amount : Amount) : Except Fault Nat :=
  if Fault.numeralLimit < amount.digits.length then .error (.numeralTooLong amount.digits.length)
  else .ok (Text.numeral amount.digits * if amount.isWeeks then 7 else 1)

/-- Reads the name of the task that a task comes after. What follows does not matter. -/
def predecessor? (text : Text) : Option Text := do
  let afterStarts ← Text.keyword? "starts" (← Text.blanks? text)
  let afterAt ← Text.keyword? "at" (← Text.blanks? afterStarts)
  let (name, afterName) ← Text.enclosed? '[' ']' (← Text.blanks? afterAt)
  let afterPossessive ← Text.keyword? "'s" afterName
  let _ ← Text.keyword? "end" (← Text.blanks? afterPossessive)
  return name

/-- A line of a source. -/
inductive Line where
  | start (date : Text)
  | duration (task : Text) (amount : Amount)
  | order (task predecessor : Text)
deriving DecidableEq, Repr

/-- Reads a line about a task: its name in brackets, and its duration or what it comes after. -/
def taskLine? (line : Text) : Option Line := do
  let (task, rest) ← Text.enclosed? '[' ']' line
  match amount? rest with
  | some amount => return .duration task amount
  | none => return .order task (← predecessor? rest)

/-- Reads a line. -/
def Line.read? (line : Text) : Option Line :=
  match start? line with
  | some date => some (.start date)
  | none => taskLine? line

/-- A schedule with nothing in it. -/
def empty : Schedule :=
  { tasks := [], start := none }

/-- Whether there is a task with the name. -/
def hasTask (schedule : Schedule) (name : Text) : Bool :=
  schedule.tasks.any (·.name == name)

/-- Changes the task with the name. -/
def alter (name : Text) (change : Task → Task) (schedule : Schedule) : Schedule :=
  { schedule with
    tasks := schedule.tasks.map fun task => if task.name == name then change task else task }

/-- Gives a duration to the task with the name. A new task goes to the end. -/
def setDuration (name : Text) (days : Int) (schedule : Schedule) : Schedule :=
  if schedule.hasTask name then schedule.alter name fun task => { task with days }
  else { schedule with tasks := schedule.tasks ++ [{ name, days, after := none }] }

/-- Takes a line into account. What a task comes after is taken into account only if the task is
known already. -/
def follow (schedule : Schedule) : Line → Except Fault Schedule
  | .start date => .ok { schedule with start := some date }
  | .duration name amount => amount.days.map fun days => schedule.setDuration name days
  | .order name predecessor =>
      .ok (schedule.alter name fun task => { task with after := some predecessor })

/-- The schedule that the lines of a source describe, unless a numeral is too long. -/
def ofLines (lines : List Text) : Except Fault Schedule :=
  ((Text.contentLines lines).filterMap Line.read?).foldlM follow empty

end Schedule

end DiagramSketch
