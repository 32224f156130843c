import DiagramSketch.CommandLine.Grammar

/-!
# Requests

What a command line asks for: a command with its options, and the options before it that
hold for all commands. A command has room for one operand. What it has no room for is
collected and refused in the end.
-/

namespace DiagramSketch.CommandLine

/-- The options that hold for all commands. -/
inductive GeneralKey where
  | help
  | errorFormat
  | debug
deriving DecidableEq, Repr

/-- The options of commands. -/
inductive CommandKey where
  | help
  | text
  | standardOutput
  | output
deriving DecidableEq, Repr

/-- The forms in which failures are reported. -/
inductive ErrorFormat where
  | text
  | json
deriving DecidableEq, Repr

namespace ErrorFormat

/-- All forms. -/
def all : List ErrorFormat :=
  [text, json]

/-- The word for a form. -/
def name : ErrorFormat → Text
  | text => "text"
  | json => "json"

/-- The form that a word stands for. Every word but one stands for plain text. -/
def ofText (word : Text) : ErrorFormat :=
  if word = json.name then json else text

end ErrorFormat

/-- The options before a command. -/
def generalGrammar : Grammar GeneralKey :=
  { spellings :=
      [("-h", .help), ("--help", .help), ("--error-format", .errorFormat), ("--debug", .debug)]
    takesValue := fun key => key = .errorFormat
    choices := fun key => if key = .errorFormat then ErrorFormat.all.map ErrorFormat.name else []
    isHelp := fun key => key = .help }

/-- The options of a command that has the spellings beside those for help. -/
def commandGrammar (spellings : List (Text × CommandKey)) : Grammar CommandKey :=
  { spellings := ("-h", .help) :: ("--help", .help) :: spellings
    takesValue := fun key => key = .text ∨ key = .output
    choices := fun _ => []
    isHelp := fun key => key = .help }

/-- The commands. -/
inductive CommandName where
  | render
  | classify
  | examples
deriving DecidableEq, Repr

namespace CommandName

/-- All commands. -/
def all : List CommandName :=
  [render, classify, examples]

/-- The word for a command. -/
def text : CommandName → Text
  | render => "render"
  | classify => "classify"
  | examples => "examples"

/-- The command with the word. -/
def ofText? (wanted : Text) : Option CommandName :=
  all.find? fun name => name.text == wanted

/-- The options of a command. -/
def grammar : CommandName → Grammar CommandKey
  | render => commandGrammar
      [("--text", .text), ("--stdout", .standardOutput), ("-o", .output), ("--output", .output)]
  | classify => commandGrammar [("--text", .text)]
  | examples => commandGrammar []

end CommandName

/-- What has been taken of the words of a command. The operand is settled once there is no room
for another one. -/
structure Collected where
  given : List (CommandKey × Value) := []
  operand : Option (Option Text) := none
  extras : List Text := []
deriving DecidableEq, Repr

/-- Takes the words of a command. The separator goes with the operand before or after it. -/
def collect (grammar : Grammar CommandKey) (taken : Collected) :
    List (Word CommandKey) → Except Stop Collected
  | [] => .ok taken
  | .unknown text :: words => collect grammar { taken with extras := taken.extras ++ [text] } words
  | .plain text :: words =>
      if taken.operand.isSome then
        collect grammar { taken with extras := taken.extras ++ [text] } words
      else
        match words with
        | .separator :: words => collect grammar { taken with operand := some (some text) } words
        | words => collect grammar { taken with operand := some (some text) } words
  | .separator :: words =>
      if taken.operand.isSome then
        collect grammar { taken with extras := taken.extras ++ [hyphens] } words
      else
        match words with
        | .plain text :: words => collect grammar { taken with operand := some (some text) } words
        | words => collect grammar { taken with operand := some none } words
  | .option key spelling attached :: words => do
      let found ← grammar.take key spelling attached (words.head?.bind Word.plain?)
      let next := { taken with given := taken.given ++ found.given }
      match found.usesNext, words with
      | true, _ :: words => collect grammar next words
      | _, words => collect grammar next words

/-- What has been taken of the arguments before a command. -/
structure Leading where
  given : List (GeneralKey × Value) := []
  extras : List Text := []
  /-- The command and what follows it. -/
  rest : List Text := []
deriving DecidableEq, Repr

/-- Takes the options before a command. Every argument comes with its word. -/
def lead (taken : Leading) : List (Text × Word GeneralKey) → Except Stop Leading
  | [] => .ok taken
  | (argument, .plain _) :: arguments | (argument, .separator) :: arguments =>
      .ok { taken with rest := argument :: arguments.map Prod.fst }
  | (_, .unknown text) :: arguments =>
      lead { taken with extras := taken.extras ++ [text] } arguments
  | (_, .option key spelling attached) :: arguments => do
      let found ←
        generalGrammar.take key spelling attached (arguments.head?.bind fun next => next.2.plain?)
      let next := { taken with given := taken.given ++ found.given }
      match found.usesNext, arguments with
      | true, _ :: arguments => lead next arguments
      | _, arguments => lead next arguments

/-- A command with its options. The operand of the first two is a file to read. -/
inductive Command where
  | render (file : Option Text) (text : Option Value) (toStandardOutput : Bool)
      (output : Option Text)
  | classify (file : Option Text) (text : Option Value)
  | examples (name : Option Text)
deriving DecidableEq, Repr

/-- The command that was taken from words. -/
def Command.ofCollected (taken : Collected) : CommandName → Command
  | .render =>
      .render (taken.operand.getD none) (lastGiven .text taken.given)
        (lastGiven .standardOutput taken.given).isSome (lastText .output taken.given)
  | .classify => .classify (taken.operand.getD none) (lastGiven .text taken.given)
  | .examples => .examples (taken.operand.getD none)

/-- What a command line asks for. -/
structure Request where
  format : ErrorFormat
  /-- Whether the option for debugging was given, in full or shortened. -/
  isDebugging : Bool
  command : Option Command
deriving DecidableEq, Repr

/-- Refuses what there is no room for. -/
def refuse (extras : List Text) : Except Stop Unit :=
  if extras.isEmpty then .ok () else .error (.usage (.unrecognized extras))

/-- Reads the command and what follows it, if there is a command. -/
def readCommand (extras : List Text) : List Text → Except Stop (Option Command)
  | [] => (refuse extras).map fun _ => none
  | word :: arguments =>
      if word = hyphens ∧ arguments = [] then (refuse (extras ++ [word])).map fun _ => none
      else
        match CommandName.ofText? word with
        | none =>
            .error (.usage (.invalidChoice "command" word (CommandName.all.map CommandName.text)))
        | some name => do
            let words ← (name.grammar.words arguments).mapError .usage
            let taken ← collect name.grammar {} words
            refuse (extras ++ taken.extras)
            return some (.ofCollected taken name)

/-- Reads a command line. -/
def Request.read (arguments : List Text) : Except Stop Request := do
  let words ← (generalGrammar.words arguments).mapError .usage
  let leading ← lead {} (arguments.zip words)
  let command ← readCommand leading.extras leading.rest
  return {
    format := ((lastText .errorFormat leading.given).map ErrorFormat.ofText).getD .text
    isDebugging := (lastGiven .debug leading.given).isSome
    command }

end DiagramSketch.CommandLine
