import DiagramSketch.Text.Digit
import DiagramSketch.Text.Quoted

/-!
# Option grammars

How the arguments of a command are told apart and taken. An argument that begins with a
hyphen is an option; it may be shortened as long as only one option begins like it, and
may carry its value behind an equals sign or, when it has one hyphen, directly. Two
hyphens end the options. Every option has a key, which all its spellings share.
-/

namespace DiagramSketch.CommandLine

/-- What is wrong with arguments. -/
inductive UsageError where
  | ambiguous (given : Text) (candidates : List Text)
  | invalidChoice (argument value : Text) (choices : List Text)
  | missingValue (argument : Text)
  | superfluousValue (argument value : Text)
  | unrecognized (arguments : List Text)
deriving DecidableEq, Repr

/-- Texts in a row, with a separator between two of them. -/
def joined (separator : Text) (texts : List Text) : Text :=
  List.intercalate separator texts

/-- The message about wrong arguments. -/
def UsageError.message : UsageError → Text
  | ambiguous given candidates =>
      "ambiguous option: " ++ given ++ " could match " ++ joined ", " candidates
  | invalidChoice argument value choices =>
      "argument " ++ argument ++ ": invalid choice: " ++ Text.quoted value ++ " (choose from "
        ++ joined ", " (choices.map Text.quoted) ++ ")"
  | missingValue argument => "argument " ++ argument ++ ": expected one argument"
  | superfluousValue argument value =>
      "argument " ++ argument ++ ": ignored explicit argument " ++ Text.quoted value
  | unrecognized arguments => "unrecognized arguments: " ++ joined " " arguments

/-- Why the reading of arguments ends early. -/
inductive Stop where
  | usage (error : UsageError)
  /-- Help was asked for. -/
  | help
deriving DecidableEq, Repr

/-- What an option is given. -/
inductive Value where
  /-- The option takes no value. -/
  | flag
  | text (content : Text)
  /-- Two hyphens were attached to the option. They are no value. -/
  | nothing
deriving DecidableEq, Repr

/-- The text that an option is given. -/
def Value.text? : Value → Option Text
  | text content => some content
  | flag | nothing => none

/-- The options of a command: their spellings, which of them take a value, and what the value may
be, where this is restricted. -/
structure Grammar (Key : Type) where
  spellings : List (Text × Key)
  takesValue : Key → Bool
  choices : Key → List Text
  isHelp : Key → Bool

/-- An argument as an option grammar sees it. -/
inductive Word (Key : Type) where
  | plain (text : Text)
  /-- The two hyphens after which nothing is an option. -/
  | separator
  | option (key : Key) (spelling : Text) (attached : Option Text)
  | unknown (text : Text)
deriving DecidableEq, Repr

namespace Word

variable {Key : Type}

/-- The text of a word that is no option. -/
def plain? : Word Key → Option Text
  | plain text => some text
  | _ => none

end Word

/-- Two hyphens. -/
def hyphens : Text := "--"

/-- Whether an argument looks like a negative number: digits, perhaps with a point and more
digits, after a hyphen. -/
def looksNegative : Text → Bool
  | '-' :: text =>
      match text.dropWhile Text.isDigit with
      | [] | ['\n'] => text.any Text.isDigit
      | '.' :: rest =>
          match rest.dropWhile Text.isDigit with
          | [] | ['\n'] => rest.any Text.isDigit
          | _ => false
      | _ => false
  | _ => false

/-- The parts of an argument before and after its first equals sign. -/
def cutAtEquals (argument : Text) : Option (Text × Text) :=
  match argument.dropWhile (· != '=') with
  | _ :: value => some (argument.takeWhile (· != '='), value)
  | [] => none

namespace Grammar

variable {Key : Type} [DecidableEq Key]

/-- The key of a spelling. -/
def key? (grammar : Grammar Key) (spelling : Text) : Option Key :=
  grammar.spellings.lookup spelling

/-- The name of an option in messages: all its spellings. -/
def title (grammar : Grammar Key) (key : Key) : Text :=
  joined "/" ((grammar.spellings.filter fun entry => entry.2 = key).map Prod.fst)

/-- The option that is spelled out in an argument, with what an equals sign attaches to it. -/
def spelledOut? (grammar : Grammar Key) (argument : Text) : Option (Word Key) :=
  match grammar.key? argument with
  | some key => some (.option key argument none)
  | none => do
      let (spelling, value) ← cutAtEquals argument
      let key ← grammar.key? spelling
      return .option key spelling (some value)

/-- The options that an argument may be short for, or that it may begin with. -/
def candidates (grammar : Grammar Key) (argument : Text) : List (Key × Text × Option Text) :=
  if hyphens.isPrefixOf argument then
    let (start, attached) : Text × Option Text :=
      match cutAtEquals argument with
      | some (start, value) => (start, some value)
      | none => (argument, none)
    (grammar.spellings.filter fun entry => start.isPrefixOf entry.1).map fun (spelling, key) =>
      (key, spelling, attached)
  else
    (grammar.spellings.filter fun entry => entry.1 = argument.take 2).map fun (spelling, key) =>
      (key, spelling, some (argument.drop 2))

/-- Reads an argument. -/
def word (grammar : Grammar Key) (argument : Text) : Except UsageError (Word Key) :=
  if argument.head? != some '-' then .ok (.plain argument)
  else
    match grammar.spelledOut? argument with
    | some word => .ok word
    | none =>
        if argument.length = 1 then .ok (.plain argument)
        else
          match grammar.candidates argument with
          | [(key, spelling, attached)] => .ok (.option key spelling attached)
          | [] =>
              if looksNegative argument || argument.contains ' ' then .ok (.plain argument)
              else .ok (.unknown argument)
          | several => .error (.ambiguous argument (several.map fun candidate => candidate.2.1))

/-- Reads arguments, each as one word. -/
def words (grammar : Grammar Key) : List Text → Except UsageError (List (Word Key))
  | [] => .ok []
  | argument :: arguments =>
      if argument = hyphens then .ok (.separator :: arguments.map .plain)
      else do
        let first ← grammar.word argument
        return first :: (← words grammar arguments)

/-- A value that is attached to an option. -/
def attachedValue (text : Text) : Value :=
  if text = hyphens then .nothing else .text text

/-- The options in one argument: those without a value, and the last one with what is attached to
it. -/
structure Cluster (Key : Type) where
  flags : List Key
  last : Key
  attached : Option Text

/-- Resolves what is attached to an option. Options of one letter without a value may stand
together behind one hyphen: `flags` are those that have been read, and `isShort` says that the
next one may join them. The last option may take what is left as its value. -/
def cluster (grammar : Grammar Key) (flags : List Key) (key : Key) (isShort : Bool) :
    Text → Except UsageError (Cluster Key)
  | [] =>
      if grammar.takesValue key then .ok { flags, last := key, attached := some [] }
      else .error (.superfluousValue (grammar.title key) [])
  | letter :: rest =>
      if grammar.takesValue key then .ok { flags, last := key, attached := some (letter :: rest) }
      else
        match grammar.key? ['-', letter] with
        | some next =>
            if !isShort then .error (.superfluousValue (grammar.title key) (letter :: rest))
            else if rest.isEmpty then
              .ok { flags := flags ++ [key], last := next, attached := none }
            else cluster grammar (flags ++ [key]) next true rest
        | none => .error (.superfluousValue (grammar.title key) (letter :: rest))

/-- Gives an option its value. -/
def give (grammar : Grammar Key) (key : Key) (value : Value) : Except Stop (Key × Value) :=
  if grammar.isHelp key then .error .help
  else
    match value with
    | .text content =>
        let choices := grammar.choices key
        if choices.isEmpty || choices.contains content then .ok (key, value)
        else .error (.usage (.invalidChoice (grammar.title key) content choices))
    | _ => .ok (key, value)

/-- What has been taken of an argument with options, and whether the word after it was used. -/
structure Taken (Key : Type) where
  given : List (Key × Value)
  usesNext : Bool

/-- Takes an option. `next` is the text of the word that follows, if it can be a value. -/
def take (grammar : Grammar Key) (key : Key) (spelling : Text) (attached next : Option Text) :
    Except Stop (Taken Key) := do
  let cluster : Cluster Key ←
    match attached with
    | none => pure { flags := [], last := key, attached := none }
    | some text =>
        (grammar.cluster [] key (!hyphens.isPrefixOf spelling) text).mapError .usage
  let (value, usesNext) : Value × Bool ←
    if grammar.takesValue cluster.last then
      match cluster.attached, next with
      | some text, _ => pure (attachedValue text, false)
      | none, some text => pure (.text text, true)
      | none, none => throw (.usage (.missingValue (grammar.title cluster.last)))
    else pure (.flag, false)
  let flags ← cluster.flags.mapM fun flag => grammar.give flag .flag
  return { given := flags ++ [← grammar.give cluster.last value], usesNext }

end Grammar

/-- The last value that an option was given. -/
def lastGiven {Key : Type} [DecidableEq Key] (key : Key) (given : List (Key × Value)) :
    Option Value :=
  (given.reverse.find? fun entry => entry.1 = key).map Prod.snd

/-- The last text that an option was given. -/
def lastText {Key : Type} [DecidableEq Key] (key : Key) (given : List (Key × Value)) :
    Option Text :=
  (lastGiven key given).bind Value.text?

end DiagramSketch.CommandLine
