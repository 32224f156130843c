import DiagramSketch.CommandLine.FileSystem

/-!
# Dialogues with the system

A run asks the system for what it needs: for standard input, for the content of a file, or
to write a file. A dialogue says what is asked, and how the run goes on with every answer.
The same dialogue is answered by the system itself or by any model of it.
-/

namespace DiagramSketch.CommandLine

/-- What standard input holds. -/
inductive StandardInput where
  /-- A terminal, which is not read. -/
  | terminal
  | piped (bytes : List UInt8)
deriving DecidableEq, Repr

/-- The questions of a run, and what it comes to. -/
inductive Dialogue (α : Type) where
  | done (result : α)
  | askInput (next : StandardInput → Dialogue α)
  | readFile (path : Path) (next : Reading → Dialogue α)
  | writeFile (path : Path) (text : Text) (next : Except WriteError Unit → Dialogue α)

namespace Dialogue

variable {State α β : Type}

/-- Goes on with what a dialogue comes to. -/
def andThen (following : α → Dialogue β) : Dialogue α → Dialogue β
  | done result => following result
  | askInput next => askInput fun answer => andThen following (next answer)
  | readFile path next => readFile path fun answer => andThen following (next answer)
  | writeFile path text next =>
      writeFile path text fun answer => andThen following (next answer)

/-- Changes what a dialogue comes to. -/
def map (change : α → β) (dialogue : Dialogue α) : Dialogue β :=
  dialogue.andThen fun result => done (change result)

/-- Answers from a file system and a standard input. The state is the one that is left. -/
def run (files : FileSystem State) (input : StandardInput) : Dialogue α → State → α × State
  | done result, state => (result, state)
  | askInput next, state => run files input (next input) state
  | readFile path next, state => run files input (next (files.read path state)) state
  | writeFile path text next, state =>
      let (answer, left) := files.write path text state
      run files input (next answer) left

/-- A dialogue that goes on answers one part after the other. -/
theorem run_andThen (files : FileSystem State) (input : StandardInput)
    (following : α → Dialogue β) (dialogue : Dialogue α) (state : State) :
    (dialogue.andThen following).run files input state =
      (following (dialogue.run files input state).1).run files input
        (dialogue.run files input state).2 := by
  induction dialogue generalizing state with
  | done result => rfl
  | askInput next ih => exact ih input state
  | readFile path next ih => exact ih (files.read path state) state
  | writeFile path text next ih => exact ih (files.write path text state).1 _

/-- A change of the result leaves the answers as they are. -/
theorem run_map (files : FileSystem State) (input : StandardInput) (change : α → β)
    (dialogue : Dialogue α) (state : State) :
    (dialogue.map change).run files input state =
      (change (dialogue.run files input state).1, (dialogue.run files input state).2) :=
  run_andThen files input _ dialogue state

end Dialogue

end DiagramSketch.CommandLine
