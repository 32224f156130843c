import DiagramSketch.Fault
import DiagramSketch.Keyed

/-!
# Looking up

What a drawing cannot do without has to be there: it is a fault when nothing is kept under a
name, or when a list is too short.
-/

namespace DiagramSketch

variable {α : Type}

/-- The value under a name that has to be in use. -/
def Keyed.get (name : Text) (entries : Keyed α) : Except Fault α :=
  match entries.find? name with
  | some value => .ok value
  | none => .error (.nothingUnder name)

/-- The value with a number, which the list has to reach. -/
def entryAt (values : List α) (index : Nat) : Except Fault α :=
  match values[index]? with
  | some value => .ok value
  | none => .error .noEntry

end DiagramSketch
