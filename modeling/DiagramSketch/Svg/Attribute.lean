import DiagramSketch.Keyed
import DiagramSketch.Number.Format
import DiagramSketch.Xml.Element

/-!
# Attributes of a shape

A shape is described by named values. Numbers and flags are spelled out, absent values
are left out, and the underscores of a name become hyphens.
-/

namespace DiagramSketch.Svg

/-- A value that an attribute is given. -/
inductive Value where
  | text (content : Text)
  | number (value : Number)
  | flag (holds : Bool)
  | absent
deriving DecidableEq, Repr

namespace Value

instance : Coe String Value := ⟨fun content => text content⟩

instance : Coe Rat Value := ⟨fun value => number (Number.ofRat value)⟩

instance {value : Nat} : OfNat Value value := ⟨number (.whole value)⟩

/-- The spelling of a value, unless it is absent. -/
def spelled : Value → Except Fault (Option Text)
  | text content => .ok (some content)
  | number value => value.formatRounded.map some
  | flag holds => .ok (some (if holds then "1" else "0"))
  | absent => .ok none

/-- Whether a value stands for yes. Empty texts, zeros and absent values do not. -/
def isAffirmed : Value → Bool
  | text content => !content.isEmpty
  | number value => !value.isZero
  | flag holds => holds
  | absent => false

/-- A value as it stands in a longer text. -/
def display : Value → Text
  | text content => content
  | number value => value.display
  | flag true => "True"
  | flag false => "False"
  | absent => "None"

end Value

/-- The name under which a value is written. -/
def hyphenated (name : Text) : Text :=
  name.map fun character => if character == '_' then '-' else character

/-- A named value as it is written. -/
def written (name : Text) (value : Value) : Except Fault (Option Xml.Attribute) :=
  value.spelled.map fun spelling => spelling.map fun content => (hyphenated name, content)

/-- The attributes that the values describe, in their order. Where two of them have one name, the
first keeps its place and the last its value; this holds of the names before the underscores are
replaced and of the names that are written. -/
def attributes (values : Keyed Value) : Except Fault (List Xml.Attribute) := do
  let found ← (Keyed.ofList values).mapM fun (name, value) => written name value
  return Keyed.ofList (found.filterMap id)

end DiagramSketch.Svg
