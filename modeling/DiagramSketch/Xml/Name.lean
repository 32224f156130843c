import DiagramSketch.Fault
import DiagramSketch.Keyed
import DiagramSketch.Xml.Element

/-!
# Names in namespaces

A name may begin with its namespace in braces. In a document it begins with a short name of
the namespace instead, and the first tag declares what each short name stands for. The home
of a document is the namespace whose names go without one.
-/

namespace DiagramSketch.Xml

/-- A name, apart from the namespace it belongs to. -/
structure Name where
  space : Option Text
  localName : Text
deriving DecidableEq, Repr

/-- A name that says its namespace. -/
def inSpace (space localName : Text) : Text :=
  '{' :: (space ++ '}' :: localName)

/-- The text before the last closing brace, and the text after it. -/
def cutAtLastBrace (text : Text) : Option (Text × Text) :=
  match text.reverse.dropWhile (· != '}') with
  | _ :: before => some (before.reverse, (text.reverse.takeWhile (· != '}')).reverse)
  | [] => none

/-- The part of a tag that is outside its namespace, also when the tag shows a brace itself. -/
def outsideSpace (tag : Text) : Text :=
  ((cutAtLastBrace tag).map Prod.snd).getD tag

/-- Reads a name. A brace that opens a namespace has to be closed, and the last closing one does
this. -/
def Name.read : Text → Except Fault Name
  | '{' :: rest =>
      match cutAtLastBrace rest with
      | some (space, localName) => .ok { space := some space, localName }
      | none => .error .unclosedBrace
  | text => .ok { space := none, localName := text }

/-- The namespaces with a short name of their own. -/
def wellKnown : Keyed Text :=
  let places : Keyed Text :=
    [("www.w3.org/XML/1998/namespace", "xml"),
     ("www.w3.org/1999/xhtml", "html"),
     ("www.w3.org/1999/02/22-rdf-syntax-ns#", "rdf"),
     ("schemas.xmlsoap.org/wsdl/", "wsdl"),
     ("www.w3.org/2001/XMLSchema", "xs"),
     ("www.w3.org/2001/XMLSchema-instance", "xsi"),
     ("purl.org/dc/elements/1.1/", "dc")]
  places.map fun (place, short) => ("http:" ++ '/' :: '/' :: place, short)

/-- The short name that needs no declaration. -/
def undeclared : Text := "xml"

/-- The short name of a namespace, which is empty for the home. One that has none yet is numbered
by the declarations before it. -/
def shortName (home : Text) (declared : Keyed Text) (space : Text) : Text :=
  match declared.find? space with
  | some short => short
  | none =>
      if space = home then []
      else (wellKnown.find? space).getD ("ns" ++ Number.digits declared.length)

/-- Declares the short name of a namespace, unless this has been done or need not be. -/
def declare (home : Text) (declared : Keyed Text) (space : Text) : Keyed Text :=
  let short := shortName home declared space
  if short = undeclared then declared else declared.assign space short

/-- A name as it is written. -/
def Name.spelled (home : Text) (declared : Keyed Text) : Name → Text
  | { space := none, localName } => localName
  | { space := some space, localName } =>
      match shortName home declared space with
      | [] => localName
      | short => short ++ ':' :: localName

/-- Whether a text stands no later than another one when they are sorted by code points. -/
def isInOrder (first second : Text) : Bool :=
  !(second.lex first fun one other => one.toNat < other.toNat)

/-- The attributes that declare short names, in the order of these. -/
def declarations (declared : Keyed Text) : List Attribute :=
  (declared.mergeSort fun first second => isInOrder first.2 second.2).map fun (space, short) =>
    (if short.isEmpty then "xmlns" else "xmlns:" ++ short, space)

/-- A name without a namespace is read as it is. -/
theorem Name.read_of_head?_ne {text : Text} (plain : text.head? ≠ some '{') :
    Name.read text = .ok { space := none, localName := text } := by
  unfold Name.read
  split
  · simp at plain
  · rfl

/-- The namespace of a name is read back when no brace is in its local part. -/
theorem Name.read_inSpace {space localName : Text} (plain : '}' ∉ localName) :
    Name.read (inSpace space localName) = .ok { space := some space, localName } := by
  have kept : ∀ character ∈ localName.reverse, (character != '}') = true := by
    intro character member
    have : character ≠ '}' := by
      rintro rfl
      exact plain (by simpa using member)
    simpa using this
  have cut : cutAtLastBrace (space ++ '}' :: localName) = some (space, localName) := by
    simp [cutAtLastBrace, List.dropWhile_append_of_pos kept, List.takeWhile_append_of_pos kept]
  simp [Name.read, inSpace, cut]

end DiagramSketch.Xml
