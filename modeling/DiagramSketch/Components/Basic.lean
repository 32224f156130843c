import DiagramSketch.Keyed

/-!
# Components

A component diagram has components, some of them in packages and the others on their own,
and connections between them. Every component has a full name and an alias; both are keys
under which connections find it. A component stays where it was declared first. A later
declaration of the same name can only give it a new alias.
-/

namespace DiagramSketch

/-- A package and the full names of the components in it. -/
structure Package where
  name : Option Text
  members : List Text
deriving DecidableEq, Repr

/-- The number of rows that hold a package's components, two in each. -/
def Package.rows (package : Package) : Nat :=
  (package.members.length + 1) / 2

/-- A line from one component to another, by their keys. -/
structure Connection where
  source : Text
  arrow : Text
  target : Text
  label : Text
deriving DecidableEq, Repr

/-- An arrow with a tip has a head at the target. -/
def Connection.isDirected (connection : Connection) : Bool :=
  connection.arrow.contains '>'

/-- A component diagram: the packages, the components on their own, the connections, the alias
of each component, and the component that each key stands for. -/
structure Components where
  packages : List Package
  standalone : List Text
  connections : List Connection
  aliases : Keyed Text
  registry : Keyed Text
deriving DecidableEq, Repr

namespace Components

/-- A diagram with nothing in it. -/
def empty : Components :=
  { packages := [], standalone := [], connections := [], aliases := [], registry := [] }

/-- Where a component is declared: in the package with the number, or on its own. -/
abbrev Container := Option Nat

/-- Adds a new, empty package. -/
def addPackage (name : Option Text) (components : Components) : Components :=
  { components with packages := components.packages ++ [{ name, members := [] }] }

/-- Adds a connection. -/
def addConnection (connection : Connection) (components : Components) : Components :=
  { components with connections := components.connections ++ [connection] }

/-- Puts a component at the end of a container. -/
def place (name : Text) (container : Container) (components : Components) : Components :=
  match container with
  | none => { components with standalone := components.standalone ++ [name] }
  | some index =>
      { components with
        packages := components.packages.modify index fun package =>
          { package with members := package.members ++ [name] } }

/-- The alias that a component goes by after a declaration: the one that is given, unless it is
empty; else the one it had; else its name. -/
def chosenAlias (given old : Option Text) (name : Text) : Text :=
  ((given.filter fun text => !text.isEmpty).or old).getD name

/-- Declares a component. It is placed only if its name is new. Its name and its alias become
keys for it, taking them over from other components if need be. -/
def declare (name : Text) (given : Option Text) (container : Container)
    (components : Components) : Components :=
  let old := components.aliases.find? name
  let chosen := chosenAlias given old name
  let placed := if old.isSome then components else components.place name container
  { placed with
    aliases := components.aliases.assign name chosen
    registry := (components.registry.assign name name).assign chosen name }

/-- The alias of a component. -/
def aliasOf (components : Components) (name : Text) : Text :=
  (components.aliases.find? name).getD name

end Components

end DiagramSketch
