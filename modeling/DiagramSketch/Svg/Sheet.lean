import DiagramSketch.Svg.Document

/-!
# Sheets

A sheet is a drawing in the making: elements are added one by one, each below one that
is there already, and whatever is there can be printed at any time, the parts included that
came with a document. Printing indents the element in its place, even where nothing can be
written in the end, so the indentation is there when a part of it is printed later.
-/

namespace DiagramSketch.Svg

open Xml (Element)

/-- Changes the descendant of the element that a path of child numbers leads to. -/
def alterAt (change : Element → Element) : List Nat → Element → Element
  | [], element => change element
  | index :: path, element =>
      { element with children := element.children.modify index (alterAt change path) }

/-- The descendant of the element that a path of child numbers leads to. -/
def descendant? : List Nat → Element → Option Element
  | [], element => some element
  | index :: path, element => element.children[index]?.bind (descendant? path)

/-- Where an element stands: the number of its root, and the path from there. -/
structure Place where
  root : Nat
  path : List Nat
deriving DecidableEq, Repr

/-- A way to an element: the number of one that was added, and child numbers from there on. -/
structure Reference where
  node : Nat
  path : List Nat := []
deriving DecidableEq, Repr

/-- A number of separate documents, and the places of all elements that were added, in the order
in which this was done. -/
structure Sheet where
  roots : List Element
  places : List Place

namespace Sheet

/-- Nothing has been added yet. -/
def blank : Sheet :=
  { roots := [], places := [] }

/-- The place and the present state of the element that is referred to. -/
def find? (sheet : Sheet) (reference : Reference) : Option (Place × Element) := do
  let place ← sheet.places[reference.node]?
  let root ← sheet.roots[place.root]?
  let path := place.path ++ reference.path
  let element ← descendant? path root
  return ({ place with path }, element)

/-- Changes the element at the place. -/
def alter (sheet : Sheet) (place : Place) (change : Element → Element) : Sheet :=
  { sheet with roots := sheet.roots.modify place.root (alterAt change place.path) }

/-- Adds an element that stands by itself. -/
def addRoot (sheet : Sheet) (element : Element) : Sheet :=
  { roots := sheet.roots ++ [element]
    places := sheet.places ++ [{ root := sheet.roots.length, path := [] }] }

/-- Adds an element as the last child of the one at the place. -/
def addChild (sheet : Sheet) (place : Place) (parent element : Element) : Sheet :=
  let altered := sheet.alter place (·.add element)
  { altered with
    places := sheet.places ++ [{ place with path := place.path ++ [parent.children.length] }] }

end Sheet

/-- A step of the work on a sheet. -/
inductive Step where
  | document (width height : Number) (markers : List Text)
  | group (parent : Reference) (className : Text) (values : Keyed Value)
  | shape (parent : Reference) (tag : Text) (values : Keyed Value)
  | line (parent : Reference) (startX startY endX endY : Number) (style : LineStyle)
  | label (parent : Reference) (x y : Number) (content : Text) (style : LabelStyle)
  | polygon (parent : Reference) (points : List (Number × Number)) (values : Keyed Value)
  | print (target : Reference)

/-- What a step leads to. -/
inductive Outcome where
  | added (element : Element)
  | printed (text : Text)
  | failed (fault : Fault)
  /-- There is no such element. -/
  | noElement

namespace Sheet

/-- Adds an element by itself, unless it cannot be made. -/
def offerRoot (sheet : Sheet) : Except Fault Element → Outcome × Sheet
  | .ok element => (.added element, sheet.addRoot element)
  | .error fault => (.failed fault, sheet)

/-- Adds an element below another one, unless it cannot be made. -/
def offerChild (sheet : Sheet) (parent : Reference) (made : Except Fault Element) :
    Outcome × Sheet :=
  match sheet.find? parent, made with
  | none, _ => (.noElement, sheet)
  | some _, .error fault => (.failed fault, sheet)
  | some (place, found), .ok element => (.added element, sheet.addChild place found element)

/-- Takes a step. -/
def take (sheet : Sheet) : Step → Outcome × Sheet
  | .document width height markers => sheet.offerRoot (document width height markers)
  | .group parent className values => sheet.offerChild parent (group className values)
  | .shape parent tag values => sheet.offerChild parent (shape tag values)
  | .line parent startX startY endX endY style =>
      sheet.offerChild parent (line startX startY endX endY style)
  | .label parent x y content style => sheet.offerChild parent (label x y content style)
  | .polygon parent points values => sheet.offerChild parent (polygon points values)
  | .print target =>
      match sheet.find? target with
      | none => (.noElement, sheet)
      | some (place, element) =>
          let outcome : Outcome :=
            match print element with
            | .ok text => .printed text
            | .error fault => .failed fault
          (outcome, sheet.alter place (Element.indented 0))

/-- Takes steps one after the other. -/
def takeAll (sheet : Sheet) : List Step → List Outcome × Sheet
  | [] => ([], sheet)
  | step :: steps =>
      let (outcome, next) := sheet.take step
      let (outcomes, last) := next.takeAll steps
      (outcome :: outcomes, last)

end Sheet

end DiagramSketch.Svg
