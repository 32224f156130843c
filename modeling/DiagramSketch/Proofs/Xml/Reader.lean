import DiagramSketch.Text.Scan
import DiagramSketch.Xml.Element

/-!
# Reading XML

A reader of documents that knows nothing of the writer.  A document is first read as tokens: start
tags, end tags, tags of empty elements and the text between them.  The elements are then put
together from the tokens: a stack holds those whose end tags have not been read.

Names are made of ASCII letters, digits and a few signs, values stand between double quotes, and
references to the characters of markup and to line breaks are the only ones.  Whether a character
is allowed at all is not asked here.
-/

namespace DiagramSketch.Xml

open DiagramSketch (Text)

/-- White space inside a tag. -/
def isSpace (character : Char) : Bool :=
  character == ' ' || character == '\t' || character == '\r' || character == '\n'

/-- The first character of a name. -/
def isNameStart (character : Char) : Bool :=
  character.isAlpha || character == '_'

/-- A further character of a name. -/
def isNamePart (character : Char) : Bool :=
  character.isAlphanum || character == '_' || character == '-' || character == '.'

/-- Reads a name, as long as it can be. -/
def name? : Text → Option (Text × Text)
  | [] => none
  | first :: rest =>
      if isNameStart first then
        some (first :: rest.takeWhile isNamePart, rest.dropWhile isNamePart)
      else none

/-- The text that a text with references stands for. -/
def resolved? : Text → Option Text
  | [] => some []
  | '&' :: 'a' :: 'm' :: 'p' :: ';' :: rest => (resolved? rest).map ('&' :: ·)
  | '&' :: 'l' :: 't' :: ';' :: rest => (resolved? rest).map ('<' :: ·)
  | '&' :: 'g' :: 't' :: ';' :: rest => (resolved? rest).map ('>' :: ·)
  | '&' :: 'q' :: 'u' :: 'o' :: 't' :: ';' :: rest => (resolved? rest).map ('"' :: ·)
  | '&' :: '#' :: '1' :: '3' :: ';' :: rest => (resolved? rest).map ('\r' :: ·)
  | '&' :: '#' :: '1' :: '0' :: ';' :: rest => (resolved? rest).map ('\n' :: ·)
  | '&' :: '#' :: '0' :: '9' :: ';' :: rest => (resolved? rest).map ('\t' :: ·)
  | character :: rest => if character = '&' then none else (resolved? rest).map (character :: ·)

/-- Reads a value between double quotes. -/
def value? (text : Text) : Option (Text × Text) :=
  match text.takeWhile (· != '"'), text.dropWhile (· != '"') with
  | raw, _ :: rest =>
      if raw.contains '<' then none else (resolved? raw).map fun value => (value, rest)
  | _, [] => none

/-- Reads an attribute after white space: its name, the sign of equality and its value. -/
def attribute? : Text → Option (Attribute × Text)
  | [] => none
  | first :: text =>
      if isSpace first then do
        let (name, afterName) ← name? (text.dropWhile isSpace)
        let (value, rest) ← value? (← Text.literal? ['=', '"'] afterName)
        return ((name, value), rest)
      else none

theorem length_name? {text name rest : Text} (read : name? text = some (name, rest)) :
    rest.length < text.length := by
  cases text with
  | nil => cases read
  | cons first text =>
      simp only [name?] at read
      split at read
      · cases read
        have shorter := (List.dropWhile_sublist (l := text) isNamePart).length_le
        simp only [List.length_cons]
        omega
      · cases read

theorem length_value? {text value rest : Text} (read : value? text = some (value, rest)) :
    rest.length < text.length := by
  have shorter := (List.dropWhile_sublist (l := text) (· != '"')).length_le
  unfold value? at read
  split at read
  · next quote after dropped =>
      split at read
      · cases read
      · obtain ⟨found, -, equal⟩ := Option.map_eq_some_iff.mp read
        cases equal
        rw [dropped, List.length_cons] at shorter
        omega
  · cases read

theorem length_attribute? {text rest : Text} {entry : Attribute}
    (read : attribute? text = some (entry, rest)) : rest.length < text.length := by
  cases text with
  | nil => cases read
  | cons first text =>
      have shorter := (List.dropWhile_sublist (l := text) isSpace).length_le
      simp only [attribute?] at read
      split at read
      · simp only [Option.bind_eq_bind, Option.bind_eq_some_iff, Option.pure_def,
          Option.some.injEq, Prod.mk.injEq] at read
        obtain ⟨⟨name, afterName⟩, readName, afterSign, readSign, ⟨value, afterValue⟩, readValue,
          -, equal⟩ := read
        have nameShorter := length_name? readName
        have valueShorter := length_value? readValue
        rw [Text.literal?_eq_some_iff] at readSign
        subst readSign equal
        simp only [List.length_cons, List.length_append, List.length_nil] at nameShorter ⊢
        omega
      · cases read

/-- Reads attributes, as many as there are. -/
def leadingAttributes (text : Text) : List Attribute × Text :=
  match read : attribute? text with
  | none => ([], text)
  | some (entry, afterEntry) =>
      have := length_attribute? read
      let (entries, rest) := leadingAttributes afterEntry
      (entry :: entries, rest)
termination_by text.length

theorem length_leadingAttributes (text : Text) :
    (leadingAttributes text).2.length ≤ text.length := by
  fun_induction leadingAttributes text with
  | case1 text unread => exact Nat.le_refl _
  | case2 text entry afterEntry read shorter entries rest equal induction =>
      rw [equal] at induction
      exact Nat.le_trans induction (Nat.le_of_lt shorter)

/-- A piece of a document. -/
inductive Token where
  | opening (tag : Text) (attributes : List Attribute)
  | empty (tag : Text) (attributes : List Attribute)
  | closing (tag : Text)
  | content (text : Text)
deriving DecidableEq, Repr

/-- Reads what follows the angle bracket of a start tag or of an empty element. No two attributes
have the same name. -/
def opening? (text : Text) : Option (Token × Text) := do
  let (tag, afterTag) ← name? text
  let (entries, afterEntries) := leadingAttributes afterTag
  if (entries.map Prod.fst).Nodup then
    match afterEntries.dropWhile isSpace with
    | '>' :: rest => some (.opening tag entries, rest)
    | '/' :: '>' :: rest => some (.empty tag entries, rest)
    | _ => none
  else none

/-- Reads what follows the angle bracket and the slash of an end tag. -/
def closing? (text : Text) : Option (Token × Text) := do
  let (tag, afterTag) ← name? text
  match afterTag.dropWhile isSpace with
  | '>' :: rest => some (.closing tag, rest)
  | _ => none

/-- Reads the text up to the next tag. The end of a section of raw text must not be in it. -/
def content? (text : Text) : Option (Token × Text) :=
  let raw := text.takeWhile (· != '<')
  if Text.occursIn [']', ']', '>'] raw then none
  else (resolved? raw).map fun content => (.content content, text.dropWhile (· != '<'))

/-- Reads a token. -/
def token? : Text → Option (Token × Text)
  | [] => none
  | '<' :: '/' :: text => closing? text
  | '<' :: text => opening? text
  | first :: text => content? (first :: text)

theorem length_opening? {text rest : Text} {token : Token}
    (read : opening? text = some (token, rest)) : rest.length < text.length := by
  simp only [opening?, Option.bind_eq_bind, Option.bind_eq_some_iff] at read
  obtain ⟨⟨tag, afterTag⟩, readTag, found⟩ := read
  have tagShorter := length_name? readTag
  have entriesShorter := length_leadingAttributes afterTag
  have spaceShorter :=
    (List.dropWhile_sublist (l := (leadingAttributes afterTag).2) isSpace).length_le
  split at found
  · split at found
    · next equal =>
        cases found
        simp only [equal, List.length_cons] at spaceShorter
        omega
    · next equal =>
        cases found
        simp only [equal, List.length_cons] at spaceShorter
        omega
    · cases found
  · cases found

theorem length_closing? {text rest : Text} {token : Token}
    (read : closing? text = some (token, rest)) : rest.length < text.length := by
  simp only [closing?, Option.bind_eq_bind, Option.bind_eq_some_iff] at read
  obtain ⟨⟨tag, afterTag⟩, readTag, found⟩ := read
  have tagShorter := length_name? readTag
  have spaceShorter := (List.dropWhile_sublist (l := afterTag) isSpace).length_le
  split at found
  · next equal =>
      cases found
      simp only [equal, List.length_cons] at spaceShorter
      omega
  · cases found

theorem length_content? {first : Char} {text rest : Text} {token : Token}
    (noTag : first ≠ '<') (read : content? (first :: text) = some (token, rest)) :
    rest.length < (first :: text).length := by
  have taken : (first != '<') = true := by simpa using noTag
  have dropped : (first :: text).dropWhile (· != '<') = text.dropWhile (· != '<') :=
    List.dropWhile_cons_of_pos taken
  have shorter := (List.dropWhile_sublist (l := text) (· != '<')).length_le
  simp only [content?, dropped] at read
  split at read
  · cases read
  · obtain ⟨found, -, equal⟩ := Option.map_eq_some_iff.mp read
    cases equal
    rw [List.length_cons]
    omega

theorem length_token? {text rest : Text} {token : Token}
    (read : token? text = some (token, rest)) : rest.length < text.length := by
  unfold token? at read
  split at read
  · cases read
  · have shorter := length_closing? read
    simp only [List.length_cons]
    omega
  · have shorter := length_opening? read
    simp only [List.length_cons]
    omega
  · next first text notClosing notOpening =>
      refine length_content? ?_ read
      rintro rfl
      exact notOpening rfl

/-- Reads a text as tokens. -/
def tokens? (text : Text) : Option (List Token) :=
  if text.isEmpty then some []
  else
    match read : token? text with
    | none => none
    | some (token, rest) =>
        have := length_token? read
        (tokens? rest).map (token :: ·)
termination_by text.length

/-- An element whose end tag has not been read. Its children so far stand last one first. -/
structure OpenElement where
  tag : Text
  attributes : List Attribute
  text : Option Text
  children : List Element

namespace OpenElement

/-- The element with a text after all that has been read of it. -/
def addText (element : OpenElement) (text : Text) : OpenElement :=
  match element.children with
  | [] => { element with text := some text }
  | last :: earlier => { element with children := { last with tail := some text } :: earlier }

/-- The element with one more child. -/
def addChild (element : OpenElement) (child : Element) : OpenElement :=
  { element with children := child :: element.children }

/-- The element when its end tag is read. -/
def closed (element : OpenElement) : Element :=
  { tag := element.tag, attributes := element.attributes, text := element.text
    children := element.children.reverse, tail := none }

end OpenElement

/-- How far a document has been put together: the open elements, the innermost first, or its one
element when it is complete. -/
inductive Progress where
  | within (stack : List OpenElement)
  | complete (root : Element)

namespace Progress

/-- Puts an element that is complete into the one around it. -/
def finish (element : Element) : List OpenElement → Progress
  | [] => complete element
  | parent :: outer => within (parent.addChild element :: outer)

/-- Takes a token into account. Nothing may follow the one element of a document, and an end tag
belongs to the innermost open element. -/
def follow : Progress → Token → Option Progress
  | within stack, .opening tag attributes =>
      some (within ({ tag, attributes, text := none, children := [] } :: stack))
  | within stack, .empty tag attributes => some (finish (.empty tag attributes) stack)
  | within (current :: outer), .closing tag =>
      if current.tag = tag then some (finish current.closed outer) else none
  | within (current :: outer), .content text => some (within (current.addText text :: outer))
  | _, _ => none

/-- The element of a document that is complete. -/
def root? : Progress → Option Element
  | within _ => none
  | complete root => some root

end Progress

/-- Reads a document. -/
def read? (document : Text) : Option Element := do
  let tokens ← tokens? document
  (← tokens.foldlM Progress.follow (.within [])).root?

end DiagramSketch.Xml
