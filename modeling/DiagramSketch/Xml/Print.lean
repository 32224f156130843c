import DiagramSketch.Xml.Element

/-!
# Writing XML

The text of an element: its start tag with the attributes, what is inside it, its end
tag, and the text that follows it. An element with nothing inside is closed by its only
tag. The characters that would be read as markup are written as references.
-/

namespace DiagramSketch.Xml

/-- A character of a label. -/
def escapedChar (character : Char) : Text :=
  if character == '&' then "&amp;"
  else if character == '<' then "&lt;"
  else if character == '>' then "&gt;"
  else [character]

/-- A character of an attribute's value, which stands between double quotes and on one line. -/
def escapedAttributeChar (character : Char) : Text :=
  if character == '"' then "&quot;"
  else if character == '\r' then "&#13;"
  else if character == '\n' then "&#10;"
  else if character == '\t' then "&#09;"
  else escapedChar character

/-- A label as it is written. -/
def escaped (text : Text) : Text :=
  text.flatMap escapedChar

/-- An attribute as it is written, after the space that sets it apart. -/
def Attribute.written : Attribute → Text
  | (name, value) => ' ' :: (name ++ '=' :: '"' :: (value.flatMap escapedAttributeChar ++ ['"']))

/-- What stands inside an element, followed by its end tag. -/
def closed (tag inside : Text) : Text :=
  if inside.isEmpty then [' ', '/', '>']
  else '>' :: (inside ++ '<' :: '/' :: (tag ++ ['>']))

mutual

/-- An element and the text after it. -/
def Element.written : Element → Text
  | ⟨tag, attributes, text, children, tail⟩ =>
      '<' :: (tag ++ (attributes.flatMap Attribute.written
        ++ (closed tag (escaped (text.getD []) ++ Element.writtenAll children)
          ++ escaped (tail.getD []))))

/-- Elements one after the other. -/
def Element.writtenAll : List Element → Text
  | [] => []
  | element :: elements => element.written ++ Element.writtenAll elements

end

end DiagramSketch.Xml
