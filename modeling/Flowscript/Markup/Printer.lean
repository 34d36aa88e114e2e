import Flowscript.Element.Basic

/-!
# Printing elements

`Element.render` prints an element as markup: its start tag, its text, its CDATA, its children and
its end tag. Everything in a text or an attribute value that a reader would take for markup or drop
as a blank is written as a reference.

The documented escapes of XML are the five predefined entities. Blanks are written as character
references beside them, since a reader that trims texts replaces references only after that. A CDATA
section cannot hold its own end, so there it is split in two.
-/

namespace Flowscript

namespace Markup

/-- One character of a text or an attribute value. -/
def escapeChar (c : Char) : List Char :=
  match c with
  | '&' => ['&', 'a', 'm', 'p', ';']
  | '<' => ['&', 'l', 't', ';']
  | '>' => ['&', 'g', 't', ';']
  | '"' => ['&', 'q', 'u', 'o', 't', ';']
  | '\'' => ['&', 'a', 'p', 'o', 's', ';']
  | ' ' => ['&', '#', '3', '2', ';']
  | '\t' => ['&', '#', '9', ';']
  | '\n' => ['&', '#', '1', '0', ';']
  | '\r' => ['&', '#', '1', '3', ';']
  | c => [c]

/-- A text or an attribute value. -/
def escape (s : String) : List Char :=
  s.toList.flatMap escapeChar

/-- The inside of CDATA: where it would end early, one section is closed and another opened. -/
def cdataInside : List Char → List Char
  | [] => []
  | ']' :: ']' :: '>' :: cs =>
    [']', ']', ']', ']', '>', '<', '!', '[', 'C', 'D', 'A', 'T', 'A', '[', '>'] ++ cdataInside cs
  | c :: cs => c :: cdataInside cs

/-- A CDATA section, or several adjacent ones. -/
def cdataSection (s : String) : List Char :=
  ['<', '!', '[', 'C', 'D', 'A', 'T', 'A', '['] ++ cdataInside s.toList ++ [']', ']', '>']

/-- An attribute with the blank before it. -/
def attributeText (a : String × String) : List Char :=
  ' ' :: a.1.toList ++ ['=', '"'] ++ escape a.2 ++ ['"']

end Markup

open Markup

mutual

/-- The element as markup. -/
def Element.render : Element → List Char
  | ⟨name, attributes, text, cdata, children⟩ =>
    '<' :: name.toList ++ attributes.flatMap attributeText ++ ['>'] ++
      (text.map escape).getD [] ++ (cdata.map cdataSection).getD [] ++ Element.renderAll children ++
      ['<', '/'] ++ name.toList ++ ['>']

/-- Elements one after the other. -/
def Element.renderAll : List Element → List Char
  | [] => []
  | e :: es => e.render ++ Element.renderAll es

end

end Flowscript
