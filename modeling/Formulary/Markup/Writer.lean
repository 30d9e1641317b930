import Formulary.Element.Basic

/-!
# Elements as markup text

An element is written with a start and an end tag around its text and children, or as one empty tag
if it has neither, and its tail behind it.  In text the three characters `&`, `<` and `>` are written
as references.  Names are written as they are: the elements of trees have no namespaces.
-/

namespace Formulary.Markup

def escapeChar (c : Char) : List Char :=
  if c = '&' then ['&', 'a', 'm', 'p', ';']
  else if c = '<' then ['&', 'l', 't', ';']
  else if c = '>' then ['&', 'g', 't', ';']
  else [c]

def escape (cs : List Char) : List Char :=
  cs.flatMap escapeChar

/-- One character of the value of an attribute.  A reader would take white space that stands there as
it is for a plain space. -/
def escapeValueChar (c : Char) : List Char :=
  if c = '"' then ['&', 'q', 'u', 'o', 't', ';']
  else if c = '\t' then ['&', '#', '0', '9', ';']
  else if c = '\n' then ['&', '#', '1', '0', ';']
  else if c = '\r' then ['&', '#', '1', '3', ';']
  else escapeChar c

def writeAttribute (a : String × String) : List Char :=
  ' ' :: a.1.toList ++ '=' :: '"' :: a.2.toList.flatMap escapeValueChar ++ ['"']

mutual

/-- The markup of an element and of its tail. -/
def write : Element → List Char
  | { tag, attributes, text, children, tail } =>
    let start := '<' :: tag.toList ++ attributes.flatMap writeAttribute
    let content := escape (text.getD "").toList ++ writeRow children
    (if (text.getD "").isEmpty && children.isEmpty then start ++ [' ', '/', '>']
      else start ++ '>' :: content ++ '<' :: '/' :: tag.toList ++ ['>'])
        ++ escape (tail.getD "").toList

def writeRow : List Element → List Char
  | [] => []
  | e :: rest => write e ++ writeRow rest

end

def ofElement (e : Element) : String :=
  String.ofList (write e)

end Formulary.Markup
