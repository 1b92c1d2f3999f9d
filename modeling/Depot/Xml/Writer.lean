import Depot.Text.Digit
/-!
# Writing documents

A document that is written is a tree of elements, each of which holds either text or elements. Every
element starts on a line of its own, indented by two blanks for each level, and one that holds
nothing is written as an empty tag. The output is ASCII: the characters of the markup are escaped by
name, and characters past ASCII by their code point.
-/

namespace Depot.Xml

/-- An element to be written. -/
inductive Markup where
  /-- An element that holds text. -/
  | text (tag text : String)
  /-- An element that holds elements. -/
  | group (tag : String) (items : List Markup)
  deriving Inhabited

namespace Markup

/-- A character as it is written in text. -/
def escapeChar (c : Char) : List Char :=
  if c = '&' then "&amp;".toList
  else if c = '<' then "&lt;".toList
  else if c = '>' then "&gt;".toList
  else if c.toNat < 0x80 then [c]
  else '&' :: '#' :: (Text.decimal c.toNat).toList ++ [';']

/-- A text as it is written. -/
def escape (s : String) : List Char := s.toList.flatMap escapeChar

/-- A tag without content. -/
def emptyTag (tag : String) : List Char := '<' :: tag.toList ++ [' ', '/', '>']

/-- A start tag. -/
def startTag (tag : String) : List Char := '<' :: tag.toList ++ ['>']

/-- An end tag. -/
def endTag (tag : String) : List Char := '<' :: '/' :: tag.toList ++ ['>']

/-- The blanks in front of an element. -/
def indent (level : Nat) : List Char := List.replicate (2 * level) ' '

mutual

/-- An element at a level. -/
def write (level : Nat) : Markup → List Char
  | .text tag s => if s = "" then emptyTag tag else startTag tag ++ escape s ++ endTag tag
  | .group tag items =>
    match items with
    | [] => emptyTag tag
    | item :: rest =>
      startTag tag ++ ['\n'] ++ writeLines (level + 1) (item :: rest) ++ indent level ++ endTag tag

/-- Elements at a level, each on its own lines. -/
def writeLines (level : Nat) : List Markup → List Char
  | [] => []
  | item :: items => indent level ++ write level item ++ ['\n'] ++ writeLines level items

end

/-- The declaration with which documents start. -/
def declaration : List Char := "<?xml version=\"1.0\" encoding=\"US-ASCII\"?>".toList

/-- A document with a comment before its root element. -/
def document (comment : String) (root : Markup) : List Char :=
  declaration ++ "\n<!-- ".toList ++ comment.toList ++ " -->".toList ++
    '\n' :: (root.write 0 ++ ['\n'])

end Markup

end Depot.Xml
