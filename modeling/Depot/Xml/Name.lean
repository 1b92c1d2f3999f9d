import Depot.Xml.Character
/-!
# Names

A name is written with an optional scope before a colon. The declarations in force where an element
stands say which namespace a scope denotes, and the full name of the element is that namespace and
the part behind the colon.
-/

namespace Depot.Xml

/-- A name as it is written. -/
structure QName where
  scope : Option String
  base : String
  deriving DecidableEq, Repr, Inhabited

/-- The full name of an element: its namespace, if it has one, and its local part. -/
structure Name where
  namespaceName : Option String
  base : String
  deriving DecidableEq, Repr, Inhabited

/-- A full name as one text, the namespace in braces before the local part. -/
def Name.toText (n : Name) : String :=
  match n.namespaceName with
  | some uri => "\x7b" ++ uri ++ "\x7d" ++ n.base
  | none => n.base

/-- Reads a part of a name, without a colon, at the front of a text. -/
def simpleName? (letters : Letters) (cs : List Char) : Option (List Char × List Char) :=
  match cs with
  | c :: rest =>
    if isNameStart letters c then
      some (c :: rest.takeWhile (isNameChar letters), rest.dropWhile (isNameChar letters))
    else none
  | [] => none

/-- Reads a name at the front of a text. -/
def qname? (letters : Letters) (cs : List Char) : Option (QName × List Char) := do
  let (first, rest) ← simpleName? letters cs
  match rest with
  | ':' :: rest =>
    let (second, rest) ← simpleName? letters rest
    return (⟨some (String.ofList first), String.ofList second⟩, rest)
  | _ => return (⟨none, String.ofList first⟩, rest)

/-- Is the text one name? -/
def isSimpleName (letters : Letters) (cs : List Char) : Bool :=
  match simpleName? letters cs with
  | some (_, rest) => rest.isEmpty
  | none => false

end Depot.Xml
