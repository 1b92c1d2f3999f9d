import Depot.Dictionary
import Depot.Text.Blank
import Depot.Xml.Document
/-!
# Definitions of repositories

A configuration document lists definitions of repositories. Each has an identifier and a type, may
have properties, a configuration and a filter, and each of its parts occurs once. The parts that
depend on the type are kept as elements. The document is read all or nothing.
-/

namespace Depot

/-- The definition of a repository. -/
structure Definition where
  id : String
  type : String
  properties : Dictionary String := []
  configuration : Option Xml.Placed := none
  filter : Option Xml.Placed := none
  deriving DecidableEq

namespace Definition

open Xml (Element Placed)

/-- Why a configuration document cannot be read. -/
inductive Malformed where
  | document (refusal : Xml.Refusal)
  | unexpectedElement (tag : String)
  | repeatedPart (tag : String)
  /-- The identifier or the type is missing or blank. -/
  | incomplete
  | duplicateId (id : String)
  deriving DecidableEq, Repr

/-- The message that goes with a document that cannot be read. -/
def Malformed.message : Malformed → String
  | .document refusal => "Unable to parse repository configuration: " ++ refusal.text
  | .unexpectedElement tag => "Unexpected element <" ++ tag ++ "> in repository configuration"
  | .repeatedPart tag => "Repository definition has more than one <" ++ tag ++ ">"
  | .incomplete => "Repository definition requires non-empty <id> and <type>"
  | .duplicateId id => "Duplicate repository id: " ++ id

/-- The text of an element before its first child, without blanks around it. -/
def textOf (e : Element) : String := Text.strip e.leadingText

/-- The parts of a definition by their names. -/
def readParts : Dictionary Placed → List Placed → Except Malformed (Dictionary Placed)
  | parts, [] => .ok parts
  | parts, part :: rest =>
    if Dictionary.has parts part.element.tag then .error (.repeatedPart part.element.tag)
    else readParts (parts ++ [(part.element.tag, part)]) rest

/-- The text of a part, empty where there is none. -/
def partText (parts : Dictionary Placed) (tag : String) : String :=
  match Dictionary.get? parts tag with
  | some part => textOf part.element
  | none => ""

/-- The properties that an element sets; of several with one name the last counts. -/
def readProperties (e : Element) : Dictionary String :=
  e.children.foldl (fun properties p => Dictionary.put properties p.tag (textOf p)) []

/-- Reads a definition. -/
def read (e : Element) : Except Malformed Definition :=
  if e.tag ≠ "repository" then .error (.unexpectedElement e.tag)
  else do
    let parts ← readParts [] e.content.placed
    let id := partText parts "id"
    let type := partText parts "type"
    if id = "" ∨ type = "" then throw .incomplete
    return {
      id, type
      properties := match Dictionary.get? parts "properties" with
        | some part => readProperties part.element
        | none => []
      configuration := Dictionary.get? parts "configuration"
      filter := Dictionary.get? parts "filter" }

/-- Reads definitions, given the identifiers that are taken. -/
def readAll : (taken : List String) → List Element → Except Malformed (List Definition)
  | _, [] => .ok []
  | taken, e :: es => do
    let d ← read e
    if taken.contains d.id then throw (.duplicateId d.id)
    let ds ← readAll (d.id :: taken) es
    return d :: ds

/-- Reads a configuration document. -/
def ofDocument (source : Xml.Source) : Except Malformed (List Definition) :=
  match Xml.Document.parse source with
  | .error refusal => .error (.document refusal)
  | .ok root => readAll [] root.children

/-- The definition with an identifier. -/
def withId? (definitions : List Definition) (id : String) : Option Definition :=
  definitions.find? fun d => d.id == id

end Definition

end Depot
