import Depot.Xml.Content
import Depot.Xml.Doctype
import Depot.Xml.Token
/-!
# From tokens to a tree

A builder takes the tokens of a document one by one. It keeps the open elements as a stack, and the
root element once that is closed. An end tag must name the innermost open element as its start tag
did. Outside the root there may be white space alone.

A start tag brings its namespace declarations into force for itself and its content, and every scope
in its name and in those of its attributes must be declared. No two attributes of an element may
have the same name, nor the same namespace and local part.
-/

namespace Depot.Xml

/-- The namespaces that scopes denote, innermost declarations first; no scope stands for the
namespace of names without one. -/
abbrev Scopes := List (Option String × String)

namespace Scopes

/-- The namespace of the scope that is always declared. -/
def xmlNamespace : String := "http://www.w3.org/XML/1998/namespace"

/-- The namespace of namespace declarations, which no scope may denote. -/
def declarationNamespace : String := "http://www.w3.org/2000/xmlns/"

/-- What is in force at the root. -/
def initial : Scopes := [(some "xml", xmlNamespace)]

/-- The namespace that a scope denotes, if it is declared. -/
def denoted? (scopes : Scopes) (scope : Option String) : Option String :=
  (List.find? (fun s => s.1 == scope) scopes).map (·.2)

/-- The full name of an element, if its scope is declared. -/
def elementName? (scopes : Scopes) (q : QName) : Option Name :=
  match q.scope, scopes.denoted? q.scope with
  | some _, some uri => some ⟨some uri, q.base⟩
  | some _, none => none
  | none, some uri => some ⟨if uri = "" then none else some uri, q.base⟩
  | none, none => some ⟨none, q.base⟩

/-- The scope that an attribute declares, if it is a namespace declaration. -/
def declaredScope? (q : QName) : Option (Option String) :=
  match q.scope with
  | none => if q.base = "xmlns" then some none else none
  | some scope => if scope = "xmlns" then some (some q.base) else none

/-- May a scope be declared to denote a namespace? -/
def mayDeclare (scope : Option String) (uri : String) : Bool :=
  !(uri == "" && scope.isSome) && scope != some "xmlns" && !uri.toList.contains '\x7d' &&
    (scope == some "xml") == (uri == xmlNamespace) && uri != declarationNamespace

/-- Brings one declaration into force. -/
def declare? (scopes : Scopes) (scope : Option String) (value : List Char) : Option Scopes :=
  let uri := String.ofList value
  if mayDeclare scope uri then some ((scope, uri) :: scopes) else none

/-- Brings the declarations among attributes into force. -/
def declareAll? (scopes : Scopes) (attributes : List Attribute) : Option Scopes :=
  attributes.foldlM (fun scopes a =>
    match declaredScope? a.name with
    | some scope => scopes.declare? scope a.value
    | none => some scopes) scopes

/-- The full names of the attributes that have a scope and declare nothing, if all are declared. -/
def attributeNames? (scopes : Scopes) (attributes : List Attribute) : Option (List Name) :=
  (attributes.filter fun a => a.name.scope.isSome && (declaredScope? a.name).isNone).mapM fun a =>
    (scopes.denoted? a.name.scope).map fun uri => ⟨some uri, a.name.base⟩

end Scopes

/-- Are all members of a list different? -/
def allDistinct {α : Type} [BEq α] : List α → Bool
  | [] => true
  | a :: as => !as.contains a && allDistinct as

/-- A text with its blanks collapsed: none at the ends, and one between words. -/
def collapse (cs : List Char) : List Char :=
  let go := cs.foldl (fun (acc : List Char) c =>
    if c = ' ' ∧ (acc.isEmpty ∨ acc.head? = some ' ') then acc else c :: acc) []
  (go.dropWhile (· = ' ')).reverse

namespace Doctype

/-- The rule for an attribute of an element, each by its name as written. -/
def rule? (d : Doctype) (element : List Char) (name : QName) : Option AttributeRule :=
  d.rules.find? fun r => r.element.toList == element && r.name == name

/-- The attributes of a start tag, with values that are no plain text collapsed, and with those that
the document type adds. -/
def complete (d : Doctype) (element : List Char) (attributes : List Attribute) : List Attribute :=
  -- only values whose type is declared, and is not plain text, are collapsed
  let given := attributes.map fun a =>
    match d.rule? element a.name with
    | some r => if r.plain then a else { a with value := collapse a.value }
    | none => a
  -- defaults stand in for attributes that were not given
  let added := d.rules.filterMap fun r =>
    match r.default with
    | some value =>
      if r.element.toList == element && !attributes.any (fun a => a.name == r.name) then
        some ⟨r.name, if r.plain then value else collapse value⟩
      else none
    | none => none
  given ++ added

end Doctype

/-- A name as written. -/
def QName.written (q : QName) : List Char :=
  match q.scope with
  | some scope => scope.toList ++ ':' :: q.base.toList
  | none => q.base.toList

/-- An open element: its name as written and in full, what is in force inside it, and its content so
far, backwards. -/
structure Frame where
  written : List Char
  name : Name
  scopes : Scopes
  content : Content
  deriving Repr

/-- A document in the making: its open elements, innermost first, and its root once that is
closed. -/
structure Builder where
  stack : List Frame
  root : Option Element
  deriving Repr

namespace Builder

/-- Nothing is read yet. -/
def empty : Builder := ⟨[], none⟩

/-- What is in force at this place. -/
def scopes (b : Builder) : Scopes :=
  match b.stack with
  | frame :: _ => frame.scopes
  | [] => Scopes.initial

/-- Adds a character of text; outside the root only white space may stand. -/
def addText (b : Builder) (c : Char) : Option Builder :=
  match b.stack with
  | frame :: outer =>
    some { b with stack := { frame with content := .char c frame.content } :: outer }
  | [] => if isSpace c then some b else none

/-- Adds the characters of a reference or of quoted text. -/
def addQuoted (b : Builder) (cs : List Char) : Option Builder :=
  match b.stack with
  | frame :: outer =>
    let content := cs.foldl (fun k c => .char c k) frame.content
    some { b with stack := { frame with content } :: outer }
  | [] => none

/-- Opens an element. -/
def openElement (d : Doctype) (b : Builder) (name : QName) (attributes : List Attribute) :
    Option Builder := do
  if b.stack.isEmpty && b.root.isSome then none
  else if !allDistinct (attributes.map (·.name)) then none
  else
    let attributes := d.complete name.written attributes
    let scopes ← b.scopes.declareAll? attributes
    let names ← scopes.attributeNames? attributes
    let full ← scopes.elementName? name
    if allDistinct names then
      return { b with stack := ⟨name.written, full, scopes, .nil⟩ :: b.stack }
    else none

/-- Closes the innermost element. -/
def closeElement (b : Builder) (written : List Char) : Option Builder :=
  match b.stack with
  | [] => none
  | frame :: outer =>
    if frame.written = written then
      let content := frame.content.reverse
      match outer with
      | [] => some ⟨[], some ⟨frame.name, content⟩⟩
      | parent :: rest =>
        some { b with stack :=
          { parent with content := .element frame.name content parent.content } :: rest }
    else none

/-- Takes one token. -/
def step (d : Doctype) (b : Builder) : Token → Option Builder
  | .text c => b.addText c
  | .quoted cs => b.addQuoted cs
  | .startTag name attributes => openElement d b name attributes
  | .endTag written => b.closeElement written

/-- Takes tokens. -/
def run (d : Doctype) (b : Builder) (tokens : List Token) : Option Builder :=
  tokens.foldlM (step d) b

/-- The root, once everything is closed. -/
def finish (b : Builder) : Option Element := if b.stack.isEmpty then b.root else none

end Builder

/-- The tree that tokens stand for. -/
def tree? (d : Doctype) (tokens : List Token) : Option Element := do
  (← Builder.run d .empty tokens).finish

end Depot.Xml
