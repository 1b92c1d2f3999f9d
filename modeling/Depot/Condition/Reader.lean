import Depot.Condition.Basic
import Depot.Text.Blank
import Depot.Text.Digit
import Depot.Xml.Document
/-!
# Conditions as documents

A condition is written as an element with exactly one child, the condition proper. Each kind of
condition and term has an element of its own, named by its local name; the rules say whether it may
hold text of its own and how many children it must have:

* `true`, `false`, the accessors `groupId`, `artifactId`, `extension`, `classifier` and `version`,
  and `null`: no text and no children;
* `not`: no text and one child, a condition; `and`, `or`, `xor`: no text and any number of them;
* `equals`: no text and two children, terms;
* `defined` and `property`: text, which is a property's name, and no children;
* `string`: no children; its text, which may be empty, is the literal.

Blanks around a text are dropped, and a text may come in pieces between the children.
-/

namespace Depot.Condition

open Xml (Content Element)

/-- Why a document is no condition. -/
inductive Malformed where
  /-- The document could not be read. -/
  | document (refusal : Xml.Refusal)
  | textRequired (tag : String)
  | textForbidden (tag : String)
  | childrenForbidden (tag : String)
  | childCount (tag : String) (count : Nat)
  | unknownTerm (tag : String)
  | unknownCondition (tag : String)
  deriving DecidableEq, Repr

/-- The message that goes with a malformed condition. -/
def Malformed.message : Malformed → String
  | .document refusal => "Unable to parse condition document: " ++ refusal.text
  | .textRequired tag => "XML node " ++ tag ++ " must have text content."
  | .textForbidden tag => "XML node " ++ tag ++ " doesn't allow text content."
  | .childrenForbidden tag => "XML node " ++ tag ++ " doesn't allow any children."
  | .childCount tag 1 => "XML node " ++ tag ++ " requires exactly one child node."
  | .childCount tag count =>
    "XML node " ++ tag ++ " must have exactly " ++ Text.decimal count ++ " children."
  | .unknownTerm tag => "Unable to parse string expression: unknown XML node name: " ++ tag
  | .unknownCondition tag => "Unable to parse boolean expression: unknown XML node name: " ++ tag

/-- The text of an element's own level, without blanks around it. -/
def textOf (e : Element) : String := Text.strip e.ownText

/-- The element must have no text. -/
def forbidText (e : Element) : Except Malformed Unit :=
  if textOf e = "" then .ok () else .error (.textForbidden e.tag)

/-- The element must have text and no children; the text. -/
def requireText (e : Element) : Except Malformed String :=
  if e.children.isEmpty && textOf e ≠ "" then .ok (textOf e) else .error (.textRequired e.tag)

/-- The element must have no children. -/
def forbidChildren (e : Element) : Except Malformed Unit :=
  if e.children.isEmpty then .ok () else .error (.childrenForbidden e.tag)

/-- The element must have a given number of children. -/
def requireChildren (e : Element) (count : Nat) : Except Malformed Unit :=
  if e.children.length = count then .ok () else .error (.childCount e.tag count)

/-- An element without text and children, read as a value. -/
def leaf {α : Type} (e : Element) (value : α) : Except Malformed α := do
  forbidText e
  forbidChildren e
  return value

/-- Reads a term. -/
def readTerm (e : Element) : Except Malformed Term :=
  match e.tag with
  | "groupId" => leaf e .group
  | "artifactId" => leaf e .artifact
  | "extension" => leaf e .extension
  | "classifier" => leaf e .classifier
  | "version" => leaf e .version
  | "null" => leaf e .null
  | "property" => return .property (← requireText e)
  | "string" => do
    forbidChildren e
    return .literal (textOf e)
  | tag => throw (.unknownTerm tag)

/-- Reads the two terms of an equation. -/
def readEquation (e : Element) : Except Malformed Condition := do
  forbidText e
  requireChildren e 2
  match e.children with
  | [left, right] =>
    let left ← readTerm left
    let right ← readTerm right
    return .equals left right
  | _ => throw (.childCount e.tag 2)

/-- Reads a condition, given its children read as conditions; these count only where the element
takes conditions. -/
def readNode (e : Element) (operands : Except Malformed (List Condition)) :
    Except Malformed Condition :=
  match e.tag with
  | "true" => leaf e (.literal true)
  | "false" => leaf e (.literal false)
  | "not" => do
    forbidText e
    requireChildren e 1
    -- the children were counted, so there is one operand
    match ← operands with
    | [operand] => return .not operand
    | _ => throw (.childCount e.tag 1)
  | "and" => do
    forbidText e
    return .and (← operands)
  | "or" => do
    forbidText e
    return .or (← operands)
  | "xor" => do
    forbidText e
    return .xor (← operands)
  | "equals" => readEquation e
  | "defined" => return .defined (← requireText e)
  | tag => throw (.unknownCondition tag)

/-- Reads the child elements of some content as conditions. -/
def readAll : Content → Except Malformed (List Condition)
  | .nil => .ok []
  | .char _ rest => readAll rest
  | .element name content rest => do
    let condition ← readNode ⟨name, content⟩ (readAll content)
    let conditions ← readAll rest
    return condition :: conditions

/-- Reads an element as a condition. -/
def read (e : Element) : Except Malformed Condition := readNode e (readAll e.content)

/-- Reads the condition that an element holds as its one child. -/
def ofElement (e : Element) : Except Malformed Condition := do
  requireChildren e 1
  match e.children with
  | [child] => read child
  | _ => throw (.childCount e.tag 1)

/-- Reads a document that holds a condition; without a document the condition always holds. -/
def ofDocument : Option Xml.Source → Except Malformed Condition
  | none => .ok always
  | some source =>
    match Xml.Document.parse source with
    | .ok root => ofElement root
    | .error refusal => .error (.document refusal)

end Depot.Condition
