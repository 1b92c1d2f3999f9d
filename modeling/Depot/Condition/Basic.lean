import Depot.Coordinate.Basic
import Depot.Dictionary
/-!
# Conditions on artifacts

A condition is a boolean expression over the fields of a coordinate and over named properties. A
`Term` denotes a text or nothing: a missing version, a property that is not set, and the null term
denote nothing. Two terms are equal when both denote the same text, or both nothing.

`Condition.holds` evaluates a condition; on lists of operands it is `List.all`, `List.any` and the
parity of the operands that hold (`allHold_eq`, `anyHolds_eq`).
-/

namespace Depot

/-- A text-valued expression. -/
inductive Term where
  | group
  | artifact
  | extension
  | classifier
  | version
  | literal (s : String)
  | property (name : String)
  | null
  deriving DecidableEq, Repr, Inhabited

/-- A boolean expression. -/
inductive Condition where
  | literal (b : Bool)
  | not (operand : Condition)
  /-- All operands hold. -/
  | and (operands : List Condition)
  /-- Some operand holds. -/
  | or (operands : List Condition)
  /-- An odd number of operands hold. -/
  | xor (operands : List Condition)
  | equals (left right : Term)
  /-- The property is set. -/
  | defined (name : String)
  deriving Repr, Inhabited

/-- What a condition is evaluated against: a coordinate and the properties that are set. -/
structure Context where
  coordinate : Coordinate
  properties : Dictionary String := []

/-- The text that a term denotes, if any. -/
def Term.value (ctx : Context) : Term → Option String
  | .group => some ctx.coordinate.group.text
  | .artifact => some ctx.coordinate.artifact.text
  | .extension => some ctx.coordinate.extension.text
  | .classifier => some ctx.coordinate.classifier.text
  | .version => ctx.coordinate.version
  | .literal s => some s
  | .property name => ctx.properties.get? name
  | .null => none

namespace Condition

/-- The condition that always holds. -/
def always : Condition := .literal true

mutual

/-- Does a condition hold? -/
def holds (ctx : Context) : Condition → Bool
  | .literal b => b
  | .not operand => !holds ctx operand
  | .and operands => allHold ctx operands
  | .or operands => anyHolds ctx operands
  | .xor operands => oddHold ctx operands
  | .equals left right => left.value ctx == right.value ctx
  | .defined name => ctx.properties.has name

/-- Do all of the conditions hold? -/
def allHold (ctx : Context) : List Condition → Bool
  | [] => true
  | c :: cs => holds ctx c && allHold ctx cs

/-- Does one of the conditions hold? -/
def anyHolds (ctx : Context) : List Condition → Bool
  | [] => false
  | c :: cs => holds ctx c || anyHolds ctx cs

/-- Do an odd number of the conditions hold? -/
def oddHold (ctx : Context) : List Condition → Bool
  | [] => false
  | c :: cs => Bool.xor (holds ctx c) (oddHold ctx cs)

end

theorem allHold_eq (ctx : Context) (cs : List Condition) : allHold ctx cs = cs.all (holds ctx) := by
  induction cs with
  | nil => simp [allHold]
  | cons c cs ih => simp [allHold, ih]

theorem anyHolds_eq (ctx : Context) (cs : List Condition) :
    anyHolds ctx cs = cs.any (holds ctx) := by
  induction cs with
  | nil => simp [anyHolds]
  | cons c cs ih => simp [anyHolds, ih]

end Condition

end Depot
