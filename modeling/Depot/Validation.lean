/-!
# Validation issues

Records built from outside values check all their fields and report every issue, each with the place
of the field. `Checked` collects the issues of several fields in field order.
-/

namespace Depot

/-- What is wrong with a field. -/
inductive IssueKind where
  /-- A required field is absent. -/
  | missing
  /-- The value is no text. -/
  | notText
  /-- The text has fewer characters than it must. -/
  | tooShort
  /-- The text has more characters than it may. -/
  | tooLong
  /-- The text is blank. -/
  | blank
  /-- The number is not greater than its bound. -/
  | notGreater
  /-- The text is none of the choices. -/
  | notChoice
  /-- The text stands for no truth value. -/
  | unreadableBool
  /-- The value is of a kind that stands for no truth value. -/
  | notBool
  /-- The text is no number. -/
  | unreadableNumber
  /-- The value is of a kind that stands for no number. -/
  | notNumber
  /-- The value is no list. -/
  | notList
  /-- The record has no such field. -/
  | unknownField
  deriving DecidableEq, Repr

/-- An issue with the field at a place, given from the outermost field inwards. -/
structure Issue where
  place : List String
  kind : IssueKind
  deriving DecidableEq, Repr

/-- A value, or the issues that kept it from being built. -/
abbrev Checked (α : Type) := Except (List Issue) α

namespace Checked

/-- Reports one issue with a field. -/
def issue {α : Type} (field : String) (kind : IssueKind) : Checked α := .error [⟨[field], kind⟩]

/-- Applies a checked function to a checked value; the issues of both are reported. -/
def ap {α β : Type} (f : Checked (α → β)) (x : Checked α) : Checked β :=
  match f, x with
  | .ok f, .ok a => .ok (f a)
  | .ok _, .error issues => .error issues
  | .error issues, .ok _ => .error issues
  | .error issues, .error more => .error (issues ++ more)

end Checked

/-- A field's value as it comes from outside. -/
inductive RawField where
  /-- The field is not given. -/
  | absent
  /-- The field is given without a value. -/
  | null
  /-- The field is a text. -/
  | text (s : String)
  /-- The field is a value of another kind; `hollow` tells whether it is one that counts as nothing,
  such as zero or an empty list. -/
  | other (hollow : Bool)
  deriving DecidableEq, Repr, Inhabited

end Depot
