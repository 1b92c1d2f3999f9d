import Depot.Coordinate.Basic
import Depot.Validation
/-!
# Coordinates from fields

A coordinate is built from five fields as they come from outside. Group and artifact must be texts
of one to `Part.maxLength` characters, counted before the blanks around them are dropped, and
something must be left of them. A missing or blank extension is `jar`, a missing classifier is
empty, and a version may be missing but not of another kind than text. All issues are reported, in
field order.

An extension or classifier of another kind than text counts as missing where its value counts as
nothing. Otherwise the fields do not fit a coordinate at all, and no other issue is reported.
-/

namespace Depot

/-- The fields of a coordinate as they come from outside. -/
structure CoordinateFields where
  group : RawField := .absent
  artifact : RawField := .absent
  extension : RawField := .absent
  classifier : RawField := .absent
  version : RawField := .absent
  deriving DecidableEq, Repr

/-- The name that a text stands for, or what is wrong with it. -/
def Part.ofText? (s : String) : Except IssueKind Part :=
  if s.length = 0 then .error .tooShort
  else if hlong : Part.maxLength < s.length then .error .tooLong
  else if h : Text.strip s = "" then .error .blank
  else .ok ⟨Text.strip s, Text.strip_strip s, h,
    Nat.le_trans (Text.length_strip_le s) (Nat.le_of_not_lt hlong)⟩

/-- A group or artifact field. -/
def Part.ofField (name : String) : RawField → Checked Part
  | .absent => Checked.issue name .missing
  | .null => Checked.issue name .notText
  | .other _ => Checked.issue name .notText
  | .text s =>
    match Part.ofText? s with
    | .ok part => .ok part
    | .error kind => Checked.issue name kind

/-- The text of an optional field, empty where there is none. -/
def RawField.textOrEmpty : RawField → String
  | .text s => s
  | _ => ""

/-- Is the field something, and no text? -/
def RawField.isUnfit : RawField → Bool
  | .other hollow => !hollow
  | _ => false

/-- A version field. -/
def versionOfField : RawField → Checked (Option String)
  | .absent => .ok none
  | .null => .ok none
  | .other _ => Checked.issue "version" .notText
  | .text s => .ok (some s)

namespace Coordinate

/-- Builds a coordinate from fields that fit one, or reports what is wrong with them. -/
def ofFields (f : CoordinateFields) : Checked Coordinate :=
  let build (group artifact : Part) (version : Option String) : Coordinate :=
    { group, artifact, extension := .ofText f.extension.textOrEmpty,
      classifier := .ofText f.classifier.textOrEmpty, version }
  Checked.ap (Checked.ap ((Part.ofField "group_id" f.group).map build)
    (Part.ofField "artifact_id" f.artifact)) (versionOfField f.version)

/-- Why fields make no coordinate. -/
inductive FieldsError where
  /-- The extension or the classifier is something, and no text. -/
  | unfit
  | invalid (issues : List Issue)
  deriving DecidableEq, Repr

/-- Builds a coordinate from whatever fields are given. -/
def ofAnyFields (f : CoordinateFields) : Except FieldsError Coordinate :=
  if f.extension.isUnfit || f.classifier.isUnfit then .error .unfit
  else (ofFields f).mapError .invalid

end Coordinate

end Depot
