import Depot.Coordinate.Fields
import Depot.Text.Quoted
import Depot.Text.Split
/-!
# Coordinates as text

A coordinate is written as its fields, joined by colons:

    group:artifact[:extension[:classifier]]:version

An empty version, and a text of group and artifact alone, stand for the reserved version, so a
coordinate that is read always has a version.
-/

namespace Depot.Coordinate

/-- Why a text is no coordinate. -/
inductive ParseError where
  /-- The text has the wrong number of fields. -/
  | shape (text : String)
  /-- A field is not acceptable. -/
  | fields (issues : List Issue)
  deriving DecidableEq, Repr

/-- The message for a text with the wrong number of fields. -/
def shapeMessage (text : String) : String :=
  "Bad artifact coordinates " ++ Text.quoted text ++
    ", expected format is <groupId>:<artifactId>[:<extension>[:<classifier>]]:<version>"

/-- The fields of a coordinate from the fields of its text. -/
def fieldsOfParts? : List String → Option CoordinateFields
  | [group, artifact] =>
    some { group := .text group, artifact := .text artifact, version := .text systemVersion }
  | [group, artifact, version] =>
    some {
      group := .text group, artifact := .text artifact, version := .text (versionOfText version) }
  | [group, artifact, extension, version] =>
    some { group := .text group, artifact := .text artifact, extension := .text extension,
           version := .text (versionOfText version) }
  | [group, artifact, extension, classifier, version] =>
    some { group := .text group, artifact := .text artifact, extension := .text extension,
           classifier := .text classifier, version := .text (versionOfText version) }
  | _ => none

/-- Reads a coordinate. -/
def parse (text : String) : Except ParseError Coordinate :=
  match fieldsOfParts? (Text.split ':' (Text.strip text)) with
  | none => .error (.shape text)
  | some fields => (ofFields fields).mapError .fields

/-- Writes a coordinate with all its fields; a missing version is written as an empty one. -/
def toText (c : Coordinate) : String := Text.join ':' c.sortKey

end Depot.Coordinate
