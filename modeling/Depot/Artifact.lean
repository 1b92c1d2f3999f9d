import Depot.Coordinate.Fields
/-!
# Installed artifacts and resolutions

An `Artifact` is what a successful look-up reports: the coordinate, the path of the installed file,
the version under which it was found, and where the record comes from. A `Resolution` is the answer
to a request, whose fields are missing where the artifact is not installed: that is an answer and no
error.
-/

namespace Depot

/-- An installed artifact as a look-up reports it. -/
structure Artifact where
  coordinate : Coordinate
  path : String
  /-- The version that was asked for, or the reserved one. -/
  version : String
  source : String
  namespaceName : String
  deriving DecidableEq, Inhabited

/-- The answer to a request for an artifact. -/
structure Resolution where
  coordinate : Coordinate
  path : Option String
  version : Option String
  namespaceName : Option String
  source : Option String
  deriving DecidableEq, Inhabited

/-- The fields of an artifact or a resolution as they come from outside, the coordinate already
read. -/
structure ArtifactFields where
  coordinate : Option Coordinate
  path : RawField
  version : RawField
  source : RawField
  namespaceName : RawField

/-- A required text that must not be empty. -/
def requiredText (name : String) : RawField → Checked String
  | .absent => Checked.issue name .missing
  | .text s => if s.length = 0 then Checked.issue name .tooShort else .ok s
  | _ => Checked.issue name .notText

/-- A text that is empty where it is not given. -/
def defaultText (name : String) : RawField → Checked String
  | .absent => .ok ""
  | .text s => .ok s
  | _ => Checked.issue name .notText

/-- A text that may be missing. -/
def optionalText (name : String) : RawField → Checked (Option String)
  | .absent => .ok none
  | .null => .ok none
  | .text s => .ok (some s)
  | .other _ => Checked.issue name .notText

/-- A required coordinate. -/
def requiredCoordinate : Option Coordinate → Checked Coordinate
  | some c => .ok c
  | none => Checked.issue "coordinate" .missing

/-- Builds an artifact from its fields. -/
def Artifact.ofFields (f : ArtifactFields) : Checked Artifact :=
  (requiredCoordinate f.coordinate).map Artifact.mk
    |> (Checked.ap · (requiredText "path" f.path))
    |> (Checked.ap · (requiredText "version" f.version))
    |> (Checked.ap · (defaultText "source" f.source))
    |> (Checked.ap · (defaultText "namespace" f.namespaceName))

namespace Resolution

/-- Was the artifact found? -/
def found (r : Resolution) : Bool := r.path.isSome

/-- The resolution of a coordinate that is not installed. -/
def missing (c : Coordinate) : Resolution := ⟨c, none, none, none, none⟩

/-- A text, or none where it is empty. -/
def nonempty (s : String) : Option String := if s = "" then none else some s

/-- The resolution of a coordinate by what a look-up found. -/
def ofArtifact (c : Coordinate) : Option Artifact → Resolution
  | none => missing c
  | some a => ⟨c, some a.path, some a.version, nonempty a.namespaceName, nonempty a.source⟩

/-- Builds a resolution from its fields. -/
def ofFields (f : ArtifactFields) : Checked Resolution :=
  (requiredCoordinate f.coordinate).map Resolution.mk
    |> (Checked.ap · (optionalText "artifact_path" f.path))
    |> (Checked.ap · (optionalText "compat_version" f.version))
    |> (Checked.ap · (optionalText "namespace" f.namespaceName))
    |> (Checked.ap · (optionalText "source" f.source))

/-- The version to write into a build file: the one found, or the reserved one. -/
def buildVersion (r : Resolution) : String :=
  match r.path, r.version with
  | some _, some v => versionOfText v
  | _, _ => systemVersion

end Resolution

end Depot
