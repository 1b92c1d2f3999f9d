import Depot.Coordinate.Basic
import Depot.Path
/-!
# The layout of installed files

In the flat layout an artifact lies at `group/artifact[-version][-classifier].extension` under its
root. The group `JPP` stands for the root itself, and a group `JPP/x` for its directory `x`.
-/

namespace Depot.Layout

/-- The group whose artifacts lie at the root. -/
def rootGroup : String := "JPP"

/-- The text after a given one, if the text starts with it. -/
def dropStart? (start s : String) : Option String :=
  if start.toList.isPrefixOf s.toList then some (String.ofList (s.toList.drop start.length))
  else none

/-- Where the files of an artifact start. -/
def base (c : Coordinate) : String :=
  if c.group.text = rootGroup then c.artifact.text
  else match dropStart? (rootGroup ++ "/") c.group.text with
    | some directory => directory ++ "/" ++ c.artifact.text
    | none => c.group.text ++ "/" ++ c.artifact.text

/-- The version as part of a file name; a missing one is spelled out. -/
def versionText (c : Coordinate) : String := c.version.getD "None"

/-- The file of an artifact as seen from the root, with its version in the name or without. -/
def relativePath (c : Coordinate) (versioned : Bool) : Path :=
  let name := base c ++ (if versioned then "-" ++ versionText c else "")
  let name := name ++ (if c.classifier.text = "" then "" else "-" ++ c.classifier.text)
  Path.ofText (name ++ "." ++ c.extension.text)

end Depot.Layout
