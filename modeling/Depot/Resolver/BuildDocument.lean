import Depot.Artifact
import Depot.Coordinate.Markup
/-!
# Build dependencies as a document

Resolved requests are written as a document of build dependencies, each with the version under which
it was found, or the reserved one. The order of the requests is kept, and a record that was written
before is left out.
-/

namespace Depot.BuildDocument

open Xml (Markup)

/-- The coordinates to write, before repetitions are dropped. -/
def coordinates (results : List Resolution) : List Coordinate :=
  results.map fun r => r.coordinate.withVersion (some r.buildVersion)

/-- The members of a list, each at its first place only. -/
def distinct (seen : List Coordinate) : List Coordinate → List Coordinate
  | [] => []
  | c :: cs => if seen.contains c then distinct seen cs else c :: distinct (c :: seen) cs

/-- Results as an element. -/
def toMarkup (results : List Resolution) : Markup :=
  .group "dependencies" ((distinct [] (coordinates results)).map (Coordinate.toMarkup "dependency"))

/-- Results as a document. -/
def render (results : List Resolution) : String :=
  String.ofList (Markup.document "Build dependencies generated by mcp-local-artifact-resolver"
    (toMarkup results))

end Depot.BuildDocument
