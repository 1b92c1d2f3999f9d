import Depot.Coordinate.Basic
import Depot.Xml.Writer
/-!
# Coordinates as elements

In the documents that are written a coordinate is an element with a child for each field. The
extension `jar`, an empty classifier and an empty or missing version are left out.
-/

namespace Depot.Coordinate

open Xml (Markup)

/-- A field as an element, unless it need not be written. -/
def optionalField (tag text : String) (skipped : String) : List Markup :=
  if text = skipped then [] else [.text tag text]

/-- A coordinate as an element. -/
def toMarkup (tag : String) (c : Coordinate) : Markup :=
  .group tag ([.text "groupId" c.group.text, .text "artifactId" c.artifact.text] ++
    optionalField "extension" c.extension.text Extension.jar.text ++
    optionalField "classifier" c.classifier.text "" ++
    optionalField "version" (c.version.getD "") "")

end Depot.Coordinate
