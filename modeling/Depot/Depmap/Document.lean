import Depot.Coordinate.Markup
import Depot.Decimal.Printer
import Depot.Depmap.Basic
/-!
# Dependency maps as documents

A map is written as a document that can be read as a fragment again. The parts come in a fixed order
and the members of each in the order of the set, so a map has one text.
-/

namespace Depot.Depmap

open Xml (Markup)

/-- What to write of a map. -/
structure DocumentOptions where
  /-- Write what is required at build time as well. -/
  writeBuild : Bool := false
  /-- Write no requirements. -/
  skipRequires : Bool := false
  /-- Note that the package's own artifacts are not to be listed. -/
  skipProvides : Bool := false
  deriving DecidableEq, Repr

/-- A floor as an element, if there is one. -/
def floorMarkup (tag : String) (floor : Option Decimal) : List Markup :=
  match floor with
  | some d => [.text tag d.toText]
  | none => []

/-- The requirements to write. -/
def writtenRequirements (m : Depmap) (options : DocumentOptions) : OrderedSet Requirement :=
  if options.writeBuild then m.runtime.union m.build else m.runtime

/-- A pair that is mapped as an element. -/
def mappingMarkup (p : Identity × Identity) : Markup :=
  .group "dependency" [p.1.toCoordinate.toMarkup "maven", p.2.toCoordinate.toMarkup "jpp"]

/-- A map as an element. -/
def toMarkup (m : Depmap) (options : DocumentOptions) : Markup :=
  let provides : List Markup := if options.skipProvides then [.text "skipProvides" ""] else []
  let floors : List Markup :=
    if options.skipRequires then []
    else floorMarkup "requiresJava" m.runtimeFloor ++
      (if options.writeBuild then floorMarkup "requiresJavaDevel" m.buildFloor else [])
  let requirements : List Markup :=
    if options.skipRequires then []
    else (m.writtenRequirements options).toList.map fun r => r.toCoordinate.toMarkup "autoRequires"
  .group "dependencyMap" (provides ++ floors ++ m.mappings.toList.map mappingMarkup ++ requirements)

/-- A map as a document. -/
def toDocument (m : Depmap) (options : DocumentOptions) : String :=
  String.ofList (Markup.document "This depmap file was generated by mcp-local-artifact-resolver"
    (m.toMarkup options))

end Depot.Depmap
