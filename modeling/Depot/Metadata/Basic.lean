import Depot.Artifact
/-!
# Metadata of installed artifacts

A metadata source tells which artifacts a document of the distribution says are installed. An
artifact is registered under each version with which it is compatible, or under the reserved version
where it names none, and the first registration of a coordinate counts.

A request is answered from a list of sources: first by the version that is asked for, in any of
them, and only then by the reserved one.
-/

namespace Depot

/-- Where an artifact lies, and in which namespace. -/
structure Location where
  path : String
  namespaceName : String
  deriving DecidableEq, Inhabited

/-- The registrations of a source, each coordinate once, in the order of registration. -/
abbrev Registry := List (Coordinate × Location)

namespace Registry

/-- Where a coordinate is registered. -/
def location? (r : Registry) (c : Coordinate) : Option Location :=
  (List.find? (fun entry => entry.1 == c) r).map (·.2)

/-- Registers a coordinate, unless it is registered already. -/
def register (r : Registry) (c : Coordinate) (location : Location) : Registry :=
  if r.any fun entry => entry.1 == c then r else r ++ [(c, location)]

/-- Registers a list, one after the other. -/
def registerAll (r : Registry) (entries : List (Coordinate × Location)) : Registry :=
  entries.foldl (fun r entry => r.register entry.1 entry.2) r

end Registry

/-- A source of metadata: its name and its registrations. -/
structure Metadata where
  name : String
  registry : Registry

namespace Metadata

/-- The number of registered coordinates. -/
def size (m : Metadata) : Nat := m.registry.length

/-- What the source reports for exactly this coordinate. -/
def lookup (m : Metadata) (c : Coordinate) : Option Artifact :=
  (m.registry.location? c).map fun location =>
    ⟨c, location.path, versionOfText (c.version.getD ""), m.name, location.namespaceName⟩

/-- What the first source reports that has exactly this coordinate. -/
def first (sources : List Metadata) (c : Coordinate) : Option Artifact :=
  sources.findSome? fun m => m.lookup c

/-- Answers a request from sources. -/
def resolve (sources : List Metadata) (c : Coordinate) : Option Artifact :=
  match first sources c with
  | some found => some found
  | none =>
    if c.version = some systemVersion then none
    else first sources (c.withVersion (some systemVersion))

end Metadata

end Depot
