import Depot.Depmap.Basic
/-!
# Records of fragments

A fragment is a short document that comes with a package and tells what to add to the dependency map
of the system. It is read as a list of records, and a record is applied to a map by the map's own
steps.
-/

namespace Depot

/-- A record of a fragment. -/
inductive FragmentRecord where
  /-- The source is provided under each of the targets. -/
  | mapping (source : Coordinate) (targets : List Coordinate)
  /-- The artifact is required at run time. -/
  | requirement (c : Coordinate)
  /-- The platform version is needed, at run time or at build time. -/
  | floor (version : String) (buildTime : Bool)
  deriving DecidableEq

namespace FragmentRecord

/-- Applies a record to a map. -/
def apply (m : Depmap) : FragmentRecord → Except Depmap.EditError Depmap
  | .mapping source targets => targets.foldlM (fun m target => m.addMapping source target) m
  | .requirement c => m.addRuntime c
  | .floor version buildTime => m.addFloor buildTime version

/-- Applies records to a map, one after the other. -/
def applyAll (m : Depmap) (records : List FragmentRecord) : Except Depmap.EditError Depmap :=
  records.foldlM apply m

end FragmentRecord

end Depot
