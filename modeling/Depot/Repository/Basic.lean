import Depot.Binary64.Basic
import Depot.Condition.Basic
import Depot.Path
/-!
# Repositories

A repository answers requests for artifacts. Repositories form a tree: the leaves answer from
metadata or from installed files, a depmap node asks its delegate for the identities to which a
coordinate is mapped, and a compound node asks its children one after the other.

Each node has a namespace, which it gives to answers that have none, and a filter with the
properties for which it is evaluated: a node answers no request that its filter rejects. No node
stores anything.
-/

namespace Depot

/-- What every node of a repository tree has. -/
structure Frame where
  namespaceName : String := ""
  filter : Condition := .always
  properties : Dictionary String := []
  deriving Inhabited

/-- Where the map of a depmap node comes from. -/
structure MapSource where
  root : Path
  paths : List String
  /-- How many seconds to wait for a map that another caller loads. -/
  timeout : Option Binary64 := none
  deriving DecidableEq, Inhabited

/-- A repository. -/
inductive Repository where
  /-- Answers from the metadata in the files and directories of the paths. -/
  | metadata (frame : Frame) (paths : List Path)
  /-- Answers from the files installed under a root. -/
  | jpp (frame : Frame) (root : Path)
  /-- Asks the delegate for what a coordinate is mapped to. -/
  | depmap (frame : Frame) (source : MapSource) (delegate : Repository)
  /-- Asks the children in order, and anchors relative paths. -/
  | compound (frame : Frame) (anchor : Option Path) (children : List Repository)
  deriving Inhabited

namespace Repository

/-- What the node has. -/
def frame : Repository → Frame
  | .metadata frame _ => frame
  | .jpp frame _ => frame
  | .depmap frame _ _ => frame
  | .compound frame _ _ => frame

/-- The name of the node's kind. -/
def kindName : Repository → String
  | .metadata .. => "MetadataRepository"
  | .jpp .. => "JppRepository"
  | .depmap .. => "DepmapRepository"
  | .compound .. => "CompoundRepository"

end Repository

end Depot
