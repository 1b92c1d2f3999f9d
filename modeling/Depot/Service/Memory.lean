import Depot.Depmap.Basic
import Depot.Failure
import Depot.Metadata.Basic
import Depot.OnceCache.Memo
/-!
# What a service remembers

A service answers requests on files that may change between them. It reads a map of fragments once
for each root, and the metadata of a leaf once for each tree, and answers from what it remembers.
Loaders and trees are told apart by numbers, which are never given twice, and so are the published
maps, whose numbers are their places in the order of publication: a number stands for one map for
good.
-/

namespace Depot

/-- What a service remembers between requests. -/
structure Memory where
  files : FileTree
  /-- The maps in the order in which they were published. -/
  published : List Depmap := []
  /-- The number of the map of a root, for the loader with a number. -/
  maps : Memo (Nat × Place) Nat := .empty
  /-- The metadata of the leaf at a position, for the tree with a number. -/
  metadata : Memo (Nat × List Nat) (List Metadata) := .empty
  /-- How many loaders there are. -/
  loaders : Nat := 0
  /-- How many trees there are. -/
  trees : Nat := 0
  warnings : List Warning := []
  deriving Inhabited

/-- Work that a service does for a request. What it remembers stays also where the work fails. -/
abbrev Serving := Working Memory

namespace Serving

/-- Work on the files as they are now. -/
def onFiles {α : Type} (work : FileTree → Noting α) : Serving α := do
  let memory ← get
  let (outcome, noted) := (work memory.files).outcome []
  set { memory with warnings := memory.warnings ++ noted }
  MonadExcept.ofExcept outcome

end Serving

end Depot
