import Depot.Failure
import Depot.Fragment.Reader
/-!
# The merged map of a system

The fragments of a system lie in files, which are named by path or found in directories. They are
visited in the order of the paths, and in a directory in the order of the names; a directory within
a directory is skipped. Each fragment is read into a map of its own and merged; one that cannot be
read is passed over with a warning. The merged map is optimized and published.
-/

namespace Depot.Fragment

/-- Merges the fragment in a file, which is passed over if it is a directory. -/
def mergeFile (t : FileTree) (m : Depmap) (p : Path) : Noting Depmap := do
  if ← Noting.ofFile (t.isDirectory p) then return m
  match t.read p with
  | .ok bs =>
    match load bs p.toText with
    | .ok staged => Noting.ofEdit (m.merge staged)
    | .error (.malformed _) =>
      Noting.warn (.fragment p)
      return m
    | .error (.edit e) => throw (.edit e)
  -- of the errors of reading, only this one is caught nowhere
  | .error .nullCharacter => throw (.file .nullCharacter)
  | .error _ =>
    Noting.warn (.fragment p)
    return m

/-- Merges the fragments that a path names: those in a directory, or a file. -/
def mergePath (t : FileTree) (m : Depmap) (p : Path) : Noting Depmap := do
  if ← Noting.ofFile (t.isDirectory p) then
    (t.entries p).foldlM (fun m name => mergeFile t m (p.child name)) m
  else mergeFile t m p

/-- The merged map of the system at a root. -/
def mergeAll (t : FileTree) (root : Path) (paths : List String) : Noting Depmap := do
  let m ← paths.foldlM (fun m s => mergePath t m (root.follow s)) Depmap.empty
  let m ← Noting.ofEdit m.optimize
  return m.freeze

end Depot.Fragment
