import Depot.Metadata.Load
import Depot.Repository.Resolve
import Depot.Service.Loader
/-!
# Trees in service

A repository tree in service answers from the files of the system: its depmap nodes have their maps
from a loader, and its leaves read their metadata at the first request and remember it. A leaf that
cannot be read at all is read again at the next request.
-/

namespace Depot

/-- A repository tree in service. -/
structure ServedTree where
  repository : Repository
  loader : Loader
  /-- Tells the leaves of the tree from those of other trees. -/
  number : Nat
  deriving Inhabited

namespace ServedTree

/-- Takes a repository tree into service. -/
def new (repository : Repository) (loader : Loader) : Serving ServedTree :=
  modifyGet fun memory =>
    (⟨repository, loader, memory.trees⟩, { memory with trees := memory.trees + 1 })

/-- The metadata of the leaf at a position. -/
def metadata (tree : ServedTree) (position : List Nat) (paths : List Path) :
    Serving (List Metadata) := do
  let memory ← get
  match memory.metadata.get? (tree.number, position) with
  | some sources => return sources
  | none =>
    let sources ← Serving.onFiles fun files => Metadata.loadAll files paths
    modify fun memory =>
      { memory with metadata := memory.metadata.remember (tree.number, position) sources }
    return sources

/-- How the tree reaches what lies outside it. -/
def access (tree : ServedTree) : Access Serving where
  isFile p := Serving.onFiles fun files => Noting.ofFile (files.isFile p)
  metadata := tree.metadata
  map source := tree.loader.loadMap source.root source.paths

/-- Resolves a coordinate. -/
def resolve (tree : ServedTree) (c : Coordinate) : Serving (Option Artifact) :=
  tree.repository.resolve tree.access [] c

/-- Answers a request. That an artifact is not installed is an answer. -/
def answer (tree : ServedTree) (c : Coordinate) : Serving Resolution :=
  Resolution.ofArtifact c <$> tree.resolve c

/-- The coordinates that a depmap node at the root tries for a request; none for other nodes. -/
def candidates? (tree : ServedTree) (c : Coordinate) : Serving (Option (List Coordinate)) :=
  match tree.repository with
  | .depmap _ source _ => do
    let map ← tree.access.map source
    return some (Depmap.candidates map c)
  | _ => return none

end ServedTree

end Depot
