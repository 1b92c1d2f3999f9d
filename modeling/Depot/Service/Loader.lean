import Depot.Fragment.Merge
import Depot.Service.Memory
/-!
# Loaders of fragments

A loader merges the fragments of a root once. Roots that lead to one place are one root, and the
paths of the fragments count only for the call that reads them: later calls are given the map that
is there. A load that fails leaves no map, so the next call reads again.
-/

namespace Depot

/-- A loader of fragments. Loaders with one number are given the same maps. -/
structure Loader where
  number : Nat
  deriving DecidableEq, Repr, Inhabited

namespace Loader

/-- A loader that has loaded nothing. -/
def new : Serving Loader :=
  modifyGet fun memory => (⟨memory.loaders⟩, { memory with loaders := memory.loaders + 1 })

/-- Publishes the map of a place. -/
def publish (loader : Loader) (place : Place) (map : Depmap) (memory : Memory) : Memory :=
  { memory with
    published := memory.published ++ [map]
    maps := memory.maps.remember (loader.number, place) memory.published.length }

/-- What loaders have after a map is published: what they had stays, and the place has the new map
where it had none. -/
theorem get?_publish (loader : Loader) (place : Place) (map : Depmap) (memory : Memory)
    (key : Nat × Place) :
    (loader.publish place map memory).maps.get? key =
      (memory.maps.get? key).or
        (if (loader.number, place) = key then some memory.published.length else none) :=
  Memo.get?_remember memory.maps (loader.number, place) key memory.published.length

/-- A published map keeps its number. -/
theorem getElem?_publish (loader : Loader) (place : Place) (map : Depmap) (memory : Memory)
    {number : Nat} (h : number < memory.published.length) :
    (loader.publish place map memory).published[number]? = memory.published[number]? :=
  List.getElem?_append_left h

/-- The number of the merged map of a place. -/
def loadAt (loader : Loader) (place : Place) (paths : List String) : Serving Nat := do
  let memory ← get
  match memory.maps.get? (loader.number, place) with
  | some number => return number
  | none =>
    let map ← Serving.onFiles fun files => Fragment.mergeAll files (FileTree.pathOf place) paths
    modifyGet fun memory => (memory.published.length, loader.publish place map memory)

/-- The number of the merged map of a root. -/
def load (loader : Loader) (root : Path) (paths : List String) : Serving Nat := do
  let place ← Serving.onFiles fun files => Noting.canonical files root
  loader.loadAt place paths

/-- The merged map of a root. -/
def loadMap (loader : Loader) (root : Path) (paths : List String) : Serving (Option Depmap) := do
  let number ← loader.load root paths
  return (← get).published[number]?

end Loader

end Depot
