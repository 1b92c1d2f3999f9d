import Depot.Artifact
import Depot.Coordinate.Grammar
import Depot.Depmap.Basic
import Depot.Metadata.Basic
import Depot.Repository.Basic
import Depot.Repository.Layout
/-!
# Resolving artifacts

A tree resolves a coordinate by asking for three things outside itself: whether a path leads to a
file, the metadata of a leaf, and the map of a depmap node. `Access` names these three, so the same
tree runs against the files of the system with what it remembers of them, and against fixed answers.

Nodes are told apart by their position, the way to them from the root of the tree, innermost step
first.
-/

namespace Depot

/-- What a tree asks for outside itself. -/
structure Access (m : Type → Type) where
  isFile : Path → m Bool
  /-- The metadata of the leaf at a position. -/
  metadata : (position : List Nat) → (paths : List Path) → m (List Metadata)
  /-- The map of a depmap node; none where the wait for it was given up. -/
  map : MapSource → m (Option Depmap)

namespace Frame

/-- Does the node answer requests for the coordinate? -/
def admits (f : Frame) (c : Coordinate) : Bool := f.filter.holds ⟨c, f.properties⟩

/-- An answer of the node: it has the node's namespace, unless it has one. -/
def mark (f : Frame) (a : Artifact) : Artifact :=
  if f.namespaceName ≠ "" ∧ a.namespaceName = "" then { a with namespaceName := f.namespaceName }
  else a

end Frame

/-- A target read for a request: the extension and the version of the request, and its classifier
where the target has none. -/
def Identity.candidateFor (i : Identity) (c : Coordinate) : Coordinate where
  group := i.group
  artifact := i.artifact
  extension := c.extension
  classifier := if i.classifier.text = "" then c.classifier else i.classifier
  version := c.version

/-- The coordinates to try for a request: what it is mapped to in order, then the coordinate
itself. -/
def Depmap.candidates (m? : Option Depmap) (c : Coordinate) : List Coordinate :=
  let mapped := match m? with
    | some m => (m.lookup c).toList.map fun i => i.candidateFor c
    | none => []
  if mapped.contains c then mapped else mapped ++ [c]

/-- The files that answer a request in the flat layout, each with the version that it stands for:
the file of the requested version, then the file without version. -/
def Layout.files (c : Coordinate) : List (Path × String) :=
  let unversioned := (relativePath c false, systemVersion)
  match c.version with
  | some v =>
    if v = "" ∨ v = systemVersion then [unversioned] else [(relativePath c true, v), unversioned]
  | none => [unversioned]

/-- The answer with its path anchored, if that is relative. -/
def anchored (anchor : Option Path) (a : Artifact) : Artifact :=
  match anchor with
  | some anchor =>
    if (Path.ofText a.path).isAbsolute then a else { a with path := (anchor.follow a.path).toText }
  | none => a

namespace Repository

variable {m : Type → Type} [Monad m]

/-- The first answer among those asked for. -/
def firstAnswer {α : Type} (ask : α → m (Option Artifact)) : List α → m (Option Artifact)
  | [] => return none
  | a :: as => do
    match ← ask a with
    | some found => return some found
    | none => firstAnswer ask as

/-- An answer of a node with this frame. -/
def framed (f : Frame) (c : Coordinate) (ask : m (Option Artifact)) : m (Option Artifact) := do
  if f.admits c then
    let answer ← ask
    return answer.map f.mark
  else return none

/-- Answers from a file under a root. -/
def askFile (access : Access m) (root : Path) (c : Coordinate) (file : Path × String) :
    m (Option Artifact) := do
  let path := root.join file.1
  if ← access.isFile path then return some ⟨c, path.toText, file.2, root.toText, ""⟩
  else return none

mutual

/-- Resolves a coordinate. -/
def resolve (access : Access m) (position : List Nat) :
    Repository → Coordinate → m (Option Artifact)
  | .metadata frame paths, c => framed frame c do
    let sources ← access.metadata position paths
    return Metadata.resolve sources c
  | .jpp frame root, c => framed frame c (firstAnswer (askFile access root c) (Layout.files c))
  | .depmap frame source delegate, c => framed frame c do
    let map ← access.map source
    firstAnswer (fun c => resolve access (0 :: position) delegate c) (Depmap.candidates map c)
  | .compound frame anchor children, c => framed frame c do
    let answer ← resolveFirst access position 0 children c
    return answer.map (anchored anchor)

/-- The first answer of children, of which the first has the given number. -/
def resolveFirst (access : Access m) (position : List Nat) (number : Nat) :
    List Repository → Coordinate → m (Option Artifact)
  | [], _ => return none
  | child :: children, c => do
    match ← resolve access (number :: position) child c with
    | some found => return some found
    | none => resolveFirst access position (number + 1) children c

end

/-- The message that goes with an attempt to store an artifact. -/
def storeMessage (r : Repository) (c : Coordinate) : String :=
  "Storing artifacts through " ++ r.kindName ++ " is not supported: " ++ c.toText

end Repository

end Depot
