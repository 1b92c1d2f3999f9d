import Depot.Failure
import Depot.Metadata.Reader
/-!
# The metadata of a system

Metadata documents lie in files, which are named by path; a directory stands for the files in it, in
the order of their names. A document that cannot be read is passed over with a warning. A document
in an encoding that cannot be read fails the work as a whole.
-/

namespace Depot.Metadata

/-- The files among the entries of a directory. Where an entry cannot be tested, the directory is
noted and the rest of its entries passed over. -/
def filesAmong (t : FileTree) (directory : Path) : List String → Noting (List Path)
  | [] => return []
  | name :: names =>
    match t.isFile (directory.child name) with
    | .ok true => do
      let files ← filesAmong t directory names
      return directory.child name :: files
    | .ok false => filesAmong t directory names
    | .error _ => do
      Noting.warn (.metadata directory)
      return []

/-- The files that a path stands for. -/
def filesOf (t : FileTree) (p : Path) : Noting (List Path) := do
  if ← Noting.ofFile (t.isDirectory p) then filesAmong t p (t.entries p) else return [p]

/-- Reads the document in a file, unless it is passed over. -/
def loadFile (t : FileTree) (p : Path) : Noting (Option Metadata) :=
  match t.read p with
  -- of the errors of reading, only this one is caught nowhere
  | .error .nullCharacter => throw (.file .nullCharacter)
  | .error _ => do
    Noting.warn (.metadata p)
    return none
  | .ok bs =>
    match ofFile bs p.toText with
    | .ok m => return some m
    | .error ⟨.document refusal, _⟩ =>
      -- what is wrong with the markup is noted, what is wrong with the encoding is not
      if refusal.isMarkup then do
        Noting.warn (.metadata p)
        return none
      else throw (.encoding refusal)
    | .error _ => do
      Noting.warn (.metadata p)
      return none

/-- Reads the documents that paths stand for. All files are found before the first is read. -/
def loadAll (t : FileTree) (paths : List Path) : Noting (List Metadata) := do
  let files ← paths.mapM (filesOf t)
  let sources ← files.flatten.mapM (loadFile t)
  return sources.filterMap id

end Depot.Metadata
