import Depot.FileTree.Basic
/-!
# Changing file trees

Files are written, and directories, links and entries of other kinds made and removed, at the place
that a path names. Links on the way are followed. A file is also written where a link at the end of
its path leads; all else concerns the entry itself.

A directory is made together with those above it that are missing, and so are the directories in
which a file or link is to lie. Those stay made also where the work fails after that.
-/

namespace Depot.FileTree

/-- Puts a node at a place. -/
def put (t : FileTree) (place : Place) (node : Node) : FileTree :=
  { t with nodes := t.nodes.filter (fun entry => entry.1 != place) ++ [(place, node)] }

/-- Dropping the entries of a place loses no other entry. -/
theorem find?_dropPlace (nodes : List (Place × Node)) (place other : Place) :
    (nodes.filter fun entry => entry.1 != place).find? (fun entry => entry.1 == other) =
      if other = place then none else nodes.find? fun entry => entry.1 == other := by
  induction nodes with
  | nil => simp
  | cons entry nodes ih =>
    -- a node of the dropped place is found for no other place
    by_cases hplace : entry.1 = place
    · rw [List.filter_cons_of_neg (by simp [hplace]), ih]
      by_cases h : other = place
      · simp [h]
      · rw [if_neg h, if_neg h, List.find?_cons_of_neg (by simp [hplace, Ne.symm h])]
    · rw [List.filter_cons_of_pos (by simp [hplace])]
      by_cases hother : entry.1 = other
      · rw [List.find?_cons_of_pos (by simp [hother]), List.find?_cons_of_pos (by simp [hother]),
          if_neg (fun h => hplace (hother.trans h))]
      · rw [List.find?_cons_of_neg (by simp [hother]), List.find?_cons_of_neg (by simp [hother]),
          ih]

/-- What lies at places after a node is put at one of them. -/
theorem node?_put (t : FileTree) (place other : Place) (node : Node) :
    (t.put place node).node? other =
      if other = [] ∨ other = t.workingPlace then some .directory
      else if other = place then some node
      else t.node? other := by
  by_cases h : other = [] ∨ other = t.workingPlace
  · simp [node?, put, h]
  · simp only [node?, put, if_neg h, List.find?_append, find?_dropPlace]
    by_cases hplace : other = place
    · simp [hplace]
    · simp [hplace, Ne.symm hplace]

/-- The place of the entry that a path names, a link at its end not followed. There is none where
the path is the root or ends in `..`. -/
def entryPlace? (t : FileTree) (p : Path) : Except FileError (Option Place) :=
  match textError? p.toText, p.names.getLast? with
  | some e, _ => .error e
  | none, none => .ok none
  | none, some name => do
    let here ← t.walk .find maxLinks (t.startPlace p) p.names.dropLast
    if t.node? here ≠ some .directory then throw .notDirectory
    else if name = ".." then return none
    else if maxNameLength < (Utf8.encodeString name).length then throw .nameTooLong
    else return some (here ++ [name])

/-- Puts a new entry where a path names a place at which nothing lies. -/
def addEntry (t : FileTree) (p : Path) (node : Node) : Except FileError FileTree := do
  match ← t.entryPlace? p with
  | none => throw .exists
  | some place => if (t.node? place).isSome then throw .exists else return t.put place node

/-- Work that changes a file tree. What has changed stays so where the work fails. -/
abbrev Editing := ExceptT FileError (StateM FileTree)

/-- Replaces the file tree by the outcome of a change, unless that fails. -/
def change (edit : FileTree → Except FileError FileTree) : Editing Unit := do
  set (← MonadExcept.ofExcept (edit (← get)))

/-- Makes a directory. One that is there already will do. -/
def addDirectory (t : FileTree) (p : Path) : Except FileError FileTree :=
  match t.addEntry p .directory with
  | .ok t => .ok t
  | .error .missing => .error .missing
  | .error e => do if ← t.isDirectory p then return t else throw e

/-- Makes the directory of a path, and those above it that are missing. The names of the path are
given backwards. -/
def makeAlong (start : Path.Start) : (namesBackwards : List String) → Editing Unit
  | [] => change (·.addDirectory ⟨start, []⟩)
  | name :: above => do
    let p : Path := ⟨start, (name :: above).reverse⟩
    match (← get).addDirectory p with
    | .error .missing =>
      makeAlong start above
      change (·.addDirectory p)
    | outcome => set (← MonadExcept.ofExcept outcome)

/-- Makes the directory of a path, and those above it that are missing. -/
def makeDirectory (p : Path) : Editing Unit := makeAlong p.start p.names.reverse

/-- Makes the directory in which what a path names is to lie. -/
def makeParent (p : Path) : Editing Unit := makeDirectory ⟨p.start, p.names.dropLast⟩

/-- Writes a file where a path leads. -/
def putFile (t : FileTree) (p : Path) (octets : List UInt8) : Except FileError FileTree := do
  let place ← t.locateFor .write p
  if t.node? place = some .directory then throw .isDirectory else return t.put place (.file octets)

/-- Writes a file, and makes the directories above it that are missing. -/
def write (p : Path) (octets : List UInt8) : Editing Unit := do
  makeParent p
  change (·.putFile p octets)

/-- Puts a link with a target that some path may have. -/
def putLink (t : FileTree) (p : Path) (target : String) : Except FileError FileTree :=
  if textError? p.toText = some .nullCharacter then .error .nullCharacter
  else match textError? target with
    | some e => .error e
    | none => if target = "" then .error .missing else t.addEntry p (.link target)

/-- Makes a link, and the directories above it that are missing. -/
def link (p : Path) (target : String) : Editing Unit := do
  makeParent p
  change (·.putLink p target)

/-- Removes a file or a link. -/
def remove (t : FileTree) (p : Path) : Except FileError FileTree := do
  match ← t.entryPlace? p with
  | none => throw .isDirectory
  | some place =>
    match t.node? place with
    | none => throw .missing
    | some .directory => throw .isDirectory
    | some _ => return { t with nodes := t.nodes.filter fun entry => entry.1 != place }

end Depot.FileTree
