import Depot.Path
import Depot.Text.Utf8
/-!
# File trees

A file tree holds the files, directories and links of the system, each at its place: the names that
lead to it from the root, none of which is a link. A path is followed name by name: `..` leads to
the directory above, and a link to wherever its target leads from the directory in which it lies. A
place is reached only through directories, and through a bounded number of links. Who asks may read
every file and list every directory.

A path may also be followed to write a file where it leads. Then nothing need be there, but the path
must not end in a slash.
-/

namespace Depot

/-- Where something lies: the names that lead to it from the root. -/
abbrev Place := List String

/-- What may lie at a place. -/
inductive Node where
  | file (octets : List UInt8)
  | directory
  | link (target : String)
  deriving DecidableEq, Repr, Inhabited

/-- Why a path leads nowhere, or what it leads to cannot be used. -/
inductive FileError where
  | missing
  | notDirectory
  | isDirectory
  | exists
  | tooManyLinks
  | nameTooLong
  /-- The path holds a null character, which no name can. -/
  | nullCharacter
  deriving DecidableEq, Repr

/-- The message that goes with an error. -/
def FileError.message : FileError → String
  | .missing => "No such file or directory"
  | .notDirectory => "Not a directory"
  | .isDirectory => "Is a directory"
  | .exists => "File exists"
  | .tooManyLinks => "Too many levels of symbolic links"
  | .nameTooLong => "File name too long"
  | .nullCharacter => "embedded null byte"

/-- The files of the system, and the directory from which relative paths are followed. -/
structure FileTree where
  nodes : List (Place × Node)
  workingPlace : Place
  deriving Inhabited

namespace FileTree

/-- The greatest number of octets in a name. -/
def maxNameLength : Nat := 255

/-- The greatest number of octets in a path. -/
def maxPathLength : Nat := 4095

/-- The greatest number of links on the way to a place. -/
def maxLinks : Nat := 40

/-- What lies at a place. The root and the working directory are always there. -/
def node? (t : FileTree) (place : Place) : Option Node :=
  if place = [] ∨ place = t.workingPlace then some .directory
  else (t.nodes.find? fun entry => entry.1 == place).map (·.2)

/-- The names of a text, empty ones included. -/
def namesOf (s : String) : List String := Text.split '/' s

/-- Is the text a path from the root? -/
def isRooted (s : String) : Bool := s.toList.head? == some '/'

/-- What a path is followed for. -/
inductive Aim where
  /-- To find what is there. -/
  | find
  /-- To write a file there. -/
  | write
  deriving DecidableEq, Repr

/-- Follows names from a place up to a link, where `follow` goes on: it is given the place from
which the target is followed, and the names of the target with those that are left. -/
def walkAlong (t : FileTree) (aim : Aim) (follow : Place → List String → Except FileError Place)
    (here : Place) : List String → Except FileError Place
  | [] => .ok here
  | name :: rest =>
    match t.node? here with
    | some .directory =>
      if name = "" ∨ name = "." then t.walkAlong aim follow here rest
      else if name = ".." then t.walkAlong aim follow here.dropLast rest
      -- a path that is written and ends in a separator names a directory
      else if aim = .write ∧ rest ≠ [] ∧ rest.all String.isEmpty then .error .isDirectory
      else if maxNameLength < (Utf8.encodeString name).length then .error .nameTooLong
      else match t.node? (here ++ [name]) with
        -- what is written need not be there yet
        | none => if aim = .write ∧ rest = [] then .ok (here ++ [name]) else .error .missing
        -- the names of a link come before those that are left of the path
        | some (.link target) =>
          follow (if isRooted target then [] else here) (namesOf target ++ rest)
        | some _ => t.walkAlong aim follow (here ++ [name]) rest
    | _ => .error .notDirectory

/-- Follows names from a place; `links` is the number of links that may still be followed. -/
def walk (t : FileTree) (aim : Aim) : (links : Nat) → (here : Place) → (names : List String) →
    Except FileError Place
  | 0 => t.walkAlong aim fun _ _ => .error .tooManyLinks
  | links + 1 => t.walkAlong aim (t.walk aim links)

/-- Where a path starts. -/
def startPlace (t : FileTree) (p : Path) : Place := if p.isAbsolute then [] else t.workingPlace

/-- The error of a text that can be no path, for a character that it holds or for its length. -/
def textError? (text : String) : Option FileError :=
  if text.toList.contains '\x00' then some .nullCharacter
  else if maxPathLength < (Utf8.encodeString text).length then some .nameTooLong
  else none

/-- The place to which a path leads when it is followed for an aim. -/
def locateFor (t : FileTree) (aim : Aim) (p : Path) : Except FileError Place :=
  match textError? p.toText with
  | some e => .error e
  | none => t.walk aim maxLinks (t.startPlace p) p.names

/-- The place to which a path leads. -/
def locate (t : FileTree) (p : Path) : Except FileError Place := t.locateFor .find p

/-- What lies where a path leads. -/
def find (t : FileTree) (p : Path) : Except FileError Node :=
  match t.locate p with
  | .ok place =>
    match t.node? place with
    | some node => .ok node
    | none => .error .missing
  | .error e => .error e

/-- Does the error only say that there is nothing where the path leads? -/
def FileError.isAbsence : FileError → Bool
  | .nameTooLong => false
  | _ => true

/-- Tests what lies where a path leads. Where nothing does, the test fails. -/
def test (t : FileTree) (p : Path) (holds : Node → Bool) : Except FileError Bool :=
  match t.find p with
  | .ok node => .ok (holds node)
  | .error e => if FileError.isAbsence e then .ok false else .error e

/-- Does the path lead to a file? -/
def isFile (t : FileTree) (p : Path) : Except FileError Bool :=
  t.test p fun node => match node with
    | .file _ => true
    | _ => false

/-- Does the path lead to a directory? -/
def isDirectory (t : FileTree) (p : Path) : Except FileError Bool :=
  t.test p fun node => match node with
    | .directory => true
    | _ => false

/-- The octets of the file to which a path leads. -/
def read (t : FileTree) (p : Path) : Except FileError (List UInt8) :=
  match t.find p with
  | .ok (.file octets) => .ok octets
  | .ok _ => .error .isDirectory
  | .error e => .error e

/-- The name of an entry, if the place lies directly in a directory. -/
def entryName? (directory place : Place) : Option String :=
  match place.getLast? with
  | some name => if place.dropLast = directory then some name else none
  | none => none

/-- The names of the entries of a directory, in order. -/
def entries (t : FileTree) (p : Path) : List String :=
  match t.locate p with
  | .ok place =>
    (t.nodes.filterMap fun entry => entryName? place entry.1).mergeSort fun a b => decide (a ≤ b)
  | .error _ => []

end FileTree

end Depot
