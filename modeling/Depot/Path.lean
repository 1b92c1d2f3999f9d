import Depot.Text.Split
/-!
# Paths

A path is where it starts and a list of names. Reading a path drops empty names and the name `.`,
but keeps `..`, whose meaning depends on the file system. A path that starts with exactly two
slashes starts at a place of its own; three or more count as one.

Joining an absolute path discards what it is joined to.
-/

namespace Depot

/-- Where a path starts. -/
inductive Path.Start where
  | relative
  | root
  | doubleRoot
  deriving DecidableEq, Repr, Inhabited

/-- A path. -/
structure Path where
  start : Path.Start
  names : List String
  deriving DecidableEq, Repr, Inhabited

namespace Path

/-- The root of the file tree. -/
def root : Path := ⟨.root, []⟩

/-- Where a text starts, read as a path. -/
def startOf : List Char → Start
  | '/' :: '/' :: '/' :: _ => .root
  | '/' :: '/' :: _ => .doubleRoot
  | '/' :: _ => .root
  | _ => .relative

/-- Is it a name that a path keeps? -/
def isKept (name : String) : Bool := name != "" && name != "."

/-- Reads a path. -/
def ofText (s : String) : Path := ⟨startOf s.toList, (Text.split '/' s).filter isKept⟩

/-- What a path starts with when it is written. -/
def Start.text : Start → String
  | .relative => ""
  | .root => "/"
  | .doubleRoot => "//"

/-- Writes a path; the relative path without names is a point. -/
def toText (p : Path) : String :=
  if p.start = .relative ∧ p.names = [] then "." else p.start.text ++ Text.join '/' p.names

/-- Does the path say where it starts? -/
def isAbsolute (p : Path) : Bool := p.start != .relative

/-- The path `q` as seen from `p`. -/
def join (p q : Path) : Path := if q.isAbsolute then q else ⟨p.start, p.names ++ q.names⟩

/-- The path that a text names as seen from `p`. -/
def follow (p : Path) (s : String) : Path := p.join (ofText s)

/-- The path of an entry of a directory. -/
def child (p : Path) (name : String) : Path := ⟨p.start, p.names ++ [name]⟩

/-- The path without `..` and the name before it, by its names alone. -/
def cleanNames (absolute : Bool) : List String → List String → List String
  | kept, [] => kept.reverse
  | kept, name :: names =>
    if name = ".." then
      match kept with
      | [] => cleanNames absolute (if absolute then [] else [".."]) names
      | last :: before =>
        if last = ".." then cleanNames absolute (".." :: kept) names
        else cleanNames absolute before names
    else cleanNames absolute (name :: kept) names

/-- A path joined with an absolute one is the absolute one. -/
theorem join_of_isAbsolute {p q : Path} (h : q.isAbsolute = true) : p.join q = q := by
  simp [join, h]

/-- Joining with a relative path keeps the start. -/
theorem start_join_of_relative {p q : Path} (h : q.isAbsolute = false) :
    (p.join q).start = p.start := by
  simp [join, h]

example : toText (ofText "//a/./b//c/..") = "//a/b/c/.." := by decide
example : toText (ofText "") = "." := by decide

end Path

end Depot
