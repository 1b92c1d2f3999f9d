import Depot.FileTree.Basic
/-!
# Canonical places

The canonical place of a path is where it leads when all links on the way are replaced by what they
stand for. Names that lead to nothing are kept, so a path need not lead anywhere to have one. A link
that comes up again while it is being replaced stays, and the rest of the path with it; if the way
is then endless, the path has no canonical place.

A link is replaced once only, and what it stands for is remembered, so the number of steps is
bounded by the names in the path and in the targets of all links.
-/

namespace Depot.FileTree

/-- A step on the way: a name to follow, or a link whose target is now followed. -/
inductive Step where
  | name (name : String)
  | replaced (link : Place)
  deriving DecidableEq, Repr

/-- The names that are still to be followed: the rest of each target, then the rest of the path. -/
def rests : List Step → List (List String)
  | [] => [[]]
  | .replaced _ :: steps => [] :: rests steps
  | .name name :: steps =>
    match rests steps with
    | rest :: more => (name :: rest) :: more
    | [] => [[name]]

/-- A place with a rest joined to it. A rest that starts with a slash starts at the root. -/
def joinRest (place : Place) (rest : List String) : Place :=
  match rest with
  | "" :: _ :: _ => rest
  | _ => place ++ rest

/-- What is known of the links met so far: where they lead, or that they are being replaced. -/
abbrev KnownLinks := List (Place × Option Place)

/-- What is known of a link. -/
def known? (links : KnownLinks) (place : Place) : Option (Option Place) :=
  (links.find? fun entry => entry.1 == place).map (·.2)

/-- Names without empty ones, and without `.` and `..`, each of the latter with the name
before it. -/
def cleaned (names : List String) : Place := Path.cleanNames true [] (names.filter Path.isKept)

/-- Follows steps from a place; `fuel` bounds their number. -/
def canonicalFrom (t : FileTree) : (fuel : Nat) → KnownLinks → Place → List Step → Place
  | 0, _, here, _ => here
  | _, _, here, [] => here
  -- the names of a link are used up, so its end is known from here on
  | fuel + 1, links, here, .replaced link :: steps =>
    t.canonicalFrom fuel ((link, some here) :: links) here steps
  | fuel + 1, links, here, .name name :: steps =>
    if name = "" ∨ name = "." then t.canonicalFrom fuel links here steps
    else if name = ".." then t.canonicalFrom fuel links here.dropLast steps
    else
      let next := here ++ [name]
      match t.node? next with
      | some (.link target) =>
        match known? links next with
        | some (some place) => t.canonicalFrom fuel links place steps
        -- the link leads back to itself, and what is left of the path is joined as it stands
        | some none => cleaned ((rests steps).foldl joinRest next)
        -- a mark behind the names of the link says where they end
        | none =>
          t.canonicalFrom fuel ((next, none) :: links) (if isRooted target then [] else here)
            ((namesOf target).map .name ++ .replaced next :: steps)
      | _ => t.canonicalFrom fuel links next steps

/-- A bound on the number of steps on the way along some names. -/
def stepBound (t : FileTree) (names : List String) : Nat :=
  t.nodes.foldl (fun n entry => match entry.2 with
    | .link target => n + (namesOf target).length + 1
    | _ => n) (names.length + 1)

/-- Why a path has no canonical place. -/
inductive CanonicalError where
  /-- The way through the links is endless. -/
  | endless (place : Place)
  | nullCharacter
  deriving DecidableEq, Repr

/-- A place as a path. -/
def pathOf (place : Place) : Path := ⟨.root, place⟩

/-- The canonical place of a path. -/
def canonical (t : FileTree) (p : Path) : Except CanonicalError Place :=
  if p.toText.toList.contains '\x00' then .error .nullCharacter
  else
    let place := t.canonicalFrom (t.stepBound p.names) [] (t.startPlace p) (p.names.map .name)
    match t.locate (pathOf place) with
    | .error .tooManyLinks => .error (.endless place)
    | _ => .ok place

end Depot.FileTree
