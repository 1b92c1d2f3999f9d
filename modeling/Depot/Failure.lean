import Depot.Depmap.Basic
import Depot.FileTree.Canonical
import Depot.Text.Quoted
import Depot.Xml.Refusal
/-!
# Failures and warnings

Work on the files of the system may fail: a path cannot be used, a way through links is endless, a
document is in an encoding that cannot be read, or a step on a dependency map fails. What concerns
one file only, and can be passed over, is noted as a warning; warnings stay also where the work
fails later on.
-/

namespace Depot

/-- Why work on the files of the system fails. -/
inductive Failure where
  | file (e : FileError)
  /-- The way through links is endless. -/
  | endless (path : Path)
  /-- A document is in an encoding that cannot be read. -/
  | encoding (refusal : Xml.Refusal)
  /-- A step on a dependency map fails. -/
  | edit (e : Depmap.EditError)
  deriving DecidableEq, Repr

/-- The message that goes with a failure. -/
def Failure.message : Failure → String
  | .file e => e.message
  | .endless path => "Symlink loop from " ++ Text.quoted path.toText
  | .encoding refusal => refusal.text
  | .edit e => e.message

/-- A file or directory that was passed over. -/
inductive Warning where
  | fragment (path : Path)
  | metadata (path : Path)
  deriving DecidableEq, Repr

/-- Work that may fail, over a state that stays also where it does. -/
abbrev Working (State : Type) := ExceptT Failure (StateM State)

namespace Working

variable {State α β : Type}

/-- What comes of work, and the state after it. -/
def outcome (work : Working State α) (s : State) : Except Failure α × State := work.run.run s

/-- Work goes on from what came of the work before. -/
theorem outcome_bind_of_ok {work : Working State α} {s next : State} {a : α}
    (h : work.outcome s = (.ok a, next)) (follow : α → Working State β) :
    (work >>= follow).outcome s = (follow a).outcome next := by
  unfold outcome at *
  rw [ExceptT.run_bind, StateT.run_bind, h]
  rfl

/-- Work that fails ends there. -/
theorem outcome_bind_of_error {work : Working State α} {s next : State} {e : Failure}
    (h : work.outcome s = (.error e, next)) (follow : α → Working State β) :
    (work >>= follow).outcome s = (.error e, next) := by
  unfold outcome at *
  rw [ExceptT.run_bind, StateT.run_bind, h]
  rfl

/-- Work that was put together and comes to a value has come to one in both parts. -/
theorem exists_of_outcome_bind_eq_ok {work : Working State α} {follow : α → Working State β}
    {s after : State} {b : β} (h : (work >>= follow).outcome s = (.ok b, after)) :
    ∃ a next, work.outcome s = (.ok a, next) ∧ (follow a).outcome next = (.ok b, after) := by
  rcases hwork : work.outcome s with ⟨e | a, next⟩
  · rw [outcome_bind_of_error hwork] at h
    cases h
  · rw [outcome_bind_of_ok hwork] at h
    exact ⟨a, next, rfl, h⟩

end Working

/-- Work on the files of the system, with the warnings that were noted. -/
abbrev Noting := Working (List Warning)

namespace Noting

variable {α : Type}

/-- What comes of work by itself. -/
def value (work : Noting α) : Except Failure α := (work.outcome []).1

/-- Notes a warning. -/
def warn (w : Warning) : Noting Unit := modify (· ++ [w])

/-- The outcome of asking a file tree, an error of which fails the work. -/
def ofFile : Except FileError α → Noting α
  | .ok a => pure a
  | .error e => throw (.file e)

/-- The outcome of a step on a dependency map, an error of which fails the work. -/
def ofEdit : Except Depmap.EditError α → Noting α
  | .ok a => pure a
  | .error e => throw (.edit e)

/-- The canonical place of a path, without which the work fails. -/
def canonical (t : FileTree) (p : Path) : Noting Place :=
  match t.canonical p with
  | .ok place => pure place
  | .error (.endless place) => throw (.endless (FileTree.pathOf place))
  | .error .nullCharacter => throw (.file .nullCharacter)

end Noting

end Depot
