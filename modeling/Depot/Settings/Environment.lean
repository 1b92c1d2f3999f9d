import Depot.Json.Basic
/-!
# The environment

The environment gives texts by their names. Neither may hold a null character, and a name may
neither be empty nor hold the sign that parts names from values.
-/

namespace Depot

/-- Why the environment cannot hold an entry. -/
inductive EnvironmentError where
  /-- The value is no text. -/
  | notText
  | nullCharacter
  /-- The name holds an equals sign. -/
  | illegalName
  | emptyName
  deriving DecidableEq, Repr

/-- The message that goes with an error. -/
def EnvironmentError.message : EnvironmentError → String
  | .notText => "the value is no text"
  | .nullCharacter => "embedded null byte"
  | .illegalName => "illegal environment variable name"
  | .emptyName => "Invalid argument"

namespace Environment

/-- Does the text hold a null character? -/
def hasNull (s : String) : Bool := s.toList.contains '\x00'

/-- The text of an entry that the environment can hold. -/
def textOf (name : String) : Json → Except EnvironmentError String
  | .str s =>
    if hasNull name || hasNull s then .error .nullCharacter
    else if name.toList.contains '=' then .error .illegalName
    else if name = "" then .error .emptyName
    else .ok s
  | _ => .error .notText

/-- The environment that holds the given entries. -/
def ofEntries (entries : Dictionary Json) : Except EnvironmentError (Dictionary String) :=
  entries.mapM fun entry => do return (entry.1, ← textOf entry.1 entry.2)

end Environment

end Depot
