import Depot.Binary64.Reader
import Depot.Json.Reader
import Depot.Settings.Basic
import Depot.Text.Capital
import Depot.Validation
/-!
# Reading settings

A setting is given by name, directly as a value or in the environment as a text; a value that is
given directly counts. The case of the name makes no difference. A list in the environment is
written as JSON, and `null` there stands for a setting that is not given.

Every setting is checked, and all issues are reported in the order of the settings. Names that are
given directly and belong to no setting come last.
-/

namespace Depot.Settings

/-- Why settings cannot be read. -/
inductive Malformed where
  /-- A list in the environment is not JSON. -/
  | unreadableList (name : String)
  | invalid (issues : List Issue)
  deriving DecidableEq, Repr

/-- The names of the settings, in their order. -/
def names : List String :=
  ["RESOLVER_ROOT", "DEPMAP_PATHS", "METADATA_PATHS", "JAVA_ROOT", "REPOSITORY_CONFIG",
    "REPOSITORY_ID", "FRAGMENT_LOAD_TIMEOUT_SECONDS", "LOG_LEVEL", "LOG_JSON", "TRANSPORT"]

/-- Is the setting a list? -/
def isList (name : String) : Bool := name = "DEPMAP_PATHS" || name = "METADATA_PATHS"

/-- Is it the name of the setting, in any case of its letters? -/
def isNameOf (setting name : String) : Bool := Text.small name == Text.small setting

/-! ### Values given -/

/-- The value that is given directly for a setting: under its own name, or else the first under a
name that differs in case alone. -/
def givenValue? (given : Dictionary Json) (name : String) : Option Json :=
  match Dictionary.get? given name with
  | some value => some value
  | none => (given.find? fun entry => isNameOf name entry.1).map (·.2)

/-- The values that are given directly, under the names of their settings. -/
def givenValues (given : Dictionary Json) : Dictionary Json :=
  names.filterMap fun name => (givenValue? given name).map fun value => (name, value)

/-- The text of a setting in the environment. Of several names that differ in case alone the last
counts. -/
def environmentText? (environment : Dictionary String) (name : String) : Option String :=
  (environment.reverse.find? fun entry => isNameOf name entry.1).map (·.2)

/-- The value of a setting in the environment. -/
def environmentValue? (environment : Dictionary String) (name : String) :
    Except Malformed (Option Json) :=
  match environmentText? environment name with
  | none => .ok none
  | some text =>
    if isList name then
      match Json.parse? text with
      | some .null => .ok none
      | some value => .ok (some value)
      | none => .error (.unreadableList name)
    else .ok (some (.str text))

/-- The values in the environment, for each setting that is given there. -/
def environmentValues (environment : Dictionary String) :
    List String → Except Malformed (Dictionary Json)
  | [] => .ok []
  | name :: rest => do
    let value? ← environmentValue? environment name
    let values ← environmentValues environment rest
    return (value?.map fun value => (name, value)).toList ++ values

/-! ### Checking values -/

/-- A text. -/
def readText (name : String) : Json → Checked String
  | .str s => .ok s
  | _ => Checked.issue name .notText

/-- A text, or nothing. -/
def readTextOrNull (name : String) : Json → Checked (Option String)
  | .null => .ok none
  | .str s => .ok (some s)
  | _ => Checked.issue name .notText

/-- The texts of a list, of which the first has the given position. -/
def readItems (name : String) : (position : Nat) → List Json → Checked (List String)
  | _, [] => .ok []
  | position, item :: items =>
    let head : Checked String := match item with
      | .str s => .ok s
      | _ => .error [⟨[name, Text.decimal position], .notText⟩]
    Checked.ap (head.map List.cons) (readItems name (position + 1) items)

/-- A list of texts. -/
def readList (name : String) : Json → Checked (List String)
  | .array items => readItems name 0 items
  | _ => Checked.issue name .notList

/-- One of the choices. -/
def readChoice {α : Type} (name : String) (choices : List (String × α)) : Json → Checked α
  | .str s =>
    match choices.find? fun choice => choice.1 == s with
    | some choice => .ok choice.2
    | none => Checked.issue name .notChoice
  | _ => Checked.issue name .notChoice

/-- The words for the truth values, in small letters. -/
def truthWords : List (String × Bool) :=
  [("0", false), ("off", false), ("f", false), ("false", false), ("n", false), ("no", false),
    ("1", true), ("on", true), ("t", true), ("true", true), ("y", true), ("yes", true)]

/-- A truth value as a number: zero or one. Another number cannot be read as one, and counts as a
value of another kind where it does not fit a word of 64 bits. -/
def truthOfInt (name : String) (n : Int) (fits : Bool) : Checked Bool :=
  if n = 0 then .ok false
  else if n = 1 then .ok true
  else Checked.issue name (if fits then .unreadableBool else .notBool)

/-- The first integer that does not fit a word of 64 bits. -/
def wordBound : Int := Int.ofNat (Nat.pow 2 63)

/-- A truth value: itself, a word for it in any case, or a number. -/
def readTruth (name : String) : Json → Checked Bool
  | .bool b => .ok b
  | .str s =>
    match truthWords.find? fun word => word.1 == Text.small s with
    | some word => .ok word.2
    | none => Checked.issue name .unreadableBool
  | .int n => truthOfInt name n (-wordBound ≤ n && n < wordBound)
  | .float x =>
    match x.toInt? with
    | some n => truthOfInt name n (-wordBound < n && n < wordBound)
    | none => Checked.issue name .notBool
  | _ => Checked.issue name .notBool

/-- A number of seconds. It must be greater than zero. -/
def positive (name : String) (x : Binary64) : Checked (Option Binary64) :=
  if x.isPositive then .ok (some x) else Checked.issue name .notGreater

/-- A number of seconds, or nothing. -/
def readSeconds (name : String) : Json → Checked (Option Binary64)
  | .null => .ok none
  | .bool b => positive name (.ofInt b.toNat)
  | .int n =>
    let x := Binary64.ofInt n
    if x.isFinite then positive name x else Checked.issue name .notNumber
  | .float x => positive name x
  | .str s =>
    match Binary64.parse? s with
    | some x => positive name x
    | none => Checked.issue name .unreadableNumber
  | _ => Checked.issue name .notNumber

/-! ### Settings -/

/-- A setting among the values given, checked, or its default. -/
def setting {α : Type} (values : Dictionary Json) (name : String) (default : α)
    (check : String → Json → Checked α) : Checked α :=
  match Dictionary.get? values name with
  | some value => check name value
  | none => .ok default

/-- An issue for each value that belongs to no setting. -/
def unknownNames (given : Dictionary Json) : List Issue :=
  (given.filter fun entry => !names.any fun name => isNameOf name entry.1).map fun entry =>
    ⟨[entry.1], .unknownField⟩

/-- Checks the values given, the rest being the defaults. -/
def ofValues (values : Dictionary Json) : Checked Settings :=
  let d : Settings := {}
  (setting values "RESOLVER_ROOT" d.resolverRoot readText).map Settings.mk
    |> (Checked.ap · (setting values "DEPMAP_PATHS" d.depmapPaths readList))
    |> (Checked.ap · (setting values "METADATA_PATHS" d.metadataPaths readList))
    |> (Checked.ap · (setting values "JAVA_ROOT" d.javaRoot readText))
    |> (Checked.ap · (setting values "REPOSITORY_CONFIG" d.repositoryConfig readTextOrNull))
    |> (Checked.ap · (setting values "REPOSITORY_ID" d.repositoryId readText))
    |> (Checked.ap · (setting values "FRAGMENT_LOAD_TIMEOUT_SECONDS" d.loadTimeout readSeconds))
    |> (Checked.ap · (setting values "LOG_LEVEL" d.logLevel fun name =>
        readChoice name LogLevel.choices))
    |> (Checked.ap · (setting values "LOG_JSON" d.logJson readTruth))
    |> (Checked.ap · (setting values "TRANSPORT" d.transport fun name =>
        readChoice name Transport.choices))

/-- Reads settings from the environment and from the values that are given directly. -/
def read (environment : Dictionary String) (given : Dictionary Json) :
    Except Malformed Settings := do
  let fromEnvironment ← environmentValues environment names
  let unknown := unknownNames given
  match ofValues (givenValues given ++ fromEnvironment) with
  | .ok settings => if unknown.isEmpty then return settings else throw (.invalid unknown)
  | .error issues => throw (.invalid (issues ++ unknown))

end Depot.Settings
