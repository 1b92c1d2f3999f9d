import Depot.Json.Writer
import Depot.Logging.Instant
import Depot.Logging.Message
/-!
# Log lines

A log record is written as a line of text or as one line of JSON. The line of text has the stamp,
the level, the logger and the message, and the exception below it. The JSON object has these under
fixed names, then the attributes that were attached to the record, and last the exception.

An attribute may have the name of a part of the record. Where that is a part of the record's own, it
is set; where it is one of the fixed names, the attribute takes its place in the JSON object. Since
an attribute may be any value, so may every part, and what does not fit is a fault when the record
is written.
-/

namespace Depot

open Logging (Fault Value)

/-- An exception that a record tells of. -/
structure ExceptionNote where
  kind : String
  message : String
  deriving DecidableEq, Repr

namespace ExceptionNote

/-- The kinds whose message is never empty. -/
def detailedKinds : List String := ["SyntaxError", "IndentationError", "TabError"]

/-- The message as it is shown. A key that is missing is quoted. -/
def shownMessage (e : ExceptionNote) : String :=
  if e.kind = "KeyError" then Text.quoted e.message
  else if e.message = "" ∧ detailedKinds.contains e.kind then "<no detail available>"
  else e.message

/-- An exception as text. -/
def text (e : ExceptionNote) : String :=
  if e.shownMessage = "" then e.kind else e.kind ++ ": " ++ e.shownMessage

end ExceptionNote

/-- What a record has in the place of an exception. -/
inductive ExceptionPart where
  | note (e : ExceptionNote)
  | value (v : Value)
  deriving Repr

namespace ExceptionPart

/-- The text of a list in the place of an exception: its second and third items would be the
exception itself and where it arose, and must both be absent. -/
def listText : List Json → Except Fault String
  | _ :: .null :: .null :: _ => .ok "NoneType: None"
  | _ :: _ :: _ :: _ => .error .notException
  | _ => .error .missingItem

/-- The text of a value in the place of an exception. -/
def valueText : Json → Except Fault String
  | .array items => listText items
  | .str s => .error (if s.length < 3 then .missingItem else .notException)
  | .object _ => .error .missingName
  | _ => .error .wrongKind

/-- The text in the place of an exception, unless there is nothing. -/
def text? : ExceptionPart → Except Fault (Option String)
  | note e => .ok (some e.text)
  | value (.json v) => if v.isNothing then .ok none else (valueText v).map some
  | value (.path _) => .error .wrongKind

end ExceptionPart

/-- What is logged. -/
structure LogRecord where
  /-- Seconds since the start of 1970. -/
  created : Value
  level : Value
  logger : Value
  template : Value
  arguments : Message.Arguments := .listed []
  /-- What was attached to the record, in the order in which the names were first set. -/
  attributes : Dictionary Value := []
  exception : ExceptionPart := .value (.json .null)
  /-- The text of an exception and of a stack, where these are set as texts. -/
  exceptionText : Value := .json .null
  stackText : Value := .json .null

namespace LogRecord

/-- The names of the record's own parts. -/
def ownNames : List String :=
  ["name", "msg", "args", "levelname", "levelno", "pathname", "filename", "module", "exc_info",
    "exc_text", "stack_info", "lineno", "funcName", "created", "msecs", "relativeCreated", "thread",
    "threadName", "processName", "process"]

/-- The names that attributes do not have in the JSON object. -/
def hiddenNames : List String := ownNames ++ ["message", "asctime"]

/-- The record with a part of its own set. -/
def setOwn (r : LogRecord) (name : String) (value : Value) : LogRecord :=
  match name with
  | "name" => { r with logger := value }
  | "msg" => { r with template := value }
  | "args" => { r with arguments := .single value }
  | "levelname" => { r with level := value }
  | "created" => { r with created := value }
  | "exc_info" => { r with exception := .value value }
  | "exc_text" => { r with exceptionText := value }
  | "stack_info" => { r with stackText := value }
  | _ => r

/-- The record with an attribute set. -/
def setAttribute (r : LogRecord) (name : String) (value : Value) : LogRecord :=
  if ownNames.contains name then r.setOwn name value
  else { r with attributes := Dictionary.put r.attributes name value }

/-- The name under which a record has its way to make a message. An attribute of this name takes its
place, and no value can do its work. -/
def makerName : String := "getMessage"

/-- The message of the record. -/
def message (r : LogRecord) : Except Fault String :=
  if Dictionary.has r.attributes makerName then .error .wrongKind
  else Message.fill r.template.toText r.arguments

/-- The time of the record. -/
def seconds (r : LogRecord) : Except Fault Seconds :=
  match r.created.seconds? with
  | some s => .ok s
  | none => .error .wrongKind

/-- A text, then another one on a line of its own. -/
def onNextLine (s t : String) : String :=
  if s.toList.getLast? = some '\n' then s ++ t else s ++ "\n" ++ t

/-- A text, then a value on a line of its own, unless it counts as nothing. It must be a text. -/
def withNext (s : String) (v : Value) : Except Fault String :=
  if v.isNothing then .ok s
  else match v with
    | .json (.str t) => .ok (onNextLine s t)
    | _ => .error .wrongKind

/-- What stands below the line of text for an exception. A text that is set goes first. -/
def shownException (r : LogRecord) : Except Fault Value :=
  if r.exceptionText.isNothing then do
    match ← r.exception.text? with
    | some text => return .json (.str text)
    | none => return .json .null
  else .ok r.exceptionText

/-- The record as a line of text. -/
def textLine (r : LogRecord) : Except Fault String := do
  let message ← r.message
  let stamp ← Instant.plainStamp (← r.seconds)
  let line := stamp ++ " " ++ r.level.toText ++ " " ++ r.logger.toText ++ " " ++ message
  withNext (← withNext line (← r.shownException)) r.stackText

/-- Is the attribute written into the JSON object? -/
def isShown (name : String) : Bool :=
  !hiddenNames.contains name && name.toList.head? != some '_'

/-- The members of the JSON object for the parts that every record has. -/
def baseMembers (r : LogRecord) (stamp message : String) : Dictionary Value :=
  [("timestamp", .json (.str stamp)), ("level", r.level),
    ("logger", if r.logger.isNothing then .json (.str "root") else r.logger),
    ("message", .json (.str message))]

/-- An attribute as it is written into the JSON object: a path as its text. -/
def shownValue : Value → Value
  | .json v => .json v
  | .path p => .json (.str p.toText)

/-- The attributes that are written into the JSON object. -/
def shownAttributes (r : LogRecord) : Dictionary Value :=
  r.attributes.filter fun entry => isShown entry.1

/-- The members of the JSON object. -/
def members (r : LogRecord) (stamp message : String) (exception : Option String) :
    Dictionary Value :=
  let members := r.shownAttributes.foldl (fun members entry =>
    Dictionary.put members entry.1 (shownValue entry.2)) (r.baseMembers stamp message)
  match exception with
  | some text => Dictionary.put members "exc_info" (.json (.str text))
  | none => members

/-- A member as JSON. A path has no place there. -/
def memberJson (entry : String × Value) : Except Fault (String × Json) :=
  match entry.2 with
  | .json v => if v.isWritable then .ok (entry.1, v) else .error .tooManyDigits
  | .path _ => .error .wrongKind

/-- The record as one line of JSON. The attributes are tried before the rest is looked at. -/
def jsonLine (r : LogRecord) : Except Fault String := do
  let stamp ← Instant.fullStamp (← r.seconds)
  let message ← r.message
  let _ ← r.shownAttributes.mapM fun entry => memberJson (entry.1, shownValue entry.2)
  let exception ← r.exception.text?
  return (Json.object (← (r.members stamp message exception).mapM memberJson)).render

end LogRecord

end Depot
