import Depot.Text.Capital
/-!
# Configuration of logging

Standard output belongs to the transport, so log lines go to standard error. To configure logging
sets the level, and sees to it that there is a handler for standard error: one that is known by its
name is kept and only changes its format; otherwise all handlers that write to standard output are
removed and a new one is added. The loggers of the transport stay quiet unless everything is to be
logged.
-/

namespace Depot.Logging

/-- Where a handler writes. -/
inductive Sink where
  | standardOutput
  | standardError
  | elsewhere
  | nowhere
  deriving DecidableEq, Repr, Inhabited

/-- A handler of log lines. -/
structure Handler where
  name : Option String
  sink : Sink
  /-- Does it write JSON? -/
  json : Bool
  deriving DecidableEq, Repr, Inhabited

/-- The state of logging: the levels of the root logger and of the loggers of the transport, and the
handlers. -/
structure State where
  level : Nat
  protocolLevel : Nat
  serverLevel : Nat
  handlers : List Handler
  deriving DecidableEq, Repr, Inhabited

/-- The name by which the handler for standard error is known. -/
def standardErrorName : String := "resolver_stderr_handler"

/-- The levels by their names. -/
def levels : List (String × Nat) :=
  [("CRITICAL", 50), ("FATAL", 50), ("ERROR", 40), ("WARNING", 30), ("WARN", 30), ("INFO", 20),
    ("DEBUG", 10), ("NOTSET", 0)]

/-- The level that is set where the name is unknown. -/
def defaultLevel : Nat := 20

/-- The level with a name, which is compared without regard to case. -/
def levelOf (name : String) : Nat :=
  ((levels.find? fun entry => entry.1 == Text.capitals name).map (·.2)).getD defaultLevel

/-- Has the handler the name of the one for standard error? -/
def Handler.isOurs (h : Handler) : Bool := h.name == some standardErrorName

/-- Sets the format of the first handler for standard error. -/
def setFormat (json : Bool) : List Handler → List Handler
  | [] => []
  | h :: hs => if h.isOurs then { h with json } :: hs else h :: setFormat json hs

/-- Sees to it that there is a handler for standard error, with a given format. -/
def ensureHandler (json : Bool) (handlers : List Handler) : List Handler :=
  if handlers.any Handler.isOurs then setFormat json handlers
  else
    (handlers.filter fun h => h.sink != .standardOutput) ++
      [⟨some standardErrorName, .standardError, json⟩]

/-- The level of the transport's loggers. -/
def transportLevel (level : Nat) : Nat := if level ≤ 10 then 10 else 30

/-- Configures logging. -/
def configure (s : State) (level : String) (json : Bool) : State :=
  let level := levelOf level
  { level, protocolLevel := transportLevel level, serverLevel := transportLevel level,
    handlers := ensureHandler json s.handlers }

/-- Adds a handler, which does not write JSON. -/
def add (s : State) (name : Option String) (sink : Sink) : State :=
  { s with handlers := s.handlers ++ [⟨name, sink, false⟩] }

end Depot.Logging
