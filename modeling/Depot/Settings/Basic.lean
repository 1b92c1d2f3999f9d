import Depot.Binary64.Basic
/-!
# Settings

The settings of the service: where the system lies, which of its directories hold fragments,
metadata and installed files, how long to wait for fragments, how to log, and how to be reached.
Relative paths are taken from the root of the system.
-/

namespace Depot

/-- How grave a message must be to be logged. -/
inductive LogLevel where
  | debug
  | info
  | warning
  | error
  | critical
  deriving DecidableEq, Repr, Inhabited

/-- The levels by their names. -/
def LogLevel.choices : List (String × LogLevel) :=
  [("DEBUG", .debug), ("INFO", .info), ("WARNING", .warning), ("ERROR", .error),
    ("CRITICAL", .critical)]

/-- The name of a level. -/
def LogLevel.text : LogLevel → String
  | .debug => "DEBUG"
  | .info => "INFO"
  | .warning => "WARNING"
  | .error => "ERROR"
  | .critical => "CRITICAL"

/-- How the service is reached. -/
inductive Transport where
  | stdio
  | http
  deriving DecidableEq, Repr, Inhabited

/-- The ways to reach the service by their names. -/
def Transport.choices : List (String × Transport) := [("stdio", .stdio), ("http", .http)]

/-- The name of a way to reach the service. -/
def Transport.text : Transport → String
  | .stdio => "stdio"
  | .http => "http"

/-- The settings of the service. -/
structure Settings where
  resolverRoot : String := "/"
  /-- Where fragments lie. -/
  depmapPaths : List String := ["etc/maven/fragments", "usr/share/maven-fragments"]
  metadataPaths : List String := ["usr/share/maven-metadata"]
  /-- Where installed files lie. -/
  javaRoot : String := "usr/share/java"
  /-- A document that defines the repositories, in place of those that are built in. -/
  repositoryConfig : Option String := none
  repositoryId : String := "system"
  /-- How many seconds to wait for fragments that another caller loads. -/
  loadTimeout : Option Binary64 := none
  logLevel : LogLevel := .info
  logJson : Bool := false
  transport : Transport := .stdio
  deriving DecidableEq, Inhabited

end Depot
