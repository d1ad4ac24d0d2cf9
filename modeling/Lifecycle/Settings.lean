import Lifecycle.Number.Reader
import Lifecycle.Text.Lines

/-! # Settings

The collector is set up by environment variables. The namespace is the first of two variables that
is not empty, or else what the service account's file says, or else the default one. -/

namespace Lifecycle

/-- The values of environment variables. -/
abbrev Environment := String → Option String

/-- How a collector is set up. -/
structure Settings where
  /-- The cluster namespace. -/
  space : String
  /-- Seconds between two passes of a watcher. -/
  pollInterval : Binary64
  /-- Seconds without a new event after which an operation is untracked. -/
  retention : Binary64
  /-- The application whose units are passed over. -/
  management : String
  haltOnMalformed : Bool
  serveCounters : Bool
  counterPort : Int
  deriving DecidableEq, Repr

namespace Settings

/-- The variables that are looked at, here and where log output is set up. -/
def watched : List String :=
  ["DEPLOY_EVENTS_NAMESPACE", "POD_NAMESPACE", "DEPLOY_EVENTS_POLL_INTERVAL_SECONDS",
    "DEPLOY_EVENTS_RETENTION_SECONDS", "DEPLOY_EVENTS_MANAGEMENT_APP",
    "DEPLOY_EVENTS_HALT_ON_MALFORMED", "METRICS_ENABLED", "METRICS_PORT", "DEPLOY_EVENTS_LOG_LEVEL",
    "DEPLOY_EVENTS_LOG_FORMAT"]

/-- The value of a variable that is set and not empty. -/
def filled (env : Environment) (name : String) : Option String := (env name).filter (· ≠ "")

/-- The text of the service account's file as a namespace. -/
def ofFile (text : String) : String := Text.strip ("\n".intercalate (Text.fileLines text))

/-- The namespace. `file` is the text of the service account's file, if there is one. -/
def readSpace (env : Environment) (file : Option String) : String :=
  match (filled env "DEPLOY_EVENTS_NAMESPACE").or (filled env "POD_NAMESPACE") with
  | some space => space
  | none => (file.map ofFile).getD "default"

/-- Reads the settings. The first number that cannot be read is the fault. -/
def read (env : Environment) (file : Option String) : Except Number.Fault Settings := do
  let pollInterval ← Number.readBinary64 ((env "DEPLOY_EVENTS_POLL_INTERVAL_SECONDS").getD "2")
  let retention ← Number.readBinary64 ((env "DEPLOY_EVENTS_RETENTION_SECONDS").getD "3600")
  let counterPort ← Number.readWhole ((env "METRICS_PORT").getD "8080")
  return {
    space := readSpace env file
    pollInterval
    retention
    management := (env "DEPLOY_EVENTS_MANAGEMENT_APP").getD "management"
    haltOnMalformed := env "DEPLOY_EVENTS_HALT_ON_MALFORMED" == some "1"
    serveCounters := ((env "METRICS_ENABLED").getD "false").map Char.toLower == "true"
    counterPort }

end Settings

end Lifecycle
