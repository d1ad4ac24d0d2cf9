/-! # Effects

What an operation shows to the outside besides its result: calls to the cluster, log records, and
counts of what happened. Effects are data, so an operation is a function that returns them. -/

namespace Lifecycle

/-- A call to the cluster. -/
inductive Call
  | listDeployments (space : String)
  | listPods (space selector : String)
  | readLog (space pod : String) (container : Option String)
  | inClusterCredentials
  | fileCredentials
  deriving DecidableEq, Repr

/-- How urgent a log record is. -/
inductive Level
  | debug
  | info
  | warning
  | error
  | critical
  deriving DecidableEq, Repr

/-- The name of a level in log output. -/
def Level.name : Level → String
  | .debug => "DEBUG"
  | .info => "INFO"
  | .warning => "WARNING"
  | .error => "ERROR"
  | .critical => "CRITICAL"

/-- The rank of a level among the others. -/
def Level.number : Level → Nat
  | .debug => 10
  | .info => 20
  | .warning => 30
  | .error => 40
  | .critical => 50

/-- A log record of the service itself. -/
structure Record where
  level : Level
  logger : String
  message : String
  /-- The id by which the records of one request or watcher are found. -/
  correlation : Option String := none
  deriving DecidableEq, Repr

/-- Something that is counted. -/
inductive Tally
  | stored
  | duplicate
  | malformed
  | page (complete : Bool)
  /-- The number of deployments with a sequence. -/
  | tracked (count : Int)
  deriving DecidableEq, Repr

/-- One effect. -/
inductive Effect
  | call (call : Call)
  | record (record : Record)
  | tally (tally : Tally)
  deriving DecidableEq, Repr

namespace Effect

/-- The calls among some effects. -/
def calls (effects : List Effect) : List Call :=
  effects.filterMap fun
    | .call c => some c
    | _ => none

/-- The log records among some effects. -/
def records (effects : List Effect) : List Record :=
  effects.filterMap fun
    | .record r => some r
    | _ => none

/-- The counts among some effects. -/
def tallies (effects : List Effect) : List Tally :=
  effects.filterMap fun
    | .tally t => some t
    | _ => none

theorem tallies_append (a b : List Effect) : tallies (a ++ b) = tallies a ++ tallies b := by
  simp [tallies]

end Effect

end Lifecycle
