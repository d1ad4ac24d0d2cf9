import Lifecycle.Journal
import Lifecycle.Topology

/-! # Operations

An operation id belongs to a deployment if some unit that is not part of the management application
was installed by it; any other id, also an unknown one, counts as an undeployment. The workers that
take part are those of the first unit that the operation installed or takes down, management units
included. A unit or zone that is not there yet is no fault: there are simply no workers yet. -/

namespace Lifecycle

/-- What an operation does. -/
inductive Kind
  | deployment
  | undeployment
  deriving DecidableEq, Repr, Inhabited

/-- The name of a kind of operation. -/
def Kind.name : Kind → String
  | .deployment => "deployment"
  | .undeployment => "undeployment"

/-- The operation of this kind that a unit belongs to. -/
def DeployedUnit.operation (u : DeployedUnit) : Kind → Option String
  | .deployment => u.deployment
  | .undeployment => u.undeployment

/-- A topology and the name of the application whose units are passed over. -/
structure Classifier where
  topology : Topology
  management : String := "management"

namespace Classifier

/-- The unit belongs to the management application. -/
def isManagement (c : Classifier) (u : DeployedUnit) : Bool := u.application == some c.management

/-- Some unit that counts was installed by the operation. -/
def isDeployment (c : Classifier) (operation : String) : Traced Bool := do
  let units ← c.topology.units
  return units.any fun u => !c.isManagement u && u.deployment == some operation

/-- The kind of an operation. -/
def classify (c : Classifier) (operation : String) : Traced Kind := do
  return if ← c.isDeployment operation then .deployment else .undeployment

/-- The first unit that belongs to an operation of a kind. -/
def findUnit (c : Classifier) (operation : String) (kind : Kind) :
    Traced (Option DeployedUnit) := do
  let units ← c.topology.units
  return units.find? fun u => u.operation kind == some operation

/-- The workers of a unit. -/
def workersOf (c : Classifier) (u : DeployedUnit) : Traced (List Worker) := do
  match ← c.topology.zone u.name with
  | none => return []
  | some zone => return zone.workers

/-- The workers that take part in an operation. -/
def workersFor (c : Classifier) (operation : String) : Traced (List Worker) := do
  let kind ← c.classify operation
  match ← c.findUnit operation kind with
  | none =>
    Traced.emit (.record (Journal.noUnit kind.name operation))
    return []
  | some u => c.workersOf u

end Classifier

end Lifecycle
