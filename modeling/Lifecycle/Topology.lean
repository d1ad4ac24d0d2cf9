import Lifecycle.Traced

/-! # Topology

A topology says which units are deployed and which workers run in a zone. The workers of a unit are
those of the zone that bears its name. A topology may have to ask a cluster, so its answers are
traced. -/

namespace Lifecycle

/-- A running member of a deployment. -/
structure Worker where
  name : String
  host : Host
  deriving DecidableEq, Repr, Inhabited

/-- The order in which workers are listed: by name, then host name, then host address. -/
def Worker.le (a b : Worker) : Bool :=
  if a.name ≠ b.name then a.name ≤ b.name
  else if a.host.name ≠ b.host.name then a.host.name ≤ b.host.name
  else a.host.address ≤ b.host.address

/-- A named set of workers. -/
structure Zone where
  name : String
  /-- The workers, each once and in order. -/
  workers : List Worker
  deriving DecidableEq, Repr, Inhabited

/-- The zone with these workers, in whatever order and number they are given. -/
def Zone.ofList (name : String) (workers : List Worker) : Zone :=
  ⟨name, workers.eraseDups.mergeSort Worker.le⟩

/-- A deployed unit and the operations it belongs to. -/
structure DeployedUnit where
  /-- The name of the unit and of its zone. -/
  name : String
  /-- The operation that installed the unit. -/
  deployment : Option String := none
  /-- The operation that takes the unit down. -/
  undeployment : Option String := none
  /-- The application the unit belongs to. -/
  application : Option String := none
  deriving DecidableEq, Repr, Inhabited

/-- A view of what is deployed right now. -/
structure Topology where
  units : Traced (List DeployedUnit)
  zone : String → Traced (Option Zone)

/-- The topology of two fixed lists. Of several zones with one name the first counts. -/
def Topology.fixed (units : List DeployedUnit) (zones : List Zone) : Topology where
  units := .of units
  zone name := .of (zones.find? fun z => z.name == name)

end Lifecycle
