import Lifecycle.Journal
import Lifecycle.Keyed
import Lifecycle.Text.Lines
import Lifecycle.Topology

/-! # Clusters

A cluster lists deployments and pods and gives out the logs of pods, unless it answers with an error
status. A deployment is a unit whose operations stand in its annotations, the pods labelled with the
unit's name are its zone, and a pod is a worker. What is not found does not exist yet, which is no
fault. -/

namespace Lifecycle

/-- A deployment as the cluster lists it. -/
structure ListedDeployment where
  name : String
  annotations : Keyed String String := []
  labels : Keyed String String := []
  deriving DecidableEq, Repr, Inhabited

/-- The desired state of a pod. -/
structure PodSpec where
  hostname : Option String := none
  deriving DecidableEq, Repr, Inhabited

/-- The observed state of a pod. -/
structure PodStatus where
  ip : Option String := none
  deriving DecidableEq, Repr, Inhabited

/-- A pod as the cluster lists it. -/
structure ListedPod where
  name : String
  spec : Option PodSpec := none
  status : Option PodStatus := none
  deriving DecidableEq, Repr, Inhabited

/-- The statuses with which calls are refused. -/
structure Refusals where
  deployments : Option Int := none
  pods : Option Int := none
  /-- By pod. -/
  logs : Keyed String Int := []
  deriving DecidableEq, Repr, Inhabited

/-- What a cluster answers. -/
structure Cluster where
  deployments : List ListedDeployment := []
  /-- The pods by the value of their zone label. -/
  pods : Keyed String (List ListedPod) := []
  /-- The logs by pod. A log that is not listed is empty. -/
  logs : Keyed String (Option String) := []
  refusals : Refusals := {}
  /-- Credentials can be had from inside the cluster. -/
  inCluster : Bool := true
  /-- Credentials can be had from a file. -/
  onFile : Bool := true
  deriving DecidableEq, Repr, Inhabited

/-- New answers for a part of a cluster. -/
structure ClusterChange where
  deployments : Option (List ListedDeployment) := none
  pods : Option (Keyed String (List ListedPod)) := none
  logs : Option (Keyed String (Option String)) := none
  refusals : Option Refusals := none
  inCluster : Option Bool := none
  onFile : Option Bool := none

/-- The cluster after a change. -/
def Cluster.apply (c : Cluster) (change : ClusterChange) : Cluster where
  deployments := change.deployments.getD c.deployments
  pods := change.pods.getD c.pods
  logs := change.logs.getD c.logs
  refusals := change.refusals.getD c.refusals
  inCluster := change.inCluster.getD c.inCluster
  onFile := change.onFile.getD c.onFile

/-- A text that is there and not empty. -/
def nonEmpty (text : Option String) : Option String := text.filter (· ≠ "")

/-- The label whose value names a pod's zone. -/
def zoneLabel : String := "deploy-events.io/zone"

/-- The unit of a deployment. -/
def ListedDeployment.unit (d : ListedDeployment) : DeployedUnit where
  name := d.name
  deployment := Keyed.get? d.annotations "deploy-events.io/deployment-id"
  undeployment := Keyed.get? d.annotations "deploy-events.io/undeployment-id"
  application := Keyed.get? d.labels "deploy-events.io/application"

/-- The worker of a pod: a pod without a host name lends its own, and an address not known yet is
reported as unknown. -/
def ListedPod.worker (p : ListedPod) : Worker where
  name := p.name
  host :=
    ⟨(nonEmpty (p.spec.bind PodSpec.hostname)).getD p.name,
      (nonEmpty (p.status.bind PodStatus.ip)).getD "unknown"⟩

namespace Cluster

/-- Makes a call, which is refused with `refusal` if there is one. -/
def ask {α : Type} (call : Call) (refusal : Option Int) (answer : α) : Traced α where
  value := match refusal with
    | some status => .error (.refused status)
    | none => .ok answer
  effects := [.call call]

/-- Takes credentials from inside the cluster, or else from a file. -/
def connect (c : Cluster) : Traced Unit := do
  Traced.emit (.call .inClusterCredentials)
  unless c.inCluster do
    Traced.emit (.call .fileCredentials)
    unless c.onFile do Traced.fail .noCredentials

/-- Lists the deployments. -/
def listDeployments (c : Cluster) (space : String) : Traced (List ListedDeployment) :=
  ask (.listDeployments space) c.refusals.deployments c.deployments

/-- Lists the pods of a zone. -/
def listPods (c : Cluster) (space zone : String) : Traced (List ListedPod) :=
  ask (.listPods space (zoneLabel ++ "=" ++ zone)) c.refusals.pods
    ((Keyed.get? c.pods zone).getD [])

/-- Reads the log of a pod. -/
def readLog (c : Cluster) (space pod : String) (container : Option String) :
    Traced (Option String) :=
  ask (.readLog space pod container) (Keyed.get? c.refusals.logs pod)
    ((Keyed.get? c.logs pod).getD (some ""))

/-- The units of the cluster. -/
def units (c : Cluster) (space : String) : Traced (List DeployedUnit) :=
  (ListedDeployment.unit <$> ·) <$> (c.listDeployments space).recover fun
    | .refused 404 => some []
    | _ => none

/-- A zone of the cluster, if it has pods. -/
def zone (c : Cluster) (space name : String) : Traced (Option Zone) := do
  let pods ← (some <$> c.listPods space name).recover fun
    | .refused 404 => some none
    | _ => none
  match pods with
  | none => return none
  | some [] =>
    Traced.emit (.record (Journal.noPods name space))
    return none
  | some pods => return some (.ofList name (pods.map ListedPod.worker))

/-- The topology of the cluster. -/
def topology (c : Cluster) (space : String) : Topology where
  units := c.units space
  zone := c.zone space

end Cluster

end Lifecycle
