import Lifecycle.Cluster

/-! # Log sources

A source gives the whole log of a worker as it is now, line by line in the order of writing. A line
is therefore seen by many reads. A log that cannot be read yet has no lines; any other obstacle is a
fault of that read alone. -/

namespace Lifecycle

/-- Where the logs of workers are read. -/
structure Source where
  read : Worker → Traced (List String)

namespace Source

/-- Logs at hand, by the name of the worker. -/
def fixed (logs : Keyed String (List String)) : Source where
  read worker := .of ((Keyed.get? logs worker.name).getD [])

/-- The logs of the pods of a cluster. A container is named in the call only if there is a name.
While the container is starting or the pod is gone there are no lines. -/
def ofCluster (cluster : Cluster) (space : String) (container : Option String) : Source where
  read worker :=
    (do
      let text ← cluster.readLog space worker.name (nonEmpty container)
      return (text.map Text.logLines).getD [] : Traced (List String)).recover fun
        | .refused 400 => some []
        | .refused 404 => some []
        | _ => none

/-- A source some of whose reads fail, by the name of the worker. -/
def failing (source : Source) (failures : Keyed String String) : Source where
  read worker :=
    match Keyed.get? failures worker.name with
    | some message => .fail (.unreadable message)
    | none => source.read worker

end Source

end Lifecycle
