import Lifecycle.Classifier
import Lifecycle.Cli.Report

/-! # Commands about operations

These commands ask a cluster what kind an operation is of and which workers take part in it.
Settings are read and credentials are taken before the first question. -/

namespace Lifecycle.Cli

/-- The classifier of a command, in the namespace asked for or else in that of the settings. -/
def classifierIn (s : Surroundings) (settings : Settings) (space : String) : Classifier where
  topology := s.cluster.topology (if space = "" then settings.space else space)
  management := settings.management

/-- Asks the cluster, and shows the answer. -/
def askCluster {α : Type} (s : Surroundings) (space : String) (question : Classifier → Traced α)
    (answer : α → Ending × String) : Report :=
  match Settings.read s.env s.spaceFile with
  | .error fault => .failure (.settings fault) []
  | .ok settings =>
    let asked := s.cluster.connect >>= fun _ => question (classifierIn s settings space)
    match asked.value with
    | .error fault => .failure (.service fault) asked.effects
    | .ok a =>
      let (ending, output) := answer a
      { ending, output, effects := asked.effects }

/-- A worker as JSON. -/
def workerJson (w : Worker) : Json :=
  .record [("name", .text w.name), ("host_name", .text w.host.name),
    ("host_address", .text w.host.address)]

/-- The workers of an operation as JSON. -/
def workersJson (operation : String) (workers : List Worker) : Json :=
  .record [("operation_id", .text operation), ("workers", .list (workers.map workerJson))]

/-- The workers of an operation as a table. Every cell is marked-up text. The columns are measured
one after the other before the title is read. -/
def workersTable (console : Console) (operation : String) (workers : List Worker) :
    Except Markup.Fault Table := do
  let names ← workers.mapM fun w => console.shown w.name
  let hosts ← workers.mapM fun w => console.shown w.host.name
  let addresses ← workers.mapM fun w => console.shown w.host.address
  return {
    title := ← console.shown ("Workers: " ++ operation)
    head := ["Name", "Host", "Address"]
    rows := (names.zip (hosts.zip addresses)).map fun (name, host, address) =>
      [name, host, address] }

/-- Shows the workers of an operation. -/
def showWorkers (console : Console) (operation : String) (json : Bool) (workers : List Worker) :
    Ending × String :=
  if json then (.done, (workersJson operation workers).pretty ++ "\n")
  else if workers.isEmpty then
    showText .done
      (console.line (Markup.styled "yellow" "No workers discoverable yet for" ++ " " ++ operation))
  else showText .done ((workersTable console operation workers).map Table.render)

/-- Asks for the kind of an operation. -/
def runClassify (s : Surroundings) (operation space : String) : Report :=
  askCluster s space (fun c => c.classify operation) fun kind => (.done, plainLine kind.name)

/-- Asks for the workers of an operation. -/
def runUnits (s : Surroundings) (operation space : String) (json : Bool) : Report :=
  askCluster s space (fun c => c.workersFor operation) (showWorkers s.console operation json)

end Lifecycle.Cli
