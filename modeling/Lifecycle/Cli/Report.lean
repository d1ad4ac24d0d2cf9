import Lifecycle.Cli.Command
import Lifecycle.Clock
import Lifecycle.Cluster
import Lifecycle.Files
import Lifecycle.Json
import Lifecycle.Logging
import Lifecycle.Markup
import Lifecycle.Settings
import Lifecycle.Source
import Lifecycle.Table

/-! # Reports

A command finds its surroundings as they are and leaves a report: what it printed, how it ended and
what it did on the way. A page of events is shown as a table or as JSON. -/

namespace Lifecycle.Cli

/-- What a command finds outside. -/
structure Surroundings where
  /-- The standard input. -/
  input : String := ""
  fileAt : String → FileRead := fun _ => .missing
  env : Environment := fun _ => none
  /-- The text of the service account's file. -/
  spaceFile : Option String := none
  cluster : Cluster := { inCluster := false, onFile := false }
  /-- How the cluster changes, pause by pause. -/
  changes : List ClusterChange := []
  clock : Clock := { wall := 0, monotonic := 0 }
  console : Console := {}

/-- Why a command could not go on. -/
inductive CommandFault
  | settings (fault : Number.Fault)
  | isDirectory (path : String)
  | notDirectory (path : String)
  | longPath (path : String)
  | unusablePath
  | service (fault : Fault)
  deriving DecidableEq, Repr

/-- The text of a fault. -/
def CommandFault.message : CommandFault → String
  | .settings fault => fault.message
  | .isDirectory path => "[Errno 21] Is a directory: " ++ Text.quoted path
  | .notDirectory path => "[Errno 20] Not a directory: " ++ Text.quoted path
  | .longPath path => "[Errno 36] File name too long: " ++ Text.quoted path
  | .unusablePath => "embedded null byte"
  | .service fault => fault.message

/-- How a command ended. -/
inductive Ending
  | done
  /-- What the command was given is at fault. -/
  | refused
  /-- The page is not complete. -/
  | incomplete
  | failed (fault : CommandFault)
  /-- A text for people cannot be shown. -/
  | garbled (fault : Markup.Fault)
  deriving DecidableEq, Repr

/-- The exit code. -/
def Ending.exitCode : Ending → Nat
  | .done => 0
  | .failed _ | .garbled _ => 1
  | .refused => 2
  | .incomplete => 3

/-- What a command leaves. -/
structure Report where
  ending : Ending
  /-- What was printed. -/
  output : String := ""
  effects : List Effect := []
  /-- How log output is set up. -/
  logging : Logging := {}
  /-- Where the counters were to be served. -/
  served : List (Int × String) := []
  /-- How long the command paused. -/
  elapsed : Binary64 := .zero false

/-- The report of a command that failed with nothing printed. -/
def Report.failure (fault : CommandFault) (effects : List Effect) : Report :=
  { ending := .failed fault, effects }

/-- The log output of a command, each record with the correlation id that it carries. -/
def Report.logged (r : Report) (stamp : Logging.Stamp) :
    Except Logging.ReservedField (List Written) :=
  List.flatten <$> (Effect.records r.effects).mapM fun record =>
    r.logging.emit stamp
      { logger := record.logger
        level := record.level
        message := record.message
        fields := Logging.viewFields record.correlation [] }

/-! ### Pages -/

/-- An event as JSON. -/
def eventJson (e : Event) : Json :=
  .record [("index", .whole e.index), ("description", .text e.description),
    ("timestamp", .number e.timestamp)]

/-- The events of a complete page as JSON. -/
def pageJson (events : List Event) : Json :=
  .record [("complete", .bool true), ("events", .list (events.map eventJson)),
    ("count", .whole events.length)]

/-- What is known of an incomplete page as JSON. -/
def gapJson (present : Nat) (missing : Int) : Json :=
  .record [("complete", .bool false), ("present", .whole present), ("missing", .whole missing)]

/-- The title over the events of a page, as marked-up text. -/
def pageTitle (request : PageRequest) (id : String) : String :=
  s!"Events {request.start}..{request.stop}: {id}"

/-- The events of a complete page as a table under a title. -/
def pageTable (console : Console) (title : String) (events : List Event) : Table where
  title
  head := ["Index", "Description"]
  rows := events.map fun e => [toString e.index, console.literal e.description]

/-- Shows a text for people, if it can be shown. -/
def showText (ending : Ending) : Except Markup.Fault String → Ending × String
  | .ok text => (ending, text)
  | .error fault => (.garbled fault, "")

/-- Shows a page: a complete one with its events, and of an incomplete one its gap, for people in
the words of `gap`. -/
def showPage (console : Console) (request : PageRequest) (id : String) (gap : Page → String)
    (p : Page) : Ending × String :=
  match p.content with
  | .complete events =>
    if request.json then (.done, (pageJson events).pretty ++ "\n")
    else
      showText .done <| (console.shown (pageTitle request id)).map fun title =>
        (pageTable console title events).render
  | .incomplete present _ =>
    if request.json then (.incomplete, (gapJson present p.missing).inline ++ "\n")
    else showText .incomplete (console.line (gap p))

end Lifecycle.Cli
