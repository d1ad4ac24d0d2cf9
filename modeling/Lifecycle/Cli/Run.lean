import Lifecycle.Cli.Inquiry
import Lifecycle.Cli.Offline
import Lifecycle.Cli.Session

/-! # Running a command line

A command line that cannot be read is refused, with nothing printed on the standard output. -/

namespace Lifecycle.Cli

/-- The version of the command line and of the library. -/
def version : String := "v0.1.0"

/-- The rows that show the versions. -/
def versionRows : List (List String) := [["deploy-events CLI", version], ["Core", version]]

/-- Runs a command. -/
def Command.run (s : Surroundings) : Command → Report
  | .help => { ending := .done }
  | .version => { ending := .done, output := Table.renderPlain versionRows }
  | .translate host address line all => runTranslate s ⟨host, address⟩ line all
  | .page path host address deployment request => runPage s path ⟨host, address⟩ deployment request
  | .classify operation space => runClassify s operation space
  | .units operation space json => runUnits s operation space json
  | .collect operation timeout interval request =>
    runCollect s operation timeout interval request

/-- Runs a command line. -/
def run (s : Surroundings) (arguments : List String) : Report :=
  match Command.ofArguments arguments with
  | .error _ => { ending := .refused }
  | .ok command => command.run s

end Lifecycle.Cli
