import Lifecycle.Cli.Report
import Lifecycle.Watcher

/-! # Commands about events

One command translates log lines. Another one reads a page of a log file: it loads the log into a
store of its own with one pass of a watcher, so an event has the index that it would have in a
collector. -/

namespace Lifecycle.Cli

/-! ### Single lines -/

/-- A line that is translated: not blank, and an event line unless all lines are wanted. -/
def isWanted (all : Bool) (line : String) : Bool :=
  !Text.allBlank line && (all || Line.isEvent line)

/-- What becomes of the lines that are translated. -/
def translateAll (host : Host) (all : Bool) (lines : List String) :
    List (Except MalformedLine String) :=
  (lines.filter (isWanted all)).map fun line => Line.translate line host

/-- A complaint that is to be shown as it is, with the blank in front of it. -/
def complaint (message : String) : List Markup.Piece :=
  Markup.pieces 0 (Markup.styled "red" "Error:").toList ++ Markup.escape (" " ++ message)

/-- Shows what became of a line. -/
def showTranslated (console : Console) : Except MalformedLine String → String
  | .ok description => plainLine description
  | .error line => printedLine (Markup.seen console (complaint line.message))

/-- The line is malformed. -/
def isMalformed : Except MalformedLine String → Bool
  | .ok _ => false
  | .error _ => true

/-- Translates a line, or else the standard input. -/
def runTranslate (s : Surroundings) (host : Host) (line : Option String) (all : Bool) : Report :=
  let lines := match line with
    | some line => [line]
    | none => Text.fileLines s.input
  let results := translateAll host all lines
  { ending := if results.any isMalformed then .refused else .done
    output := "".intercalate (results.map (showTranslated s.console)) }

/-! ### Pages of a file -/

/-- Loads a log into a new store by one pass of a watcher. -/
def load (host : Host) (deployment : String) (clock : Clock) (lines : List String) :
    Outcome (Watcher × Desk) Nat :=
  Watcher.catchUp { deployment, worker := ⟨host.name, host⟩ } (.fixed [(host.name, lines)]) clock
    ⟨{}, {}⟩

/-- The words for an incomplete page of a file. -/
def fileGap (request : PageRequest) (p : Page) : String :=
  Markup.styled "yellow" s!"Range {request.start}..{request.stop} incomplete:" ++
    s!" {p.present} present, {p.missing} missing"

/-- The words for bounds that make no window. -/
def boundsComplaint (bounds : BadBounds) : String :=
  Markup.styled "red" "Error:" ++ " " ++ bounds.message

/-- Reads a page of a loaded log. -/
def pageOf (console : Console) (request : PageRequest) (deployment : String)
    (loaded : Outcome (Watcher × Desk) Nat) : Report :=
  -- bounds from the command line have been read, so a complaint can name them
  match loaded.value, Window.ofBounds request.start request.stop with
  | .error fault, _ => .failure (.service fault) loaded.effects
  | .ok _, .error bounds =>
    let (ending, output) := showText .refused (console.line (boundsComplaint bounds))
    { ending, output, effects := loaded.effects }
  | .ok _, .ok window =>
    let asked := Journal.handOver (Page.read loaded.state.2.store deployment window none) none
    match asked.value with
    | .error fault => .failure (.service fault) (loaded.effects ++ asked.effects)
    | .ok p =>
      let (ending, output) := showPage console request deployment (fileGap request) p
      { ending, output, effects := loaded.effects ++ asked.effects }

/-- What is shown for a file that is not there. -/
def showMissing (console : Console) (request : PageRequest) (path : String) : Ending × String :=
  if request.json then
    (.refused,
      (Json.record [("error", .text "Log file not found"), ("path", .text path)]).inline ++ "\n")
  else
    showText .refused
      (console.line (Markup.styled "red" "Error: Log file not found:" ++ " " ++ path))

/-- Reads a page of a log file. -/
def runPage (s : Surroundings) (path : String) (host : Host) (deployment : String)
    (request : PageRequest) : Report :=
  match s.fileAt path with
  | .text content =>
    pageOf s.console request deployment (load host deployment s.clock (Text.fileLines content))
  | .missing =>
    let (ending, output) := showMissing s.console request path
    { ending, output }
  | .directory => .failure (.isDirectory path) []
  | .notDirectory => .failure (.notDirectory path) []
  | .tooLong => .failure (.longPath path) []
  | .unusable => .failure .unusablePath []

end Lifecycle.Cli
