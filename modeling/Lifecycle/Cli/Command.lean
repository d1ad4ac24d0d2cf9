import Lifecycle.Cli.Arguments
import Lifecycle.Number.Loose

/-! # Commands

The commands of the program and what they are given. Commands that have to do with events or with
the topology stand in groups of these names. -/

namespace Lifecycle.Cli

/-- A window to be shown, and how. -/
structure PageRequest where
  start : Int
  stop : Int
  json : Bool

/-- A command with its arguments. -/
inductive Command
  | help
  | version
  | translate (host address : String) (line : Option String) (all : Bool)
  | page (path host address deployment : String) (request : PageRequest)
  | classify (operation space : String)
  | units (operation space : String) (json : Bool)
  | collect (operation : String) (timeout interval : Binary64) (request : PageRequest)

/-- The option that every command and group has. -/
def helpOption : OptionSpec := ⟨"help", ["--help"], false⟩

/-- The option for JSON output. -/
def jsonOption : OptionSpec := ⟨"json", ["--json"], false⟩

/-- The options that bound a page. -/
def windowOptions : List OptionSpec := [⟨"from", ["--from"], true⟩, ⟨"to", ["--to"], true⟩]

/-- The option that names a cluster namespace. -/
def spaceOption : OptionSpec := ⟨"namespace", ["--namespace", "-n"], true⟩

/-- Reads the value of an option as a number. -/
def readNumber {α : Type} (read? : String → Option α) (key value : String) :
    Except UsageFault α :=
  match read? value with
  | some n => .ok n
  | none => .error (.badValue key)

/-- The window and the way to show it. -/
def Parsed.pageRequest (p : Parsed) : Except UsageFault PageRequest := do
  let start ← readNumber Number.looseWhole? "from" ((p.value? "from").getD "0")
  let stop ← readNumber Number.looseWhole? "to" (← p.required "to")
  return ⟨start, stop, p.has "json"⟩

/-- The arguments of a command, unless it is only asked for help. -/
def withOptions (specs : List OptionSpec) (arguments : List String)
    (command : Parsed → Except UsageFault Command) : Except UsageFault Command := do
  let p ← parse (helpOption :: specs) true arguments
  if p.has "help" then return .help else command p

/-- Reads the arguments of `translate`. -/
def readTranslate (arguments : List String) : Except UsageFault Command :=
  withOptions
    [⟨"host", ["--host"], true⟩, ⟨"address", ["--address"], true⟩, ⟨"line", ["--line"], true⟩,
      ⟨"all", ["--all"], false⟩]
    arguments fun p => do
      p.noPositional
      return .translate (← p.required "host") (← p.required "address") (p.value? "line")
        (p.has "all")

/-- Reads the arguments of `page`. -/
def readPage (arguments : List String) : Except UsageFault Command :=
  withOptions
    (jsonOption :: windowOptions ++
      [⟨"host", ["--host"], true⟩, ⟨"address", ["--address"], true⟩,
        ⟨"deployment", ["--deployment", "-d"], true⟩])
    arguments fun p => do
      return .page (← p.single) ((p.value? "host").getD "localhost")
        ((p.value? "address").getD "127.0.0.1") ((p.value? "deployment").getD "local")
        (← p.pageRequest)

/-- Reads the arguments of `classify`. -/
def readClassify (arguments : List String) : Except UsageFault Command :=
  withOptions [spaceOption] arguments fun p => do
    return .classify (← p.single) ((p.value? "namespace").getD "")

/-- Reads the arguments of `units`. -/
def readUnits (arguments : List String) : Except UsageFault Command :=
  withOptions [spaceOption, jsonOption] arguments fun p => do
    return .units (← p.single) ((p.value? "namespace").getD "") (p.has "json")

/-- Reads the arguments of `collect`. -/
def readCollect (arguments : List String) : Except UsageFault Command :=
  withOptions
    (jsonOption :: windowOptions ++
      [⟨"timeout", ["--timeout", "-t"], true⟩, ⟨"interval", ["--interval"], true⟩])
    arguments fun p => do
      let timeout ← readNumber Number.looseBinary64? "timeout" ((p.value? "timeout").getD "60.0")
      let interval ← readNumber Number.looseBinary64? "interval" ((p.value? "interval").getD "1.0")
      return .collect (← p.single) timeout interval (← p.pageRequest)

/-- Reads the arguments of `version`. -/
def readVersion (arguments : List String) : Except UsageFault Command :=
  withOptions [] arguments fun p => do
    p.noPositional
    return .version

/-- Commands by name, with what reads their arguments. -/
abbrev Menu := List (String × (List String → Except UsageFault Command))

/-- Picks a command of a group and reads its arguments. -/
def readGroup (menu : Menu) (arguments : List String) : Except UsageFault Command := do
  let p ← parse [helpOption] false arguments
  if p.has "help" then return .help
  match p.positional with
  | [] => throw .missingCommand
  | name :: rest =>
    match menu.lookup name with
    | some read => read rest
    | none => throw (.noSuchCommand name)

/-- The commands about events. -/
def eventCommands : Menu := [("translate", readTranslate), ("page", readPage)]

/-- The commands about the topology. -/
def topologyCommands : Menu := [("classify", readClassify), ("units", readUnits)]

/-- Reads a command line. -/
def Command.ofArguments (arguments : List String) : Except UsageFault Command :=
  readGroup
    [("events", readGroup eventCommands), ("topology", readGroup topologyCommands),
      ("collect", readCollect), ("version", readVersion)]
    arguments

end Lifecycle.Cli
