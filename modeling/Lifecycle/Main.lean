import Lifecycle.Cli.Run
import Std.Time.DateTime

/-! # The program

Reads what a command needs, runs it and prints its report. The program has no connection to a
cluster, so a command that asks one ends for lack of credentials. -/

namespace Lifecycle.Cli

/-- All of the standard input. -/
def readInput : IO String := do
  let stream ← IO.getStdin
  let mut text := ""
  repeat
    let line ← stream.getLine
    if line.isEmpty then break
    text := text ++ line
  return text

/-- Reads a file, if it can be read. -/
def readPath (path : String) : IO FileRead := do
  try
    return .text (← IO.FS.readFile path)
  catch
    | .noFileOrDirectory .. => return .missing
    | .inappropriateType _ 20 _ => return .notDirectory
    | .inappropriateType .. => return .directory
    | .invalidArgument _ 36 _ => return .tooLong
    | fault => throw fault

/-- The service account's file. -/
def spacePath : String := "/var/run/secrets/kubernetes.io/serviceaccount/namespace"

/-- The text of the service account's file. -/
def readSpaceFile : IO (Option String) := do
  try
    return some (← IO.FS.readFile spacePath)
  catch _ => return none

/-- The variables of the environment that the program knows. -/
def readEnvironment : IO Environment := do
  let found ← Settings.watched.mapM fun name => return (name, ← IO.getEnv name)
  return fun name => (found.lookup name).join

/-- The clocks. -/
def readClock : IO Clock := do
  let wall ← Std.Time.Timestamp.now
  let monotonic ← IO.monoNanosNow
  return {
    wall := wall.toNanosecondsSinceUnixEpoch.val / 1000000000
    monotonic := monotonic / 1000000000 }

/-- Reads what a command needs. -/
def lookAround (command : Command) : IO Surroundings := do
  let input ← match command with
    | .translate _ _ none _ => readInput
    | _ => pure ""
  let file ← match command with
    | .page path .. => readPath path
    | _ => pure .missing
  return {
    input
    fileAt := fun _ => file
    env := ← readEnvironment
    spaceFile := ← readSpaceFile
    clock := ← readClock }

/-- A number with zeros in front of it. -/
def digits (width : Nat) (n : Int) : String :=
  let text := toString n
  "".pushn '0' (width - text.length) ++ text

/-- The moment as it stands in log output. -/
def readStamp : IO Logging.Stamp := do
  let now := (← Std.Time.Timestamp.now).toNanosecondsSinceUnixEpoch
  let moment := Std.Time.PlainDateTime.ofWallTime (.ofNanoseconds now)
  let (date, time) := (moment.date, moment.time)
  let day := [digits 4 date.year, digits 2 date.month.val, digits 2 date.day.val]
  let hour := [digits 2 time.hour.val, digits 2 time.minute.val, digits 2 time.second.val]
  return ⟨"-".intercalate day ++ " " ++ ":".intercalate hour, digits 3 (now.val / 1000000 % 1000)⟩

/-- Prints a report. -/
def Report.print (r : Report) : IO Unit := do
  IO.print r.output
  match r.logged (← readStamp) with
  | .ok written =>
    for w in written do
      match w.stream with
      | .out => IO.println w.text
      | .err => IO.eprintln w.text
  | .error field => IO.eprintln field.message
  match r.ending with
  | .failed fault => IO.eprintln fault.message
  | .garbled fault => IO.eprintln fault.message
  | _ => pure ()

end Lifecycle.Cli

/-- Runs the command line. -/
def main (arguments : List String) : IO UInt32 := do
  match Lifecycle.Cli.Command.ofArguments arguments with
  | .error fault =>
    IO.eprintln fault.message
    return 2
  | .ok command =>
    let report := command.run (← Lifecycle.Cli.lookAround command)
    report.print
    return report.ending.exitCode.toUInt32
