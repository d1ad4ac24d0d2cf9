/-! # Command line arguments

A command has options and positional arguments. An option has long names, such as `--name`, and
short ones, such as `-n`. A value stands in the next argument, whatever that looks like, or behind
an equals sign after a long name, or directly behind a short one; short flags may be run together.
Two hyphens end the options. A command takes options after positional arguments as well, a group of
commands only before the first one. -/

namespace Lifecycle.Cli

/-- An option of a command. -/
structure OptionSpec where
  /-- The name under which the option is known to the command. -/
  key : String
  names : List String
  /-- The option stands with a value. -/
  takesValue : Bool := true

/-- The arguments of a command, sorted out. -/
structure Parsed where
  /-- The options in the order in which they were given, a flag with an empty value. -/
  options : List (String × String) := []
  positional : List String := []

/-- What is wrong with the arguments. -/
inductive UsageFault
  | noSuchOption (name : String)
  | missingValue (name : String)
  | unwantedValue (name : String)
  | missingArgument
  | extraArgument
  | missingOption (key : String)
  | badValue (key : String)
  | missingCommand
  | noSuchCommand (name : String)
  deriving DecidableEq, Repr

/-- The text of a complaint about the arguments. -/
def UsageFault.message : UsageFault → String
  | .noSuchOption name => "No such option: " ++ name
  | .missingValue name => "Option '" ++ name ++ "' requires an argument."
  | .unwantedValue name => "Option '" ++ name ++ "' does not take a value."
  | .missingArgument => "Missing argument."
  | .extraArgument => "Got unexpected extra arguments."
  | .missingOption key => "Missing option '--" ++ key ++ "'."
  | .badValue key => "Invalid value for '--" ++ key ++ "'."
  | .missingCommand => "Missing command."
  | .noSuchCommand name => "No such command '" ++ name ++ "'."

namespace OptionSpec

/-- A name with one hyphen and one letter. -/
def isShort (name : String) : Bool :=
  match name.toList with
  | ['-', c] => c != '-'
  | _ => false

/-- The option with a long name. -/
def long? (specs : List OptionSpec) (name : String) : Option OptionSpec :=
  specs.find? fun s => s.names.any fun n => n == name && !isShort n

/-- The option with a short name. -/
def short? (specs : List OptionSpec) (letter : Char) : Option OptionSpec :=
  specs.find? fun s => s.names.contains (String.ofList ['-', letter])

end OptionSpec

/-- The options read from one argument: those that are complete, and one whose value is in the next
argument. -/
structure OptionArgument where
  complete : List (String × String) := []
  awaiting : Option (String × String) := none

/-- Reads an argument whose letters are short options. -/
def readShort (specs : List OptionSpec) : List Char → Except UsageFault OptionArgument
  | [] => .ok {}
  | letter :: rest =>
    let name := String.ofList ['-', letter]
    match OptionSpec.short? specs letter with
    | none => .error (.noSuchOption name)
    | some spec =>
      if spec.takesValue then
        if rest.isEmpty then .ok { awaiting := some (spec.key, name) }
        else .ok { complete := [(spec.key, String.ofList rest)] }
      else (readShort specs rest).map fun a => { a with complete := (spec.key, "") :: a.complete }

/-- Reads an argument that begins with a hyphen. A long name is tried first. -/
def readOption (specs : List OptionSpec) (argument : List Char) :
    Except UsageFault OptionArgument :=
  let name := String.ofList (argument.takeWhile (· != '='))
  let value := argument.dropWhile (· != '=')
  match OptionSpec.long? specs name, argument with
  | some spec, _ =>
    match spec.takesValue, value with
    | true, [] => .ok { awaiting := some (spec.key, name) }
    | true, _ :: text => .ok { complete := [(spec.key, String.ofList text)] }
    | false, [] => .ok { complete := [(spec.key, "")] }
    | false, _ :: _ => .error (.unwantedValue name)
  | none, '-' :: '-' :: _ => .error (.noSuchOption name)
  | none, _ => readShort specs (argument.drop 1)

/-- Sorts out arguments. `mixed` says that options may stand behind positional arguments. -/
def parse (specs : List OptionSpec) (mixed : Bool) : List String → Except UsageFault Parsed
  | [] => .ok {}
  | argument :: rest =>
    match argument.toList with
    | ['-', '-'] => .ok { positional := rest }
    | '-' :: c :: more => do
      let read ← readOption specs ('-' :: c :: more)
      match read.awaiting, rest with
      | none, rest =>
        let p ← parse specs mixed rest
        return { p with options := read.complete ++ p.options }
      | some (_, name), [] => throw (.missingValue name)
      | some (key, _), value :: rest =>
        let p ← parse specs mixed rest
        return { p with options := read.complete ++ (key, value) :: p.options }
    | _ =>
      if mixed then
        (parse specs mixed rest).map fun p => { p with positional := argument :: p.positional }
      else .ok { positional := argument :: rest }

namespace Parsed

/-- The value of an option. Of several the last counts. -/
def value? (p : Parsed) (key : String) : Option String :=
  (p.options.reverse.find? fun o => o.1 == key).map Prod.snd

/-- The flag was given. -/
def has (p : Parsed) (key : String) : Bool := (p.value? key).isSome

/-- The value of an option that must be given. -/
def required (p : Parsed) (key : String) : Except UsageFault String :=
  match p.value? key with
  | some value => .ok value
  | none => .error (.missingOption key)

/-- The only positional argument. -/
def single (p : Parsed) : Except UsageFault String :=
  match p.positional with
  | [] => .error .missingArgument
  | [argument] => .ok argument
  | _ => .error .extraArgument

/-- There are no positional arguments. -/
def noPositional (p : Parsed) : Except UsageFault Unit :=
  if p.positional.isEmpty then .ok () else .error .extraArgument

end Parsed

end Lifecycle.Cli
