import Lifecycle.Effect
import Lifecycle.Json
import Lifecycle.Keyed
import Lifecycle.Settings

/-! # Log output

Log records go to handlers. Setting the output up takes the handlers away that are there and adds
one with a level, a format and a stream. Loggers have dotted names. One that has no level of its own
has that of the nearest one above it, and the topmost one has the level that was set up; the loggers
of two noisy libraries get a level of their own. A record is written if its level is at least that
of its logger and that of the handler.

A record carries fields. One that is logged through a named view carries the correlation id of the
view and nothing else; one that is logged directly carries the fields it is given. A record without
a correlation id shows a stand-in. -/

namespace Lifecycle

/-- Where log output goes: to one of the two standard streams or to any other one. -/
inductive LogStream (σ : Type := Empty)
  | out
  | err
  | other (stream : σ)
  deriving DecidableEq, Repr

/-- What a written record looks like. -/
inductive LogFormat
  | json
  | text
  deriving DecidableEq, Repr

/-- A place records are written to. -/
structure Handler (σ : Type := Empty) where
  level : Level
  format : LogFormat
  stream : LogStream σ
  deriving DecidableEq, Repr

/-- The topmost logger with its level and its handlers, and the loggers below it. -/
structure Logging (σ : Type := Empty) where
  level : Level := .warning
  handlers : List (Handler σ) := []
  /-- The loggers that have a level of their own. -/
  own : Keyed String Level := []
  deriving DecidableEq, Repr

/-- How log output is to be set up. What is left out or empty is taken from the environment. -/
structure LogRequest (σ : Type := Empty) where
  level : Option String := none
  format : Option String := none
  stream : LogStream σ := .out

/-- A record to be logged. -/
structure Emission where
  logger : String
  level : Level
  message : String
  /-- The fields of the record, in order. -/
  fields : List (String × Json)

/-- A written record. -/
structure Written (σ : Type := Empty) where
  stream : LogStream σ
  text : String
  deriving DecidableEq, Repr

namespace Logging

variable {σ : Type}

/-- Upper case, as far as the names of levels reach: besides the ASCII letters only the dotless i
has a letter of such a name as its capital. -/
def capital (c : Char) : Char := if c == 'ı' then 'I' else c.toUpper

/-- The level of a name; a name that is not one means `info`. -/
def levelNamed (name : String) : Level :=
  match name.map capital with
  | "DEBUG" => .debug
  | "WARNING" => .warning
  | "ERROR" => .error
  | "CRITICAL" => .critical
  | _ => .info

/-- The format of a name; a name that is not one means plain text. -/
def formatNamed (name : String) : LogFormat :=
  if name.map Char.toLower == "json" then .json else .text

/-- The value asked for, if it is not empty, or else the one in the environment, or else the
default. -/
def choose (asked found : Option String) (default : String) : String :=
  (asked.filter (· ≠ "")).getD (found.getD default)

/-- The handler a request asks for. -/
def handler (env : Environment) (request : LogRequest σ) : Handler σ where
  level := levelNamed (choose request.level (env "DEPLOY_EVENTS_LOG_LEVEL") "INFO")
  format := formatNamed (choose request.format (env "DEPLOY_EVENTS_LOG_FORMAT") "json")
  stream := request.stream

/-- Takes a handler away. -/
def remove [DecidableEq σ] (l : Logging σ) (h : Handler σ) : Logging σ :=
  { l with handlers := l.handlers.erase h }

/-- Takes away all handlers that are there at the beginning. -/
def clear [DecidableEq σ] (l : Logging σ) : Logging σ := l.handlers.foldl remove l

/-- Gives a logger a level of its own. -/
def setLevel (l : Logging σ) (logger : String) (level : Level) : Logging σ :=
  { l with own := l.own.set logger level }

/-- Lets the loggers of libraries pass nothing below a warning. -/
def silence (l : Logging σ) (libraries : List String) : Logging σ :=
  libraries.foldl (fun l logger => l.setLevel logger .warning) l

/-- The libraries that get a level of their own. -/
def noisy : List String := ["urllib3", "kubernetes"]

/-- Sets the output up. -/
def setUp [DecidableEq σ] (l : Logging σ) (env : Environment) (request : LogRequest σ) :
    Logging σ :=
  let h := handler env request
  let cleared := clear { l with level := h.level }
  silence { cleared with handlers := cleared.handlers ++ [h] } noisy

/-- What stands before a dot of a name, shortest first. -/
def above : List Char → List (List Char)
  | [] => []
  | c :: rest => (if c = '.' then [[]] else []) ++ (above rest).map (c :: ·)

/-- A logger and those above it in the hierarchy of dotted names, nearest first. -/
def lineage (logger : String) : List String :=
  logger :: ((above logger.toList).map String.ofList).reverse

/-- The level of a logger: the nearest one in its lineage, or else that of the topmost logger. -/
def levelOf (l : Logging σ) (logger : String) : Level :=
  ((lineage logger).findSome? l.own.get?).getD l.level

/-- The records of a logger at a level reach the handlers. -/
def accepts (l : Logging σ) (logger : String) (level : Level) : Bool :=
  (l.levelOf logger).number ≤ level.number

/-! ### Fields -/

/-- The field that every record shows. -/
def correlationField : String := "correlation_id"

/-- What a record without a correlation id shows. -/
def standIn : String := "N/A"

/-- The fields of a record logged through a view with a correlation id: the view's own id takes the
place of all fields that the record is given. -/
def viewFields (correlation : Option String) (_given : List (String × Json)) :
    List (String × Json) :=
  [(correlationField, .text ((correlation.filter (· ≠ "")).getD standIn))]

/-- The names that a record has for itself. A field must not bear one. -/
def reserved : List String :=
  ["message", "asctime", "name", "msg", "args", "levelname", "levelno", "pathname", "filename",
    "module", "exc_info", "exc_text", "stack_info", "lineno", "funcName", "created", "msecs",
    "relativeCreated", "thread", "threadName", "processName", "process"]

/-- A field that bears a name of the record itself. -/
structure ReservedField where
  name : String
  deriving DecidableEq, Repr

/-- The text of the refusal. -/
def ReservedField.message (f : ReservedField) : String :=
  "Attempt to overwrite " ++ Text.quoted f.name ++ " in LogRecord"

/-- What a record shows as its correlation id. -/
def shownCorrelation (fields : List (String × Json)) : Json :=
  (fields.lookup correlationField).getD (.text standIn)

/-! ### Formats -/

mutual

/-- A value inside another one in plain text. -/
def plainInner : Json → String
  | .null => "None"
  | .bool value => if value then "True" else "False"
  | .whole value => toString value
  | .number value => value.text
  | .text value => Text.quoted value
  | .list items => "[" ++ ", ".intercalate (plainItems items) ++ "]"
  | .record fields => "\x7b" ++ ", ".intercalate (plainFields fields) ++ "\x7d"

/-- The items of a list in plain text. -/
def plainItems : List Json → List String
  | [] => []
  | item :: rest => plainInner item :: plainItems rest

/-- The fields of a record in plain text. -/
def plainFields : List (String × Json) → List String
  | [] => []
  | field :: rest => plainField field :: plainFields rest

/-- A field in plain text. -/
def plainField : String × Json → String
  | (key, value) => Text.quoted key ++ ": " ++ plainInner value

end

/-- A value in plain text. A text stands as it is. -/
def plain : Json → String
  | .text value => value
  | value => plainInner value

/-- The logger without a name is the topmost one. -/
def shownLogger (logger : String) : String := if logger == "" then "root" else logger

/-- When a record was logged: to the second, and to the millisecond. -/
structure Stamp where
  seconds : String
  millis : String

/-- The fields of a record besides its correlation id that are written. -/
def extraFields (fields : List (String × Json)) : List (String × Json) :=
  fields.filter fun (key, _) => key != correlationField && key.toList.head? != some '_'

/-- The fields that every record has in JSON. -/
def commonFields (stamp : Stamp) (e : Emission) : Keyed String Json :=
  [("timestamp", .text (stamp.seconds ++ "," ++ stamp.millis)),
    ("logger", .text (shownLogger e.logger)), ("level", .text e.level.name),
    ("message", .text e.message), (correlationField, shownCorrelation e.fields)]

/-- A record as a JSON value: the fields that every record has, and behind them the others. -/
def jsonRecord (stamp : Stamp) (e : Emission) : Json :=
  .record ((commonFields stamp e).setAll (extraFields e.fields))

/-- A record as plain text. -/
def textRecord (stamp : Stamp) (e : Emission) : String :=
  stamp.seconds ++ " - " ++ shownLogger e.logger ++ " - " ++ e.level.name ++ " - " ++ e.message ++
    " [correlation_id=" ++ plain (shownCorrelation e.fields) ++ "]"

/-- A record in a format. -/
def format (stamp : Stamp) (e : Emission) : LogFormat → String
  | .json => (jsonRecord stamp e).inline
  | .text => textRecord stamp e

/-- What the handlers write of a record. As long as there are none, the bare message of what is at
least a warning goes to the error stream. -/
def written (l : Logging σ) (stamp : Stamp) (e : Emission) : List (Written σ) :=
  if l.handlers.isEmpty then
    if Level.warning.number ≤ e.level.number then [⟨.err, e.message⟩] else []
  else
    (l.handlers.filter fun h => h.level.number ≤ e.level.number).map fun h =>
      ⟨h.stream, format stamp e h.format⟩

/-- Logs a record. A record that its logger passes over is not looked at any further. -/
def emit (l : Logging σ) (stamp : Stamp) (e : Emission) : Except ReservedField (List (Written σ)) :=
  if !l.accepts e.logger e.level then .ok []
  else
    match e.fields.find? fun f => reserved.contains f.1 with
    | some f => .error ⟨f.1⟩
    | none => .ok (l.written stamp e)

end Logging

end Lifecycle
