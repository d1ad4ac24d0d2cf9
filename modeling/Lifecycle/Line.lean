import Lifecycle.Event
import Lifecycle.Text.Quoted
import Lifecycle.Text.Word

/-! # Log lines

A worker writes lines of the form "when - logger.name.what". A line is an event line if the
lifecycle logger's name occurs in its first physical line after at least one character. Translating
a line keeps what follows the first separator, drops the qualified logger name in front of it, and
puts the host there instead. -/

namespace Lifecycle

/-- Where a worker runs. -/
structure Host where
  name : String
  address : String
  deriving DecidableEq, Repr, Inhabited

/-- A log line without a separator. -/
structure MalformedLine where
  line : String
  deriving DecidableEq, Repr, Inhabited

/-- The text of the complaint about a line without a separator. -/
def MalformedLine.message (m : MalformedLine) : String :=
  "malformed log line (missing ' - ' separator): " ++ Text.quoted m.line

namespace Line

/-- The name of the logger that writes lifecycle events. -/
def marker : List Char :=
  ['U', 'S', 'M', 'E', 'v', 'e', 'n', 't', 'L', 'o', 'g', 'g', 'e', 'r']

/-- The marker occurs after at least one character, and no line feed comes before it. -/
def hasMarker : List Char → Bool
  | [] => false
  | c :: rest => c != '\n' && (marker.isPrefixOf rest || hasMarker rest)

/-- The lifecycle logger wrote the line. -/
def isEvent (line : String) : Bool := hasMarker line.toList

/-- What follows the first separator, a hyphen between two spaces. -/
def afterSeparator : List Char → Option (List Char)
  | [] => none
  | ' ' :: '-' :: ' ' :: rest => some rest
  | _ :: rest => afterSeparator rest

/-- A character of one component of a qualified logger name. -/
def isNameChar (c : Char) : Bool := Text.isWord c || c == '$'

/-- Reads on while components, each of at least one name character and a dot, follow each other.
`kept` is the text behind the last complete component, and `inside` says that the component being
read has a character. -/
def dropNameFrom (kept : List Char) (inside : Bool) : List Char → List Char
  | [] => kept
  | c :: rest =>
    if isNameChar c then dropNameFrom kept true rest
    else if c == '.' && inside then dropNameFrom rest false rest
    else kept

/-- The text without the qualified logger name in front of it. -/
def dropName (text : List Char) : List Char := dropNameFrom text false text

/-- An event text with the host it comes from. -/
def describe (host : Host) (text : List Char) : String :=
  "[" ++ host.name ++ "/" ++ host.address ++ "] - " ++ String.ofList text

/-- The event description of a log line. -/
def translate (line : String) (host : Host) : Except MalformedLine String :=
  match afterSeparator line.toList with
  | none => .error ⟨line⟩
  | some text => .ok (describe host (dropName text))

/-- The event of a log line at a given index. -/
def toEvent (line : String) (host : Host) (index : Int) (timestamp : Binary64) :
    Except MalformedLine Event :=
  (translate line host).map fun description => ⟨index, description, timestamp⟩

theorem translate_eq_error_iff {line : String} {host : Host} {m : MalformedLine} :
    translate line host = .error m ↔ afterSeparator line.toList = none ∧ m = ⟨line⟩ := by
  cases h : afterSeparator line.toList <;> simp [translate, h, eq_comm]

end Line

end Lifecycle
