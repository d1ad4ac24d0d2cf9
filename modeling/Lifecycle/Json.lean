import Lifecycle.Number.Shortest
import Lifecycle.Text.Quoted

/-! # JSON values

A value keeps its fields in the order in which they were given. The text of a value is ASCII: any
other character is written by its UTF-16 units. A value is written on one line or indented by two
spaces a level. -/

namespace Lifecycle

/-- A JSON value. -/
inductive Json
  | null
  | bool (value : Bool)
  | whole (value : Int)
  | number (value : Binary64)
  | text (value : String)
  | list (items : List Json)
  | record (fields : List (String × Json))
  deriving Repr, Inhabited

namespace Json

/-- A UTF-16 unit by its number. -/
def unitEscape (n : Nat) : List Char := '\\' :: 'u' :: Text.hex 4 n

/-- One character inside a JSON text. -/
def escapeChar (c : Char) : List Char :=
  if c == '\x22' then ['\\', '\x22']
  else if c == '\\' then ['\\', '\\']
  else if c == '\n' then ['\\', 'n']
  else if c == '\r' then ['\\', 'r']
  else if c == '\t' then ['\\', 't']
  else if c == '\x08' then ['\\', 'b']
  else if c == '\x0c' then ['\\', 'f']
  else if 32 ≤ c.toNat && c.toNat < 127 then [c]
  else if c.toNat < 65536 then unitEscape c.toNat
  else
    unitEscape (55296 + (c.toNat - 65536) / 1024) ++
      unitEscape (56320 + (c.toNat - 65536) % 1024)

/-- A text between double quotes. -/
def quote (s : String) : String :=
  "\"" ++ String.ofList (s.toList.flatMap escapeChar) ++ "\""

/-- The text of a number. -/
def numberText : Binary64 → String
  | .nan => "NaN"
  | .infinite negative => if negative then "-Infinity" else "Infinity"
  | value => value.text

mutual

/-- The value on one line. -/
def inline : Json → String
  | .null => "null"
  | .bool value => if value then "true" else "false"
  | .whole value => toString value
  | .number value => numberText value
  | .text value => quote value
  | .list items => "[" ++ ", ".intercalate (inlineItems items) ++ "]"
  | .record fields => "\x7b" ++ ", ".intercalate (inlineFields fields) ++ "\x7d"

/-- Each item on one line. -/
def inlineItems : List Json → List String
  | [] => []
  | item :: rest => inline item :: inlineItems rest

/-- Each field on one line. -/
def inlineFields : List (String × Json) → List String
  | [] => []
  | field :: rest => inlineField field :: inlineFields rest

/-- A field on one line. -/
def inlineField : String × Json → String
  | (key, value) => quote key ++ ": " ++ inline value

end

/-- Entries on lines of their own between two brackets, or the bare brackets if there are none. -/
def block (opening closing indent : String) (entries : List String) : String :=
  if entries.isEmpty then opening ++ closing
  else
    let inner := "\n" ++ indent ++ "  "
    opening ++ inner ++ ("," ++ inner).intercalate entries ++ "\n" ++ indent ++ closing

mutual

/-- The value with every item and field on a line of its own, below `indent`. -/
def indented (indent : String) : Json → String
  | .list items => block "[" "]" indent (indentedItems (indent ++ "  ") items)
  | .record fields => block "\x7b" "\x7d" indent (indentedFields (indent ++ "  ") fields)
  | .null => "null"
  | .bool value => if value then "true" else "false"
  | .whole value => toString value
  | .number value => numberText value
  | .text value => quote value

/-- Each item indented. -/
def indentedItems (indent : String) : List Json → List String
  | [] => []
  | item :: rest => indented indent item :: indentedItems indent rest

/-- Each field indented. -/
def indentedFields (indent : String) : List (String × Json) → List String
  | [] => []
  | field :: rest => indentedField indent field :: indentedFields indent rest

/-- A field indented. -/
def indentedField (indent : String) : String × Json → String
  | (key, value) => quote key ++ ": " ++ indented indent value

end

/-- The value over several lines. -/
def pretty (value : Json) : String := indented "" value

end Json

end Lifecycle
