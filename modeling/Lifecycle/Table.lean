import Lifecycle.Printed
import Lifecycle.Text.Lines

/-! # Tables

A table is as wide as its widest cells need: the head stands in a heavy box and the rows in a light
one, every cell has a space on both sides, and the title is centred over the table. A cell may have
several lines. -/

namespace Lifecycle

/-- A table with a head. -/
structure Table where
  title : String
  head : List String
  rows : List (List String)
  deriving DecidableEq, Repr

namespace Table

/-- The number of columns that the widest line of a cell takes. Every line end of a worker's log
counts here, though only a line feed begins a new line in the table. -/
def cellWidth (cell : String) : Nat :=
  (Text.logLines cell).foldl (fun width line => max width (Columns.count line.toList)) 0

/-- The width of each column. -/
def widths (rows : List (List String)) : List Nat :=
  rows.foldl
    (fun widths row =>
      (List.range (max widths.length row.length)).map fun k =>
        max (widths[k]?.getD 0) ((row[k]?.map cellWidth).getD 0))
    []

/-- The lines of a cell in a column of a width. -/
def cellLines (width : Nat) (cell : String) : List (List Char) :=
  (Columns.lines width .alone cell).map fun line =>
    Columns.padFully width (Columns.cutOff width (Columns.trimBehind width line))

/-- The lines of a title over a table of a width. -/
def titleLines (width : Nat) (title : String) : List (List Char) :=
  (Columns.lines width .folded (printable title)).map fun line =>
    Columns.centre width (Columns.trimEnd line)

/-- The characters that a horizontal rule is made of. -/
structure Rule where
  left : String
  line : Char
  cross : String
  right : String

/-- A horizontal rule over the columns. -/
def rule (r : Rule) (widths : List Nat) : String :=
  let lines := widths.map fun w => String.ofList (List.replicate (w + 2) r.line)
  r.left ++ r.cross.intercalate lines ++ r.right ++ "\n"

/-- One line of a row between vertical bars. -/
def rowLine (bar : String) (cells : List (List Char)) : String :=
  bar ++ bar.intercalate (cells.map fun cell => " " ++ String.ofList cell ++ " ") ++ bar ++ "\n"

/-- A row between vertical bars. It is as high as its highest cell. -/
def row (bar : String) (widths : List Nat) (cells : List String) : String :=
  let columns := (widths.zip cells).map fun (w, cell) => (w, cellLines w cell)
  let height := columns.foldl (fun h column => max h column.2.length) 0
  "".intercalate ((List.range height).map fun k =>
    rowLine bar (columns.map fun (w, lines) => lines[k]?.getD (Columns.padRight w [])))

/-- The table as text. -/
def render (t : Table) : String :=
  let head := t.head.map printable
  let rows := t.rows.map fun cells => cells.map printable
  let widths := widths (head :: rows)
  let total := widths.foldl (fun n w => n + w + 3) 1
  "".intercalate ((titleLines total t.title).map fun line => String.ofList line ++ "\n") ++
    rule ⟨"┏", '━', "┳", "┓"⟩ widths ++ row "┃" widths head ++ rule ⟨"┡", '━', "╇", "┩"⟩ widths ++
    "".intercalate (rows.map (row "│" widths)) ++ rule ⟨"└", '─', "┴", "┘"⟩ widths

/-- Rows without a box or a head. -/
def renderPlain (rows : List (List String)) : String :=
  let widths := widths rows
  "".intercalate (rows.map (row "" widths))

end Table

end Lifecycle
