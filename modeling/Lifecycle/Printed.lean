import Lifecycle.Columns

/-! # Printed text

What is printed for people goes through a few rules: control characters that would move the cursor
are left out, and tabs become spaces. Text that is meant for another program is printed as it is,
except for terminal sequences. -/

namespace Lifecycle

/-- Bell, backspace, vertical tab, form feed and carriage return. -/
def movesCursor (c : Char) : Bool :=
  c == '\x07' || c == '\x08' || c == '\x0b' || c == '\x0c' || c == '\r'

/-- The text as it is printed for people. -/
def printable (s : String) : String := String.ofList (s.toList.filter fun c => !movesCursor c)

/-- A text on a line of its own. -/
def printedLine (s : String) : String :=
  let lines := (printable s).splitOn "\n"
  "\n".intercalate (lines.map fun line => String.ofList (Columns.expandTabs line)) ++ "\n"

/-! ### Terminal sequences -/

/-- The length of the terminal sequence at the beginning of a text: an escape, a bracket, parameters
and a letter. -/
def sequenceLength? : List Char → Option Nat
  | '\x1b' :: '[' :: rest =>
    let parameters := rest.takeWhile fun c => c.isDigit || c == ';' || c == '?'
    match rest.drop parameters.length with
    | c :: _ => if c.isAlpha then some (parameters.length + 3) else none
    | [] => none
  | _ => none

/-- Leaves out the next `skip` characters, and every terminal sequence behind them. -/
def dropSequences : Nat → List Char → List Char
  | _, [] => []
  | skip + 1, _ :: rest => dropSequences skip rest
  | 0, c :: rest =>
    match sequenceLength? (c :: rest) with
    | some length => dropSequences (length - 1) rest
    | none => c :: dropSequences 0 rest

/-- A text for another program, on a line of its own. -/
def plainLine (s : String) : String := String.ofList (dropSequences 0 s.toList) ++ "\n"

theorem sequenceLength?_eq_none {c : Char} (h : c ≠ '\x1b') (rest : List Char) :
    sequenceLength? (c :: rest) = none := by
  unfold sequenceLength?
  split
  · simp_all
  · rfl

/-- A text without escapes holds no terminal sequence. -/
theorem dropSequences_eq_self {s : List Char} (h : '\x1b' ∉ s) : dropSequences 0 s = s := by
  induction s with
  | nil => rfl
  | cons c rest ih =>
    have hc : c ≠ '\x1b' := fun e => h (e ▸ List.mem_cons_self)
    have hrest : '\x1b' ∉ rest := fun m => h (List.mem_cons_of_mem c m)
    rw [dropSequences, sequenceLength?_eq_none hc rest]
    exact congrArg (c :: ·) (ih hrest)

end Lifecycle
