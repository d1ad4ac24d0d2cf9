import Lifecycle.Line
import Lifecycle.Number.Digits
import Lifecycle.Store

/-! # Faults

What can go wrong, by cause. A fault ends the operation it arises in; what the operation changed
before stays changed. -/

namespace Lifecycle

/-- Why an operation failed. -/
inductive Fault
  /-- A watcher that halts on malformed lines met one. -/
  | malformedLine (line : MalformedLine)
  /-- The store refused an event. -/
  | put (fault : PutFault)
  /-- A reader asked for a window with a negative bound. -/
  | badBounds (bounds : BadBounds)
  /-- The operation is not tracked. -/
  | notTracked (operation : String)
  /-- A worker's log could not be read. -/
  | unreadable (message : String)
  /-- There are no credentials for the cluster. -/
  | noCredentials
  /-- The cluster answered a call with this status. -/
  | refused (status : Int)
  /-- A name that nothing was given yet. -/
  | unknownName (name : String)
  /-- A list of indices was to be counted out in steps of nothing. -/
  | zeroStride
  /-- A number to be written has too many digits. -/
  | unwritable
  /-- A count is beyond what a counter can hold. -/
  | tooLarge
  deriving DecidableEq, Repr

/-- The text of a fault, as it stands in log records. -/
def Fault.message : Fault → String
  | .malformedLine line => line.message
  | .put fault => fault.message
  | .badBounds bounds => bounds.message
  | .notTracked operation => s!"operation {operation} is not tracked"
  | .unreadable message => message
  | .noCredentials => "no kubeconfig"
  | .refused status => s!"({status})\nReason: None\n"
  | .unknownName name => name
  | .zeroStride => "range() arg 3 must not be zero"
  | .unwritable =>
    s!"Exceeds the limit ({Number.maxDigits} digits) for integer string conversion; " ++
      "use sys.set_int_max_str_digits() to increase the limit"
  | .tooLarge => "int too large to convert to float"

/-- The fault of bounds that make no window. It names both of them, so it cannot be told of a bound
with too many digits. -/
def BadBounds.fault (b : BadBounds) : Fault :=
  if Number.isWritable b.start && Number.isWritable b.stop then .badBounds b else .unwritable

/-- The window that a reader asks for. -/
def Window.asked (start stop : Int) : Except Fault Window :=
  (Window.ofBounds start stop).mapError BadBounds.fault

theorem Window.asked_eq_ok_iff {start stop : Int} {w : Window} :
    asked start stop = .ok w ↔ 0 ≤ start ∧ 0 ≤ stop ∧ w = ⟨start, stop⟩ := by
  rw [← ofBounds_eq_ok_iff, asked]
  cases ofBounds start stop with
  | error bounds =>
    show Except.error bounds.fault = Except.ok w ↔ _
    simp only [reduceCtorEq]
  | ok window =>
    show Except.ok window = Except.ok w ↔ _
    simp only [Except.ok.injEq]

theorem Window.asked_of_negative {start stop : Int} (h : start < 0 ∨ stop < 0) :
    asked start stop = .error (BadBounds.fault ⟨start, stop⟩) := by
  rw [asked, ofBounds, if_pos h]
  rfl

end Lifecycle
