import Lifecycle.Number.Binary64

/-! # Clocks

Two clocks move together: the wall clock stamps events, and the monotonic clock measures how long a
sequence has been idle and how long a caller still waits. Times are exact; an event is stamped with
the nearest binary64 number. After a pause that is no finite time neither clock shows a finite time
again. -/

namespace Lifecycle

/-- Readings of the two clocks, in seconds. -/
structure Clock where
  wall : Rat
  monotonic : Rat
  /-- What both clocks show since a pause that was no finite time. -/
  lost : Option Binary64 := none
  deriving DecidableEq, Repr, Inhabited

/-- Both clocks, `seconds` later. -/
def Clock.advance (c : Clock) (seconds : Rat) : Clock :=
  { c with wall := c.wall + seconds, monotonic := c.monotonic + seconds }

/-- Both clocks after a pause that was no finite time. -/
def Clock.lose (c : Clock) (reading : Binary64) : Clock := { c with lost := some reading }

/-- The stamp of an event that is seen now. -/
def Clock.stamp (c : Clock) : Binary64 := c.lost.getD (.ofRat c.wall)

/-- The time from one reading of the clocks to a later one. -/
def Clock.between (earlier later : Clock) : Binary64 :=
  later.lost.getD (.ofRat (later.monotonic - earlier.monotonic))

end Lifecycle
