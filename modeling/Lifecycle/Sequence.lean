import Lifecycle.Event
import Lifecycle.Window
import Std.Data.TreeMap

/-! # Event sequences

A sequence holds the events of one deployment by index. The first event put at an index stays there.
The mark is the end of the unbroken run of indices from 0, so a window below it is known to be
complete without looking at its indices. An evicted sequence takes no more events.

A window may be larger than the sequence. Then it has a gap, and its events are found among the
stored ones rather than by asking for each index. -/

namespace Lifecycle

/-- What a put did: it stored its event, or it found the index taken. -/
inductive Put
  | stored (event : Event)
  | duplicate (event : Event)
  deriving DecidableEq, Repr, Inhabited

/-- The event that is now at the index. -/
def Put.event : Put → Event
  | .stored event => event
  | .duplicate event => event

/-- The put stored its event. -/
def Put.isStored : Put → Bool
  | .stored _ => true
  | .duplicate _ => false

/-- The events of one deployment by index. -/
structure Sequence where
  events : Std.TreeMap Int Event := ∅
  /-- The largest index up to which all indices from 0 are present, or -1. -/
  mark : Int := -1
  /-- When the last new event was stored, or else when the sequence was opened. -/
  lastWrite : Rat
  evicted : Bool := false

namespace Sequence

/-- The number of events. -/
def size (s : Sequence) : Nat := s.events.size

/-- An event is stored at the index. -/
def holds (s : Sequence) (i : Int) : Bool := s.events.contains i

/-- Moves the mark from `h` over the stored indices that follow it. The steps are bounded by `fuel`;
the number of stored events is enough. -/
def advance (events : Std.TreeMap Int Event) : Nat → Int → Int
  | 0, h => h
  | fuel + 1, h => if events.contains (h + 1) then advance events fuel (h + 1) else h

/-- The mark once `index` has been stored. -/
def markAfter (events : Std.TreeMap Int Event) (mark index : Int) : Int :=
  if index = mark + 1 then advance events events.size index else mark

/-- Puts an event at an index, whether or not the sequence is evicted. -/
def insert (s : Sequence) (now : Rat) (index : Int) (event : Event) : Put × Sequence :=
  match s.events[index]? with
  | some kept => (.duplicate kept, s)
  | none =>
    let events := s.events.insert index event
    (.stored event, { s with events, mark := markAfter events s.mark index, lastWrite := now })

/-- Puts an event at an index, unless the sequence is evicted. -/
def put (s : Sequence) (now : Rat) (index : Int) (event : Event) : Option (Put × Sequence) :=
  if s.evicted then none else some (s.insert now index event)

/-- The events of a window in ascending order of their indices. -/
def extract (s : Sequence) (w : Window) : List Event :=
  if w.isEmpty then []
  else if w.size ≤ s.size then w.indices.filterMap fun i => s.events[i]?
  else (s.events.toList.filter fun e => w.contains e.1).map Prod.snd

/-- Every index of the window is present. -/
def isComplete (s : Sequence) (w : Window) : Bool :=
  if w.isEmpty then true
  else if w.stop ≤ s.mark then true
  else if s.size < w.size then false
  else Window.indices ⟨max w.start (s.mark + 1), w.stop⟩ |>.all s.holds

/-- The sequence has had no new event for longer than `maxIdle`. -/
def isIdle (s : Sequence) (maxIdle now : Rat) : Bool := maxIdle < now - s.lastWrite

theorem put_eq_none_iff {s : Sequence} {now : Rat} {index : Int} {event : Event} :
    s.put now index event = none ↔ s.evicted = true := by
  simp [put]

theorem insert_evicted (s : Sequence) (now : Rat) (index : Int) (event : Event) :
    (s.insert now index event).2.evicted = s.evicted := by
  unfold insert
  split <;> rfl

end Sequence

end Lifecycle
