import Lifecycle.Traced
import Lifecycle.Page

/-! # Waiting for a page

A caller that waits for a page reads it, and while it is incomplete pauses and reads it again, until
its patience is used up. The last pause is cut short so that the last reading falls on the deadline.
A caller may have endless patience; then only a complete page ends the wait. -/

namespace Lifecycle

/-- A moment on the monotonic clock, or none if there is no end to the wait. -/
abbrev Deadline := Option Rat

/-- What a wait is made of. -/
structure Waiting (σ : Type) where
  /-- Reads the page, with the patience that is left. -/
  poll : σ → Option Rat → Outcome σ Page
  /-- Lets a time pass. -/
  pause : σ → Rat → Outcome σ Unit
  /-- The monotonic clock. -/
  now : σ → Rat

namespace Waiting

variable {σ : Type}

/-- The patience that is left. -/
def remaining (deadline : Deadline) (now : Rat) : Option Rat := deadline.map (· - now)

/-- How long to pause: the interval, or what is left of the patience if that is less. -/
def pauseLength (interval : Option Rat) : Option Rat → Rat
  | none => interval.getD 0
  | some left => (interval.map fun i => if i ≤ left then i else left).getD left

/-- The patience is used up. -/
def isOver (left : Option Rat) : Bool := left.any fun r => r ≤ 0

/-- The patience as it is told to the reader: never negative. -/
def told (left : Option Rat) : Option Rat := left.map fun r => if r ≤ 0 then 0 else r

/-- Reads the page up to `fuel + 1` times. The value is the last page read. -/
def await (w : Waiting σ) (deadline : Deadline) (interval : Option Rat) :
    Nat → σ → Outcome σ Page
  | 0, s => w.poll s (told (remaining deadline (w.now s)))
  | fuel + 1, s =>
    let left := remaining deadline (w.now s)
    let polled := w.poll s (told left)
    match polled.value with
    | .error _ => polled
    | .ok page =>
      if page.isComplete || isOver left then polled
      else
        let paused := w.pause polled.state (pauseLength interval left)
        match paused.value with
        | .error fault => ⟨paused.state, .error fault, polled.effects ++ paused.effects⟩
        | .ok _ =>
          let rest := w.await deadline interval fuel paused.state
          { rest with effects := polled.effects ++ paused.effects ++ rest.effects }

/-- How often a wait pauses at most: once an interval until the patience is used up. Where the clock
is not sure to reach the deadline, `changes` says how often the world still changes, and after as
many pauses and a few more there is nothing left to wait for. -/
def pauses (patience interval : Option Rat) (changes : Nat) : Nat :=
  match patience, interval with
  | some p, some i => if 0 < i then (p / i).ceil.toNat else changes + 3
  | some _, none => 1
  | none, _ => changes + 3

end Waiting

end Lifecycle
