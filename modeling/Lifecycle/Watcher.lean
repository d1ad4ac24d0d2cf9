import Lifecycle.Allocator
import Lifecycle.Clock
import Lifecycle.Source

/-! # Watchers

A watcher turns the log of one worker into events of one deployment. A pass reads the log, keeps the
event lines, and puts those it has not dealt with yet into the store, each at the index the
allocator gives it. A malformed line is dropped and takes no index, unless the watcher halts on
malformed lines: then the pass ends with the line as its fault, and the next pass begins with that
line again. A log that has started anew is read from the top.

A watcher may run as a loop that makes a pass whenever it wakes. A malformed line that halts a pass
ends the loop; after any other fault the loop waits for its next turn. -/

namespace Lifecycle

/-- What watchers share: the indices of their deployment and the store. -/
structure Desk where
  allocator : Allocator
  store : Store

/-- A watcher of one worker's log. -/
structure Watcher where
  deployment : String
  worker : Worker
  /-- The watcher halts on malformed lines. -/
  halting : Bool := false
  /-- The next event line to deal with. -/
  position : Nat := 0
  /-- The generation of the log at the last pass. -/
  generation : Option Nat := none
  /-- The line that last ended a loop. -/
  error : Option MalformedLine := none
  /-- The rank of the running loop among all loops in order of their start. -/
  loop : Option Nat := none
  deriving DecidableEq, Repr, Inhabited

/-- What became of one event line. -/
structure LineStep where
  desk : Desk
  /-- A new event was stored. -/
  stored : Bool
  fault : Option Fault
  effects : List Effect

/-- What became of some event lines. -/
structure LineRun where
  desk : Desk
  /-- The number of new events stored. -/
  stored : Nat
  /-- The position and the fault at which the run ended early. -/
  ended : Option (Nat × Fault)
  effects : List Effect

namespace Watcher

/-- The id of the watcher in log records. -/
def correlation (w : Watcher) : String := w.deployment ++ "/" ++ w.worker.name

/-- The loop is running. -/
def isRunning (w : Watcher) : Bool := w.loop.isSome

/-- Deals with the event line at a position. The line is translated first, so a malformed one takes
no index. -/
def takeLine (w : Watcher) (clock : Clock) (generation position : Nat) (line : String)
    (desk : Desk) : LineStep :=
  match Line.translate line w.worker.host with
  | .error bad =>
    if w.halting then ⟨desk, false, some (.malformedLine bad), [.tally .malformed]⟩
    else
      ⟨desk, false, none,
        [.tally .malformed, .record (Journal.dropped position line w.correlation)]⟩
  | .ok description =>
    let (index, allocator) := desk.allocator.assign ⟨w.worker.name, generation, position⟩
    match desk.store.put clock.monotonic w.deployment index ⟨index, description, clock.stamp⟩ with
    | .error fault => ⟨{ desk with allocator }, false, some (.put fault), []⟩
    | .ok (report, store) =>
      -- an allocator counts its indices out, so none of them is too long for the journal
      ⟨⟨allocator, store⟩, report.put.isStored, none,
        (Journal.ofPut w.deployment index (some w.correlation) report).map .record ++
          [.tally (if report.put.isStored then .stored else .duplicate)]⟩

/-- Deals with event lines one after the other, from a position on. -/
def takeLines (w : Watcher) (clock : Clock) (generation : Nat) : Nat → List String → Desk → LineRun
  | _, [], desk => ⟨desk, 0, none, []⟩
  | position, line :: rest, desk =>
    let step := w.takeLine clock generation position line desk
    match step.fault with
    | some fault => ⟨step.desk, 0, some (position, fault), step.effects⟩
    | none =>
      let run := w.takeLines clock generation (position + 1) rest step.desk
      { run with
        stored := run.stored + (if step.stored then 1 else 0)
        effects := step.effects ++ run.effects }

/-- The watcher has seen another generation of the log before. -/
def seesRestart (w : Watcher) (generation : Nat) : Bool := w.generation.any (· != generation)

/-- Where a run that ended early leaves the watcher: at the malformed line, or where it began. -/
def positionAfter (start : Nat) : Nat × Fault → Nat
  | (position, .malformedLine _) => position
  | _ => start

/-- The watcher at a position of a generation of the log. -/
def moveTo (w : Watcher) (generation position : Nat) : Watcher :=
  { w with position, generation := some generation }

/-- One pass over a snapshot of the log, reduced to its event lines. Its value is the number of new
events. -/
def pass (w : Watcher) (clock : Clock) (lines : List String) (desk : Desk) :
    Outcome (Watcher × Desk) Nat :=
  let (generation, allocator) := desk.allocator.observe w.worker.name lines
  let start := if w.seesRestart generation then 0 else w.position
  let run := w.takeLines clock generation start (lines.drop start) { desk with allocator }
  let notice :=
    if w.seesRestart generation then
      [.record (Journal.restarted w.worker.name generation w.correlation)]
    else []
  match run.ended with
  | some stop =>
    { state := (w.moveTo generation (positionAfter start stop), run.desk)
      value := .error stop.2
      effects := notice ++ run.effects }
  | none =>
    { state := (w.moveTo generation (max start lines.length), run.desk)
      value := .ok run.stored
      effects := notice ++ run.effects ++
        if run.stored = 0 then [] else [.record (Journal.newEvents run.stored w.correlation)] }

/-- Reads the log and makes a pass over it. A failed read changes nothing. -/
def catchUp (w : Watcher) (source : Source) (clock : Clock) (desk : Desk) :
    Outcome (Watcher × Desk) Nat :=
  let snapshot := source.read w.worker
  match snapshot.value with
  | .error fault => ⟨(w, desk), .error fault, snapshot.effects⟩
  | .ok lines =>
    let outcome := w.pass clock (lines.filter Line.isEvent) desk
    { outcome with effects := snapshot.effects ++ outcome.effects }

/-- The loop makes a pass and goes back to waiting, or ends. -/
def wake (w : Watcher) (source : Source) (clock : Clock) (desk : Desk) :
    Outcome (Watcher × Desk) Unit :=
  let outcome := w.catchUp source clock desk
  let (after, desk) := outcome.state
  match outcome.value with
  | .ok _ => ⟨(after, desk), .ok (), outcome.effects⟩
  | .error (.malformedLine line) =>
    ⟨({ after with error := some line, loop := none }, desk), .ok (),
      outcome.effects ++ [.record (Journal.halted line w.correlation)]⟩
  | .error fault =>
    ⟨(after, desk), .ok (),
      outcome.effects ++ [.record (Journal.readFailed w.worker.name fault w.correlation)]⟩

/-- Starts the loop, which makes its first pass at once. A running loop is left alone. -/
def start (w : Watcher) (rank : Nat) (source : Source) (clock : Clock) (desk : Desk) :
    Outcome (Watcher × Desk) Unit :=
  if w.isRunning then ⟨(w, desk), .ok (), []⟩
  else
    let outcome := wake { w with loop := some rank } source clock desk
    { outcome with
      effects := .record (Journal.watching w.worker.name w.correlation) :: outcome.effects }

/-- Stops the loop if it is running. -/
def stop (w : Watcher) : Watcher × List Effect :=
  if w.isRunning then
    ({ w with loop := none }, [.record (Journal.stopped w.worker.name w.correlation)])
  else (w, [])

end Watcher

end Lifecycle
