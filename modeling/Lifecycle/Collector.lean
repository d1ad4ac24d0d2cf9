import Lifecycle.Classifier
import Lifecycle.Crew

/-! # The collector

The collector tracks operations. A tracked operation has a crew: one watcher for each worker that
was found to take part in it, all with one allocator. Workers that appear later are found by a
refresh, and a watcher stays when its worker disappears. Untracking an operation stops its crew and
drops its sequence; operations that have had no new event for too long are untracked by a sweep.

Every operation of the collector is a function of the collector and of the world at that moment.
Loops run when they are started and when they are woken, and at no other time. -/

namespace Lifecycle

/-- What the collector finds outside. -/
structure World where
  classifier : Classifier
  source : Source
  clock : Clock

/-- The store and the crews of the tracked operations, in order of tracking. -/
structure Collector where
  store : Store := {}
  /-- New watchers halt on malformed lines. -/
  halting : Bool := false
  tracked : Keyed String Crew := []

namespace Collector

/-- The crew of an operation. -/
def crew? (c : Collector) (operation : String) : Option Crew := Keyed.get? c.tracked operation

/-- Gives an operation a crew and the collector a store. -/
def update (c : Collector) (operation : String) (crew : Crew) (store : Store) : Collector :=
  { c with store, tracked := Keyed.set c.tracked operation crew }

/-- The collector in which an operation is tracked. -/
def enrol (c : Collector) (operation : String) : Collector :=
  match c.crew? operation with
  | some _ => c
  | none => { c with tracked := Keyed.set c.tracked operation {} }

/-- The watchers of an operation. -/
def watchers (c : Collector) (operation : String) : List Watcher :=
  ((c.crew? operation).map Crew.watchers).getD []

/-- Watchers for the workers of `workers` that `crew` does not watch, one for each name. -/
def newcomers (c : Collector) (operation : String) (crew : Crew) : List Worker → List Watcher
  | [] => []
  | worker :: rest =>
    if crew.watches worker.name then c.newcomers operation crew rest
    else
      let w : Watcher := { deployment := operation, worker, halting := c.halting }
      w :: c.newcomers operation (crew.join [w]) rest

/-- Places a worker in front of the first one with no smaller name. -/
def insertByName (worker : Worker) : List Worker → List Worker
  | [] => [worker]
  | first :: rest =>
    if worker.name ≤ first.name then worker :: first :: rest
    else first :: insertByName worker rest

/-- Workers in order of their names. Those of one name stay as they are. -/
def byName : List Worker → List Worker
  | [] => []
  | worker :: rest => insertByName worker (byName rest)

/-- The number of deployments with a sequence, as it is counted. -/
def trackedTally (store : Store) : Effect := .tally (.tracked store.registered.length)

/-- Attaches watchers to those of the workers found for an operation that have none, in order of
their names, and starts their loops if `start` says so, with ranks from `rank` on. Its value is the
new watchers' workers. -/
def refreshWith (c : Collector) (found : Traced (List Worker)) (source : Source) (clock : Clock)
    (rank : Nat) (operation : String) (start : Bool) : Outcome Collector (List Worker) :=
  match found.value with
  | .error fault => ⟨c, .error fault, found.effects⟩
  | .ok workers =>
    match c.crew? operation with
    | none => ⟨c, .error (.notTracked operation), found.effects⟩
    | some crew =>
      let fresh := c.newcomers operation crew (byName workers)
      let notice := if workers.isEmpty then [.record (Journal.noWorkers operation)] else []
      let ((joined, desk), effects) :=
        if start then Crew.startFrom source clock rank fresh ⟨crew.allocator, c.store⟩
        else ((fresh, ⟨crew.allocator, c.store⟩), [])
      ⟨c.update operation ({ crew with allocator := desk.allocator }.join joined) desk.store,
        .ok (fresh.map Watcher.worker), found.effects ++ notice ++ effects⟩

/-- Attaches watchers to the workers of an operation that have none. -/
def refresh (c : Collector) (world : World) (rank : Nat) (operation : String) (start : Bool) :
    Outcome Collector (List Worker) :=
  c.refreshWith (world.classifier.workersFor operation) world.source world.clock rank operation
    start

/-- Enrols an operation of the kind that was asked for, and refreshes it. -/
def trackWith (c : Collector) (asked : Traced Kind)
    (refreshed : Collector → Outcome Collector (List Worker)) (operation : String) :
    Outcome Collector Kind :=
  match asked.value with
  | .error fault => ⟨c, .error fault, asked.effects⟩
  | .ok kind =>
    let outcome := refreshed (c.enrol operation)
    { state := outcome.state
      value := outcome.value.map fun _ => kind
      effects :=
        asked.effects ++ .record (Journal.tracking kind.name operation) :: outcome.effects }

/-- Begins to collect the events of an operation. Its value is the kind of the operation. -/
def track (c : Collector) (world : World) (rank : Nat) (operation : String) (start : Bool) :
    Outcome Collector Kind :=
  c.trackWith (world.classifier.classify operation) (fun d => d.refresh world rank operation start)
    operation

/-- One pass of every watcher of an operation. Its value is the number of new events. -/
def catchUp (c : Collector) (world : World) (operation : String) : Outcome Collector Nat :=
  match c.crew? operation with
  | none => ⟨c, .ok 0, []⟩
  | some crew =>
    let outcome := crew.collect c.store world.source world.clock
    ⟨c.update operation outcome.state.1 outcome.state.2, outcome.value, outcome.effects⟩

/-- Reads a page of an operation's events. -/
def page (c : Collector) (operation : String) (start stop : Int) (maxWait : Option Binary64)
    (correlation : Option String) : Traced Page :=
  match Window.asked start stop with
  | .error fault => .fail fault
  | .ok window => do
    let page ← Journal.handOver (Page.read c.store operation window maxWait) correlation
    .emit (.tally (.page page.isComplete))
    return page

/-- Stops the crew of an operation and forgets it, and drops the operation's sequence. -/
def untrack (c : Collector) (operation : String) : Collector × List Effect :=
  let stopped := ((c.crew? operation).map fun crew => crew.stop.2).getD []
  let (dropped, store) := c.store.evict operation
  ({ c with store, tracked := Keyed.erase c.tracked operation },
    stopped ++ (if dropped then [.record (Journal.evicted operation)] else []) ++
      [trackedTally store])

/-- Untracks one operation after the other. -/
def untrackAll (c : Collector) : List String → Collector × List Effect
  | [] => (c, [])
  | operation :: rest =>
    let first := c.untrack operation
    let others := first.1.untrackAll rest
    (others.1, first.2 ++ others.2)

/-- Untracks the operations whose sequence has had no new event for longer than `retention`, and
says which they were. -/
def sweep (c : Collector) (retention : Rat) (clock : Clock) :
    (List String × Collector) × List Effect :=
  let (idle, store) := c.store.evictIdle retention clock.monotonic
  let (swept, effects) := untrackAll { c with store } idle
  ((idle, swept),
    idle.map (fun operation => .record (Journal.evictedIdle operation)) ++ effects ++
      [trackedTally swept.store])

/-- Stops every loop. The operations stay tracked. -/
def stop (c : Collector) : Collector × List Effect :=
  ({ c with tracked := c.tracked.map fun (operation, crew) => (operation, crew.stop.1) },
    c.tracked.flatMap fun (_, crew) => crew.stop.2)

/-- The running loops: rank, operation and place in the crew. -/
def loops (c : Collector) : List (Nat × String × Nat) :=
  c.tracked.flatMap fun (operation, crew) => crew.loops.map fun (rank, k) => (rank, operation, k)

/-- The loop of one watcher wakes. -/
def wake (c : Collector) (world : World) (operation : String) (k : Nat) : Collector × List Effect :=
  let woken := do
    let crew ← c.crew? operation
    crew.act c.store k fun w desk => w.wake world.source world.clock desk
  match woken with
  | none => (c, [])
  | some outcome => (c.update operation outcome.state.1 outcome.state.2, outcome.effects)

/-- Loops in order of their start. -/
def byRank {α : Type} (loops : List (Nat × α)) : List (Nat × α) :=
  loops.mergeSort fun a b => a.1 ≤ b.1

/-- A rank behind all loops that are running. -/
def nextRank {α : Type} (loops : List (Nat × α)) : Nat :=
  loops.foldl (fun rank entry => max rank (entry.1 + 1)) 0

/-- Every running loop wakes once, in order of their start. -/
def tick (c : Collector) (world : World) : Collector × List Effect :=
  (byRank c.loops).foldl
    (fun (c, effects) (_, operation, k) =>
      let woken := c.wake world operation k
      (woken.1, effects ++ woken.2))
    (c, [])

end Collector

end Lifecycle
