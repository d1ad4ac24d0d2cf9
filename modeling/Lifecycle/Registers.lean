import Lifecycle.Collector

/-! # Registers

The collector as it lies in memory. Allocators and watchers are made once and keep their places. One
register says which allocator an operation has, and another which watchers, by the names of their
workers. A watcher keeps the allocator it was made with, and its loop runs until it ends or is
stopped, whether or not a register still names the watcher.

Nothing ties the registers, the watchers and the loops to one another but the order in which the
operations of the collector write them. -/

namespace Lifecycle

/-- A watcher, and the place of the allocator it was made with. -/
structure Post where
  watcher : Watcher
  allocator : Nat

/-- The collector with its registers. -/
structure Registers where
  store : Store := {}
  /-- New watchers halt on malformed lines. -/
  halting : Bool := false
  /-- Every allocator that was made. -/
  allocators : List Allocator := []
  /-- Every watcher that was made. -/
  posts : List Post := []
  /-- The places of the operations' allocators. -/
  allocatorOf : Keyed String Nat := []
  /-- The places of the operations' watchers, by the names of their workers. -/
  watchersOf : Keyed String (Keyed String Nat) := []

namespace Registers

/-- The registers after the watcher at a place has acted: its post, and the desk it leaves. -/
def putBack (r : Registers) (place : Nat) (post : Post) (desk : Desk) : Registers :=
  { r with
    store := desk.store
    allocators := r.allocators.set post.allocator desk.allocator
    posts := r.posts.set place post }

/-- The watcher at a place acts on the store, with its own allocator. A place that holds no watcher
is passed over. -/
def actAt {α : Type} [Inhabited α] (r : Registers) (place : Nat)
    (f : Watcher → Desk → Outcome (Watcher × Desk) α) : Outcome Registers α :=
  let acted : Option (Outcome Registers α) := do
    let post ← r.posts[place]?
    let allocator ← r.allocators[post.allocator]?
    let outcome := f post.watcher ⟨allocator, r.store⟩
    let (after, desk) := outcome.state
    some ⟨r.putBack place { post with watcher := after } desk, outcome.value, outcome.effects⟩
  acted.getD ⟨r, .ok default, []⟩

/-- The places of an operation's watchers. -/
def places (r : Registers) (operation : String) : List Nat :=
  ((Keyed.get? r.watchersOf operation).getD []).map Prod.snd

/-- Makes an allocator for an operation that has none. -/
def giveAllocator (r : Registers) (operation : String) : Registers :=
  match Keyed.get? r.allocatorOf operation with
  | some _ => r
  | none =>
    { r with
      allocators := r.allocators ++ [{}]
      allocatorOf := Keyed.set r.allocatorOf operation r.allocators.length }

/-- Gives an operation that has no table of watchers an empty one. -/
def giveTable (r : Registers) (operation : String) : Registers :=
  match Keyed.get? r.watchersOf operation with
  | some _ => r
  | none => { r with watchersOf := Keyed.set r.watchersOf operation [] }

/-- The registers in which an operation is tracked. -/
def enrol (r : Registers) (operation : String) : Registers :=
  (r.giveAllocator operation).giveTable operation

/-- Makes a watcher of a worker, and enters it in the operation's table. -/
def enter (r : Registers) (operation : String) (allocator : Nat) (worker : Worker) : Registers :=
  let table := (Keyed.get? r.watchersOf operation).getD []
  let w : Watcher := { deployment := operation, worker, halting := r.halting }
  { r with
    posts := r.posts ++ [⟨w, allocator⟩]
    watchersOf :=
      Keyed.set r.watchersOf operation (Keyed.set table worker.name r.posts.length) }

/-- Makes a watcher for each worker whose name is not in the operation's table. Says where they are
and whom they watch. -/
def hire (r : Registers) (operation : String) (allocator : Nat) :
    List Worker → Registers × List (Nat × Worker)
  | [] => (r, [])
  | worker :: rest =>
    let table := (Keyed.get? r.watchersOf operation).getD []
    if (Keyed.get? table worker.name).isSome then r.hire operation allocator rest
    else
      let (hired, made) := (r.enter operation allocator worker).hire operation allocator rest
      (hired, (r.posts.length, worker) :: made)

/-- Starts the loops of the watchers at some places, with ranks from `rank` on. -/
def startAll (source : Source) (clock : Clock) :
    Nat → List Nat → Registers → Registers × List Effect
  | _, [], r => (r, [])
  | rank, place :: rest, r =>
    let first := r.actAt place fun w desk => w.start rank source clock desk
    let (started, effects) := startAll source clock (rank + 1) rest first.state
    (started, first.effects ++ effects)

/-- The running loops, wherever their watchers are: rank and place. -/
def loops (r : Registers) : List (Nat × Nat) :=
  r.posts.zipIdx.filterMap fun (post, place) => post.watcher.loop.map (·, place)

/-- Attaches watchers to the workers of an operation that have none. -/
def refresh (r : Registers) (world : World) (operation : String) (start : Bool) :
    Outcome Registers (List Worker) :=
  let found := world.classifier.workersFor operation
  match found.value with
  | .error fault => ⟨r, .error fault, found.effects⟩
  | .ok workers =>
    match Keyed.get? r.watchersOf operation with
    | none => ⟨r, .error (.notTracked operation), found.effects⟩
    | some _ =>
      match Keyed.get? r.allocatorOf operation with
      | none => ⟨r, .error (.unknownName operation), found.effects⟩
      | some allocator =>
        let (hired, made) := r.hire operation allocator (Collector.byName workers)
        let notice := if workers.isEmpty then [.record (Journal.noWorkers operation)] else []
        let (started, effects) :=
          if start then
            startAll world.source world.clock (Collector.nextRank r.loops)
              (made.map Prod.fst) hired
          else (hired, [])
        ⟨started, .ok (made.map Prod.snd), found.effects ++ notice ++ effects⟩

/-- Begins to collect the events of an operation. Its value is the kind of the operation. -/
def track (r : Registers) (world : World) (operation : String) (start : Bool) :
    Outcome Registers Kind :=
  let asked := world.classifier.classify operation
  match asked.value with
  | .error fault => ⟨r, .error fault, asked.effects⟩
  | .ok kind =>
    let outcome := (r.enrol operation).refresh world operation start
    { state := outcome.state
      value := outcome.value.map fun _ => kind
      effects :=
        asked.effects ++ .record (Journal.tracking kind.name operation) :: outcome.effects }

/-- One pass of each watcher at some places. The first fault ends it. -/
def pollAll (source : Source) (clock : Clock) : List Nat → Registers → Outcome Registers Nat
  | [], r => ⟨r, .ok 0, []⟩
  | place :: rest, r =>
    let first := r.actAt place fun w desk => w.catchUp source clock desk
    match first.value with
    | .error fault => ⟨first.state, .error fault, first.effects⟩
    | .ok stored =>
      let others := pollAll source clock rest first.state
      ⟨others.state, others.value.map (stored + ·), first.effects ++ others.effects⟩

/-- One pass of every watcher of an operation. Its value is the number of new events. -/
def catchUp (r : Registers) (world : World) (operation : String) : Outcome Registers Nat :=
  pollAll world.source world.clock (r.places operation) r

/-- Stops the loops of the watchers at some places. -/
def stopAll : List Nat → Registers → Registers × List Effect
  | [], r => (r, [])
  | place :: rest, r =>
    let first := r.actAt place fun w desk => ⟨(w.stop.1, desk), .ok (), w.stop.2⟩
    let (stopped, effects) := stopAll rest first.state
    (stopped, first.effects ++ effects)

/-- Strikes an operation from both registers. -/
def strike (r : Registers) (operation : String) : Registers :=
  { r with
    allocatorOf := Keyed.erase r.allocatorOf operation
    watchersOf := Keyed.erase r.watchersOf operation }

/-- Strikes an operation from the registers, stops the watchers it had, and drops its sequence. -/
def untrack (r : Registers) (operation : String) : Registers × List Effect :=
  let (stopped, effects) := stopAll (r.places operation) (r.strike operation)
  let (dropped, store) := stopped.store.evict operation
  ({ stopped with store },
    effects ++ (if dropped then [.record (Journal.evicted operation)] else []) ++
      [Collector.trackedTally store])

/-- Untracks one operation after the other. -/
def untrackAll (r : Registers) : List String → Registers × List Effect
  | [] => (r, [])
  | operation :: rest =>
    let first := r.untrack operation
    let others := first.1.untrackAll rest
    (others.1, first.2 ++ others.2)

/-- Untracks the operations whose sequence has had no new event for longer than `retention`, and
says which they were. -/
def sweep (r : Registers) (retention : Rat) (clock : Clock) :
    (List String × Registers) × List Effect :=
  let (idle, store) := r.store.evictIdle retention clock.monotonic
  let (swept, effects) := untrackAll { r with store } idle
  ((idle, swept),
    idle.map (fun operation => .record (Journal.evictedIdle operation)) ++ effects ++
      [Collector.trackedTally swept.store])

/-- Stops the watchers of some operations, one operation after the other. -/
def stopEach : List String → Registers → Registers × List Effect
  | [], r => (r, [])
  | operation :: rest, r =>
    let first := stopAll (r.places operation) r
    let others := stopEach rest first.1
    (others.1, first.2 ++ others.2)

/-- Stops the watchers of every operation. The operations stay tracked. -/
def stop (r : Registers) : Registers × List Effect := stopEach (r.watchersOf.map Prod.fst) r

/-- Every running loop wakes once, in order of their start. -/
def tick (r : Registers) (world : World) : Registers × List Effect :=
  (Collector.byRank r.loops).foldl
    (fun (r, effects) (_, place) =>
      let woken := r.actAt place fun w desk => w.wake world.source world.clock desk
      (woken.state, effects ++ woken.effects))
    (r, [])

end Registers

end Lifecycle
