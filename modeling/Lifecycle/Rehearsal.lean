import Lifecycle.Collector
import Lifecycle.Counters

/-! # Rehearsals

A rehearsal runs the service against a world that follows a script: its clock moves only when told
to, its logs, units and zones are lists that the script sets, or else come from a cluster whose
answers the script sets. Besides the collector, the script may use the store directly, hold on to a
sequence across an eviction, and run watchers of its own, whose allocators it names.

`step` plays one line of the script. What it leaves is an outcome like that of every other
operation, so a fault does not end the rehearsal. -/

namespace Lifecycle

/-- A cluster stands behind the topology and the log source. -/
structure Backing where
  space : String
  container : Option String := none

/-- The state of a rehearsal. -/
structure Rehearsal where
  clock : Clock := { wall := 1700000000, monotonic := 1000 }
  units : List DeployedUnit := []
  zones : List Zone := []
  logs : Keyed String (List String) := []
  /-- The reads that fail, by worker. -/
  failures : Keyed String String := []
  cluster : Cluster := {}
  /-- The cluster is used in place of the lists. -/
  backing : Option Backing := none
  /-- The calls to the cluster since they were last looked at. -/
  calls : List Call := []
  management : String := "management"
  retention : Rat := 3600
  collector : Collector := {}
  /-- The script's own watchers, by the name of their allocator. -/
  crews : Keyed String Crew := []
  /-- The place of each named watcher: its crew and its place there. -/
  named : Keyed String (String × Nat) := []
  /-- The sequences the script holds on to, by their numbers in the store. -/
  held : Keyed String Nat := []
  counters : Option Counters := none

namespace Rehearsal

/-- An event to be put. -/
structure PutOrder where
  index : Int
  event : Event

/-- One line of a script. -/
inductive Step
  | advance (seconds : Rat)
  | put (id : String) (order : PutOrder) (correlation : Option String)
  | putMany (id : String) (indices : List Int)
  | putRange (id : String) (first last stride : Int)
  | extract (id : String) (start stop : Int)
  | extractIndices (id : String) (start stop : Int)
  | isComplete (id : String) (start stop : Int)
  | grid (id : String) (low high : Int)
  | state (id : String)
  | ids
  | evict (id : String)
  | evictIdle (maxIdle : Rat) (now : Option Rat)
  | hold (id name : String)
  | heldPut (name : String) (order : PutOrder)
  | heldState (name : String)
  | heldIsComplete (name : String) (start stop : Int)
  | racingPut (name id : String) (order : PutOrder) (correlation : Option String)
  | poll (id : String) (start stop : Int) (maxWait : Option Binary64) (correlation : Option String)
      (evictBetween : Bool)
  | setUnits (units : List DeployedUnit)
  | setZones (zones : List Zone)
  | units
  | zone (name : String)
  | classify (id : String)
  | isDeployment (id : String)
  | isUndeployment (id : String)
  | workersFor (id : String)
  | inspectUnit (unit : DeployedUnit)
  | setCluster (change : ClusterChange)
  | calls
  | setLines (worker : String) (lines : List String)
  | append (worker line : String)
  | fail (worker : String) (message : Option String)
  | readLines (worker : String)
  | observe (allocator worker : String) (lines : List String)
  | assign (allocator : String) (key : LineKey)
  | assigned (allocator : String)
  | newWatcher (name allocator : String) (watcher : Watcher)
  | catchUp (name : String)
  | watcherState (name : String)
  | start (name : String)
  | stop (name : String)
  | tick
  | track (id : String) (start : Bool)
  | refresh (id : String) (start : Bool)
  | watchers (id : String)
  | catchUpAll (id : String)
  | collectorPage (id : String) (start stop : Int) (maxWait : Option Binary64)
      (correlation : Option String)
  | untrack (id : String)
  | sweep
  | setRetention (seconds : Rat)
  | stopCollector
  | setUpCounters
  | note (tally : Tally)
  | counters
  | startServer (wanted : Bool) (counterPort : Int) (failure : Option String)

/-- What a put did, and in which sequence. -/
structure PutAnswer where
  deployment : String
  index : Int
  put : Put
  /-- Mark and size of the deployment afterwards. -/
  after : Option (Int × Nat) := none
  lookups : Option Nat := none

/-- The answer to a line of a script. -/
inductive Answer
  | nothing
  | flag (value : Bool)
  | count (value : Int)
  | text (value : String)
  | texts (values : List String)
  | indices (values : List Int)
  | events (events : List Event)
  | put (answer : PutAnswer)
  | puts (stored : Nat) (mark : Int) (size : Nat)
  | state (mark : Int) (size : Nat)
  | grid (rows : List (Int × Int × Bool × Nat))
  | page (page : Page)
  | kind (kind : Kind)
  | units (units : List DeployedUnit)
  | zone (zone : Zone)
  | workers (workers : List Worker)
  | unit (management undeploying : Bool) (workers : List Worker)
  | calls (calls : List Call)
  | watcher (watcher : Watcher)
  | watchers (watchers : List Watcher)
  | counters (counters : Option Counters)
  | served (asked : List (Int × String))

/-! ### The world of a rehearsal -/

/-- The topology of the moment. -/
def topology (r : Rehearsal) : Topology :=
  match r.backing with
  | none => .fixed r.units r.zones
  | some backing => r.cluster.topology backing.space

/-- The log source of the moment. -/
def source (r : Rehearsal) : Source :=
  let source : Source := match r.backing with
    | none => .fixed r.logs
    | some backing => .ofCluster r.cluster backing.space backing.container
  source.failing r.failures

/-- The world of the moment. -/
def world (r : Rehearsal) : World where
  classifier := ⟨r.topology, r.management⟩
  source := r.source
  clock := r.clock

/-- The store, which the collector and the script share. -/
def store (r : Rehearsal) : Store := r.collector.store

/-- Replaces the store. -/
def setStore (r : Rehearsal) (store : Store) : Rehearsal :=
  { r with collector := { r.collector with store } }

/-! ### Steps on the store -/

/-- A step with an answer and no effects. -/
def answer (r : Rehearsal) (a : Answer) : Outcome Rehearsal Answer := ⟨r, .ok a, []⟩

/-- A step that failed and changed nothing. -/
def refuse (r : Rehearsal) (f : Fault) : Outcome Rehearsal Answer := ⟨r, .error f, []⟩

/-- A step that only asks. -/
def ask {α : Type} (r : Rehearsal) (x : Traced α) (f : α → Answer) : Outcome Rehearsal Answer :=
  ⟨r, x.value.map f, x.effects⟩

/-- A step that needs a window. -/
def inWindow (r : Rehearsal) (start stop : Int) (f : Window → Outcome Rehearsal Answer) :
    Outcome Rehearsal Answer :=
  match Window.asked start stop with
  | .error fault => r.refuse fault
  | .ok window => f window

/-- Puts an event, where earlier lookups found the sequences in `found`. -/
def put (r : Rehearsal) (id : String) (order : PutOrder) (correlation : Option String)
    (found : List Nat) (showLookups : Bool) : Outcome Rehearsal Answer :=
  let entered := Journal.enter (some Number.maxDigits) r.store r.clock.monotonic id order.index
    order.event correlation found
  let after := entered.state
  { state := r.setStore after
    value := entered.value.map fun report => .put
      { deployment := (after.slots[report.slot]?.map Slot.deployment).getD id
        index := order.index
        put := report.put
        after := some (after.mark id, after.size id)
        lookups := if showLookups then some report.lookups else none }
    effects := entered.effects }

/-- Puts an event at each index, up to the first that fails. The effects so far are kept in reverse.
-/
def putAll (r : Rehearsal) (id : String) (stored : Nat) (effects : List Effect) :
    List Int → Outcome Rehearsal Answer
  | [] => ⟨r, .ok (.puts stored (r.store.mark id) (r.store.size id)), effects.reverse⟩
  | index :: rest =>
    let event : Event := { index, description := s!"e{index}" }
    let entered := Journal.enter (some Number.maxDigits) r.store r.clock.monotonic id index event
      none []
    let effects := entered.effects.reverse ++ effects
    match entered.value with
    | .error fault => ⟨r.setStore entered.state, .error fault, effects.reverse⟩
    | .ok report =>
      putAll (r.setStore entered.state) id (stored + if report.put.isStored then 1 else 0) effects
        rest

/-- The numbers from `first` on in steps of `stride`, up to but without `last`. -/
def countOut (first last stride : Int) : List Int :=
  let count := if 0 < stride then (last - first + stride - 1) / stride
    else (first - last - stride - 1) / (-stride)
  (List.range count.toNat).map fun k : Nat => first + k * stride

/-- For all pairs of bounds from `low` to `high`: whether the window is complete, and the number of
its events. -/
def gridRows (store : Store) (id : String) (low high : Int) : List (Int × Int × Bool × Nat) :=
  let bounds := Window.indices ⟨low, high⟩
  bounds.flatMap fun a => bounds.map fun b =>
    let window : Window := ⟨a, b⟩
    (a, b, store.isComplete id window, (store.extract id window).length)

/-- Reads a page, and lets the deployment be evicted between the two reads if `evictBetween` says
so. -/
def poll (r : Rehearsal) (id : String) (window : Window) (maxWait : Option Binary64)
    (correlation : Option String) (evictBetween : Bool) : Outcome Rehearsal Answer :=
  let (dropped, after) := if evictBetween then r.store.evict id else (false, r.store)
  let asked := Journal.handOver (Page.between r.store after id window maxWait) correlation
  { state := r.setStore after
    value := asked.value.map .page
    effects := (if dropped then [.record (Journal.evicted id)] else []) ++ asked.effects }

/-- A sequence the script holds on to, by its number and its slot. -/
def heldSlot? (r : Rehearsal) (name : String) : Option (Nat × Slot) := do
  let number ← Keyed.get? r.held name
  let slot ← r.store.slots[number]?
  return (number, slot)

/-- A step on a sequence the script holds on to. -/
def withHeld (r : Rehearsal) (name : String) (f : Nat → Slot → Outcome Rehearsal Answer) :
    Outcome Rehearsal Answer :=
  match r.heldSlot? name with
  | none => r.refuse (.unknownName name)
  | some (number, slot) => f number slot

/-! ### Steps on watchers -/

/-- The crew of a named allocator. -/
def crew (r : Rehearsal) (allocator : String) : Crew := (Keyed.get? r.crews allocator).getD {}

/-- Replaces the crew of a named allocator. -/
def setCrew (r : Rehearsal) (allocator : String) (crew : Crew) : Rehearsal :=
  { r with crews := Keyed.set r.crews allocator crew }

/-- Lets the watcher at a place of a named crew act. -/
def act {α : Type} (r : Rehearsal) (allocator : String) (k : Nat)
    (f : Watcher → Desk → Outcome (Watcher × Desk) α) : Option (Outcome Rehearsal α) :=
  ((r.crew allocator).act r.store k f).map fun outcome =>
    ⟨(r.setCrew allocator outcome.state.1).setStore outcome.state.2, outcome.value, outcome.effects⟩

/-- A named watcher. -/
def watcher? (r : Rehearsal) (name : String) : Option Watcher := do
  let (allocator, k) ← Keyed.get? r.named name
  (r.crew allocator).watchers[k]?

/-- Lets a named watcher act. -/
def actNamed (r : Rehearsal) (name : String)
    (f : Watcher → Desk → Outcome (Watcher × Desk) Answer) : Outcome Rehearsal Answer :=
  match (do let (allocator, k) ← Keyed.get? r.named name; r.act allocator k f) with
  | none => r.refuse (.unknownName name)
  | some outcome => outcome

/-- The watcher after its act is the answer. -/
def showWatcher (outcome : Outcome (Watcher × Desk) Unit) : Outcome (Watcher × Desk) Answer :=
  ⟨outcome.state, outcome.value.map fun _ => .watcher outcome.state.1, outcome.effects⟩

/-- The running loops: those of the collector, then those of the script. -/
def loops (r : Rehearsal) : List (Nat × (Bool × String × Nat)) :=
  r.collector.loops.map (fun (rank, place) => (rank, true, place)) ++
    r.crews.flatMap fun (allocator, crew) =>
      crew.loops.map fun (rank, k) => (rank, false, allocator, k)

/-- A rank behind all running loops. -/
def nextRank (r : Rehearsal) : Nat := Collector.nextRank r.loops

/-- One loop wakes. -/
def wake (r : Rehearsal) : Bool × String × Nat → Rehearsal × List Effect
  | (true, operation, k) =>
    let (collector, effects) := r.collector.wake r.world operation k
    ({ r with collector }, effects)
  | (false, allocator, k) =>
    match r.act allocator k fun w desk => w.wake r.source r.clock desk with
    | none => (r, [])
    | some outcome => (outcome.state, outcome.effects)

/-- Every running loop wakes once, in order of their start. -/
def tick (r : Rehearsal) : Rehearsal × List Effect :=
  (Collector.byRank r.loops).foldl
    (fun (r, effects) (_, place) =>
      let woken := r.wake place
      (woken.1, effects ++ woken.2))
    (r, [])

/-- A step of the collector. -/
def ofCollector {α : Type} (r : Rehearsal) (outcome : Outcome Collector α) (f : α → Answer) :
    Outcome Rehearsal Answer :=
  ⟨{ r with collector := outcome.state }, outcome.value.map f, outcome.effects⟩

/-! ### All steps -/

/-- Plays one line of the script, and leaves its effects to `play`. -/
def act? (r : Rehearsal) : Step → Outcome Rehearsal Answer
  | .advance seconds => { r with clock := r.clock.advance seconds }.answer .nothing
  | .put id order correlation => r.put id order correlation [] false
  | .putMany id indices => r.putAll id 0 [] indices
  | .putRange id first last stride =>
    if stride = 0 then r.refuse .zeroStride else r.putAll id 0 [] (countOut first last stride)
  | .extract id start stop =>
    r.inWindow start stop fun w => r.answer (.events (r.store.extract id w))
  | .extractIndices id start stop =>
    r.inWindow start stop fun w => r.answer (.indices ((r.store.extract id w).map Event.index))
  | .isComplete id start stop =>
    r.inWindow start stop fun w => r.answer (.flag (r.store.isComplete id w))
  | .grid id low high =>
    if high < low then r.answer (.grid [])
    else r.inWindow low low fun _ => r.answer (.grid (gridRows r.store id low high))
  | .state id => r.answer (.state (r.store.mark id) (r.store.size id))
  | .ids => r.answer (.texts r.store.ids)
  | .evict id =>
    let (dropped, store) := r.store.evict id
    ⟨r.setStore store, .ok (.flag dropped), if dropped then [.record (Journal.evicted id)] else []⟩
  | .evictIdle maxIdle now =>
    let (ids, store) := r.store.evictIdle maxIdle (now.getD r.clock.monotonic)
    ⟨r.setStore store, .ok (.texts ids), ids.map fun id => .record (Journal.evictedIdle id)⟩
  | .hold id name =>
    match r.store.current? id with
    | none => r.answer (.flag false)
    | some slot => { r with held := Keyed.set r.held name slot }.answer (.flag true)
  | .heldPut name order =>
    r.withHeld name fun number slot =>
      match r.store.write r.clock.monotonic number order.index order.event with
      | none => r.answer .nothing
      | some (put, store) =>
        (r.setStore store).answer
          (.put { deployment := slot.deployment, index := order.index, put })
  | .heldState name =>
    r.withHeld name fun _ slot => r.answer (.state slot.sequence.mark slot.sequence.size)
  | .heldIsComplete name start stop =>
    r.withHeld name fun _ slot =>
      r.inWindow start stop fun w => r.answer (.flag (slot.sequence.isComplete w))
  | .racingPut name id order correlation =>
    match Store.check order.index order.event with
    | .error fault => r.refuse (Journal.refusal (some Number.maxDigits) fault)
    | .ok () => r.withHeld name fun number _ => r.put id order correlation [number] true
  | .poll id start stop maxWait correlation evictBetween =>
    r.inWindow start stop fun w => r.poll id w maxWait correlation evictBetween
  | .setUnits units => { r with units }.answer .nothing
  | .setZones zones => { r with zones }.answer .nothing
  | .units => r.ask r.topology.units .units
  | .zone name =>
    r.ask (r.topology.zone name) fun
      | none => .nothing
      | some zone => .zone zone
  | .classify id => r.ask (r.world.classifier.classify id) .kind
  | .isDeployment id => r.ask (r.world.classifier.isDeployment id) .flag
  | .isUndeployment id => r.ask (r.world.classifier.isDeployment id) fun b => .flag !b
  | .workersFor id => r.ask (r.world.classifier.workersFor id) .workers
  | .inspectUnit unit =>
    r.ask (r.world.classifier.workersOf unit)
      (.unit (r.world.classifier.isManagement unit) unit.undeployment.isSome)
  | .setCluster change => { r with cluster := r.cluster.apply change }.answer .nothing
  | .calls => { r with calls := [] }.answer (.calls r.calls)
  | .setLines worker lines => { r with logs := Keyed.set r.logs worker lines }.answer .nothing
  | .append worker line =>
    let lines := (Keyed.get? r.logs worker).getD []
    { r with logs := Keyed.set r.logs worker (lines ++ [line]) }.answer .nothing
  | .fail worker message =>
    let failures := match message with
      | some text => Keyed.set r.failures worker text
      | none => Keyed.erase r.failures worker
    { r with failures }.answer .nothing
  | .readLines worker => r.ask (r.source.read ⟨worker, ⟨worker, worker⟩⟩) .texts
  | .observe allocator worker lines =>
    let crew := r.crew allocator
    let (generation, next) := crew.allocator.observe worker lines
    (r.setCrew allocator { crew with allocator := next }).answer (.count generation)
  | .assign allocator key =>
    let crew := r.crew allocator
    let (index, next) := crew.allocator.assign key
    (r.setCrew allocator { crew with allocator := next }).answer (.count index)
  | .assigned allocator => r.answer (.count (r.crew allocator).allocator.size)
  | .newWatcher name allocator watcher =>
    let crew := r.crew allocator
    let r := r.setCrew allocator (crew.join [watcher])
    { r with named := Keyed.set r.named name (allocator, crew.watchers.length) }.answer
      (.text watcher.correlation)
  | .catchUp name =>
    r.actNamed name fun w desk =>
      let outcome := w.catchUp r.source r.clock desk
      ⟨outcome.state, outcome.value.map fun stored => .count stored, outcome.effects⟩
  | .watcherState name =>
    match r.watcher? name with
    | none => r.refuse (.unknownName name)
    | some w => r.answer (.watcher w)
  | .start name =>
    r.actNamed name fun w desk => showWatcher (w.start r.nextRank r.source r.clock desk)
  | .stop name =>
    r.actNamed name fun w desk => showWatcher ⟨(w.stop.1, desk), .ok (), w.stop.2⟩
  | .tick =>
    let (r, effects) := r.tick
    ⟨r, .ok .nothing, effects⟩
  | .track id start => r.ofCollector (r.collector.track r.world r.nextRank id start) .kind
  | .refresh id start =>
    r.ofCollector (r.collector.refresh r.world r.nextRank id start) fun workers =>
      .texts (workers.map Worker.name)
  | .watchers id => r.answer (.watchers (r.collector.watchers id))
  | .catchUpAll id => r.ofCollector (r.collector.catchUp r.world id) fun stored => .count stored
  | .collectorPage id start stop maxWait correlation =>
    r.ask (r.collector.page id start stop maxWait correlation) .page
  | .untrack id =>
    let (collector, effects) := r.collector.untrack id
    ⟨{ r with collector }, .ok .nothing, effects⟩
  | .sweep =>
    let ((ids, collector), effects) := r.collector.sweep r.retention r.clock
    ⟨{ r with collector }, .ok (.texts ids), effects⟩
  | .setRetention seconds => { r with retention := seconds }.answer .nothing
  | .stopCollector =>
    let (collector, effects) := r.collector.stop
    ⟨{ r with collector }, .ok .nothing, effects⟩
  | .setUpCounters =>
    let (counters, effects) := Counters.setUp r.counters
    ⟨{ r with counters }, .ok .nothing, effects⟩
  | .note tally =>
    if Counters.canNote r.counters tally then ⟨r, .ok .nothing, [.tally tally]⟩
    else r.refuse .tooLarge
  | .counters => r.answer (.counters r.counters)
  | .startServer wanted counterPort failure =>
    let started := Counters.startServer r.counters wanted counterPort failure
    ⟨{ r with counters := started.counters }, .ok (.served started.asked), started.effects⟩

/-- Plays one line of the script: its calls are noted, and what it counts is counted. -/
def play (r : Rehearsal) (step : Step) : Outcome Rehearsal Answer :=
  let outcome := r.act? step
  let after := outcome.state
  { outcome with
    state :=
      { after with
        calls := after.calls ++ Effect.calls outcome.effects
        counters := after.counters.map fun c => c.noteAll (Effect.tallies outcome.effects) } }

end Rehearsal

end Lifecycle
