import Lifecycle.Page
import Lifecycle.Traced

/-! # The journal

The log records of the service: who writes them, how urgent they are and what they say. -/

namespace Lifecycle.Journal

/-- An id that a caller may leave out, and that counts as left out if it is empty. -/
def given (correlation : Option String) : Option String := correlation.filter (· ≠ "")

/-! ### The store and its readers -/

/-- The logger of the store. -/
def storeLogger : String := "deploy_events.log.store"

/-- A sequence was opened. -/
def opened (deployment : String) : Record :=
  ⟨.debug, storeLogger, "Created event sequence for deployment " ++ deployment, none⟩

/-- A new event was stored. -/
def stored (index : Int) (correlation : Option String) : Record :=
  ⟨.debug, storeLogger, s!"Stored event at index {index}", given correlation⟩

/-- A put found its index taken. -/
def duplicate (index : Int) (correlation : Option String) : Record :=
  ⟨.debug, storeLogger, s!"Ignored duplicate event at index {index}", given correlation⟩

/-- The records of a put. -/
def ofPut (deployment : String) (index : Int) (correlation : Option String) (r : PutReport) :
    List Record :=
  (if r.opened then [opened deployment] else []) ++
    [if r.put.isStored then stored index correlation else duplicate index correlation]

/-- The numbers in the words of a refusal. -/
def numbers : PutFault → List Int
  | .negativeIndex index => [index]
  | .otherIndex eventIndex index => [eventIndex, index]

/-- The fault of a put that the store refuses. It cannot be told of numbers with too many digits. -/
def refusal (limit : Option Nat) (fault : PutFault) : Fault :=
  if (numbers fault).all (Number.isWithin limit) then .put fault else .unwritable

/-- Puts an event of a deployment and enters in the journal what became of it, where numbers of more
than `limit` digits cannot be written. An index with too many digits cannot be entered: then there is
no report, but the event is in the store all the same. -/
def enter (limit : Option Nat) (store : Store) (now : Rat) (id : String) (index : Int)
    (event : Event) (correlation : Option String) (found : List Nat) : Outcome Store PutReport :=
  match store.putFound now id index event found with
  | .error fault => ⟨store, .error (refusal limit fault), []⟩
  | .ok (report, next) =>
    if Number.isWithin limit index then
      ⟨next, .ok report, (ofPut id index correlation report).map .record⟩
    else ⟨next, .error .unwritable, if report.opened then [.record (opened id)] else []⟩

/-- A sequence was evicted. -/
def evicted (deployment : String) : Record :=
  ⟨.info, storeLogger, "Evicted event sequence for deployment " ++ deployment, none⟩

/-- A sequence was evicted because it had been idle too long. -/
def evictedIdle (deployment : String) : Record :=
  ⟨.info, storeLogger, "Evicted idle event sequence for deployment " ++ deployment, none⟩

/-- The numbers of a window can be written. -/
def isTellable (w : Window) : Bool :=
  Number.isWritable w.start && Number.isWritable w.stop && Number.isWritable w.size

/-- A page was read. -/
def ofPage (p : Page) (correlation : Option String) : Record :=
  let window := s!"Range [{p.window.start}, {p.window.stop}] "
  let found :=
    if p.isComplete then s!"complete ({p.present} events)"
    else s!"incomplete ({p.present}/{p.window.size} present)"
  ⟨.debug, "deploy_events.poll", window ++ found, given correlation⟩

/-- Hands a page to its reader and puts it on record. A page that cannot be put on record is not
handed over. -/
def handOver (p : Page) (correlation : Option String) : Traced Page :=
  if isTellable p.window then ⟨.ok p, [.record (ofPage p correlation)]⟩ else .fail .unwritable

/-! ### Topology -/

/-- No unit belongs to an operation. -/
def noUnit (kind operation : String) : Record :=
  ⟨.debug, "deploy_events.classify", s!"No unit found for {kind} {operation}", none⟩

/-- A zone has no pods yet. -/
def noPods (zone space : String) : Record :=
  ⟨.debug, "deploy_events.topology.k8s", s!"Zone {zone} has no pods yet in namespace {space}", none⟩

/-! ### Watchers -/

/-- The logger of the watchers. -/
def watcherLogger : String := "collector.watcher"

/-- The log of a worker has started anew. -/
def restarted (worker : String) (generation : Nat) (correlation : String) : Record :=
  ⟨.info, watcherLogger,
    s!"Log of {worker} restarted (generation {generation}), reading from the top", some correlation⟩

/-- A malformed event line was dropped. -/
def dropped (position : Nat) (line correlation : String) : Record :=
  ⟨.error, watcherLogger,
    s!"Dropping malformed event line at position {position}: " ++ Text.quoted line,
    some correlation⟩

/-- A pass stored new events. -/
def newEvents (count : Nat) (correlation : String) : Record :=
  ⟨.debug, watcherLogger, s!"Stored {count} new events", some correlation⟩

/-- A loop has started. -/
def watching (worker correlation : String) : Record :=
  ⟨.info, watcherLogger, "Watching worker " ++ worker, some correlation⟩

/-- A malformed line ended a loop. -/
def halted (line : MalformedLine) (correlation : String) : Record :=
  ⟨.error, watcherLogger, "Watcher halted: " ++ line.message, some correlation⟩

/-- A pass of a loop failed. -/
def readFailed (worker : String) (fault : Fault) (correlation : String) : Record :=
  ⟨.warning, watcherLogger, s!"Log read failed for {worker}: " ++ fault.message, some correlation⟩

/-- A loop was stopped. -/
def stopped (worker correlation : String) : Record :=
  ⟨.info, watcherLogger, "Stopped watching worker " ++ worker, some correlation⟩

/-! ### The collector -/

/-- The logger of the collector. -/
def collectorLogger : String := "collector.service"

/-- An operation is tracked from now on. -/
def tracking (kind operation : String) : Record :=
  ⟨.info, collectorLogger, s!"Tracking {kind} {operation}", some operation⟩

/-- An operation has no workers yet. -/
def noWorkers (operation : String) : Record :=
  ⟨.info, collectorLogger, "No workers discoverable yet for " ++ operation, some operation⟩

/-- The collector is set up. -/
def started : Record := ⟨.info, "collector.main", "Collector startup complete", none⟩

/-! ### Counters -/

/-- The logger of the counters. -/
def countersLogger : String := "collector.metrics"

/-- The counters are set up. -/
def countersReady : Record := ⟨.info, countersLogger, "Prometheus metrics initialized", none⟩

/-- The counters are not to be served. -/
def serverDisabled : Record :=
  ⟨.info, countersLogger, "Metrics server disabled (METRICS_ENABLED=false)", none⟩

/-- The counters are served. -/
def serverStarted (counterPort : Int) : Record :=
  ⟨.info, countersLogger, s!"Metrics server started on http://0.0.0.0:{counterPort}/metrics", none⟩

/-- The counters cannot be served. -/
def serverFailed (message : String) : Record :=
  ⟨.error, countersLogger, "Failed to start metrics server: " ++ message, none⟩

end Lifecycle.Journal
