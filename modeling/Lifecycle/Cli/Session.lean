import Lifecycle.Cli.Report
import Lifecycle.Collector
import Lifecycle.Counters
import Lifecycle.Waiting

/-! # Collecting a page

This command tracks an operation, says so, and waits for a page of its events. While it pauses, the
cluster may change and the loops of the watchers wake; after each pause it looks for new workers.
However the wait ends, the collector is stopped. It is not stopped if the wait does not begin because
the words that announce it cannot be shown. -/

namespace Lifecycle.Cli

/-- What the command works with. -/
structure Session where
  settings : Settings
  cluster : Cluster
  /-- How the cluster changes, pause by pause. -/
  changes : List ClusterChange
  clock : Clock
  collector : Collector

namespace Session

/-- The world of the moment. -/
def world (s : Session) : World where
  classifier := ⟨s.cluster.topology s.settings.space, s.settings.management⟩
  source := .ofCluster s.cluster s.settings.space none
  clock := s.clock

/-- The session with another collector. -/
def withCollector (s : Session) (collector : Collector) : Session := { s with collector }

/-- A rank behind all running loops. -/
def nextRank (s : Session) : Nat := Collector.nextRank s.collector.loops

/-- Tracks the operation and starts the loops of its watchers. -/
def track (s : Session) (operation : String) : Outcome Session Kind :=
  let tracked := s.collector.track s.world s.nextRank operation true
  { tracked with state := s.withCollector tracked.state }

/-- The session after a time in which nothing woke. -/
def pass (s : Session) (time : Clock → Clock) : Session :=
  { s with
    clock := time s.clock
    cluster := (s.changes.head?.map s.cluster.apply).getD s.cluster
    changes := s.changes.tail }

/-- Lets a time pass, in which the loops wake. -/
def sleep (time : Clock → Clock) (s : Session) : Outcome Session Unit :=
  let later := s.pass time
  let (woken, effects) := later.collector.tick later.world
  ⟨later.withCollector woken, .ok (), effects⟩

/-- Looks for new workers. -/
def refresh (operation : String) (s : Session) : Outcome Session Unit :=
  let refreshed := s.collector.refresh s.world s.nextRank operation true
  { state := s.withCollector refreshed.state
    value := refreshed.value.map fun _ => ()
    effects := refreshed.effects }

/-- Reads the page. -/
def poll (operation : String) (start stop : Int) (s : Session) (left : Option Rat) :
    Outcome Session Page :=
  let asked := s.collector.page operation start stop (left.map .ofRat) (some operation)
  ⟨s, asked.value, asked.effects⟩

/-- Stops the collector. -/
def stop (s : Session) : Session × List Effect :=
  let (stopped, effects) := s.collector.stop
  (s.withCollector stopped, effects)

end Session

/-- What a page is collected with. Nothing else is known of the collector and of the world. -/
structure Collecting (σ : Type) where
  /-- Tracks the operation. -/
  track : σ → Outcome σ Kind
  /-- Reads the page, with the patience that is left. -/
  poll : σ → Option Rat → Outcome σ Page
  /-- Lets a time pass, with what it does to the clocks. The time may be longer than can be slept. -/
  sleep : (Clock → Clock) → σ → Outcome σ Unit
  /-- Looks for new workers. -/
  refresh : σ → Outcome σ Unit
  /-- Stops the collector. -/
  stop : σ → σ × List Effect
  clock : σ → Clock
  /-- How many changes of the world are still to come. -/
  changes : σ → Nat

/-- The page of an operation is collected with the session's collector. -/
def Session.collecting (operation : String) (request : PageRequest) : Collecting Session where
  track s := s.track operation
  poll := Session.poll operation request.start request.stop
  sleep := Session.sleep
  refresh := Session.refresh operation
  stop := Session.stop
  clock := Session.clock
  changes s := s.changes.length

variable {σ : Type}

/-- Sleeps, and then looks for new workers. -/
def Collecting.pause (c : Collecting σ) (time : Clock → Clock) (s : σ) : Outcome σ Unit :=
  let slept := c.sleep time s
  match slept.value with
  | .error _ => slept
  | .ok _ =>
    let refreshed := c.refresh slept.state
    { refreshed with effects := slept.effects ++ refreshed.effects }

/-- The wait for the page, with what a pause does to the clocks. -/
def Collecting.waiting (c : Collecting σ) (time : Clock → Rat → Clock) : Waiting σ where
  poll := c.poll
  pause s seconds := c.pause (time · seconds) s
  now s := (c.clock s).monotonic

/-- The patience that a timeout means: none if it has no end or is no number. -/
def patience : Binary64 → Option Rat
  | .infinite true => some 0
  | timeout => timeout.toRat?

/-- What the clocks show after the first pause, if that is no finite time. A pause without end is
cut short where the patience has an end, and there is no pause at all where the patience is used up.
-/
def lostReading (patience : Option Rat) (interval : Binary64) : Option Binary64 :=
  if Waiting.isOver patience then none
  else match interval with
    | .finite .. => none
    | .infinite false => if patience.isSome then none else some interval
    | _ => some interval

/-- Waits for the page. Where the pauses are no finite times, no deadline is ever reached, and
nothing but a complete page ends the wait. -/
def awaitPage (c : Collecting σ) (timeout interval : Binary64) (s : σ) : Outcome σ Page :=
  let patience := patience timeout
  match lostReading patience interval with
  | some reading =>
    let fuel := Waiting.pauses none none (c.changes s)
    (c.waiting fun clock _ => clock.lose reading).await none none fuel s
  | none =>
    let deadline := patience.map ((c.clock s).monotonic + ·)
    let fuel := Waiting.pauses patience interval.toRat? (c.changes s)
    (c.waiting Clock.advance).await deadline interval.toRat? fuel s

/-- Waits for the page, and stops the collector whatever came of it. -/
def waitForPage (c : Collecting σ) (timeout interval : Binary64) (s : σ) : Outcome σ Page :=
  let waited := awaitPage c timeout interval s
  let (stopped, effects) := c.stop waited.state
  { waited with
    state := stopped
    effects := waited.effects ++ effects }

/-- The words for a page that did not get complete in time. -/
def timeoutGap (p : Page) : String :=
  Markup.styled "yellow" "Timed out:" ++ s!" {p.present} of {p.window.size} events present"

/-- The words with which a collection begins. They are for people. -/
def announcement (console : Console) (request : PageRequest) (kind : Kind) (operation : String) :
    Except Markup.Fault String :=
  if request.json then .ok ""
  else
    console.line ("Collecting " ++ Markup.styled "bold" kind.name ++ " events for " ++ operation)

/-- How the command ends by what the wait came to, and what is shown of it. -/
def showWaited (console : Console) (request : PageRequest) (operation : String) :
    Except Fault Page → Ending × String
  | .error fault => (.failed (.service fault), "")
  | .ok p => showPage console request operation timeoutGap p

/-- Tracks an operation and waits for a page of its events. Beside the report stands what the command
leaves. -/
def collectWith (c : Collecting σ) (console : Console) (operation : String)
    (timeout interval : Binary64) (request : PageRequest) (s : σ) : σ × Report :=
  let tracked := c.track s
  match tracked.value with
  | .error fault => (tracked.state, .failure (.service fault) tracked.effects)
  | .ok kind =>
    match announcement console request kind operation with
    | .error fault => (tracked.state, { ending := .garbled fault, effects := tracked.effects })
    | .ok words =>
      let waited := waitForPage c timeout interval tracked.state
      let (ending, shown) := showWaited console request operation waited.value
      (waited.state,
        { ending
          output := words ++ shown
          effects := tracked.effects ++ waited.effects
          elapsed := (c.clock s).between (c.clock waited.state) })

/-- The log output of the command keeps off the standard output. Where that is JSON it begins with
warnings. -/
def collectLogging (env : Environment) (request : PageRequest) : Logging :=
  Logging.setUp {} env { level := if request.json then some "WARNING" else none, stream := .err }

/-- Sets the collector up and collects a page. The counters are served before credentials are taken.
-/
def runCollect (s : Surroundings) (operation : String) (timeout interval : Binary64)
    (request : PageRequest) : Report :=
  match Settings.read s.env s.spaceFile with
  | .error fault => .failure (.settings fault) []
  | .ok settings =>
    let (counters, ready) := Counters.setUp none
    let server := Counters.startServer counters settings.serveCounters settings.counterPort none
    let connected := s.cluster.connect
    let report : Report := match connected.value with
      | .error fault => .failure (.service fault) []
      | .ok _ =>
        let collecting := Session.collecting operation request
        let (_, collected) := collectWith collecting s.console operation timeout interval request
          { settings
            cluster := s.cluster
            changes := s.changes
            clock := s.clock
            collector := { halting := settings.haltOnMalformed } }
        { collected with effects := .record Journal.started :: collected.effects }
    { report with
      served := server.asked
      effects := ready ++ server.effects ++ connected.effects ++ report.effects
      logging := collectLogging s.env request }

end Lifecycle.Cli
