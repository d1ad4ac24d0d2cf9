import Lifecycle.Proofs.Collector.Asking
import Lifecycle.Proofs.Watcher.Puts

/-! # The polls of the collector

Each operation of the collector makes some polls, one after the other: a pass over a crew polls each
watcher up to the first that fails, a loop polls when it starts and when it wakes. What the operation
counts is what these polls count, and what it adds to the store is what their puts have stored. Even
the polls whose result nobody is told are among them. -/

namespace Lifecycle

/-- From one store to the next, just these polls were made, and these effects left. -/
structure Store.Polled (polls : List PollCall) (effects : List Effect) (store next : Store) :
    Prop where
  sound : next.Sound
  registered : store.registered <+: next.registered
  live : next.liveSizes =
    store.liveSizes + (polls.flatMap PollCall.puts).countP Put.isStored
  silent : ∀ p ∈ polls, Effect.tallies (p.moment.source.read p.watcher.worker).effects = []
  tallies : Effect.tallies effects = polls.flatMap PollCall.tallies

namespace Store.Polled

variable {polls more : List PollCall} {effects further : List Effect} {store next last : Store}

theorem refl (hs : store.Sound) : Polled [] [] store store :=
  ⟨hs, List.prefix_rfl, rfl, fun _ hp => absurd hp List.not_mem_nil, rfl⟩

theorem trans (first : Polled polls effects store next)
    (second : Polled more further next last) :
    Polled (polls ++ more) (effects ++ further) store last where
  sound := second.sound
  registered := first.registered.trans second.registered
  live := by
    rw [second.live, first.live, List.flatMap_append, List.countP_append, Nat.add_assoc]
  silent := by
    intro p hp
    rcases List.mem_append.1 hp with hp | hp
    · exact first.silent p hp
    · exact second.silent p hp
  tallies := by
    rw [Effect.tallies_append, first.tallies, second.tallies, List.flatMap_append]

/-- Effects without counts may come before and after. -/
theorem congr (h : Polled polls effects store next) {others : List Effect}
    (same : Effect.tallies others = Effect.tallies effects) : Polled polls others store next :=
  ⟨h.sound, h.registered, h.live, h.silent, same.trans h.tallies⟩

theorem poll {p : PollCall} (hs : p.desk.store.Sound)
    (silent : Effect.tallies (p.moment.source.read p.watcher.worker).effects = []) :
    Polled [p] p.outcome.effects p.desk.store p.outcome.state.2.store := by
  obtain ⟨htallies, -, hlive⟩ := p.spec silent
  have hgrows := p.watcher.catchUp_grows p.moment.source p.moment.clock p.desk hs
  refine ⟨hgrows.sound, hgrows.registered, ?_, ?_, ?_⟩
  · rw [List.flatMap_singleton]
    exact hlive hs
  · intro q hq
    rw [List.mem_singleton.1 hq]
    exact silent
  · rw [List.flatMap_singleton]
    exact htallies

end Store.Polled

open Store

/-! ### Watchers and crews -/

namespace Watcher

variable {m : Moment} (silent : ∀ worker, Effect.tallies (m.source.read worker).effects = [])
  (w : Watcher) (rank : Nat) (desk : Desk) (hs : desk.store.Sound)

/-- The polls that a loop makes when it is started: one, unless it is running. -/
def startPolls (w : Watcher) (m : Moment) (rank : Nat) (desk : Desk) : List PollCall :=
  if w.isRunning then [] else [⟨{ w with loop := some rank }, m, desk⟩]

include silent hs

theorem polled_wake :
    Polled [⟨w, m, desk⟩] (w.wake m.source m.clock desk).effects desk.store
      (w.wake m.source m.clock desk).state.2.store := by
  have hpoll : Polled [⟨w, m, desk⟩] (w.catchUp m.source m.clock desk).effects desk.store
      (w.catchUp m.source m.clock desk).state.2.store :=
    Polled.poll (p := ⟨w, m, desk⟩) hs (silent w.worker)
  have hrecord (effects : List Effect) (record : Record) :
      Effect.tallies (effects ++ [.record record]) = Effect.tallies effects := by
    rw [Effect.tallies_append]
    exact List.append_nil _
  simp only [wake]
  split
  · exact hpoll
  · exact hpoll.congr (hrecord _ _)
  · exact hpoll.congr (hrecord _ _)

theorem polled_start :
    Polled (w.startPolls m rank desk) (w.start rank m.source m.clock desk).effects desk.store
      (w.start rank m.source m.clock desk).state.2.store := by
  simp only [start, startPolls]
  split
  · exact Polled.refl hs
  · exact (polled_wake silent { w with loop := some rank } desk hs).congr rfl

end Watcher

namespace Crew

variable {m : Moment} (silent : ∀ worker, Effect.tallies (m.source.read worker).effects = [])
  (watchers : List Watcher) (desk : Desk) (hs : desk.store.Sound)

/-- The polls of one pass of each watcher in turn, up to the first that fails. -/
def pollAllPolls (m : Moment) : List Watcher → Desk → List PollCall
  | [], _ => []
  | w :: rest, desk =>
    let first : PollCall := ⟨w, m, desk⟩
    match first.outcome.value with
    | .error _ => [first]
    | .ok _ => first :: pollAllPolls m rest first.outcome.state.2

/-- The polls that the loops of the watchers make when they are started. -/
def startFromPolls (m : Moment) (rank : Nat) : List Watcher → Desk → List PollCall
  | [], _ => []
  | w :: rest, desk =>
    w.startPolls m rank desk ++
      startFromPolls m (rank + 1) rest (w.start rank m.source m.clock desk).state.2

include silent hs

theorem polled_pollAll :
    Polled (pollAllPolls m watchers desk) (pollAll m.source m.clock watchers desk).effects
      desk.store (pollAll m.source m.clock watchers desk).state.2.store := by
  induction watchers generalizing desk with
  | nil => exact Polled.refl hs
  | cons w rest ih =>
    have hfirst : Polled [⟨w, m, desk⟩] (w.catchUp m.source m.clock desk).effects desk.store
        (w.catchUp m.source m.clock desk).state.2.store :=
      Polled.poll (p := ⟨w, m, desk⟩) hs (silent w.worker)
    cases hvalue : (w.catchUp m.source m.clock desk).value with
    | error fault =>
      simp only [pollAll, pollAllPolls, PollCall.outcome, hvalue]
      exact hfirst
    | ok stored =>
      simp only [pollAll, pollAllPolls, PollCall.outcome, hvalue]
      exact hfirst.trans (ih _ hfirst.sound)

theorem polled_startFrom (rank : Nat) :
    Polled (startFromPolls m rank watchers desk)
      (startFrom m.source m.clock rank watchers desk).2 desk.store
      (startFrom m.source m.clock rank watchers desk).1.2.store := by
  induction watchers generalizing desk rank with
  | nil => exact Polled.refl hs
  | cons w rest ih =>
    have hfirst := Watcher.polled_start silent w rank desk hs
    exact hfirst.trans (ih _ hfirst.sound (rank + 1))

end Crew

/-! ### The collector -/

/-- When the polls of an operation are made. -/
def World.moment (world : World) : Moment := ⟨world.source, world.clock⟩

namespace Collector

variable {c : Collector} {world : World}

/-- The polls of a refresh: the first pass of each loop that it starts. -/
def refreshPolls (c : Collector) (world : World) (rank : Nat) (operation : String) (start : Bool) :
    List PollCall :=
  match (world.classifier.workersFor operation).value, c.crew? operation, start with
  | .ok workers, some crew, true =>
    Crew.startFromPolls world.moment rank (c.newcomers operation crew (byName workers))
      ⟨crew.allocator, c.store⟩
  | _, _, _ => []

/-- The polls of a tracking are those of its refresh. -/
def trackPolls (c : Collector) (world : World) (rank : Nat) (operation : String) (start : Bool) :
    List PollCall :=
  match (world.classifier.classify operation).value with
  | .error _ => []
  | .ok _ => (c.enrol operation).refreshPolls world rank operation start

/-- The polls of a pass of all watchers of an operation. -/
def catchUpPolls (c : Collector) (world : World) (operation : String) : List PollCall :=
  match c.crew? operation with
  | none => []
  | some crew => Crew.pollAllPolls world.moment crew.watchers ⟨crew.allocator, c.store⟩

/-- The poll of a loop that wakes. -/
def wakePolls (c : Collector) (world : World) (operation : String) (k : Nat) : List PollCall :=
  let poll : Option PollCall := do
    let crew ← c.crew? operation
    let w ← crew.watchers[k]?
    return ⟨w, world.moment, ⟨crew.allocator, c.store⟩⟩
  poll.toList

variable (hs : c.store.Sound) (silent : world.Free Effect.isTally)
include hs silent

theorem polled_refresh (rank : Nat) (operation : String) (start : Bool) :
    Polled (c.refreshPolls world rank operation start)
      (c.refresh world rank operation start).effects c.store
      (c.refresh world rank operation start).state.store := by
  have hread (worker : Worker) : Effect.tallies (world.moment.source.read worker).effects = [] :=
    Effect.tallies_of_free (silent.read worker)
  have hfound := Effect.tallies_of_free (silent.workersFor Effect.ofCounts_isTally operation)
  have hnotice (workers : List Worker) :
      Effect.tallies (if workers.isEmpty then [.record (Journal.noWorkers operation)] else []) =
        [] := by
    split <;> rfl
  simp only [refresh, refreshWith, refreshPolls]
  cases (world.classifier.workersFor operation).value with
  | error fault => exact (Polled.refl hs).congr hfound
  | ok workers =>
    cases c.crew? operation with
    | none => exact (Polled.refl hs).congr hfound
    | some crew =>
      cases start with
      | false =>
        refine (Polled.refl hs).congr ?_
        simp only [Bool.false_eq_true, if_false, Effect.tallies_append, hfound, hnotice,
          List.nil_append]
      | true =>
        have hstarted := Crew.polled_startFrom hread
          (c.newcomers operation crew (byName workers)) ⟨crew.allocator, c.store⟩ hs rank
        refine hstarted.congr ?_
        simp only [if_true, Effect.tallies_append, hfound, hnotice, List.nil_append]
        rfl

theorem polled_track (rank : Nat) (operation : String) (start : Bool) :
    Polled (c.trackPolls world rank operation start)
      (c.track world rank operation start).effects c.store
      (c.track world rank operation start).state.store := by
  have hasked := Effect.tallies_of_free (silent.classify operation)
  simp only [track, trackWith, trackPolls]
  cases (world.classifier.classify operation).value with
  | error fault => exact (Polled.refl hs).congr hasked
  | ok kind =>
    have hrefresh := polled_refresh (c := c.enrol operation) (by rwa [enrol_store]) silent rank
      operation start
    rw [enrol_store] at hrefresh
    refine hrefresh.congr ?_
    rw [Effect.tallies_append, hasked]
    rfl

theorem polled_catchUp (operation : String) :
    Polled (c.catchUpPolls world operation) (c.catchUp world operation).effects c.store
      (c.catchUp world operation).state.store := by
  have hread (worker : Worker) : Effect.tallies (world.moment.source.read worker).effects = [] :=
    Effect.tallies_of_free (silent.read worker)
  simp only [catchUp, catchUpPolls]
  cases c.crew? operation with
  | none => exact Polled.refl hs
  | some crew =>
    exact Crew.polled_pollAll hread crew.watchers ⟨crew.allocator, c.store⟩ hs

theorem polled_wake (operation : String) (k : Nat) :
    Polled (c.wakePolls world operation k) (c.wake world operation k).2 c.store
      (c.wake world operation k).1.store := by
  have hread (worker : Worker) : Effect.tallies (world.moment.source.read worker).effects = [] :=
    Effect.tallies_of_free (silent.read worker)
  simp only [wake, wakePolls]
  cases c.crew? operation with
  | none => exact Polled.refl hs
  | some crew =>
    simp only [Option.bind_eq_bind, Option.bind_some, Crew.act]
    cases crew.watchers[k]? with
    | none => exact Polled.refl hs
    | some w => exact Watcher.polled_wake hread w ⟨crew.allocator, c.store⟩ hs

end Collector

/-! ### Sequences that are dropped -/

/-- The effects only tell how many sequences there are. -/
def Effect.TellNumbers (effects : List Effect) : Prop :=
  ∀ t ∈ tallies effects, ∃ count, t = .tracked count

theorem Effect.tellNumbers_append {a b : List Effect} :
    TellNumbers (a ++ b) ↔ TellNumbers a ∧ TellNumbers b := by
  rw [TellNumbers, tallies_append]
  exact List.forall_mem_append

theorem Effect.tellNumbers_of_free {effects : List Effect} (h : Free isTally effects) :
    TellNumbers effects := by
  intro t ht
  rw [tallies_of_free h] at ht
  exact absurd ht List.not_mem_nil

theorem Effect.free_records (records : List Record) : Free isTally (records.map .record) := by
  intro e he
  obtain ⟨record, -, rfl⟩ := List.mem_map.1 he
  rfl

namespace Collector

variable {c : Collector}

theorem tellNumbers_trackedTally (store : Store) : Effect.TellNumbers [trackedTally store] := by
  intro t ht
  rw [List.mem_singleton.1 ht]
  exact ⟨_, rfl⟩

theorem tellNumbers_untrack (c : Collector) (operation : String) :
    Effect.TellNumbers (c.untrack operation).2 := by
  have hstopped : Effect.Free Effect.isTally
      (((c.crew? operation).map fun crew => crew.stop.2).getD []) := by
    cases c.crew? operation with
    | none => exact Effect.free_nil _
    | some crew => exact crew.free_stop Effect.ofCounts_isTally
  have hrecord : Effect.Free Effect.isTally
      (if (c.store.evict operation).1 then [.record (Journal.evicted operation)] else []) := by
    split
    · exact Effect.ofCounts_isTally.free_record _
    · exact Effect.free_nil _
  have hbefore := Effect.tellNumbers_of_free (Effect.free_append.2 ⟨hstopped, hrecord⟩)
  exact Effect.tellNumbers_append.2 ⟨hbefore, tellNumbers_trackedTally _⟩

theorem untrackAll_drops (hs : c.store.Sound) (operations : List String) :
    Drops c.store (c.untrackAll operations).1.store ∧
      Effect.TellNumbers (c.untrackAll operations).2 := by
  induction operations generalizing c with
  | nil => exact ⟨Drops.refl hs, Effect.tellNumbers_of_free (Effect.free_nil _)⟩
  | cons operation rest ih =>
    have hfirst : Drops c.store (c.untrack operation).1.store := hs.drops_evict operation
    obtain ⟨hrest, heffects⟩ := ih hfirst.sound
    exact ⟨hfirst.trans hrest, Effect.tellNumbers_append.2 ⟨c.tellNumbers_untrack operation, heffects⟩⟩

theorem sweep_drops (hs : c.store.Sound) (retention : Rat) (clock : Clock) :
    Drops c.store (c.sweep retention clock).1.2.store ∧
      Effect.TellNumbers (c.sweep retention clock).2 := by
  have hidle := hs.drops_evictIdle retention clock.monotonic
  obtain ⟨hdrops, heffects⟩ := untrackAll_drops
    (c := { c with store := (c.store.evictIdle retention clock.monotonic).2 }) hidle.sound
    (c.store.evictIdle retention clock.monotonic).1
  have hrecords : Effect.TellNumbers ((c.store.evictIdle retention clock.monotonic).1.map
      fun operation => .record (Journal.evictedIdle operation)) := by
    have hfree := Effect.free_records
      ((c.store.evictIdle retention clock.monotonic).1.map Journal.evictedIdle)
    rw [List.map_map] at hfree
    exact Effect.tellNumbers_of_free hfree
  refine ⟨hidle.trans hdrops, ?_⟩
  exact Effect.tellNumbers_append.2
    ⟨Effect.tellNumbers_append.2 ⟨hrecords, heffects⟩, tellNumbers_trackedTally _⟩

/-- A page that is handed over is counted once, and no other. -/
theorem tallies_page (c : Collector) (operation : String) (start stop : Int)
    (maxWait : Option Binary64) (correlation : Option String) :
    Effect.tallies (c.page operation start stop maxWait correlation).effects =
      match (c.page operation start stop maxWait correlation).value with
      | .ok page => [.page page.isComplete]
      | .error _ => [] := by
  rw [page]
  cases Window.asked start stop with
  | error fault => rfl
  | ok window =>
    simp only [bind, Traced.andThen, Journal.handOver]
    cases Journal.isTellable (Page.read c.store operation window maxWait).window <;> rfl

end Collector

end Lifecycle
