import Lifecycle.Proofs.Collector.Asking
import Lifecycle.Proofs.Collector.Work
import Lifecycle.Proofs.Number.Whole
import Mathlib.Data.List.DropRight

/-! # The number of sequences that the counters show

Sequences are opened by the puts of watchers and dropped when operations are untracked, but only the
latter has the number of sequences counted anew. So the counters show how many sequences there were
when an operation was last untracked or the collector last swept. They never show too many, and
they show too few as soon as a sequence has been opened since. -/

namespace Lifecycle

/-! ### Effects that leave the number alone -/

namespace Effect

/-- The effect sets the number of deployments with a sequence. -/
def setsGauge : Effect → Bool
  | .tally (.tracked _) => true
  | _ => false

/-- No effect sets the number of deployments with a sequence. -/
def Quiet (effects : List Effect) : Prop := ∀ e ∈ effects, e.setsGauge = false

@[simp] theorem quiet_nil : Quiet [] := fun _ he => absurd he List.not_mem_nil

@[simp] theorem quiet_cons {e : Effect} {effects : List Effect} :
    Quiet (e :: effects) ↔ e.setsGauge = false ∧ Quiet effects :=
  List.forall_mem_cons

@[simp] theorem quiet_append {a b : List Effect} : Quiet (a ++ b) ↔ Quiet a ∧ Quiet b :=
  List.forall_mem_append

theorem quiet_record (record : Record) : Quiet [.record record] :=
  quiet_cons.2 ⟨rfl, quiet_nil⟩

theorem quiet_ite {p : Prop} [Decidable p] {a b : List Effect} (ha : Quiet a) (hb : Quiet b) :
    Quiet (if p then a else b) := by
  split
  · exact ha
  · exact hb

@[simp] theorem quiet_records (records : List Record) : Quiet (records.map .record) := by
  intro e he
  obtain ⟨record, -, rfl⟩ := List.mem_map.1 he
  rfl

end Effect

theorem Counters.tracked_noteAll {effects : List Effect} (h : Effect.Quiet effects)
    (c : Counters) : (c.noteAll (Effect.tallies effects)).tracked = c.tracked := by
  induction effects generalizing c with
  | nil => rfl
  | cons e rest ih =>
    obtain ⟨hfirst, hrest⟩ := Effect.quiet_cons.1 h
    cases e with
    | call call => exact ih hrest c
    | record record => exact ih hrest c
    | tally tally =>
      have hnote : (c.note tally).tracked = c.tracked := by
        cases tally with
        | tracked count => exact absurd hfirst (by simp [Effect.setsGauge])
        | page complete => cases complete <;> rfl
        | _ => rfl
      exact (ih hrest (c.note tally)).trans hnote

/-! ### Worlds -/

/-- What is asked outside does not set the number. -/
structure World.Quiet (world : World) : Prop where
  units : Effect.Quiet world.classifier.topology.units.effects
  zone : ∀ name, Effect.Quiet (world.classifier.topology.zone name).effects
  read : ∀ worker, Effect.Quiet (world.source.read worker).effects

theorem Effect.ofCounts_setsGauge : OfCounts setsGauge := ⟨fun _ => rfl, fun _ => rfl⟩

theorem World.Quiet.free {world : World} (h : world.Quiet) : world.Free Effect.setsGauge :=
  ⟨h.units, h.zone, h.read⟩

/-- Neither fixed lists nor a cluster, whatever it answers, set the number. -/
theorem Rehearsal.quiet_world (r : Rehearsal) : r.world.Quiet :=
  have h := r.free_world Effect.ofCounts_setsGauge
  ⟨h.units, h.zone, h.read⟩

/-! ### Watchers and crews -/

namespace Watcher

theorem quiet_takeLine (w : Watcher) (clock : Clock) (generation position : Nat) (line : String)
    (desk : Desk) : Effect.Quiet (w.takeLine clock generation position line desk).effects := by
  simp only [takeLine]
  split
  · split <;> simp [Effect.setsGauge]
  · split
    · exact Effect.quiet_nil
    · rename_i report _ _
      cases report.put <;> simp [Effect.setsGauge, Put.isStored]

theorem quiet_takeLines (w : Watcher) (clock : Clock) (generation position : Nat)
    (lines : List String) (desk : Desk) :
    Effect.Quiet (w.takeLines clock generation position lines desk).effects := by
  induction lines generalizing position desk with
  | nil => exact Effect.quiet_nil
  | cons line rest ih =>
    have hfirst := w.quiet_takeLine clock generation position line desk
    simp only [takeLines]
    split
    · exact hfirst
    · exact Effect.quiet_append.2 ⟨hfirst, ih _ _⟩

theorem quiet_pass (w : Watcher) (clock : Clock) (lines : List String) (desk : Desk) :
    Effect.Quiet (w.pass clock lines desk).effects := by
  have hnotice {p : Prop} [Decidable p] (record : Record) :
      Effect.Quiet (if p then [.record record] else []) :=
    Effect.quiet_ite (Effect.quiet_record record) Effect.quiet_nil
  simp only [pass]
  split
  · exact Effect.quiet_append.2 ⟨hnotice _, w.quiet_takeLines _ _ _ _ _⟩
  · refine Effect.quiet_append.2 ⟨Effect.quiet_append.2 ⟨hnotice _, ?_⟩, ?_⟩
    · exact w.quiet_takeLines _ _ _ _ _
    · exact Effect.quiet_ite Effect.quiet_nil (Effect.quiet_record _)

variable {source : Source} (quiet : ∀ worker, Effect.Quiet (source.read worker).effects)
include quiet

theorem quiet_catchUp (w : Watcher) (clock : Clock) (desk : Desk) :
    Effect.Quiet (w.catchUp source clock desk).effects := by
  simp only [catchUp]
  split
  · exact quiet w.worker
  · exact Effect.quiet_append.2 ⟨quiet w.worker, w.quiet_pass _ _ _⟩

theorem quiet_wake (w : Watcher) (clock : Clock) (desk : Desk) :
    Effect.Quiet (w.wake source clock desk).effects := by
  have hpass := quiet_catchUp quiet w clock desk
  simp only [wake]
  split
  · exact hpass
  · exact Effect.quiet_append.2 ⟨hpass, Effect.quiet_record _⟩
  · exact Effect.quiet_append.2 ⟨hpass, Effect.quiet_record _⟩

theorem quiet_start (w : Watcher) (rank : Nat) (clock : Clock) (desk : Desk) :
    Effect.Quiet (w.start rank source clock desk).effects := by
  simp only [start]
  split
  · exact Effect.quiet_nil
  · exact Effect.quiet_cons.2 ⟨rfl, quiet_wake quiet _ clock desk⟩

end Watcher

namespace Crew

section

variable {source : Source} (quiet : ∀ worker, Effect.Quiet (source.read worker).effects)
include quiet

theorem quiet_pollAll (clock : Clock) (watchers : List Watcher) (desk : Desk) :
    Effect.Quiet (pollAll source clock watchers desk).effects := by
  induction watchers generalizing desk with
  | nil => exact Effect.quiet_nil
  | cons w rest ih =>
    have hfirst := Watcher.quiet_catchUp quiet w clock desk
    simp only [pollAll]
    split
    · exact hfirst
    · exact Effect.quiet_append.2 ⟨hfirst, ih _⟩

theorem quiet_startFrom (clock : Clock) (rank : Nat) (watchers : List Watcher) (desk : Desk) :
    Effect.Quiet (startFrom source clock rank watchers desk).2 := by
  induction watchers generalizing desk rank with
  | nil => exact Effect.quiet_nil
  | cons w rest ih =>
    have hfirst := Watcher.quiet_start quiet w rank clock desk
    simp only [startFrom]
    exact Effect.quiet_append.2 ⟨hfirst, ih _ _⟩

end

end Crew

/-! ### The collector -/

namespace Collector

variable {c : Collector} {world : World}

theorem quiet_refresh (h : world.Quiet) (rank : Nat) (operation : String) (start : Bool) :
    Effect.Quiet (c.refresh world rank operation start).effects := by
  have hfound := h.free.workersFor Effect.ofCounts_setsGauge operation
  have hnotice (empty : Bool) :
      Effect.Quiet ((world.classifier.workersFor operation).effects ++
        if empty then [.record (Journal.noWorkers operation)] else []) :=
    Effect.quiet_append.2 ⟨hfound, Effect.quiet_ite (Effect.quiet_record _) Effect.quiet_nil⟩
  simp only [refresh, refreshWith]
  split
  · exact hfound
  · rename_i workers _
    split
    · exact hfound
    · rename_i crew _
      cases start with
      | false => exact Effect.quiet_append.2 ⟨hnotice _, Effect.quiet_nil⟩
      | true =>
        have hstarted := Crew.quiet_startFrom h.read world.clock rank
          (c.newcomers operation crew (byName workers)) ⟨crew.allocator, c.store⟩
        exact Effect.quiet_append.2 ⟨hnotice _, hstarted⟩

theorem quiet_track (h : world.Quiet) (rank : Nat) (operation : String) (start : Bool) :
    Effect.Quiet (c.track world rank operation start).effects := by
  have hasked := h.free.classify operation
  simp only [track, trackWith]
  split
  · exact hasked
  · refine Effect.quiet_append.2 ⟨hasked, Effect.quiet_cons.2 ⟨rfl, ?_⟩⟩
    exact quiet_refresh h rank operation start

theorem quiet_catchUp (h : world.Quiet) (operation : String) :
    Effect.Quiet (c.catchUp world operation).effects := by
  simp only [catchUp]
  split
  · exact Effect.quiet_nil
  · exact Crew.quiet_pollAll h.read world.clock _ _

theorem quiet_page (c : Collector) (operation : String) (start stop : Int)
    (maxWait : Option Binary64) (correlation : Option String) :
    Effect.Quiet (c.page operation start stop maxWait correlation).effects := by
  unfold page
  split
  · exact Effect.quiet_nil
  · refine Traced.free_bind ?_ fun p => Traced.free_bind ?_ fun _ => Effect.quiet_nil
    · unfold Journal.handOver
      split
      · exact Effect.quiet_record _
      · exact Effect.quiet_nil
    · exact Effect.quiet_cons.2 ⟨rfl, Effect.quiet_nil⟩

theorem quiet_wake (h : world.Quiet) (operation : String) (k : Nat) :
    Effect.Quiet (c.wake world operation k).2 := by
  rcases c.wake_cases world operation k with heq | ⟨crew, w, -, -, heq⟩
  · rw [heq]
    exact Effect.quiet_nil
  · rw [heq]
    exact Watcher.quiet_wake h.read w world.clock _

theorem quiet_tick (h : world.Quiet) : Effect.Quiet (c.tick world).2 := by
  refine List.foldlRecOn
    (motive := fun state : Collector × List Effect => Effect.Quiet state.2)
    (byRank c.loops) _ Effect.quiet_nil ?_
  intro state hstate loop _
  exact Effect.quiet_append.2 ⟨hstate, quiet_wake h loop.2.1 loop.2.2⟩

/-- The effects of an operation. -/
def told (c : Collector) : Action → List Effect
  | .track world rank operation start => (c.track world rank operation start).effects
  | .refresh world rank operation start => (c.refresh world rank operation start).effects
  | .collect world operation => (c.catchUp world operation).effects
  | .page operation start stop maxWait correlation =>
    (c.page operation start stop maxWait correlation).effects
  | .untrack operation => (c.untrack operation).2
  | .sweep retention clock => (c.sweep retention clock).2
  | .stop => c.stop.2
  | .wake world operation k => (c.wake world operation k).2
  | .tick world => (c.tick world).2

/-- What the operation asks outside does not set the number. -/
def Action.Quiet : Action → Prop
  | .track world _ _ _ => world.Quiet
  | .refresh world _ _ _ => world.Quiet
  | .collect world _ => world.Quiet
  | .wake world _ _ => world.Quiet
  | .tick world => world.Quiet
  | _ => True

theorem quiet_told {action : Action} (h : action.settles = false) (quiet : action.Quiet) :
    Effect.Quiet (c.told action) := by
  cases action with
  | track world rank operation start => exact quiet_track quiet rank operation start
  | refresh world rank operation start => exact quiet_refresh quiet rank operation start
  | collect world operation => exact quiet_catchUp quiet operation
  | page operation start stop maxWait correlation => exact c.quiet_page _ _ _ _ _
  | untrack operation => exact absurd h (by simp [Action.settles])
  | sweep retention clock => exact absurd h (by simp [Action.settles])
  | stop => exact c.free_stop Effect.ofCounts_setsGauge
  | wake world operation k => exact quiet_wake quiet operation k
  | tick world => exact quiet_tick quiet

/-- An operation that drops sequences ends by setting the number. -/
theorem told_of_settles {action : Action} (h : action.settles = true) :
    ∃ before, c.told action = before ++ [trackedTally (c.act action).store] := by
  cases action with
  | untrack operation => exact ⟨_, rfl⟩
  | sweep retention clock => exact ⟨_, rfl⟩
  | _ => exact absurd h (by simp [Action.settles])

/-! ### Runs -/

/-- A collector and the counters after some more operations. -/
def runCounting (start : Collector × Counters) (actions : List Action) : Collector × Counters :=
  actions.foldl
    (fun (c, counters) action =>
      (c.act action, counters.noteAll (Effect.tallies (c.told action))))
    start

/-- The number of sequences that the counters show after a run, if they were set up before it. -/
def gauge (halting : Bool) (actions : List Action) : Int :=
  (runCounting ({ halting }, {}) actions).2.tracked

/-- The run up to the last time that sequences were dropped. -/
def settled (actions : List Action) : List Action :=
  actions.rdropWhile fun action => !action.settles

theorem runCounting_fst (start : Collector × Counters) (actions : List Action) :
    (runCounting start actions).1 = actions.foldl act start.1 := by
  induction actions generalizing start with
  | nil => rfl
  | cons action rest ih => exact ih _

theorem gauge_concat (halting : Bool) (actions : List Action) (action : Action) :
    gauge halting (actions ++ [action]) =
      ((runCounting ({ halting }, {}) actions).2.noteAll
        (Effect.tallies ((run halting actions).told action))).tracked := by
  have hrun : (runCounting ({ halting }, {}) actions).1 = run halting actions :=
    runCounting_fst _ actions
  rw [gauge, runCounting, List.foldl_append, ← hrun]
  rfl

theorem gauge_concat_of_quiet {action : Action} (h : action.settles = false)
    (quiet : action.Quiet) (halting : Bool) (actions : List Action) :
    gauge halting (actions ++ [action]) = gauge halting actions := by
  rw [gauge_concat, Counters.tracked_noteAll (quiet_told h quiet), gauge]

theorem gauge_concat_of_settles {action : Action} (h : action.settles = true) (halting : Bool)
    (actions : List Action) {shown : Int}
    (held : Counters.held? (run halting (actions ++ [action])).store.registered.length =
      some shown) :
    gauge halting (actions ++ [action]) = shown := by
  obtain ⟨before, htold⟩ := told_of_settles (c := run halting actions) h
  rw [run_concat] at held
  rw [gauge_concat, htold, Effect.tallies_append, Counters.noteAll_append]
  -- whatever a sweep has told on the way, only the number told last remains
  show (Counters.held? _).getD _ = shown
  rw [held, Option.getD_some]

theorem settled_concat_of_settles {action : Action} (h : action.settles = true)
    (actions : List Action) : settled (actions ++ [action]) = actions ++ [action] :=
  List.rdropWhile_concat_neg _ _ _ (by simp [h])

theorem settled_concat_of_not_settles {action : Action} (h : action.settles = false)
    (actions : List Action) : settled (actions ++ [action]) = settled actions :=
  List.rdropWhile_concat_pos _ _ _ (by simp [h])

/-- Since sequences were last dropped, they have only been added. -/
theorem registered_settled (halting : Bool) (actions : List Action) :
    (run halting (settled actions)).store.registered <+:
      (run halting actions).store.registered := by
  induction actions using List.reverseRecOn with
  | nil => exact List.prefix_refl _
  | append_singleton actions action ih =>
    cases h : action.settles with
    | true =>
      rw [settled_concat_of_settles h]
    | false =>
      rw [settled_concat_of_not_settles h, run_concat]
      have hsound := (run_inStep halting actions).sound
      rcases act_store hsound h with ⟨now, -, hgrows⟩ | hsame
      · exact ih.trans hgrows.registered
      · rwa [hsame]

theorem gauge_settled (halting : Bool) {actions : List Action}
    (quiet : ∀ action ∈ actions, action.Quiet) {shown : Int}
    (held : Counters.held? (run halting (settled actions)).store.registered.length =
      some shown) :
    gauge halting actions = shown := by
  induction actions using List.reverseRecOn with
  | nil =>
    have hzero : Counters.held? ((0 : Nat) : Int) = some ((0 : Nat) : Int) :=
      Counters.held?_natCast (by decide)
    exact Option.some.inj (hzero.symm.trans held)
  | append_singleton actions action ih =>
    cases h : action.settles with
    | true =>
      rw [settled_concat_of_settles h] at held
      exact gauge_concat_of_settles h halting actions held
    | false =>
      rw [settled_concat_of_not_settles h] at held
      rw [gauge_concat_of_quiet h (quiet action (by simp))]
      exact ih (fun a ha => quiet a (List.mem_append_left _ ha)) held

/-- After every run the counters show the number of sequences there were when sequences were last
dropped. The sequences of then are still there, so the number shown is right exactly if none has been
opened since. -/
theorem gauge_shows_sequences_at_last_drop (halting : Bool) (actions : List Action)
    (quiet : ∀ action ∈ actions, action.Quiet) :
    let c := run halting actions
    let earlier := run halting (settled actions)
    (c.store.registered.Nodup ∧
        ∀ id, id ∈ c.store.registered ↔ (c.store.find? id).isSome = true) ∧
      earlier.store.registered <+: c.store.registered ∧
      (∀ shown, Counters.held? earlier.store.registered.length = some shown →
        gauge halting actions = shown) ∧
      (c.store.registered.length < 2 ^ 53 →
        gauge halting actions = earlier.store.registered.length ∧
          (gauge halting actions = c.store.registered.length ↔
            c.store.registered = earlier.store.registered)) := by
  intro c earlier
  have hsound : c.store.Sound := (run_inStep halting actions).sound
  have hkept : earlier.store.registered <+: c.store.registered :=
    registered_settled halting actions
  refine ⟨⟨hsound.nodup_registered, fun id => hsound.mem_registered_iff⟩, hkept,
    fun shown held => gauge_settled halting quiet held, ?_⟩
  intro hsmall
  have hle := hkept.length_le
  have hexact : earlier.store.registered.length < 2 ^ 53 := Nat.lt_of_le_of_lt hle hsmall
  have hgauge : gauge halting actions = earlier.store.registered.length :=
    gauge_settled halting quiet (Counters.held?_natCast hexact)
  refine ⟨hgauge, ?_⟩
  rw [hgauge]
  constructor
  · intro hlength
    exact (hkept.eq_of_length (by omega)).symm
  · intro hsame
    rw [hsame]

theorem quiet_oneWorker (lines : List String) : (oneWorker lines).Quiet where
  units := Effect.quiet_nil
  zone := fun _ => Effect.quiet_nil
  read := fun _ => Effect.quiet_nil

/-- One operation is tracked, and its first event is stored. -/
def firstEvent : List Action :=
  [.track (oneWorker ["1 - USMEventLogger.starting"]) 0 "blue" false,
    .collect (oneWorker ["1 - USMEventLogger.starting"]) "blue"]

/-- The sequence opened by the first event is counted once another operation is untracked. -/
theorem gauge_catches_up_when_untracking :
    (∀ action ∈ firstEvent ++ [.untrack "green"], action.Quiet) ∧
      (run false (firstEvent ++ [.untrack "green"])).store.registered = ["blue"] ∧
      gauge false (firstEvent ++ [.untrack "green"]) = 1 := by
  have quiet : ∀ action ∈ firstEvent ++ [.untrack "green"], action.Quiet := by
    simp [firstEvent, Action.Quiet, quiet_oneWorker]
  have hregistered : (run false (firstEvent ++ [.untrack "green"])).store.registered = ["blue"] := rfl
  have hsettled : settled (firstEvent ++ [.untrack "green"]) = firstEvent ++ [.untrack "green"] :=
    settled_concat_of_settles rfl firstEvent
  obtain ⟨-, -, -, hshown⟩ := gauge_shows_sequences_at_last_drop false _ quiet
  rw [hsettled, hregistered] at hshown
  exact ⟨quiet, hregistered, (hshown (by decide)).1⟩

/-- Until then the counters show no sequence. -/
theorem gauge_misses_first_event :
    ¬ ∀ (halting : Bool) (actions : List Action), (∀ action ∈ actions, action.Quiet) →
        gauge halting actions = (run halting actions).store.registered.length := by
  intro accurate
  have quiet : ∀ action ∈ firstEvent, action.Quiet := by
    simp [firstEvent, Action.Quiet, quiet_oneWorker]
  have hgauge : gauge false firstEvent = 0 := rfl
  have hregistered : (run false firstEvent).store.registered = ["blue"] := rfl
  have hequal := accurate false firstEvent quiet
  rw [hgauge, hregistered] at hequal
  exact absurd hequal (by decide)

end Collector

end Lifecycle
