import Lifecycle.Proofs.Collector.Accounts
import Lifecycle.Proofs.Rehearsal.Polling

/-! # The counters account for every outcome

The counters are set up on an empty store, events are put by watchers alone, and then whatever may
happen happens: passes that end early, loops that halt, retries, evictions and sweeps. At each moment
the counters tell what the puts of all polls returned and which malformed lines the polls met, and
the number of stored events is the number of those that are live or were live when their sequence was
dropped. -/

namespace Lifecycle

open Store

namespace Rehearsal

/-! ### The polls of a step -/

/-- The polls of the watcher at a place. -/
def pollsAt (r : Rehearsal) (place : Place) (polls : Watcher → Desk → List PollCall) :
    List PollCall :=
  match r.watcherAt place with
  | none => []
  | some w => polls w (r.deskOf place)

/-- The polls of a named watcher. -/
def pollsNamed (r : Rehearsal) (name : String) (polls : Watcher → Desk → List PollCall) :
    List PollCall :=
  match r.placeOf? name with
  | none => []
  | some place => r.pollsAt place polls

/-- The poll of a loop that wakes. -/
def wakePolls (r : Rehearsal) : Bool × String × Nat → List PollCall
  | (true, operation, k) => r.collector.wakePolls r.world operation k
  | (false, place) => r.pollsAt place fun w desk => [⟨w, r.world.moment, desk⟩]

/-- The polls of loops that wake one after the other. -/
def wakeAllPolls (r : Rehearsal) : List (Nat × Bool × String × Nat) → List PollCall
  | [] => []
  | (_, place) :: rest => r.wakePolls place ++ (r.wake place).1.wakeAllPolls rest

/-- The polls that watchers make when a line of the script is played. -/
def pollsOf (r : Rehearsal) : Step → List PollCall
  | .catchUp name => r.pollsNamed name fun w desk => [⟨w, r.world.moment, desk⟩]
  | .start name => r.pollsNamed name fun w desk => w.startPolls r.world.moment r.nextRank desk
  | .tick => r.wakeAllPolls (Collector.byRank r.loops)
  | .track id start => r.collector.trackPolls r.world r.nextRank id start
  | .refresh id start => r.collector.refreshPolls r.world r.nextRank id start
  | .catchUpAll id => r.collector.catchUpPolls r.world id
  | _ => []

/-- The step reads a page through the collector, which is handed over. -/
def handsOverPage (r : Rehearsal) : Step → Bool
  | .collectorPage id start stop maxWait correlation =>
    (r.play (.collectorPage id start stop maxWait correlation)).value.isOk
  | _ => false

/-- The step leaves it to watchers to put events, and counts nothing by hand. -/
def Step.leavesPuts : Step → Bool
  | .put _ _ _ => false
  | .putMany _ _ => false
  | .putRange _ _ _ _ => false
  | .heldPut _ _ => false
  | .racingPut _ _ _ _ => false
  | .note _ => false
  | _ => true

/-! ### What a step adds -/

/-- The outcome accounts for these polls and this number of pages. -/
structure Accounts (polls : List PollCall) (pages : Nat) (r : Rehearsal)
    (outcome : Outcome Rehearsal Answer) : Prop where
  sound : outcome.state.store.Sound
  live : outcome.state.store.liveSizes + r.store.droppedSizes outcome.state.store =
    r.store.liveSizes + (polls.flatMap PollCall.puts).countP Put.isStored
  silent : ∀ p ∈ polls, Effect.tallies (p.moment.source.read p.watcher.worker).effects = []
  counted : ∀ c : Counters, c.Counted polls pages (c.noteAll (Effect.tallies outcome.effects))
  counters : ∀ c, r.counters = some c → outcome.state.counters = some c

namespace Accounts

variable {r : Rehearsal} {polls : List PollCall} {outcome : Outcome Rehearsal Answer}

theorem of_polled (h : Polled polls outcome.effects r.store outcome.state.store)
    (kept : ∀ c, r.counters = some c → outcome.state.counters = some c) :
    Accounts polls 0 r outcome where
  sound := h.sound
  live := by rw [droppedSizes_of_subset h.registered.subset, h.live, Nat.add_zero]
  silent := h.silent
  counted := by
    intro c
    rw [h.tallies]
    exact c.counted_polls polls
  counters := kept

theorem of_drops (hs : r.store.Sound) (h : Drops r.store outcome.state.store)
    (numbers : Effect.TellNumbers outcome.effects)
    (kept : ∀ c, r.counters = some c → outcome.state.counters = some c) :
    Accounts [] 0 r outcome where
  sound := h.sound
  live := h.liveSizes_add hs
  silent := fun _ hp => absurd hp List.not_mem_nil
  counted := fun c => c.counted_numbers numbers
  counters := kept

/-- The step only looks, or changes what is neither stored nor counted. -/
theorem of_same (hs : r.store.Sound) (same : outcome.state.store = r.store)
    (uncounted : Effect.tallies outcome.effects = [])
    (kept : ∀ c, r.counters = some c → outcome.state.counters = some c) :
    Accounts [] 0 r outcome := by
  refine of_polled ?_ kept
  rw [same]
  exact (Polled.refl hs).congr uncounted

theorem ask {α : Type} (hs : r.store.Sound) {x : Traced α}
    (free : Effect.Free Effect.isTally x.effects) (f : α → Answer) :
    Accounts [] 0 r (r.ask x f) :=
  of_same hs rfl (Effect.tallies_of_free free) fun _ hc => hc

theorem inWindow (hs : r.store.Sound) {start stop : Int} {f : Window → Outcome Rehearsal Answer}
    (hf : ∀ w, Accounts [] 0 r (f w)) : Accounts [] 0 r (r.inWindow start stop f) := by
  rw [Rehearsal.inWindow]
  cases Window.asked start stop with
  | error fault => exact of_same hs rfl rfl fun _ hc => hc
  | ok w => exact hf w

theorem withHeld (hs : r.store.Sound) {name : String} {f : Nat → Slot → Outcome Rehearsal Answer}
    (hf : ∀ number slot, Accounts [] 0 r (f number slot)) :
    Accounts [] 0 r (r.withHeld name f) := by
  rw [Rehearsal.withHeld]
  cases r.heldSlot? name with
  | none => exact of_same hs rfl rfl fun _ hc => hc
  | some held => exact hf held.1 held.2

theorem actNamed (hs : r.store.Sound) (name : String)
    {f : Watcher → Desk → Outcome (Watcher × Desk) Answer}
    {polls : Watcher → Desk → List PollCall}
    (hf : ∀ w desk, desk.store.Sound →
      Polled (polls w desk) (f w desk).effects desk.store (f w desk).state.2.store) :
    Accounts (r.pollsNamed name polls) 0 r (r.actNamed name f) := by
  rw [pollsNamed]
  cases hplace : r.placeOf? name with
  | none =>
    rw [actNamed_of_none hplace]
    exact of_same hs rfl rfl fun _ hc => hc
  | some place =>
    obtain ⟨w, hw⟩ := (placeOf?_eq_some hplace).2
    rw [actNamed_of_placeOf? hplace hw]
    simp only [pollsAt, hw]
    exact of_polled (hf w (r.deskOf place) hs) fun _ hc => hc

end Accounts

variable {r : Rehearsal}

theorem polled_wake (hs : r.store.Sound) (place : Bool × String × Nat) :
    Polled (r.wakePolls place) (r.wake place).2 r.store (r.wake place).1.store ∧
      (r.wake place).1.counters = r.counters := by
  obtain ⟨own, place⟩ := place
  have silent := r.free_world Effect.ofCounts_isTally
  cases own with
  | true => exact ⟨Collector.polled_wake hs silent place.1 place.2, rfl⟩
  | false =>
    cases hw : r.watcherAt place with
    | none =>
      rw [wake, act_of_none hw, wakePolls, pollsAt, hw]
      exact ⟨Polled.refl hs, rfl⟩
    | some w =>
      have hpolled := Watcher.polled_wake (m := r.world.moment)
        (fun worker => Effect.tallies_of_free (silent.read worker)) w (r.deskOf place) hs
      rw [wake, act_of_watcherAt hw, wakePolls, pollsAt, hw]
      exact ⟨hpolled, rfl⟩

theorem polled_wakeAll (hs : r.store.Sound) (loops : List (Nat × Bool × String × Nat))
    (effects : List Effect) :
    let woken := loops.foldl
      (fun (r, effects) (_, place) =>
        let woken := r.wake place
        (woken.1, effects ++ woken.2))
      (r, effects)
    ∃ others, woken.2 = effects ++ others ∧
      Polled (r.wakeAllPolls loops) others r.store woken.1.store ∧
      woken.1.counters = r.counters := by
  induction loops generalizing r effects with
  | nil => exact ⟨[], (List.append_nil effects).symm, Polled.refl hs, rfl⟩
  | cons loop rest ih =>
    obtain ⟨hfirst, hkept⟩ := polled_wake hs loop.2
    obtain ⟨others, heffects, hrest, hcounters⟩ := ih hfirst.sound (effects ++ (r.wake loop.2).2)
    refine ⟨(r.wake loop.2).2 ++ others, ?_, hfirst.trans hrest, hcounters.trans hkept⟩
    rw [← List.append_assoc]
    exact heffects

theorem accounts_tick (hs : r.store.Sound) :
    Accounts (r.pollsOf .tick) 0 r (r.act? .tick) := by
  obtain ⟨others, heffects, hpolled, hkept⟩ := polled_wakeAll hs (Collector.byRank r.loops) []
  refine .of_polled ?_ fun c hc => hkept.trans hc
  exact hpolled.congr (congrArg Effect.tallies heffects)

theorem accounts_page (hs : r.store.Sound) (operation : String) (start stop : Int)
    (maxWait : Option Binary64) (correlation : Option String) :
    let step : Step := .collectorPage operation start stop maxWait correlation
    Accounts [] (if r.handsOverPage step then 1 else 0) r (r.act? step) := by
  intro step
  have htallies := r.collector.tallies_page operation start stop maxWait correlation
  have hsame : Accounts [] 0 r (r.answer .nothing) := .of_same hs rfl rfl fun _ hc => hc
  refine ⟨hsame.sound, hsame.live, hsame.silent, ?_, hsame.counters⟩
  intro c
  cases hvalue : (r.collector.page operation start stop maxWait correlation).value with
  | error fault =>
    have hnone : r.handsOverPage step = false := by
      simp only [step, handsOverPage, play, act?, Rehearsal.ask, hvalue]
      rfl
    rw [hvalue] at htallies
    rw [hnone, if_neg Bool.false_ne_true]
    simp only [step, act?, Rehearsal.ask, htallies]
    exact Counters.Counted.refl c
  | ok page =>
    have hone : r.handsOverPage step = true := by
      simp only [step, handsOverPage, play, act?, Rehearsal.ask, hvalue]
      rfl
    rw [hvalue] at htallies
    rw [hone, if_pos rfl]
    simp only [step, act?, Rehearsal.ask, htallies]
    exact c.counted_page page.isComplete

/-- What each line of a script adds to the counters and to the store. -/
theorem accounts_act (hs : r.store.Sound) {step : Step} (h : step.leavesPuts = true) :
    Accounts (r.pollsOf step) (if r.handsOverPage step then 1 else 0) r (r.act? step) := by
  have world := r.free_world Effect.ofCounts_isTally
  have hread (worker : Worker) : Effect.tallies (r.world.moment.source.read worker).effects = [] :=
    Effect.tallies_of_free (world.read worker)
  have hrecord {p : Prop} [Decidable p] (record : Record) :
      Effect.Free Effect.isTally (if p then [.record record] else []) := by
    split
    · exact Effect.ofCounts_isTally.free_record record
    · exact Effect.free_nil _
  have hsetUp (c : Counters) (hc : r.counters = some c) : (Counters.setUp r.counters).1 = some c := by
    rw [hc]
    rfl
  cases step with
  | put id order correlation => exact absurd h Bool.false_ne_true
  | putMany id indices => exact absurd h Bool.false_ne_true
  | putRange id first last stride => exact absurd h Bool.false_ne_true
  | heldPut name order => exact absurd h Bool.false_ne_true
  | racingPut name id order correlation => exact absurd h Bool.false_ne_true
  | note tally => exact absurd h Bool.false_ne_true
  | extract id start stop => exact .inWindow hs fun w => .of_same hs rfl rfl fun _ hc => hc
  | extractIndices id start stop => exact .inWindow hs fun w => .of_same hs rfl rfl fun _ hc => hc
  | isComplete id start stop => exact .inWindow hs fun w => .of_same hs rfl rfl fun _ hc => hc
  | grid id low high =>
    show Accounts [] 0 r (if high < low then _ else _)
    split
    · exact .of_same hs rfl rfl fun _ hc => hc
    · exact .inWindow hs fun w => .of_same hs rfl rfl fun _ hc => hc
  | evict id =>
    exact .of_drops hs (hs.drops_evict id) (Effect.tellNumbers_of_free (hrecord _)) fun _ hc => hc
  | evictIdle maxIdle now =>
    refine .of_drops hs (hs.drops_evictIdle maxIdle _) (Effect.tellNumbers_of_free ?_) fun _ hc => hc
    intro e he
    obtain ⟨id, -, rfl⟩ := List.mem_map.1 he
    rfl
  | hold id name =>
    rw [act?]
    cases r.store.current? id <;> exact .of_same hs rfl rfl fun _ hc => hc
  | heldState name => exact .withHeld hs fun _ _ => .of_same hs rfl rfl fun _ hc => hc
  | heldIsComplete name start stop =>
    exact .withHeld hs fun _ _ => .inWindow hs fun w => .of_same hs rfl rfl fun _ hc => hc
  | poll id start stop maxWait correlation evictBetween =>
    refine .inWindow hs fun w => ?_
    have hasked (page : Page) :
        Effect.Free Effect.isTally (Journal.handOver page correlation).effects := by
      rw [Journal.handOver]
      split
      · exact Effect.ofCounts_isTally.free_record _
      · exact Effect.free_nil _
    have hall (dropped : Bool) (page : Page) : Effect.TellNumbers
        ((if dropped then [.record (Journal.evicted id)] else []) ++
          (Journal.handOver page correlation).effects) :=
      Effect.tellNumbers_of_free (Effect.free_append.2 ⟨hrecord _, hasked page⟩)
    cases evictBetween with
    | false => exact .of_drops hs (Drops.refl hs) (hall _ _) fun _ hc => hc
    | true => exact .of_drops hs (hs.drops_evict id) (hall _ _) fun _ hc => hc
  | units => exact .ask hs world.units _
  | zone name => exact .ask hs (world.zone name) _
  | classify id => exact .ask hs (world.classify id) _
  | isDeployment id => exact .ask hs (world.isDeployment id) _
  | isUndeployment id => exact .ask hs (world.isDeployment id) _
  | workersFor id => exact .ask hs (world.workersFor Effect.ofCounts_isTally id) _
  | inspectUnit unit => exact .ask hs (world.workersOf unit) _
  | readLines worker => exact .ask hs (world.read _) _
  | catchUp name =>
    refine .actNamed hs name fun w desk hd => ?_
    exact .poll (p := ⟨w, r.world.moment, desk⟩) hd (hread w.worker)
  | watcherState name =>
    rw [act?]
    cases r.watcher? name <;> exact .of_same hs rfl rfl fun _ hc => hc
  | start name => exact .actNamed hs name fun w desk hd => Watcher.polled_start hread w _ desk hd
  | stop name =>
    have hstop : Accounts (r.pollsNamed name fun _ _ => []) 0 r (r.act? (.stop name)) := by
      refine .actNamed hs name fun w desk hd => (Polled.refl hd).congr ?_
      simp only [showWatcher, Watcher.stop]
      split <;> rfl
    have hnone : (r.pollsNamed name fun _ _ => []) = [] := by
      simp only [pollsNamed, pollsAt]
      split
      · rfl
      · split <;> rfl
    rwa [hnone] at hstop
  | tick => exact accounts_tick hs
  | track id start =>
    exact .of_polled (Collector.polled_track hs world _ id start) fun _ hc => hc
  | refresh id start =>
    exact .of_polled (Collector.polled_refresh hs world _ id start) fun _ hc => hc
  | catchUpAll id => exact .of_polled (Collector.polled_catchUp hs world id) fun _ hc => hc
  | collectorPage id start stop maxWait correlation =>
    exact accounts_page hs id start stop maxWait correlation
  | untrack id =>
    exact .of_drops hs (hs.drops_evict id) (r.collector.tellNumbers_untrack id) fun _ hc => hc
  | sweep =>
    obtain ⟨hdrops, heffects⟩ := Collector.sweep_drops hs r.retention r.clock
    exact .of_drops hs hdrops heffects fun _ hc => hc
  | stopCollector =>
    have hstop := Effect.tallies_of_free (r.collector.free_stop Effect.ofCounts_isTally)
    exact .of_same hs rfl hstop fun _ hc => hc
  | setUpCounters =>
    refine .of_same hs rfl ?_ hsetUp
    simp only [act?, Counters.setUp]
    split <;> rfl
  | startServer wanted counterPort failure =>
    cases wanted with
    | false => exact .of_same hs rfl rfl fun _ hc => hc
    | true =>
      refine .of_same hs rfl ?_ hsetUp
      simp only [act?, Counters.startServer, Counters.setUp]
      cases r.counters <;> rfl
  | _ => exact .of_same hs rfl rfl fun _ hc => hc

/-! ### Whole runs -/

/-- A rehearsal after some lines of a script. -/
def playSteps (r : Rehearsal) (steps : List Step) : Rehearsal :=
  steps.foldl (fun r step => (r.play step).state) r

/-- The lines of a script, each with the rehearsal in which it is played. -/
def scenes (r : Rehearsal) : List Step → List (Rehearsal × Step)
  | [] => []
  | step :: rest => (r, step) :: (r.play step).state.scenes rest

/-- The polls of a whole script. -/
def allPolls (r : Rehearsal) (steps : List Step) : List PollCall :=
  (r.scenes steps).flatMap fun (r, step) => r.pollsOf step

/-- The number of pages that the collector handed over. -/
def pageCount (r : Rehearsal) (steps : List Step) : Nat :=
  (r.scenes steps).countP fun (r, step) => r.handsOverPage step

/-- What the sequences held that were dropped, each at the moment it was dropped. -/
def droppedInAll (r : Rehearsal) (steps : List Step) : Nat :=
  ((r.scenes steps).map fun (r, step) => r.store.droppedSizes (r.play step).state.store).sum

theorem accounts_play {c : Counters} (hs : r.store.Sound) (hc : r.counters = some c) {step : Step}
    (h : step.leavesPuts = true) :
    let after := (r.play step).state
    after.store.Sound ∧
      after.store.liveSizes + r.store.droppedSizes after.store =
        r.store.liveSizes + ((r.pollsOf step).flatMap PollCall.puts).countP Put.isStored ∧
      (∀ p ∈ r.pollsOf step,
        Effect.tallies (p.moment.source.read p.watcher.worker).effects = []) ∧
      ∃ next, after.counters = some next ∧
        c.Counted (r.pollsOf step) (if r.handsOverPage step then 1 else 0) next := by
  have hact := accounts_act hs h
  refine ⟨hact.sound, hact.live, hact.silent, _, ?_, hact.counted c⟩
  simp only [play, hact.counters c hc, Option.map_some]

theorem accounts_run {c : Counters} (hs : r.store.Sound) (hc : r.counters = some c)
    {steps : List Step} (h : ∀ step ∈ steps, step.leavesPuts = true) :
    let after := r.playSteps steps
    after.store.Sound ∧
      after.store.liveSizes + r.droppedInAll steps =
        r.store.liveSizes + ((r.allPolls steps).flatMap PollCall.puts).countP Put.isStored ∧
      (∀ p ∈ r.allPolls steps,
        Effect.tallies (p.moment.source.read p.watcher.worker).effects = []) ∧
      ∃ next, after.counters = some next ∧
        c.Counted (r.allPolls steps) (r.pageCount steps) next := by
  induction steps generalizing r c with
  | nil =>
    exact ⟨hs, rfl, fun _ hp => absurd hp List.not_mem_nil, c, hc, Counters.Counted.refl c⟩
  | cons step rest ih =>
    obtain ⟨hsound, hlive, hsilent, between, hbetween, hcounted⟩ :=
      accounts_play hs hc (h step List.mem_cons_self)
    obtain ⟨hsound', hlive', hsilent', next, hnext, hcounted'⟩ :=
      ih hsound hbetween fun other hother => h other (List.mem_cons_of_mem step hother)
    have hpolls : r.allPolls (step :: rest) =
        r.pollsOf step ++ (r.play step).state.allPolls rest := rfl
    have hpages : r.pageCount (step :: rest) =
        (if r.handsOverPage step then 1 else 0) + (r.play step).state.pageCount rest := by
      rw [pageCount, scenes, List.countP_cons, Nat.add_comm]
      rfl
    have hdropped : r.droppedInAll (step :: rest) =
        r.store.droppedSizes (r.play step).state.store +
          (r.play step).state.droppedInAll rest := by
      rw [droppedInAll, scenes, List.map_cons, List.sum_cons]
      rfl
    refine ⟨hsound', ?_, ?_, next, hnext, ?_⟩
    · rw [hpolls, hdropped, List.flatMap_append, List.countP_append]
      have hlast : (r.playSteps (step :: rest)).store =
          ((r.play step).state.playSteps rest).store := rfl
      rw [hlast]
      omega
    · intro p hp
      rw [hpolls, List.mem_append] at hp
      exact hp.elim (hsilent p) (hsilent' p)
    · rw [hpolls, hpages]
      exact hcounted.trans hcounted'

/-! ### Main result -/

/-- A page with a bound below zero is refused and counted nowhere. -/
theorem play_page_of_negative (r : Rehearsal) (operation : String) {start stop : Int}
    (h : start < 0 ∨ stop < 0) (maxWait : Option Binary64) (correlation : Option String) :
    let asked := r.play (.collectorPage operation start stop maxWait correlation)
    asked.value = .error (BadBounds.fault ⟨start, stop⟩) ∧ asked.state.counters = r.counters := by
  simp only [play, act?, Rehearsal.ask, Collector.page, Window.asked_of_negative h]
  refine ⟨rfl, ?_⟩
  cases r.counters <;> rfl

/-- The counters after a run that begins with setting them up, while no sequence is live, and that
leaves all puts to watchers. The events stored are those whose puts said so, told by their watcher or
not, and they are in the live sequences or were in those that were dropped. A poll that ends well
answers with the number of events it has added to the counter. -/
theorem counters_account_for_every_outcome (r : Rehearsal) (sound : r.store.Sound)
    (empty : r.store.registered = []) (fresh : r.counters = none) (steps : List Step)
    (watched : ∀ step ∈ steps, step.leavesPuts = true) :
    let start := (r.play .setUpCounters).state
    let after := start.playSteps steps
    let polls := start.allPolls steps
    let puts := polls.flatMap PollCall.puts
    ∃ c, after.counters = some c ∧
      c.stored = puts.countP Put.isStored ∧
      c.stored = after.store.liveSizes + start.droppedInAll steps ∧
      c.duplicate = puts.countP (fun put => !put.isStored) ∧
      c.malformed = (polls.flatMap PollCall.malformed).length ∧
      c.complete.getD 0 + c.incomplete.getD 0 = start.pageCount steps ∧
      (∀ p ∈ polls, ∀ before : Counters,
        let later := before.noteAll (Effect.tallies p.outcome.effects)
        later.malformed = before.malformed + p.malformed.length ∧
          ∀ n, p.outcome.value = .ok n → later.stored = before.stored + n) ∧
      (∀ operation first last maxWait correlation, first < 0 ∨ last < 0 →
        let asked := after.play (.collectorPage operation first last maxWait correlation)
        asked.value = .error (BadBounds.fault ⟨first, last⟩) ∧ asked.state.counters = some c) ∧
      (after.play .setUpCounters).state.counters = some c ∧
      ∀ wanted counterPort failure,
        (after.play (.startServer wanted counterPort failure)).state.counters = some c := by
  intro start after polls puts
  have hstart : start.counters = some {} := by
    simp only [start, play, act?, fresh]
    rfl
  obtain ⟨-, hlive, hsilent, c, hc, hcounted⟩ := accounts_run (r := start) sound hstart watched
  have hnothing : start.store.liveSizes = 0 := by
    show (r.store.registered.map r.store.size).sum = 0
    rw [empty]
    rfl
  have hstored : c.stored = puts.countP Put.isStored := by
    rw [hcounted.stored]
    exact Nat.zero_add _
  refine ⟨c, hc, hstored, ?_, ?_, ?_, ?_, ?_, ?_, ?_, ?_⟩
  · rw [hstored, hlive, hnothing, Nat.zero_add]
  · rw [hcounted.duplicate]
    exact Nat.zero_add _
  · rw [hcounted.malformed]
    exact Nat.zero_add _
  · rw [hcounted.pages]
    exact Nat.zero_add _
  · intro p hp before
    obtain ⟨htallies, hvalue, -⟩ := p.spec (hsilent p hp)
    obtain ⟨hcount, -, hmalformed, -⟩ := before.noteAll_answers p.putAnswers
    rw [htallies]
    refine ⟨?_, ?_⟩
    · rw [p.length_malformed]
      exact hmalformed
    · intro n hn
      rw [hvalue n hn]
      exact hcount
  · intro operation first last maxWait correlation hneg
    rw [← hc]
    exact after.play_page_of_negative operation hneg maxWait correlation
  · simp only [play, act?, after, hc]
    rfl
  · intro wanted counterPort failure
    simp only [play, act?, after, hc]
    cases wanted <;> rfl

/-- Two watchers of one log, the first of which halts, is polled again and halts again. Pages are
read, one of them out of bounds, and the deployment is dropped. -/
def busyScript : List Step :=
  let worker : Worker := ⟨"pod-0", ⟨"node-1", "10.0.0.1"⟩⟩
  [.setLines "pod-0"
      ["1 - USMEventLogger.starting", "2 USMEventLogger", "3 - USMEventLogger.started"],
    .newWatcher "first" "blue" { deployment := "blue", worker, halting := true },
    .newWatcher "second" "blue" { deployment := "blue", worker },
    .catchUp "first", .catchUp "first", .catchUp "second",
    .collectorPage "blue" 0 1 none none, .collectorPage "blue" 0 5 none none,
    .collectorPage "blue" (-1) 5 none none, .evict "blue"]

theorem busy_script_is_accounted_for :
    let start := (({} : Rehearsal).play .setUpCounters).state
    ({} : Rehearsal).store.Sound ∧ ({} : Rehearsal).store.registered = [] ∧
      ({} : Rehearsal).counters = none ∧ (∀ step ∈ busyScript, step.leavesPuts = true) ∧
      start.droppedInAll busyScript = 2 ∧
      ∃ c, (start.playSteps busyScript).counters = some c ∧ c.stored = 2 ∧ c.duplicate = 1 ∧
        c.malformed = 3 ∧ c.complete.getD 0 + c.incomplete.getD 0 = 2 := by
  intro start
  have watched : ∀ step ∈ busyScript, step.leavesPuts = true := by decide
  obtain ⟨c, hc, hstored, -, hduplicate, hmalformed, hpages, -⟩ :=
    counters_account_for_every_outcome {} Store.sound_empty rfl rfl busyScript watched
  refine ⟨Store.sound_empty, rfl, rfl, watched, by decide +kernel, c, hc, ?_, ?_, ?_, ?_⟩
  · rw [hstored]
    decide +kernel
  · rw [hduplicate]
    decide +kernel
  · rw [hmalformed]
    decide +kernel
  · rw [hpages]
    decide +kernel

end Rehearsal

end Lifecycle
