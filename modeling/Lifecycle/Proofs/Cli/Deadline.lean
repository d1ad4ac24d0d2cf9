import Lifecycle.Cli.Run
import Lifecycle.Proofs.Cli.Shown
import Lifecycle.Proofs.Crew.Places
import Lifecycle.Proofs.Page.Poll
import Lifecycle.Proofs.Waiting.Turns

/-! # Collecting a page until a deadline

The command that collects a page waits for it until its timeout has passed. Whatever the readings of
the page, the pauses and the searches for new workers come to, as long as time moves only while the
command sleeps the wait keeps to its deadline: it ends with the first complete page, or with a
reading at the deadline itself, or with a fault. In each case the collector is stopped once, after
all of this, and then no loop runs. A timeout without end, or one that is no number, sets no
deadline.

The wait does not begin where the words that announce it cannot be shown. Then the command fails, and
the collector is not stopped: the loops that were started when the operation was tracked go on. -/

namespace Lifecycle

/-! ### What stopping leaves -/

/-- Stopping watchers leaves a record of each loop that was running. -/
theorem Watcher.effects_stop (watchers : List Watcher) :
    watchers.flatMap (fun w => w.stop.2) = (watchers.filter isRunning).map fun w =>
      .record (Journal.stopped w.worker.name w.correlation) := by
  induction watchers with
  | nil => rfl
  | cons w rest ih =>
    rw [List.flatMap_cons, ih, stop, List.filter_cons]
    split <;> rfl

theorem Collector.effects_stop (c : Collector) :
    c.stop.2 = ((c.tracked.flatMap fun e => e.2.watchers).filter Watcher.isRunning).map fun w =>
      .record (Journal.stopped w.worker.name w.correlation) := by
  rw [← Watcher.effects_stop, List.flatMap_assoc]
  rfl

namespace Cli

open Waiting (Turn)

variable {σ : Type}

/-- Time moves while the command sleeps, and at no other time. -/
structure Collecting.KeepsTime (c : Collecting σ) : Prop where
  poll : ∀ s left, c.clock (c.poll s left).state = c.clock s
  sleep : ∀ time s, (c.sleep time s).value = .ok () →
    c.clock (c.sleep time s).state = time (c.clock s)
  refresh : ∀ s, c.clock (c.refresh s).state = c.clock s

theorem Collecting.KeepsTime.waiting {c : Collecting σ} (keeps : c.KeepsTime) :
    (c.waiting Clock.advance).KeepsTime where
  poll s left := congrArg Clock.monotonic (keeps.poll s left)
  pause s seconds := by
    show (c.pause (Clock.advance · seconds) s).value = .ok () →
      (c.clock (c.pause (Clock.advance · seconds) s).state).monotonic = _
    rw [pause]
    cases hslept : (c.sleep (Clock.advance · seconds) s).value with
    | error fault =>
      intro hvalue
      exact absurd (hslept.symm.trans hvalue) (by simp)
    | ok =>
      intro _
      dsimp only
      rw [keeps.refresh, keeps.sleep _ _ hslept]
      rfl

theorem Session.keepsTime (operation : String) (request : PageRequest) :
    (Session.collecting operation request).KeepsTime where
  poll _ _ := rfl
  sleep _ _ _ := rfl
  refresh _ := rfl

/-- A complete page that a session reads has the event of each index of its window, in order. -/
theorem Session.events_of_poll {operation : String} {request : PageRequest} {s : Session}
    {left : Option Rat} {page : Page} {events : List Event}
    (read : ((Session.collecting operation request).poll s left).value = .ok page)
    (complete : page.content = .complete events) :
    events.map some = (Window.indices ⟨request.start, request.stop⟩).map
      (s.collector.store.event? operation) := by
  have hpoll : (Page.poll s.collector.store s.collector.store operation request.start request.stop
      (left.map .ofRat) (some operation)).value = .ok page :=
    (Collector.value_page _ _ _ _ _ _).symm.trans read
  obtain ⟨-, -, -, hfull, rfl⟩ := Page.poll_complete_iff.1 ⟨page, hpoll, complete⟩
  exact Store.map_some_extract hfull

/-! ### The wait of the command -/

section

variable {c : Collecting σ} {console : Console} {timeout interval : Binary64} {p i : Rat}

theorem lostReading_of_toRat? (hi : interval.toRat? = some i) (patience : Option Rat) :
    lostReading patience interval = none := by
  cases interval with
  | nan => exact absurd hi (by simp [Binary64.toRat?])
  | infinite negative => exact absurd hi (by simp [Binary64.toRat?])
  | finite negative significand exponent =>
    simp only [lostReading]
    split <;> rfl

theorem pauses_of_pos (positive : 0 < i) (p : Rat) (changes : Nat) :
    Waiting.pauses (some p) (some i) changes = (p / i).ceil.toNat := by
  simp only [Waiting.pauses, if_pos positive]

theorem awaitPage_of_patience (hp : patience timeout = some p) (hi : interval.toRat? = some i)
    (positive : 0 < i) (s : σ) :
    awaitPage c timeout interval s =
      (c.waiting Clock.advance).await (some ((c.clock s).monotonic + p)) (some i)
        (p / i).ceil.toNat s := by
  simp only [awaitPage, hp, hi, lostReading_of_toRat? hi, pauses_of_pos positive, Option.map_some]

theorem patience_le_ceil_mul (positive : 0 < i) (p : Rat) : p ≤ ((p / i).ceil.toNat : Nat) * i := by
  have hceil : p / i ≤ ((p / i).ceil : Rat) := Rat.le_ceil
  have htoNat : ((p / i).ceil : Rat) ≤ ((p / i).ceil.toNat : Rat) := by
    exact_mod_cast Int.self_le_toNat (p / i).ceil
  exact (div_le_iff₀ positive).1 (hceil.trans htoNat)

theorem toNat_ceil_le (positive : 0 < i) (p : Rat) :
    ((p / i).ceil.toNat : Int) ≤ (max p 0 / i).ceil := by
  obtain hneg | hpos := le_total p 0
  · have hceil : (p / i).ceil ≤ 0 :=
      Rat.ceil_le_iff.2 (by exact_mod_cast div_nonpos_of_nonpos_of_nonneg hneg positive.le)
    rw [max_eq_right hneg, zero_div]
    show ((p / i).ceil.toNat : Int) ≤ 0
    omega
  · rw [max_eq_left hpos]
    have hceil : (0 : Rat) ≤ ((p / i).ceil : Rat) := (div_nonneg hpos positive.le).trans Rat.le_ceil
    have hceil : 0 ≤ (p / i).ceil := by exact_mod_cast hceil
    omega

/-- Where the announcement is shown, the wait follows, and then the collector is stopped. -/
theorem collectWith_of_announced (timeout interval : Binary64) {operation words : String}
    {request : PageRequest} {s : σ} {kind : Kind} (tracked : (c.track s).value = .ok kind)
    (announced : announcement console request kind operation = .ok words) :
    let waited := awaitPage c timeout interval (c.track s).state
    let collected := collectWith c console operation timeout interval request s
    collected.1 = (c.stop waited.state).1 ∧
      collected.2.ending = (showWaited console request operation waited.value).1 ∧
      collected.2.output = words ++ (showWaited console request operation waited.value).2 ∧
      collected.2.effects = (c.track s).effects ++ (waited.effects ++ (c.stop waited.state).2) := by
  intro waited collected
  simp only [collected, collectWith, tracked, announced, waitForPage]
  exact ⟨rfl, rfl, rfl, rfl⟩

theorem collectWith_of_garbled (timeout interval : Binary64) {operation : String}
    {request : PageRequest} {s : σ} {kind : Kind} {fault : Markup.Fault}
    (tracked : (c.track s).value = .ok kind)
    (garbled : announcement console request kind operation = .error fault) :
    collectWith c console operation timeout interval request s =
      ((c.track s).state, { ending := .garbled fault, effects := (c.track s).effects }) := by
  simp only [collectWith, tracked, garbled]

/-- What is announced can also be shown over the page. -/
theorem exists_title_of_announced {operation words : String} {request : PageRequest} {kind : Kind}
    (people : request.json = false)
    (announced : announcement console request kind operation = .ok words) :
    ∃ title, console.shown (pageTitle request operation) = .ok title :=
  exists_title_iff.2 ((exists_announcement_iff people).1 ⟨words, announced⟩)

theorem showWaited_complete {operation words : String} {request : PageRequest} {kind : Kind}
    (announced : announcement console request kind operation = .ok words) {page : Page}
    {events : List Event} (complete : page.content = .complete events) :
    (showWaited console request operation (.ok page)).1 = .done ∧
      (request.json = true →
        (showWaited console request operation (.ok page)).2 = (pageJson events).pretty ++ "\n") ∧
      (request.json = false → ∃ title,
        console.shown (pageTitle request operation) = .ok title ∧
        (showWaited console request operation (.ok page)).2 =
          (pageTable console title events).render) := by
  rw [showWaited]
  cases hjson : request.json with
  | true =>
    rw [showPage_json hjson complete]
    exact ⟨rfl, fun _ => rfl, fun h => absurd h (by decide)⟩
  | false =>
    obtain ⟨title, htitle⟩ := exists_title_of_announced hjson announced
    rw [showPage_table hjson complete htitle]
    exact ⟨rfl, fun h => absurd h (by decide), fun _ => ⟨title, htitle, rfl⟩⟩

theorem showWaited_gap {operation : String} {request : PageRequest} {page : Page}
    (gap : page.isComplete = false) :
    (showWaited console request operation (.ok page)).1 = .incomplete := by
  cases hcontent : page.content with
  | complete events => exact absurd gap (by simp [Page.isComplete, hcontent])
  | incomplete present maxWait =>
    rw [showWaited, showPage_gap hcontent (line_timeoutGap console page)]

end

/-- Once it is announced, the command ends with the first complete page, or with a page that it reads
at the deadline itself, or with a fault, after no more turns and pauses than there is time for, and
then it stops the collector. A complete page is shown with its events, and a session reads them from
its store and leaves no loop running. Where the announcement cannot be shown the command fails with
the operation tracked and the collector not stopped; an id without brackets and backslashes is always
announced. -/
theorem collecting_ends_by_its_deadline (c : Collecting σ) (keeps : c.KeepsTime) (console : Console)
    (operation : String) (request : PageRequest) (timeout interval : Binary64) {p i : Rat}
    (hp : patience timeout = some p) (hi : interval.toRat? = some i) (positive : 0 < i) (s : σ)
    {kind : Kind} (tracked : (c.track s).value = .ok kind) :
    let begun := (c.track s).state
    let start := (c.clock begun).monotonic
    let announced := announcement console request kind operation
    let left := (collectWith c console operation timeout interval request s).1
    let report := (collectWith c console operation timeout interval request s).2
    (∀ words, announced = .ok words → ∃ (turns : List Turn) (waited : Outcome σ Page),
      (c.waiting Clock.advance).Loop (some (start + p)) (some i) begun turns waited ∧
      (turns.length : Int) ≤ (max p 0 / i).ceil + 1 ∧
      Waiting.InTime start p turns waited.value ∧
      (∀ page events, waited.value = .ok page → page.content = .complete events →
        report.ending.exitCode = 0 ∧
          (request.json = true → report.output = words ++ ((pageJson events).pretty ++ "\n")) ∧
          (request.json = false → ∃ title,
            console.shown (pageTitle request operation) = .ok title ∧
            report.output = words ++ (pageTable console title events).render)) ∧
      (∀ page, waited.value = .ok page → page.isComplete = false → report.ending.exitCode = 3) ∧
      (∀ fault, waited.value = .error fault → report.ending = .failed (.service fault)) ∧
      report.effects = (c.track s).effects ++ (waited.effects ++ (c.stop waited.state).2) ∧
      left = (c.stop waited.state).1) ∧
    (∀ fault, announced = .error fault →
      left = begun ∧ report.ending = .garbled fault ∧ report.ending.exitCode = 1 ∧
        report.effects = (c.track s).effects) ∧
    (request.json = true ∨ (∀ ch ∈ operation.toList, ch ≠ '[' ∧ ch ≠ '\\') →
      ∃ words, announced = .ok words) ∧
    ∀ session : Session,
      (∀ left page events,
        ((Session.collecting operation request).poll session left).value = .ok page →
        page.content = .complete events →
        events.map some = (Window.indices ⟨request.start, request.stop⟩).map
          (session.collector.store.event? operation)) ∧
      ((Session.collecting operation request).stop session).1.collector.loops = [] ∧
      ((Session.collecting operation request).stop session).2 =
        ((session.collector.tracked.flatMap fun e => e.2.watchers).filter Watcher.isRunning).map
          fun w => .record (Journal.stopped w.worker.name w.correlation) := by
  intro begun start announced left report
  refine ⟨?_, ?_, ?_, ?_⟩
  · intro words hwords
    have hleft : start + p - (c.waiting Clock.advance).now begun = p := add_sub_cancel_left start p
    obtain ⟨turns, hloop, hcount⟩ := Waiting.exists_loop_await keeps.waiting
      (hleft.le.trans (patience_le_ceil_mul positive p))
    have htime := hloop.inTime keeps.waiting positive
    rw [hleft] at htime
    rw [← awaitPage_of_patience hp hi positive begun] at hloop htime
    obtain ⟨hstopped, hending, houtput, heffects⟩ :=
      collectWith_of_announced timeout interval tracked hwords
    refine ⟨turns, awaitPage c timeout interval begun, hloop, ?_, htime, ?_, ?_, ?_, heffects,
      hstopped⟩
    · have hceil := toNat_ceil_le positive p
      omega
    · intro page events hvalue hcontent
      obtain ⟨hdone, hjson, htable⟩ := showWaited_complete hwords hcontent
      rw [hvalue] at hending houtput
      refine ⟨by rw [hending, hdone]; rfl, fun json => by rw [houtput, hjson json], fun people => ?_⟩
      obtain ⟨title, htitle, hrendered⟩ := htable people
      exact ⟨title, htitle, by rw [houtput, hrendered]⟩
    · intro page hvalue hgap
      rw [hending, hvalue, showWaited_gap hgap]
      rfl
    · intro fault hvalue
      rw [hending, hvalue]
      rfl
  · intro fault hfault
    have hgarbled := collectWith_of_garbled timeout interval tracked hfault
    exact ⟨congrArg Prod.fst hgarbled, congrArg (fun r => r.2.ending) hgarbled,
      congrArg (fun r => r.2.ending.exitCode) hgarbled, congrArg (fun r => r.2.effects) hgarbled⟩
  · rintro (json | plain)
    · exact ⟨"", by simp only [announced, announcement, json, if_true]⟩
    · cases hjson : request.json with
      | true => exact ⟨"", by simp only [announced, announcement, hjson, if_true]⟩
      | false => exact (exists_announcement_iff hjson).2 (Markup.readable_of_plain plain)
  · intro session
    exact ⟨fun left page events => Session.events_of_poll, Collector.loops_stop _,
      Collector.effects_stop _⟩

/-- A session whose one worker writes its first line during the second pause. -/
def slowSession : Session where
  settings := ⟨"live", .ofRat 2, .ofRat 3600, "management", false, false, 8080⟩
  cluster :=
    { deployments :=
        [{ name := "unit", annotations := [("deploy-events.io/deployment-id", "blue")] }]
      pods := [("unit", [{ name := "pod-0" }])] }
  changes := [{}, { logs := some [("pod-0", some "1 - USMEventLogger.starting\n")] }]
  clock := { wall := 0, monotonic := 1000 }
  collector := {}

/-- Two seconds and a half leave time for four readings, one a second and one at the deadline. The
third one finds the event. -/
theorem slow_page_is_collected_in_time :
    let c := Session.collecting "blue" ⟨0, 0, true⟩
    let begun := (c.track slowSession).state
    let timeout : Binary64 := .ofRat (5 / 2)
    let interval : Binary64 := .ofRat 1
    let collected := collectWith c {} "blue" timeout interval ⟨0, 0, true⟩ slowSession
    (c.track slowSession).value = .ok .deployment ∧ patience timeout = some (5 / 2) ∧
      interval.toRat? = some 1 ∧ begun.collector.loops.length = 1 ∧
      (∃ turns waited,
        (c.waiting Clock.advance).Loop (some (1000 + 5 / 2)) (some 1) begun turns waited ∧
          turns.length ≤ 4 ∧ Waiting.InTime 1000 (5 / 2) turns waited.value ∧
          collected.1 = (c.stop waited.state).1) ∧
      collected.2.ending.exitCode = 0 ∧ collected.1.collector.loops = [] := by
  intro c begun timeout interval collected
  have htracked : (c.track slowSession).value = .ok .deployment := by decide +kernel
  have hp : patience timeout = some (5 / 2) := by decide +kernel
  have hi : interval.toRat? = some 1 := by decide +kernel
  have hstart : (c.clock begun).monotonic = 1000 := by decide +kernel
  obtain ⟨hwait, -, hshown, hsession⟩ :=
    collecting_ends_by_its_deadline c (Session.keepsTime _ _) {} "blue" ⟨0, 0, true⟩ timeout interval
      hp hi (by decide) slowSession htracked
  obtain ⟨words, hwords⟩ := hshown (Or.inl rfl)
  obtain ⟨turns, waited, hloop, hcount, htime, -, -, -, -, hstopped⟩ := hwait words hwords
  rw [hstart] at hloop htime
  have hceil : (max (5 / 2) 0 / 1 : Rat).ceil = 3 := by decide +kernel
  rw [hceil] at hcount
  have hloops : collected.1.collector.loops = [] := by
    rw [show collected.1 = (c.stop waited.state).1 from hstopped]
    exact (hsession waited.state).2.1
  refine ⟨htracked, hp, hi, by decide +kernel, ⟨turns, waited, hloop, ?_, htime, hstopped⟩,
    by decide +kernel, hloops⟩
  omega

/-- An operation whose id closes a tag, with one worker. -/
def taggedCluster : Cluster where
  deployments := [{ name := "unit", annotations := [("deploy-events.io/deployment-id", "[/x]")] }]
  pods := [("unit", [{ name := "pod-0" }])]

/-- The id of the operation cannot be announced. The command fails before its first reading, and the
loop of the worker runs on. -/
theorem loop_of_a_garbled_id_runs_on :
    let s : Surroundings := { cluster := taggedCluster, clock := { wall := 0, monotonic := 1000 } }
    let c := Session.collecting "[/x]" ⟨0, 0, false⟩
    let session : Session := { slowSession with cluster := taggedCluster }
    let timeout : Binary64 := .ofRat 0
    let interval : Binary64 := .ofRat 1
    let collected := collectWith c {} "[/x]" timeout interval ⟨0, 0, false⟩ session
    (c.track session).value = .ok .deployment ∧ patience timeout = some 0 ∧
      interval.toRat? = some 1 ∧ collected.2.ending.exitCode = 1 ∧
      collected.1.collector.loops = [(0, "[/x]", 0)] ∧
      (run s ["collect", "[/x]", "--to", "0", "--timeout", "0"]).ending =
        .garbled (.notOpen ⟨"/x", none⟩ 46) := by
  decide +kernel

end Cli

end Lifecycle
