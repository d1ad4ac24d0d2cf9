import Lifecycle.Proofs.Collector.Staff
import Lifecycle.Proofs.Watcher.Alike
import Lifecycle.Proofs.Watcher.Generations
import Lifecycle.Proofs.Watcher.Growth

/-! # Polls that find nothing

A read may fail, and it may find no event line. Such a poll may still move its watcher on to the
current generation of the log, so a run without it goes through other states. But it leaves every
watcher where its next pass would begin anyway, and the allocator with what it remembers of the log.
So any number of such polls may be left out of a run, whoever makes them: nothing that is stored
changes, no index and no answer of another poll. -/

namespace Lifecycle

/-! ### Desks apart from times -/

/-- A put opens the sequence of its deployment if there is none, and no other. -/
theorem Store.Sound.isSome_find?_put {store : Store} (hs : store.Sound) {index : Int}
    {event : Event} (ok : check index event = .ok ()) (now : Rat) (id other : String) :
    ((store.act (.put now id index event)).find? other).isSome =
      (other == id || (store.find? other).isSome) := by
  obtain ⟨report, next, hput, -, -, hfind⟩ := hs.put_spec ok now id
  rw [act_put_of_ok hput, hfind]
  by_cases ho : other = id
  · rw [if_pos ho, beq_iff_eq.2 ho, Option.isSome_some, Bool.true_or]
  · rw [if_neg ho, beq_false_of_ne ho, Bool.false_or]

/-- The event without the time at which it was seen. -/
def Event.undated (event : Event) : Event := { event with timestamp := .zero false }

theorem Event.undated_mk (index : Int) (description : String) (stamp stamp' : Binary64) :
    undated ⟨index, description, stamp⟩ = undated ⟨index, description, stamp'⟩ := rfl

/-- The desks cannot be told apart but by the times at which events were seen. -/
structure Desk.Matches (desk other : Desk) : Prop where
  sound : desk.store.Sound
  sound' : other.store.Sound
  keys : desk.allocator.keys = other.allocator.keys
  memory : ∀ worker, desk.allocator.memory worker = other.allocator.memory worker
  events : ∀ id i,
    (desk.store.event? id i).map Event.undated = (other.store.event? id i).map Event.undated
  known : ∀ id, (desk.store.find? id).isSome = (other.store.find? id).isSome

namespace Desk.Matches

variable {desk other : Desk}

theorem refl (hs : desk.store.Sound) : desk.Matches desk :=
  ⟨hs, hs, rfl, fun _ => rfl, fun _ _ => rfl, fun _ => rfl⟩

theorem undated (h : desk.Matches other) (id : String) :
    desk.store.undated id = other.store.undated id := by
  have ascending (store : Store) : (store.undated id).Pairwise fun a b => a.1 < b.1 :=
    List.pairwise_map.2 (Store.ascending_contents store id)
  have hmem (store : Store) (e : Int × Event) :
      e ∈ store.undated id ↔ (store.event? id e.1).map Event.undated = some e.2 := by
    obtain ⟨i, event⟩ := e
    rw [Store.undated, List.mem_map, Option.map_eq_some_iff]
    constructor
    · rintro ⟨⟨j, kept⟩, hkept, heq⟩
      obtain ⟨rfl, rfl⟩ := Prod.mk.inj heq
      exact ⟨kept, Store.mem_contents_iff.1 hkept, rfl⟩
    · rintro ⟨kept, hkept, rfl⟩
      exact ⟨(i, kept), Store.mem_contents_iff.2 hkept, rfl⟩
  refine Sequence.eq_of_ascending (ascending _) (ascending _) ?_
  intro e
  rw [hmem, hmem, h.events]

theorem registered (h : desk.Matches other) (id : String) :
    id ∈ desk.store.registered ↔ id ∈ other.store.registered := by
  rw [h.sound.mem_registered_iff, h.sound'.mem_registered_iff, h.known]

/-- An index is looked up among the keys. -/
theorem assign (h : desk.Matches other) (key : LineKey) :
    (desk.allocator.assign key).1 = (other.allocator.assign key).1 ∧
      Desk.Matches ⟨(desk.allocator.assign key).2, desk.store⟩
        ⟨(other.allocator.assign key).2, other.store⟩ := by
  simp only [Allocator.assign, h.keys]
  cases other.allocator.keys.idxOf? key with
  | some index => exact ⟨rfl, h⟩
  | none => exact ⟨rfl, h.sound, h.sound', rfl, h.memory, h.events, h.known⟩

theorem note (h : desk.Matches other) (worker : String) (lines : List String) :
    (desk.note worker lines).Matches (other.note worker lines) where
  sound := h.sound
  sound' := h.sound'
  keys := h.keys
  memory := by
    intro name
    simp only [Desk.note, Allocator.memory_observe, h.memory]
  events := h.events
  known := h.known

/-- The same event, put at two times. -/
theorem put (h : desk.Matches other) {index : Int} {event event' : Event}
    (ok : Store.check index event = .ok ()) (ok' : Store.check index event' = .ok ())
    (same : event.undated = event'.undated) (now now' : Rat) (id : String) :
    ∃ report next report' next', desk.store.put now id index event = .ok (report, next) ∧
      other.store.put now' id index event' = .ok (report', next') ∧
      report.put.isStored = report'.put.isStored ∧
      Desk.Matches ⟨desk.allocator, next⟩ ⟨other.allocator, next'⟩ := by
  obtain ⟨report, next, hput, hreport⟩ := h.sound.put_report ok now id
  obtain ⟨report', next', hput', hreport'⟩ := h.sound'.put_report ok' now' id
  have hevents := h.sound.event?_put ok now id
  have hevents' := h.sound'.event?_put ok' now' id
  have hknown := h.sound.isSome_find?_put ok now id
  have hknown' := h.sound'.isSome_find?_put ok' now' id
  have hsound := h.sound.act (.put now id index event)
  have hsound' := h.sound'.act (.put now' id index event')
  rw [Store.act_put_of_ok hput] at hevents hknown hsound
  rw [Store.act_put_of_ok hput'] at hevents' hknown' hsound'
  have hsame := h.events id index
  refine ⟨report, next, report', next', hput, hput', ?_, hsound, hsound', h.keys, h.memory, ?_, ?_⟩
  · rw [hreport, hreport']
    cases hkept : desk.store.event? id index <;> cases hkept' : other.store.event? id index <;>
      rw [hkept, hkept'] at hsame
    · rfl
    · exact absurd hsame (by simp)
    · exact absurd hsame (by simp)
    · rfl
  · intro name i
    rw [hevents, hevents']
    split
    · cases hkept : desk.store.event? id index <;> cases hkept' : other.store.event? id index <;>
        rw [hkept, hkept'] at hsame
      · exact congrArg some same
      · exact absurd hsame (by simp)
      · exact absurd hsame (by simp)
      · exact hsame
    · exact h.events name i
  · intro name
    rw [hknown, hknown', h.known]

end Desk.Matches

/-! ### Lines -/

namespace Watcher

variable {w v : Watcher} {desk other : Desk}

theorem takeLine_matches (hw : w.duty = v.duty) (h : desk.Matches other) (clock clock' : Clock)
    (generation position : Nat) (line : String) :
    let step := w.takeLine clock generation position line desk
    let step' := v.takeLine clock' generation position line other
    step.desk.Matches step'.desk ∧ step.stored = step'.stored ∧ step.fault = step'.fault := by
  obtain ⟨hdeployment, hworker, hhalting⟩ := Duty.mk.inj hw
  simp only [takeLine, ← hdeployment, ← hworker, ← hhalting]
  cases Line.translate line w.worker.host with
  | error bad => cases w.halting <;> exact ⟨h, rfl, rfl⟩
  | ok description =>
    obtain ⟨hindex, hassign⟩ := h.assign ⟨w.worker.name, generation, position⟩
    simp only [← hindex]
    generalize (desk.allocator.assign ⟨w.worker.name, generation, position⟩).1 = index
    have ok (stamp : Binary64) :
        Store.check (index : Int) ⟨index, description, stamp⟩ = .ok () :=
      Store.check_eq_ok_iff.2 ⟨Int.natCast_nonneg index, rfl⟩
    obtain ⟨report, next, report', next', hput, hput', hstored, hnext⟩ := hassign.put
      (ok clock.stamp) (ok clock'.stamp) (Event.undated_mk _ _ _ _) clock.monotonic clock'.monotonic
      w.deployment
    dsimp only at hput hput'
    simp only [hput, hput', hstored]
    exact ⟨hnext, trivial, trivial⟩

theorem takeLines_matches (hw : w.duty = v.duty) (h : desk.Matches other) (clock clock' : Clock)
    (generation position : Nat) (lines : List String) :
    let run := w.takeLines clock generation position lines desk
    let run' := v.takeLines clock' generation position lines other
    run.desk.Matches run'.desk ∧ run.stored = run'.stored ∧ run.ended = run'.ended := by
  induction lines generalizing position desk other with
  | nil => exact ⟨h, rfl, rfl⟩
  | cons line rest ih =>
    obtain ⟨hdesk, hstored, hfault⟩ := takeLine_matches hw h clock clock' generation position line
    cases hstop : (w.takeLine clock generation position line desk).fault with
    | some fault =>
      rw [takeLines_cons_of_fault hstop, takeLines_cons_of_fault (hfault ▸ hstop)]
      exact ⟨hdesk, rfl, rfl⟩
    | none =>
      obtain ⟨hlast, hmore, hended⟩ := ih hdesk (position + 1)
      rw [takeLines_cons_of_none hstop, takeLines_cons_of_none (hfault ▸ hstop)]
      simp only [hstored, hmore, hended]
      exact ⟨hlast, trivial, trivial⟩

/-! ### Watchers at the same place -/

/-- The watchers have the same duty, and begin their next pass at the same position, whether the log
is still in a generation or has moved on. -/
structure Level (generation : Nat) (w v : Watcher) : Prop where
  duty : w.duty = v.duty
  here : w.startAt generation = v.startAt generation
  anew : ∀ later, generation < later → w.startAt later = 0 ∧ v.startAt later = 0

theorem startAt_moveTo (w : Watcher) (generation position later : Nat) :
    (w.moveTo generation position).startAt later = if generation = later then position else 0 := by
  by_cases h : generation = later <;> simp [startAt, seesRestart, moveTo, h]

namespace Level

variable {generation later : Nat}

theorem startAt_eq (h : Level generation w v) (hle : generation ≤ later) :
    w.startAt later = v.startAt later := by
  rcases Nat.eq_or_lt_of_le hle with rfl | hlt
  · exact h.here
  · rw [(h.anew later hlt).1, (h.anew later hlt).2]

theorem mono (h : Level generation w v) (hle : generation ≤ later) : Level later w v where
  duty := h.duty
  here := h.startAt_eq hle
  anew := fun last hlt => h.anew last (Nat.lt_of_le_of_lt hle hlt)

theorem symm (h : Level generation w v) : Level generation v w where
  duty := h.duty.symm
  here := h.here.symm
  anew := fun last hlt => (h.anew last hlt).symm

/-- Watchers that have been moved to one place. -/
theorem moveTo (h : Level generation w v) (later position : Nat) :
    Level later (w.moveTo later position) (v.moveTo later position) where
  duty := h.duty
  here := by rw [startAt_moveTo, startAt_moveTo]
  anew := by
    intro last hlt
    rw [startAt_moveTo, startAt_moveTo, if_neg (Nat.ne_of_lt hlt)]
    exact ⟨rfl, rfl⟩

/-- A watcher that has been moved to where it would have begun anyway. -/
theorem moveTo_startAt (h : Level generation w v) :
    Level generation (w.moveTo generation (w.startAt generation)) v where
  duty := h.duty
  here := by rw [startAt_moveTo, if_pos rfl, h.here]
  anew := by
    intro last hlt
    rw [startAt_moveTo, if_neg (Nat.ne_of_lt hlt)]
    exact ⟨rfl, (h.anew last hlt).2⟩

end Level

/-! ### Passes -/

theorem memory_pass (w : Watcher) (clock : Clock) (lines : List String) (desk : Desk)
    (name : String) :
    (w.pass clock lines desk).state.2.allocator.memory name =
      if w.worker.name == name then (desk.allocator.memory w.worker.name).observe lines
      else desk.allocator.memory name := by
  rw [pass_desk, passRun, (w.grows_takeLines clock _ _ _ _).memory name List.not_mem_nil, Desk.note,
    Allocator.memory_observe]

/-- Two watchers at the same place make passes over one snapshot. -/
theorem pass_matches (h : desk.Matches other)
    (hlevel : Level (desk.allocator.memory w.worker.name).generation w v) (clock clock' : Clock)
    (lines : List String) :
    let outcome := w.pass clock lines desk
    let outcome' := v.pass clock' lines other
    w.readAs lines desk = v.readAs lines other ∧ outcome.value = outcome'.value ∧
      outcome.state.2.Matches outcome'.state.2 ∧
      Level (w.readAs lines desk) outcome.state.1 outcome'.state.1 := by
  intro outcome outcome'
  have hworker : w.worker = v.worker := congrArg Duty.worker hlevel.duty
  have hread : w.readAs lines desk = v.readAs lines other := by
    rw [readAs, readAs, Allocator.observe, Allocator.observe, ← hworker, h.memory]
  have hstart : w.startAt (w.readAs lines desk) = v.startAt (w.readAs lines desk) :=
    hlevel.startAt_eq (LogMemory.generation_le_observe _ _)
  obtain ⟨hdesk, hstored, hended⟩ := takeLines_matches hlevel.duty (h.note w.worker.name lines) clock
    clock' (w.readAs lines desk) (w.startAt (w.readAs lines desk))
    (lines.drop (w.startAt (w.readAs lines desk)))
  have hrun : w.takeLines clock (w.readAs lines desk) (w.startAt (w.readAs lines desk))
      (lines.drop (w.startAt (w.readAs lines desk))) (desk.note w.worker.name lines) =
      w.passRun clock lines desk := rfl
  have hrun' : v.takeLines clock' (w.readAs lines desk) (w.startAt (w.readAs lines desk))
      (lines.drop (w.startAt (w.readAs lines desk))) (other.note w.worker.name lines) =
      v.passRun clock' lines other := by
    rw [hstart, hread, hworker]
    rfl
  rw [hrun, hrun'] at hdesk hstored hended
  refine ⟨hread, ?_, ?_, ?_⟩
  · rw [pass_value, pass_value, hended, hstored]
  · rw [pass_desk, pass_desk]
    exact hdesk
  · rw [pass_watcher, pass_watcher, ← hread, ← hstart, hended]
    exact hlevel.moveTo _ _

/-- No log goes back to an earlier generation. -/
theorem generation_le_catchUp (w : Watcher) (source : Source) (clock : Clock) (desk : Desk)
    (name : String) :
    (desk.allocator.memory name).generation ≤
      ((w.catchUp source clock desk).state.2.allocator.memory name).generation := by
  cases hread : (source.read w.worker).value with
  | error fault => rw [(catchUp_of_error hread clock desk).1]
  | ok lines =>
    rw [(catchUp_of_ok hread clock desk).1, memory_pass]
    split
    · rename_i hname
      rw [← beq_iff_eq.1 hname]
      exact LogMemory.generation_le_observe _ _
    · exact Nat.le_refl _

/-- A poll that finds nothing stores nothing and takes no index. The logs are remembered as they were,
and the watcher stays where its next pass would begin. -/
theorem catchUp_of_snapshot?_none {m : Moment} (blank : m.snapshot? w.worker = none) (desk : Desk) :
    let outcome := w.catchUp m.source m.clock desk
    let generation := (desk.allocator.memory w.worker.name).generation
    outcome.state.2.store = desk.store ∧ outcome.state.2.allocator.keys = desk.allocator.keys ∧
      (∀ name, outcome.state.2.allocator.memory name = desk.allocator.memory name) ∧
      ((outcome.state.1 = w ∧ ∃ fault, (m.source.read w.worker).value = .error fault ∧
          outcome.value = .error fault) ∨
        (outcome.state.1 = w.moveTo generation (w.startAt generation) ∧ outcome.value = .ok 0)) := by
  intro outcome generation
  rcases Moment.of_snapshot?_none blank with ⟨fault, hread⟩ | ⟨read, hread, hempty⟩
  · obtain ⟨hstate, hvalue⟩ := catchUp_of_error hread m.clock desk
    rw [show outcome.state = (w, desk) from hstate]
    exact ⟨rfl, rfl, fun _ => rfl, Or.inl ⟨rfl, fault, hread, hvalue⟩⟩
  · obtain ⟨hstate, hvalue⟩ := catchUp_of_ok hread m.clock desk
    have hrun : w.passRun m.clock [] desk = ⟨desk.note w.worker.name [], 0, none, []⟩ := by
      rw [passRun, List.drop_nil, takeLines]
    have hread : w.readAs [] desk = generation := by
      rw [readAs, Allocator.observe, LogMemory.observe_no_lines]
    rw [hempty] at hstate hvalue
    have hwatcher := pass_watcher w m.clock [] desk
    rw [hrun, hread, List.length_nil, Nat.max_zero] at hwatcher
    rw [pass_value, hrun] at hvalue
    simp only [outcome, hstate]
    refine ⟨?_, ?_, ?_, Or.inr ⟨hwatcher, hvalue⟩⟩
    · rw [pass_desk, hrun]
      rfl
    · rw [pass_desk, hrun]
      rfl
    · intro name
      rw [memory_pass, LogMemory.observe_no_lines]
      split
      · rename_i hname
        rw [beq_iff_eq.1 hname]
      · rfl

/-- Such a poll may be left out of another run. -/
theorem blank_matches (h : desk.Matches other)
    (hlevel : Level (desk.allocator.memory w.worker.name).generation w v) {m : Moment}
    (blank : m.snapshot? w.worker = none) :
    let outcome := w.catchUp m.source m.clock desk
    outcome.state.2.Matches other ∧
      (∀ name, outcome.state.2.allocator.memory name = desk.allocator.memory name) ∧
      Level (desk.allocator.memory w.worker.name).generation outcome.state.1 v := by
  intro outcome
  obtain ⟨hstore, hkeys, hmemory, hplace⟩ := catchUp_of_snapshot?_none blank desk
  refine ⟨?_, hmemory, ?_⟩
  · constructor
    · rw [hstore]
      exact h.sound
    · exact h.sound'
    · rw [hkeys, h.keys]
    · intro name
      rw [hmemory, h.memory]
    · rw [hstore]
      exact h.events
    · rw [hstore]
      exact h.known
  · rcases hplace with ⟨hsame, -⟩ | ⟨hmoved, -⟩
    · rw [hsame]
      exact hlevel
    · rw [hmoved]
      exact hlevel.moveTo_startAt

/-- What a poll answers: the generation of the log, unless the read fails, and its value. -/
def answer (w : Watcher) (m : Moment) (desk : Desk) : Option Nat × Except Fault Nat :=
  let outcome := w.catchUp m.source m.clock desk
  ((m.source.read w.worker).value.toOption.bind fun _ => outcome.state.1.generation, outcome.value)

/-- Two watchers at the same place make a poll. -/
theorem catchUp_matches (h : desk.Matches other)
    (hlevel : Level (desk.allocator.memory w.worker.name).generation w v) (source : Source)
    (clock clock' : Clock) :
    let outcome := w.catchUp source clock desk
    let outcome' := v.catchUp source clock' other
    w.answer ⟨source, clock⟩ desk = v.answer ⟨source, clock'⟩ other ∧
      outcome.state.2.Matches outcome'.state.2 ∧
      Level (outcome.state.2.allocator.memory w.worker.name).generation outcome.state.1
        outcome'.state.1 := by
  have hworker : w.worker = v.worker := congrArg Duty.worker hlevel.duty
  simp only [answer, ← hworker]
  cases hread : (source.read w.worker).value with
  | error fault =>
    obtain ⟨hstate, hvalue⟩ := catchUp_of_error hread clock desk
    rw [hworker] at hread
    obtain ⟨hstate', hvalue'⟩ := catchUp_of_error hread clock' other
    rw [hstate, hstate', hvalue, hvalue']
    exact ⟨rfl, h, hlevel⟩
  | ok lines =>
    obtain ⟨hstate, hvalue⟩ := catchUp_of_ok hread clock desk
    rw [hworker] at hread
    obtain ⟨hstate', hvalue'⟩ := catchUp_of_ok hread clock' other
    obtain ⟨hgeneration, hsame, hdesk, hlast⟩ :=
      pass_matches h hlevel clock clock' (lines.filter Line.isEvent)
    rw [hstate, hstate', hvalue, hvalue', memory_pass, if_pos (beq_self_eq_true _)]
    refine ⟨?_, hdesk, hlast⟩
    rw [hsame, pass_watcher, pass_watcher, hgeneration]
    rfl

end Watcher

/-! ### Runs of many watchers -/

/-- Watchers at one desk. -/
structure Team (ι : Type) where
  watchers : ι → Watcher
  desk : Desk

/-- A poll of a run, and when it is made in the other run; none if it is left out there. -/
structure PollPair (ι : Type) where
  who : ι
  source : Source
  clock : Clock
  again : Option Clock

namespace Team

section

variable {ι : Type} {t : Team ι}

/-- The desks match, and each watcher is at the same place in both teams. -/
structure Matches (t u : Team ι) : Prop where
  desk : t.desk.Matches u.desk
  level : ∀ who, Watcher.Level (t.desk.allocator.memory (t.watchers who).worker.name).generation
    (t.watchers who) (u.watchers who)

/-- A team whose watchers have not polled yet matches itself. -/
theorem matches_of_fresh (fresh : ∀ who, (t.watchers who).position = 0 ∧
    (t.watchers who).generation = none) (hs : t.desk.store.Sound) : t.Matches t where
  desk := Desk.Matches.refl hs
  level := by
    intro who
    have hstart (generation : Nat) : (t.watchers who).startAt generation = 0 := by
      rw [Watcher.startAt, (fresh who).1, ite_self]
    exact ⟨rfl, rfl, fun later _ => ⟨hstart later, hstart later⟩⟩

end

variable {ι : Type} [DecidableEq ι] {t u : Team ι}

/-- One of the watchers makes a poll. -/
def poll (t : Team ι) (who : ι) (m : Moment) : Team ι :=
  let outcome := (t.watchers who).catchUp m.source m.clock t.desk
  ⟨Function.update t.watchers who outcome.state.1, outcome.state.2⟩

/-- Polls one after the other. -/
def run (t : Team ι) (polls : List (ι × Moment)) : Team ι :=
  polls.foldl (fun t (who, m) => t.poll who m) t

/-- The answers of the polls. -/
def answers (t : Team ι) : List (ι × Moment) → List (Option Nat × Except Fault Nat)
  | [] => []
  | (who, m) :: rest => (t.watchers who).answer m t.desk :: (t.poll who m).answers rest

theorem desk_poll (t : Team ι) (who : ι) (m : Moment) :
    (t.poll who m).desk = ((t.watchers who).catchUp m.source m.clock t.desk).state.2 := rfl

theorem watchers_poll_self (t : Team ι) (who : ι) (m : Moment) :
    (t.poll who m).watchers who = ((t.watchers who).catchUp m.source m.clock t.desk).state.1 :=
  Function.update_self _ _ _

theorem watchers_poll_of_ne {who other : ι} (h : other ≠ who) (t : Team ι) (m : Moment) :
    (t.poll who m).watchers other = t.watchers other :=
  Function.update_of_ne h _ _

theorem worker_poll (t : Team ι) (who : ι) (m : Moment) (other : ι) :
    ((t.poll who m).watchers other).worker = (t.watchers other).worker := by
  by_cases h : other = who
  · rw [h, watchers_poll_self]
    exact congrArg Duty.worker (Watcher.catchUp_duty _ _ _ _)
  · rw [watchers_poll_of_ne h]

theorem Matches.poll (h : t.Matches u) (who : ι) (source : Source) (clock clock' : Clock) :
    (t.watchers who).answer ⟨source, clock⟩ t.desk =
        (u.watchers who).answer ⟨source, clock'⟩ u.desk ∧
      (t.poll who ⟨source, clock⟩).Matches (u.poll who ⟨source, clock'⟩) := by
  obtain ⟨hanswer, hdesk, hlevel⟩ :=
    Watcher.catchUp_matches h.desk (h.level who) source clock clock'
  refine ⟨hanswer, hdesk, ?_⟩
  intro other
  rw [worker_poll, desk_poll]
  by_cases hother : other = who
  · rw [hother, watchers_poll_self, watchers_poll_self]
    exact hlevel
  · rw [watchers_poll_of_ne hother, watchers_poll_of_ne hother]
    exact (h.level other).mono (Watcher.generation_le_catchUp _ _ _ _ _)

/-- A poll that finds nothing may be left out of the other run. -/
theorem Matches.blank (h : t.Matches u) {who : ι} {m : Moment}
    (blank : m.snapshot? (t.watchers who).worker = none) : (t.poll who m).Matches u := by
  obtain ⟨hdesk, hmemory, hlevel⟩ := Watcher.blank_matches h.desk (h.level who) blank
  refine ⟨hdesk, ?_⟩
  intro other
  rw [worker_poll, desk_poll, hmemory]
  by_cases hother : other = who
  · rw [hother, watchers_poll_self]
    exact hlevel
  · rw [watchers_poll_of_ne hother]
    exact h.level other

end Team

namespace PollPair

variable {ι : Type}

/-- The poll in the run that makes all of them. -/
def poll (p : PollPair ι) : ι × Moment := (p.who, ⟨p.source, p.clock⟩)

/-- The poll in the other run, unless it is left out. -/
def poll? (p : PollPair ι) : Option (ι × Moment) :=
  p.again.map fun clock => (p.who, ⟨p.source, clock⟩)

/-- What is left of one result for each poll once those of polls left out are taken away. -/
def thin {α : Type} (pairs : List (PollPair ι)) (results : List α) : List α :=
  (pairs.zip results).filterMap fun (p, result) => p.again.map fun _ => result

theorem thin_cons_of_none {α : Type} {p : PollPair ι} (h : p.again = none)
    (rest : List (PollPair ι)) (result : α) (results : List α) :
    thin (p :: rest) (result :: results) = thin rest results := by
  rw [thin, List.zip_cons_cons, List.filterMap_cons_none]
  · rfl
  · simp only [h, Option.map_none]

theorem thin_cons_of_some {α : Type} {p : PollPair ι} {clock : Clock} (h : p.again = some clock)
    (rest : List (PollPair ι)) (result : α) (results : List α) :
    thin (p :: rest) (result :: results) = result :: thin rest results := by
  rw [thin, List.zip_cons_cons, List.filterMap_cons_some]
  · rfl
  · simp only [h, Option.map_some]

end PollPair

namespace Team

variable {ι : Type} [DecidableEq ι] {t u : Team ι}

theorem Matches.run (h : t.Matches u) (pairs : List (PollPair ι))
    (blank : ∀ p ∈ pairs, p.again = none → p.poll.2.snapshot? (t.watchers p.who).worker = none) :
    (t.run (pairs.map PollPair.poll)).Matches (u.run (pairs.filterMap PollPair.poll?)) ∧
      PollPair.thin pairs (t.answers (pairs.map PollPair.poll)) =
        u.answers (pairs.filterMap PollPair.poll?) := by
  induction pairs generalizing t u with
  | nil => exact ⟨h, rfl⟩
  | cons p rest ih =>
    have hrest : ∀ q ∈ rest, q.again = none →
        q.poll.2.snapshot? ((t.poll p.who p.poll.2).watchers q.who).worker = none := by
      intro q hq hnone
      rw [worker_poll]
      exact blank q (List.mem_cons_of_mem p hq) hnone
    have hrun : t.run ((p :: rest).map PollPair.poll) =
        (t.poll p.who p.poll.2).run (rest.map PollPair.poll) := rfl
    have hanswers : t.answers ((p :: rest).map PollPair.poll) =
        (t.watchers p.who).answer p.poll.2 t.desk ::
          (t.poll p.who p.poll.2).answers (rest.map PollPair.poll) := rfl
    rw [hrun, hanswers]
    cases hagain : p.again with
    | none =>
      have hleft : (p :: rest).filterMap PollPair.poll? = rest.filterMap PollPair.poll? := by
        rw [List.filterMap_cons, PollPair.poll?, hagain, Option.map_none]
      rw [hleft, PollPair.thin_cons_of_none hagain]
      exact ih (h.blank (blank p List.mem_cons_self hagain)) hrest
    | some clock =>
      have hkept : (p :: rest).filterMap PollPair.poll? =
          (p.who, ⟨p.source, clock⟩) :: rest.filterMap PollPair.poll? := by
        rw [List.filterMap_cons, PollPair.poll?, hagain, Option.map_some]
      obtain ⟨hanswer, hpoll⟩ := h.poll p.who p.source p.clock clock
      obtain ⟨hlast, hothers⟩ := ih hpoll hrest
      rw [hkept, PollPair.thin_cons_of_some hagain]
      exact ⟨hlast, congrArg₂ List.cons hanswer hothers⟩

/-! ### Main result -/

/-- Any polls that find nothing may be left out of a run of polls. The same events are stored at the
same indices, apart from the times they were seen at, every line has the same index, and the other
polls read the same generation of their log and give the same answer. -/
theorem blank_polls_are_invisible (watchers : ι → Watcher) (allocator : Allocator)
    (before : List Store.Action) (pairs : List (PollPair ι))
    (fresh : ∀ who, (watchers who).position = 0 ∧ (watchers who).generation = none)
    (blank : ∀ p ∈ pairs, p.again = none → p.poll.2.snapshot? (watchers p.who).worker = none) :
    let start : Team ι := ⟨watchers, allocator, ({} : Store).run before⟩
    let whole := start.run (pairs.map PollPair.poll)
    let thinned := start.run (pairs.filterMap PollPair.poll?)
    (∀ id, whole.desk.store.undated id = thinned.desk.store.undated id) ∧
      (∀ id, id ∈ whole.desk.store.registered ↔ id ∈ thinned.desk.store.registered) ∧
      whole.desk.allocator.keys = thinned.desk.allocator.keys ∧
      (∀ key, (whole.desk.allocator.assign key).1 = (thinned.desk.allocator.assign key).1) ∧
      PollPair.thin pairs (start.answers (pairs.map PollPair.poll)) =
        start.answers (pairs.filterMap PollPair.poll?) := by
  intro start whole thinned
  have hstart : start.Matches start := matches_of_fresh fresh (Store.run_sound before)
  obtain ⟨hmatches, hanswers⟩ := hstart.run pairs blank
  exact ⟨hmatches.desk.undated, hmatches.desk.registered, hmatches.desk.keys,
    fun key => (hmatches.desk.assign key).1, hanswers⟩

/-- Two watchers of one worker, of which one halts. The log starts anew while the halting one lags
behind. Then it finds nothing and cannot read, and both polls are left out of the other run, which is
a second later. -/
def laggingPair : List (PollPair Bool) :=
  let first := ["1 - USMEventLogger.starting", "2 - USMEventLogger.started"]
  let second := ["3 - USMEventLogger.starting", "4 USMEventLogger"]
  let log (lines : List String) : Source := Source.fixed [("pod-0", lines)]
  [⟨false, log first, ⟨0, 0, none⟩, some ⟨1, 1, none⟩⟩,
    ⟨true, log first, ⟨0, 0, none⟩, some ⟨1, 1, none⟩⟩,
    ⟨false, log (second.take 1), ⟨0, 0, none⟩, some ⟨1, 1, none⟩⟩,
    ⟨true, log ["no event"], ⟨0, 0, none⟩, none⟩,
    ⟨true, (log []).failing [("pod-0", "gone")], ⟨0, 0, none⟩, none⟩,
    ⟨true, log second, ⟨0, 0, none⟩, some ⟨1, 1, none⟩⟩]

theorem lagging_watcher_answers_alike :
    let worker : Worker := ⟨"pod-0", ⟨"node-1", "10.0.0.1"⟩⟩
    let watchers : Bool → Watcher := fun halting => { deployment := "blue", worker, halting }
    let start : Team Bool := ⟨watchers, {}, {}⟩
    (∀ who, (watchers who).position = 0 ∧ (watchers who).generation = none) ∧
      (∀ p ∈ laggingPair, p.again = none → p.poll.2.snapshot? (watchers p.who).worker = none) ∧
      start.answers (laggingPair.map PollPair.poll) =
        [(some 0, .ok 2), (some 0, .ok 0), (some 1, .ok 1), (some 1, .ok 0),
          (none, .error (.unreadable "gone")),
          (some 1, .error (.malformedLine ⟨"4 USMEventLogger"⟩))] ∧
      start.answers (laggingPair.filterMap PollPair.poll?) =
        [(some 0, .ok 2), (some 0, .ok 0), (some 1, .ok 1),
          (some 1, .error (.malformedLine ⟨"4 USMEventLogger"⟩))] := by
  intro worker watchers start
  have fresh : ∀ who, (watchers who).position = 0 ∧ (watchers who).generation = none :=
    fun _ => ⟨rfl, rfl⟩
  have blank : ∀ p ∈ laggingPair, p.again = none →
      p.poll.2.snapshot? (watchers p.who).worker = none := by
    intro p hp hleft
    have hblank : laggingPair.all fun p =>
        p.again.isSome || (p.poll.2.snapshot? (watchers p.who).worker).isNone := by
      decide +kernel
    have hnone := List.all_eq_true.1 hblank p hp
    rwa [hleft, Option.isSome_none, Bool.false_or, Option.isNone_iff_eq_none] at hnone
  have hthin := (blank_polls_are_invisible watchers {} [] laggingPair fresh blank).2.2.2.2
  have hwhole : start.answers (laggingPair.map PollPair.poll) =
      [(some 0, .ok 2), (some 0, .ok 0), (some 1, .ok 1), (some 1, .ok 0),
        (none, .error (.unreadable "gone")),
        (some 1, .error (.malformedLine ⟨"4 USMEventLogger"⟩))] := by
    decide +kernel
  refine ⟨fresh, blank, hwhole, ?_⟩
  calc start.answers (laggingPair.filterMap PollPair.poll?)
      = PollPair.thin laggingPair (start.answers (laggingPair.map PollPair.poll)) := hthin.symm
    _ = _ := by
      rw [hwhole]
      rfl

end Team

end Lifecycle
