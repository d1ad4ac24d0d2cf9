import Lifecycle.Proofs.Store.Runs
import Lifecycle.Rehearsal

/-! # Deployments do not interfere

All deployments share one registry: it is searched by every lookup, extended by the first put of
each deployment and cut down by every sweep. Still a deployment learns nothing of the others. Leave
out all that was asked for other deployments, keep the clock and the sweeps, and each of its own
requests is answered as before, with the same log records, and each sweep drops it or spares it as
before.

The proof follows two runs side by side. Their stores may differ in everything but the sequence of
the one deployment, and that is enough for its answers to agree. -/

namespace Lifecycle

namespace Store

variable {store other : Store} {id : String}

theorem isNone_current? (store : Store) (id : String) :
    (store.current? id).isNone = (store.find? id).isNone := by
  rw [Bool.eq_iff_iff, Option.isNone_iff_eq_none, Option.isNone_iff_eq_none,
    find?_eq_none_iff_current?]

theorem evict_fst (store : Store) (id : String) :
    (store.evict id).1 = !(store.find? id).isNone := by
  rw [← isNone_current?]
  cases h : store.current? id with
  | none => rw [evict_of_none h, Option.isNone_none, Bool.not_true]
  | some k => rw [evict_of_current? h, Option.isNone_some, Bool.not_false]

/-- All that a caller is told of a put depends on the sequence of its deployment. -/
theorem Sound.put_told (hs : store.Sound) {index : Int} {event : Event}
    (ok : check index event = .ok ()) (now : Rat) (id : String) :
    ∃ report next, store.put now id index event = .ok (report, next) ∧ next.Sound ∧
      report.put = ((store.sequenceAt now id).insert now index event).1 ∧
      report.opened = (store.find? id).isNone ∧
      next.slots[report.slot]?.map Slot.deployment = some id ∧
      ∀ other, next.find? other =
        if other = id then some ((store.sequenceAt now id).insert now index event).2
        else store.find? other := by
  obtain ⟨report, next, hput, hsound, hreport, hfind⟩ := hs.put_spec ok now id
  obtain ⟨s, hslot, hserves, -⟩ := hs.lookup_serves now id
  have heq := hs.put_eq ok now id
  rw [hput, Except.ok.injEq, Prod.mk.injEq] at heq
  obtain ⟨rfl, rfl⟩ := heq
  refine ⟨_, _, hput, hsound, hreport, isNone_current? store id, ?_, hfind⟩
  rw [slots_setSequence, if_pos rfl, hslot, Option.map_some, Option.map_some]
  exact congrArg some (Slot.serves_iff.1 hserves).2

/-! ### Reads of one sequence -/

theorem sequenceAt_congr (h : store.find? id = other.find? id) (now : Rat) :
    store.sequenceAt now id = other.sequenceAt now id := by
  rw [sequenceAt, sequenceAt, h]

theorem extract_eq_of_find? (h : store.find? id = other.find? id) (w : Window) :
    store.extract id w = other.extract id w := by
  rw [extract, extract, h]

theorem isComplete_eq_of_find? (h : store.find? id = other.find? id) (w : Window) :
    store.isComplete id w = other.isComplete id w := by
  rw [isComplete, isComplete, h]

theorem mark_eq_of_find? (h : store.find? id = other.find? id) :
    store.mark id = other.mark id := by
  rw [mark, mark, h]

theorem Sound.contains_evictIdle (hs : store.Sound) (maxIdle now : Rat) (id : String) :
    (store.evictIdle maxIdle now).1.contains id =
      (store.find? id).any fun s => s.isIdle maxIdle now := by
  rw [Bool.eq_iff_iff, List.contains_iff_mem, hs.mem_evictIdle_iff, Option.any_eq_true]

end Store

theorem Page.between_eq_of_find? {before before' after after' : Store} {id : String}
    (hb : before.find? id = before'.find? id) (ha : after.find? id = after'.find? id) (w : Window)
    (maxWait : Option Binary64) :
    between before after id w maxWait = between before' after' id w maxWait := by
  rw [between, between, Store.isComplete_eq_of_find? hb, Store.extract_eq_of_find? ha]

namespace Rehearsal

/-! ### Runs on the store -/

/-- What may be asked for a deployment. -/
inductive Request
  | put (order : PutOrder) (correlation : Option String)
  | extract (start stop : Int)
  | isComplete (start stop : Int)
  | poll (start stop : Int) (maxWait : Option Binary64) (correlation : Option String)
      (evictBetween : Bool)
  | state
  | evict

/-- One use of the store: a request for a deployment, or what concerns all of them. -/
inductive Use
  | advance (seconds : Rat)
  | evictIdle (maxIdle : Rat) (now : Option Rat)
  | request (id : String) (asked : Request)

/-- The line of a script that makes a request. -/
def Request.step (id : String) : Request → Step
  | .put order correlation => .put id order correlation
  | .extract start stop => .extract id start stop
  | .isComplete start stop => .isComplete id start stop
  | .poll start stop maxWait correlation evictBetween =>
    .poll id start stop maxWait correlation evictBetween
  | .state => .state id
  | .evict => .evict id

/-- The line of a script that makes a use. -/
def Use.step : Use → Step
  | .advance seconds => .advance seconds
  | .evictIdle maxIdle now => .evictIdle maxIdle now
  | .request id asked => asked.step id

/-- The use is not a request for another deployment. -/
def Use.concerns (id : String) : Use → Bool
  | .advance _ => true
  | .evictIdle _ _ => true
  | .request other _ => other == id

/-- What a deployment learns: the answer to a request of its own, with the log records, or whether
a sweep has dropped it. -/
inductive Notice
  | answered (value : Except Fault Answer) (effects : List Effect)
  | swept (dropped : Except Fault Bool)

/-- The deployment is among those that an answer lists. -/
def Answer.lists (id : String) : Answer → Bool
  | .texts ids => ids.contains id
  | _ => false

/-- What a deployment learns from a use with this outcome. -/
def Use.notice? (id : String) (outcome : Outcome Rehearsal Answer) : Use → Option Notice
  | .advance _ => none
  | .evictIdle _ _ => some (.swept (outcome.value.map (Answer.lists id)))
  | .request other _ =>
    if other == id then some (.answered outcome.value outcome.effects) else none

/-- What a deployment learns from a run, in order. -/
def notices (id : String) (r : Rehearsal) : List Use → List Notice
  | [] => []
  | use :: rest =>
    let outcome := r.play use.step
    (use.notice? id outcome).toList ++ notices id outcome.state rest

/-! ### Two runs side by side -/

/-- The clocks agree, and so do the sequences of one deployment. -/
structure Alike (id : String) (r other : Rehearsal) : Prop where
  clock : r.clock = other.clock
  sound : r.store.Sound
  sound' : other.store.Sound
  sequence : r.store.find? id = other.store.find? id

variable {r other : Rehearsal} {id : String}

theorem Alike.setStore (h : Alike id r other) {store store' : Store} (hs : store.Sound)
    (hs' : store'.Sound) (hfind : store.find? id = store'.find? id) :
    Alike id (r.setStore store) (other.setStore store') :=
  ⟨h.clock, hs, hs', hfind⟩

/-- Two outcomes tell a deployment the same and leave it in the same state. -/
structure SameOutcome (id : String) (one two : Outcome Rehearsal Answer) : Prop where
  value : one.value = two.value
  effects : one.effects = two.effects
  state : Alike id one.state two.state

theorem Alike.answer (h : Alike id r other) {a b : Answer} (hab : a = b) :
    SameOutcome id (r.answer a) (other.answer b) :=
  ⟨congrArg Except.ok hab, rfl, h⟩

theorem Alike.refuse (h : Alike id r other) (fault : Fault) :
    SameOutcome id (r.refuse fault) (other.refuse fault) :=
  ⟨rfl, rfl, h⟩

theorem SameOutcome.inWindow (h : Alike id r other) {start stop : Int}
    {f g : Window → Outcome Rehearsal Answer} (hfg : ∀ w, SameOutcome id (f w) (g w)) :
    SameOutcome id (r.inWindow start stop f) (other.inWindow start stop g) := by
  rw [Rehearsal.inWindow, Rehearsal.inWindow]
  cases Window.asked start stop with
  | error fault => exact h.refuse _
  | ok w => exact hfg w

theorem put_of_error {order : PutOrder} {fault : PutFault}
    (h : Store.check order.index order.event = .error fault) (r : Rehearsal) (id : String)
    (correlation : Option String) :
    r.put id order correlation [] false =
      r.refuse (Journal.refusal (some Number.maxDigits) fault) := by
  have hput := Store.put_of_check_error h r.store r.clock.monotonic id
  rw [Store.put] at hput
  simp only [Rehearsal.put, Journal.enter, hput]
  rfl

/-- A put that the store takes is answered if its index can be written. -/
theorem put_of_ok {order : PutOrder} {report : PutReport} {next : Store} {id : String}
    (h : r.store.put r.clock.monotonic id order.index order.event = .ok (report, next))
    (hslot : next.slots[report.slot]?.map Slot.deployment = some id) (correlation : Option String) :
    r.put id order correlation [] false =
      if Number.isWithin (some Number.maxDigits) order.index = true then
        ⟨r.setStore next,
          .ok (.put ⟨id, order.index, report.put, some (next.mark id, next.size id), none⟩),
          (Journal.ofPut id order.index correlation report).map .record⟩
      else
        ⟨r.setStore next, .error .unwritable,
          if report.opened then [.record (Journal.opened id)] else []⟩ := by
  rw [Store.put] at h
  simp only [Rehearsal.put, Journal.enter, h]
  split
  · simp only [Except.map, hslot, Option.getD_some, Bool.false_eq_true, if_false]
  · rfl

theorem Alike.put (h : Alike id r other) (order : PutOrder) (correlation : Option String) :
    SameOutcome id (r.put id order correlation [] false)
      (other.put id order correlation [] false) := by
  cases hcheck : Store.check order.index order.event with
  | error fault =>
    rw [put_of_error hcheck, put_of_error hcheck]
    exact h.refuse _
  | ok _ =>
    obtain ⟨report, next, hput, hsound, hreport, hopened, hslot, hfind⟩ :=
      h.sound.put_told hcheck r.clock.monotonic id
    obtain ⟨report', next', hput', hsound', hreport', hopened', hslot', hfind'⟩ :=
      h.sound'.put_told hcheck other.clock.monotonic id
    have hsame := Store.sequenceAt_congr h.sequence r.clock.monotonic
    rw [← h.clock, ← hsame, ← hreport] at hreport'
    rw [← h.sequence, ← hopened] at hopened'
    have hafter : next.find? id = next'.find? id := by
      rw [hfind, hfind', if_pos rfl, if_pos rfl, ← h.clock, hsame]
    have hstate := h.setStore hsound hsound' hafter
    rw [put_of_ok hput hslot, put_of_ok hput' hslot']
    split
    · refine ⟨?_, ?_, hstate⟩
      · simp only [hreport', Store.mark_eq_of_find? hafter, Store.size_eq_of_find? hafter]
      · simp only [Journal.ofPut, hreport', hopened']
    · exact ⟨rfl, by simp only [hopened'], hstate⟩

theorem Alike.evict (h : Alike id r other) (target : String) :
    Alike id (r.setStore (r.store.evict target).2)
      (other.setStore (other.store.evict target).2) := by
  obtain ⟨hsound, hfind⟩ := h.sound.evict_spec target
  obtain ⟨hsound', hfind'⟩ := h.sound'.evict_spec target
  exact h.setStore hsound hsound' (by rw [hfind, hfind', h.sequence])

theorem Alike.poll (h : Alike id r other) (w : Window) (maxWait : Option Binary64)
    (correlation : Option String) (evictBetween : Bool) :
    SameOutcome id (r.poll id w maxWait correlation evictBetween)
      (other.poll id w maxWait correlation evictBetween) := by
  cases evictBetween with
  | false =>
    have hpage := Page.between_eq_of_find? h.sequence h.sequence w maxWait
    refine ⟨?_, ?_, h⟩ <;> simp only [Rehearsal.poll, Bool.false_eq_true, if_false, hpage]
  | true =>
    have hpage : Page.between r.store (r.store.evict id).2 id w maxWait =
        Page.between other.store (other.store.evict id).2 id w maxWait :=
      Page.between_eq_of_find? h.sequence (h.evict id).sequence w maxWait
    have hdropped : (r.store.evict id).1 = (other.store.evict id).1 := by
      rw [Store.evict_fst, Store.evict_fst, h.sequence]
    refine ⟨?_, ?_, h.evict id⟩ <;> simp only [Rehearsal.poll, if_true, hpage, hdropped]

/-- A request of the deployment itself is answered alike. -/
theorem Alike.request (h : Alike id r other) (request : Request) :
    SameOutcome id (r.act? (request.step id)) (other.act? (request.step id)) := by
  cases request with
  | put order correlation => exact h.put order correlation
  | extract start stop =>
    refine .inWindow h fun w => h.answer ?_
    rw [Store.extract_eq_of_find? h.sequence]
  | isComplete start stop =>
    refine .inWindow h fun w => h.answer ?_
    rw [Store.isComplete_eq_of_find? h.sequence]
  | poll start stop maxWait correlation evictBetween =>
    exact .inWindow h fun w => h.poll w maxWait correlation evictBetween
  | state =>
    refine h.answer ?_
    rw [Store.mark_eq_of_find? h.sequence, Store.size_eq_of_find? h.sequence]
  | evict =>
    have hdropped : (r.store.evict id).1 = (other.store.evict id).1 := by
      rw [Store.evict_fst, Store.evict_fst, h.sequence]
    refine ⟨?_, ?_, h.evict id⟩
    · simp only [Request.step, act?, hdropped]
    · simp only [Request.step, act?, hdropped]

/-! ### Requests of others -/

theorem state_inWindow {P : Rehearsal → Prop} (hr : P r) {start stop : Int}
    {f : Window → Outcome Rehearsal Answer} (hf : ∀ w, P (f w).state) :
    P (r.inWindow start stop f).state := by
  rw [inWindow]
  cases Window.asked start stop with
  | error fault => exact hr
  | ok w => exact hf w

theorem Alike.setStore_left (h : Alike id r other) {store : Store} (hs : store.Sound)
    (hfind : store.find? id = r.store.find? id) : Alike id (r.setStore store) other :=
  ⟨h.clock, hs, h.sound', hfind.trans h.sequence⟩

/-- A request for another deployment is not noticed. -/
theorem Alike.request_other (h : Alike id r other) {target : String} (hne : id ≠ target)
    (request : Request) : Alike id (r.act? (request.step target)).state other := by
  have hevict : Alike id (r.setStore (r.store.evict target).2) other := by
    obtain ⟨hsound, hfind⟩ := h.sound.evict_spec target
    exact h.setStore_left hsound (by rw [hfind, if_neg hne])
  cases request with
  | put order correlation =>
    rw [Request.step, act?]
    cases hcheck : Store.check order.index order.event with
    | error fault =>
      rw [put_of_error hcheck]
      exact h
    | ok _ =>
      obtain ⟨report, next, hput, hsound, -, -, hslot, hfind⟩ :=
        h.sound.put_told hcheck r.clock.monotonic target
      have hstate := h.setStore_left hsound (by rw [hfind, if_neg hne])
      rw [put_of_ok hput hslot]
      split <;> exact hstate
  | extract start stop => exact state_inWindow (P := (Alike id · other)) h fun w => h
  | isComplete start stop => exact state_inWindow (P := (Alike id · other)) h fun w => h
  | poll start stop maxWait correlation evictBetween =>
    refine state_inWindow (P := (Alike id · other)) h fun w => ?_
    cases evictBetween with
    | false => exact h
    | true => exact hevict
  | state => exact h
  | evict => exact hevict

/-! ### Whole runs -/

theorem Alike.evictIdle (h : Alike id r other) (maxIdle : Rat) (now : Option Rat) :
    (r.act? (.evictIdle maxIdle now)).value.map (Answer.lists id) =
        (other.act? (.evictIdle maxIdle now)).value.map (Answer.lists id) ∧
      Alike id (r.act? (.evictIdle maxIdle now)).state
        (other.act? (.evictIdle maxIdle now)).state := by
  obtain ⟨hsound, hfind⟩ := h.sound.evictIdle_spec maxIdle (now.getD r.clock.monotonic)
  obtain ⟨hsound', hfind'⟩ := h.sound'.evictIdle_spec maxIdle (now.getD other.clock.monotonic)
  constructor
  · simp only [act?, Except.map, Answer.lists, h.sound.contains_evictIdle,
      h.sound'.contains_evictIdle, h.sequence, h.clock]
  · have hsame : (r.store.evictIdle maxIdle (now.getD r.clock.monotonic)).2.find? id =
        (other.store.evictIdle maxIdle (now.getD other.clock.monotonic)).2.find? id := by
      rw [hfind, hfind', h.sequence, h.clock]
    exact h.setStore hsound hsound' hsame

/-- Playing a line counts what it did, which the next lines do not look at. -/
theorem alike_play_iff {step step' : Step} :
    Alike id (r.play step).state (other.play step').state ↔
      Alike id (r.act? step).state (other.act? step').state :=
  ⟨fun h => ⟨h.clock, h.sound, h.sound', h.sequence⟩,
    fun h => ⟨h.clock, h.sound, h.sound', h.sequence⟩⟩

theorem alike_play_left_iff {step : Step} :
    Alike id (r.play step).state other ↔ Alike id (r.act? step).state other :=
  ⟨fun h => ⟨h.clock, h.sound, h.sound', h.sequence⟩,
    fun h => ⟨h.clock, h.sound, h.sound', h.sequence⟩⟩

/-- What the deployment is told of one use, and what it can be told from then on. -/
theorem Alike.use (h : Alike id r other) {use : Use} (hc : use.concerns id = true) :
    use.notice? id (r.play use.step) = use.notice? id (other.play use.step) ∧
      Alike id (r.play use.step).state (other.play use.step).state := by
  rw [alike_play_iff]
  cases use with
  | advance seconds =>
    have hclock : r.clock.advance seconds = other.clock.advance seconds := by rw [h.clock]
    exact ⟨rfl, hclock, h.sound, h.sound', h.sequence⟩
  | evictIdle maxIdle now =>
    obtain ⟨hlists, hstate⟩ := h.evictIdle maxIdle now
    exact ⟨congrArg (fun gone => some (Notice.swept gone)) hlists, hstate⟩
  | request target asked =>
    obtain rfl := beq_iff_eq.1 hc
    obtain ⟨hvalue, heffects, hstate⟩ := h.request asked
    refine ⟨?_, hstate⟩
    simp only [Use.notice?, beq_self_eq_true, if_true, play, Use.step, hvalue, heffects]

theorem Alike.use_other (h : Alike id r other) {use : Use} (hc : use.concerns id = false) :
    use.notice? id (r.play use.step) = none ∧ Alike id (r.play use.step).state other := by
  rw [alike_play_left_iff]
  cases use with
  | advance seconds => exact absurd hc (by simp [Use.concerns])
  | evictIdle maxIdle now => exact absurd hc (by simp [Use.concerns])
  | request target asked =>
    have hne : target ≠ id := beq_eq_false_iff_ne.1 hc
    exact ⟨if_neg (by simpa using hne), h.request_other (Ne.symm hne) asked⟩

theorem Alike.notices_filter (h : Alike id r other) (uses : List Use) :
    notices id r uses = notices id other (uses.filter (Use.concerns id)) := by
  induction uses generalizing r other with
  | nil => rfl
  | cons use rest ih =>
    cases hc : use.concerns id with
    | true =>
      obtain ⟨hnotice, hstate⟩ := h.use hc
      rw [List.filter_cons_of_pos hc, notices, notices, hnotice, ih hstate]
    | false =>
      obtain ⟨hnone, hstate⟩ := h.use_other hc
      rw [List.filter_cons_of_neg (by rw [hc]; exact Bool.false_ne_true), notices, hnone, ih hstate]
      rfl

/-- A deployment learns the same from a run as from the run without the requests of the others. -/
theorem others_go_unnoticed (clock : Clock) (id : String) (uses : List Use) :
    notices id { clock } uses = notices id { clock } (uses.filter (Use.concerns id)) := by
  have h : Alike id { clock } { clock } := ⟨rfl, Store.sound_empty, Store.sound_empty, rfl⟩
  exact h.notices_filter uses

end Rehearsal

end Lifecycle
