import Lifecycle.Proofs.Collector.Staff

/-! # Whose host stands in an event

The description of an event begins with the host of the worker that wrote it, as the watcher knows
it. A watcher knows its worker as it was reported when the watcher was taken on, and a later report
under the same name takes on no other. So the host in an event is the one with which the worker's
name was first reported since the tracking of the operation began. It is the host in the last report
as long as the reports agree. -/

namespace Lifecycle

/-- Among workers of different names, each is found by its name. -/
theorem find?_name_of_mem {workers : List Worker} (unique : (workers.map Worker.name).Nodup)
    {w : Worker} (hw : w ∈ workers) : workers.find? (fun v => v.name == w.name) = some w := by
  induction workers with
  | nil => exact absurd hw List.not_mem_nil
  | cons first rest ih =>
    rw [List.map_cons, List.nodup_cons] at unique
    rcases List.mem_cons.1 hw with rfl | hw
    · rw [List.find?_cons, beq_self_eq_true]
    · have hne : first.name ≠ w.name := fun heq => unique.1 (heq ▸ List.mem_map_of_mem hw)
      rw [List.find?_cons, beq_false_of_ne hne]
      exact ih unique.2 hw

/-! ### What a crew adds to the ledger -/

/-- The entry is a line of the worker's log, with the worker's host. -/
def Worker.Wrote (worker : Worker) (e : LineKey × String) : Prop :=
  e.1.worker = worker.name ∧ ∃ line, Line.translate line worker.host = .ok e.2

theorem Watcher.catchUp_ledger {w : Watcher} {id : String} (hw : w.deployment = id) {desk : Desk}
    (hd : desk.InStep id) (source : Source) (clock : Clock) :
    ∃ added, (w.catchUp source clock desk).state.2.ledger id = desk.ledger id ++ added ∧
      ∀ e ∈ added, w.worker.Wrote e := by
  subst hw
  cases hread : (source.read w.worker).value with
  | error fault =>
    rw [(catchUp_of_error hread clock desk).1]
    exact ⟨[], (List.append_nil _).symm, fun e he => absurd he List.not_mem_nil⟩
  | ok lines =>
    rw [(catchUp_of_ok hread clock desk).1]
    refine ⟨_, (pass_advance hd clock (lines.filter Line.isEvent)).ledger, ?_⟩
    intro e he
    obtain ⟨k, line, -, htranslate, hkey⟩ := Worker.mem_entries_iff.1 (List.mem_filter.1 he).1
    exact ⟨by rw [hkey], line, htranslate⟩

theorem Crew.pollAll_ledger {id : String} {watchers : List Watcher}
    (hw : ∀ w ∈ watchers, w.deployment = id) {desk : Desk} (hd : desk.InStep id) (source : Source)
    (clock : Clock) :
    ∃ added, (pollAll source clock watchers desk).state.2.ledger id = desk.ledger id ++ added ∧
      ∀ e ∈ added, ∃ w ∈ watchers, w.worker.Wrote e := by
  induction watchers generalizing desk with
  | nil => exact ⟨[], (List.append_nil _).symm, fun e he => absurd he List.not_mem_nil⟩
  | cons w rest ih =>
    have hself := hw w List.mem_cons_self
    obtain ⟨added, hadded, hwrote⟩ := Watcher.catchUp_ledger hself hd source clock
    have hfirst := (Watcher.catchUp_keeps hself hd source clock).1.inStep
    have hown : ∀ e ∈ added, ∃ v ∈ w :: rest, v.worker.Wrote e :=
      fun e he => ⟨w, List.mem_cons_self, hwrote e he⟩
    simp only [pollAll]
    split
    · exact ⟨added, hadded, hown⟩
    · obtain ⟨more, hmore, hothers⟩ := ih (fun v hv => hw v (List.mem_cons_of_mem w hv)) hfirst
      refine ⟨added ++ more, by rw [hmore, hadded, List.append_assoc], ?_⟩
      intro e he
      rcases List.mem_append.1 he with he | he
      · exact hown e he
      · obtain ⟨v, hv, hwrote⟩ := hothers e he
        exact ⟨v, List.mem_cons_of_mem w hv, hwrote⟩

namespace Collector

variable {c : Collector} {operation : String}

/-! ### What was heard of an operation -/

/-- The workers reported for `operation` since its tracking began, after one more operation of the
collector. -/
def hear (c : Collector) (operation : String) (heard : List Worker) (action : Action) :
    List Worker :=
  if ((c.act action).crew? operation).isNone then [] else heard ++ action.reports operation

/-- A collector and the workers reported for `operation`, after some more operations. -/
def runHearing (operation : String) (start : Collector × List Worker) (actions : List Action) :
    Collector × List Worker :=
  actions.foldl (fun (c, heard) action => (c.act action, c.hear operation heard action)) start

/-- The workers reported for an operation since its tracking began, in order of the reports. -/
def heard (halting : Bool) (operation : String) (actions : List Action) : List Worker :=
  (runHearing operation ({ halting }, []) actions).2

/-- The crew of an operation has one watcher for each name it has heard, for the worker that it
heard first. -/
structure Heeds (c : Collector) (operation : String) (heard : List Worker) : Prop where
  nodup : (((c.staff operation).getD []).map fun duty => duty.worker.name).Nodup
  first : ∀ name, (((c.staff operation).getD []).map Duty.worker).find? (fun v => v.name == name) =
    heard.find? fun v => v.name == name

theorem heeds_of_untracked (h : c.crew? operation = none) : c.Heeds operation [] := by
  have hstaff : c.staff operation = none := by rw [staff, h, Option.map_none]
  constructor
  · rw [hstaff]
    exact List.nodup_nil
  · intro name
    rw [hstaff]
    rfl

theorem Heeds.hear {heard : List Worker} (h : c.Heeds operation heard) (hs : c.store.Sound)
    (action : Action) : (c.act action).Heeds operation (c.hear operation heard action) := by
  unfold Collector.hear
  cases hcrew : (c.act action).crew? operation with
  | none =>
    rw [Option.isNone_none, if_pos rfl]
    exact heeds_of_untracked hcrew
  | some crew =>
    rw [Option.isNone_some, if_neg Bool.false_ne_true]
    rcases staff_act hs action operation with hnone | hstaff
    · rw [staff, hcrew, Option.map_some] at hnone
      exact absurd hnone (by simp)
    · constructor
      · rw [hstaff, Option.getD_some]
        exact staffAfter_nodup h.nodup _
      · intro name
        rw [hstaff, Option.getD_some, staffAfter_first, List.find?_append, h.first,
          List.find?_append]

theorem Heeds.run {heard : List Worker} (h : c.Heeds operation heard) (hc : c.InStep [])
    (actions : List Action) :
    (actions.foldl act c).Heeds operation (runHearing operation (c, heard) actions).2 := by
  induction actions generalizing c heard with
  | nil => exact h
  | cons action rest ih => exact ih (h.hear hc.sound action) (hc.act action)

theorem heeds_heard (halting : Bool) (operation : String) (actions : List Action) :
    (run halting actions).Heeds operation (heard halting operation actions) :=
  (heeds_of_untracked rfl).run (inStep_start halting) actions

theorem Heeds.find?_of_mem {heard : List Worker} (h : c.Heeds operation heard) {crew : Crew}
    (hcrew : c.crew? operation = some crew) {w : Watcher} (hw : w ∈ crew.watchers) :
    heard.find? (fun v => v.name == w.worker.name) = some w.worker := by
  have hnodup := h.nodup
  have hfirst := h.first w.worker.name
  rw [staff_of_crew? hcrew, Option.getD_some, List.map_map] at hnodup hfirst
  rw [← hfirst]
  have hmem : w.worker ∈ crew.watchers.map Watcher.worker := List.mem_map_of_mem hw
  have hunique : ((crew.watchers.map Watcher.worker).map Worker.name).Nodup := by
    rwa [List.map_map]
  exact find?_name_of_mem hunique hmem

/-! ### The events of a worker -/

/-- The event stands at the index that a line of the worker `name` was given. -/
def IsEventOf (c : Collector) (operation name : String) (index : Nat) (event : Event) : Prop :=
  ∃ crew key, c.crew? operation = some crew ∧ crew.allocator.keys[index]? = some key ∧
    key.worker = name ∧ ((index : Int), event) ∈ c.store.contents operation

theorem catchUp_of_crew? {crew : Crew} (hcrew : c.crew? operation = some crew) (world : World) :
    (c.catchUp world operation).state =
      c.update operation (crew.collect c.store world.source world.clock).state.1
        (crew.collect c.store world.source world.clock).state.2 := by
  simp only [catchUp, hcrew]

/-- An event that a pass of the crew has stored was written by a worker that the crew watches. -/
theorem wrote_of_collect (hc : c.InStep []) {crew : Crew} (hcrew : c.crew? operation = some crew)
    (world : World) {name : String} {index : Nat} {event : Event}
    (hevent : (c.act (.collect world operation)).IsEventOf operation name index event)
    (new : c.store.event? operation index = none) :
    ∃ w ∈ crew.watchers, w.worker.name = name ∧
      ∃ line, Line.translate line w.worker.host = .ok event.description := by
  have hdesk := hc.desks operation crew hcrew List.not_mem_nil
  have hwatchers := hc.watchers operation crew hcrew
  have hafter := (Crew.pollAll_keeps hwatchers hdesk world.source world.clock).1.inStep
  obtain ⟨added, hledger, hwrote⟩ :=
    Crew.pollAll_ledger hwatchers hdesk world.source world.clock
  obtain ⟨crew', key, hcrew', hkey, hname, hstored⟩ := hevent
  rw [act, catchUp_of_crew? hcrew, crew?_update, if_pos rfl] at hcrew'
  obtain rfl := Option.some.inj hcrew'
  rw [act, catchUp_of_crew? hcrew] at hstored
  have hentry := hafter.getElem?_ledger_iff.2 ⟨hkey, event, hstored, rfl⟩
  -- the ledger of the crew ends where the new events begin
  have hbehind : (Desk.ledger ⟨crew.allocator, c.store⟩ operation).length ≤ index := by
    rw [← List.length_map, hdesk.map_fst_ledger, ← Nat.not_lt]
    intro hlt
    obtain ⟨kept, hkept⟩ := hdesk.exists_mem_contents hlt
    rw [Store.mem_contents_iff.1 hkept] at new
    exact absurd new (by simp)
  rw [hledger, List.getElem?_append_right hbehind] at hentry
  obtain ⟨w, hw, hworker, line, htranslate⟩ := hwrote _ (List.mem_of_getElem? hentry)
  exact ⟨w, hw, hworker.symm.trans hname, line, htranslate⟩

theorem exists_text_of_translate {line description : String} {host : Host}
    (h : Line.translate line host = .ok description) :
    ∃ text, description = "[" ++ host.name ++ "/" ++ host.address ++ "] - " ++ text := by
  rw [Line.translate] at h
  split at h
  · exact absurd h (by simp)
  · exact ⟨_, (Except.ok.inj h).symm⟩

theorem crew?_refresh {world : World} {workers : List Worker}
    (found : (world.classifier.workersFor operation).value = .ok workers)
    (tracked : (c.crew? operation).isSome = true) (rank : Nat) (start : Bool) :
    ((c.act (.refresh world rank operation start)).crew? operation).isSome = true := by
  obtain ⟨crew, hcrew⟩ := Option.isSome_iff_exists.1 tracked
  simp only [act, refresh, refreshWith, found, hcrew, crew?_update, if_true, Option.isSome_some]

/-- The events that a pass stores after a refresh carry, for each worker the refresh has found, the
host with which the worker's name was first reported since the tracking of the operation began. That
is the host just found if no report since then has given the name another one. -/
theorem events_carry_first_host (halting : Bool) (actions : List Action) (world : World)
    (rank : Nat) (operation : String) (start : Bool) {workers : List Worker} (later : World)
    (tracked : ((run halting actions).crew? operation).isSome = true)
    (found : (world.classifier.workersFor operation).value = .ok workers)
    (unique : (workers.map Worker.name).Nodup) :
    let c := run halting (actions ++ [.refresh world rank operation start])
    let before := heard halting operation actions
    ∀ w ∈ workers, ∃ first, (before ++ workers).find? (fun v => v.name == w.name) = some first ∧
      (∀ index event, (c.act (.collect later operation)).IsEventOf operation w.name index event →
        c.store.event? operation index = none →
          ∃ text, event.description =
            "[" ++ first.host.name ++ "/" ++ first.host.address ++ "] - " ++ text) ∧
      ((∀ v ∈ before, v.name = w.name → v.host = w.host) → first = w) := by
  intro c before w hw
  have hbefore := run_inStep halting actions
  have hc : c.InStep [] := run_inStep halting _
  have hcrew? := crew?_refresh found tracked rank start
  have hheeds := (heeds_heard halting operation actions).hear hbefore.sound
    (.refresh world rank operation start)
  have hheard : (run halting actions).hear operation before (.refresh world rank operation start) =
      before ++ workers := by
    rw [hear, ← Option.not_isSome, hcrew?, Bool.not_true, if_neg Bool.false_ne_true,
      Action.reports, if_pos rfl, reported_of_ok found]
  rw [hheard, ← run_concat] at hheeds
  rw [← run_concat] at hcrew?
  obtain ⟨crew, hcrew⟩ := Option.isSome_iff_exists.1 hcrew?
  have hown := find?_name_of_mem unique hw
  have hsome : ((before ++ workers).find? fun v => v.name == w.name).isSome = true := by
    rw [List.find?_isSome]
    exact ⟨w, List.mem_append_right _ hw, beq_self_eq_true _⟩
  obtain ⟨first, hfirst⟩ := Option.isSome_iff_exists.1 hsome
  refine ⟨first, hfirst, ?_, ?_⟩
  · intro index event hevent hnew
    obtain ⟨v, hv, hname, line, htranslate⟩ := wrote_of_collect hc hcrew later hevent hnew
    have hwatched := hheeds.find?_of_mem hcrew hv
    rw [hname, hfirst] at hwatched
    rw [Option.some.inj hwatched]
    exact exists_text_of_translate htranslate
  · intro hagree
    rw [List.find?_append] at hfirst
    cases hearlier : before.find? fun v => v.name == w.name with
    | none =>
      rw [hearlier, Option.none_or, hown] at hfirst
      exact (Option.some.inj hfirst).symm
    | some v =>
      rw [hearlier, Option.some_or] at hfirst
      obtain rfl := Option.some.inj hfirst
      have hfound := List.find?_some hearlier
      have hname : v.name = w.name := beq_iff_eq.1 hfound
      have hhost := hagree v (List.mem_of_find?_eq_some hearlier) hname
      cases v
      cases w
      exact congrArg₂ Worker.mk hname hhost

/-- The worker of `oneWorker` before it had an address. -/
def addressless : World :=
  { oneWorker [] with
    classifier :=
      { topology := .fixed [{ name := "unit", deployment := some "blue" }]
          [⟨"unit", [⟨"pod-0", ⟨"node-1", "unknown"⟩⟩]⟩] } }

def addressed : World := oneWorker ["1 - USMEventLogger.starting"]

def addressedRun : List Action :=
  [.track addressless 0 "blue" false, .refresh addressed 0 "blue" false]

theorem isEventOf_addressed :
    ((run false addressedRun).act (.collect addressed "blue")).IsEventOf "blue" "pod-0" 0
      ⟨0, "[node-1/unknown] - starting", .ofRat 0⟩ :=
  ⟨_, _, rfl, rfl, rfl, Store.mem_contents_iff.2 rfl⟩

theorem first_address_is_kept :
    ((run false [.track addressless 0 "blue" false]).crew? "blue").isSome = true ∧
      (addressed.classifier.workersFor "blue").value =
        .ok [⟨"pod-0", ⟨"node-1", "10.0.0.1"⟩⟩] ∧
      ∃ event, ((run false addressedRun).act (.collect addressed "blue")).IsEventOf "blue" "pod-0" 0
          event ∧
        ∃ text, event.description = "[node-1/unknown] - " ++ text := by
  have tracked : ((run false [.track addressless 0 "blue" false]).crew? "blue").isSome = true := rfl
  have found : (addressed.classifier.workersFor "blue").value =
      .ok [⟨"pod-0", ⟨"node-1", "10.0.0.1"⟩⟩] := rfl
  obtain ⟨first, hfirst, hevents, -⟩ := events_carry_first_host false
    [.track addressless 0 "blue" false] addressed 0 "blue" false addressed tracked found
    (List.nodup_singleton _) _ (List.mem_singleton_self _)
  have hunknown : first = ⟨"pod-0", ⟨"node-1", "unknown"⟩⟩ := (Option.some.inj hfirst).symm
  rw [hunknown] at hevents
  exact ⟨tracked, found, _, isEventOf_addressed, hevents 0 _ isEventOf_addressed rfl⟩

/-- So the events after a refresh need not carry the host that it has found. -/
theorem found_address_is_not_taken_up :
    ¬ ∀ (halting : Bool) (actions : List Action) (world : World) (rank : Nat) (operation : String)
        (start : Bool) (workers : List Worker) (later : World),
        ((run halting actions).crew? operation).isSome = true →
        (world.classifier.workersFor operation).value = .ok workers →
        (workers.map Worker.name).Nodup →
        let c := run halting (actions ++ [.refresh world rank operation start])
        ∀ w ∈ workers, ∀ index event,
          (c.act (.collect later operation)).IsEventOf operation w.name index event →
          c.store.event? operation index = none →
          ∃ text, event.description =
            "[" ++ w.host.name ++ "/" ++ w.host.address ++ "] - " ++ text := by
  intro current
  obtain ⟨text, htext⟩ := current false [.track addressless 0 "blue" false] addressed 0 "blue" false
    _ addressed rfl rfl (List.nodup_singleton _) _ (List.mem_singleton_self _) 0 _
    isEventOf_addressed rfl
  have hlist := congrArg (fun description => description.toList.take 9) htext
  simp at hlist

end Collector

end Lifecycle
