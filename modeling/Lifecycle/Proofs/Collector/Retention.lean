import Lifecycle.Proofs.Collector.Work

/-! # Retention

A sweep goes by the sequences in the store: it untracks the operations whose last new event is older
than the retention window. An operation that has had no new event since it was tracked has no
sequence, so no sweep ever untracks it, however long ago its tracking began.

The history of an operation is told from outside. Its tracking begins when it gets a crew and ends
when it loses it, and a new event is one event more in the store. What the store itself remembers as
the last write agrees with that history. -/

namespace Lifecycle

namespace Collector

/-- What has happened to an operation since its tracking began, by the monotonic clock. -/
structure History where
  began : Rat
  /-- When its last new event was stored. -/
  lastEvent : Option Rat := none
  deriving DecidableEq, Repr

/-- The last sign of life. -/
def History.lastSign (h : History) : Rat := h.lastEvent.getD h.began

/-- The history of `operation` after one more operation of the collector. -/
def follow (c : Collector) (operation : String) (history : Option History) (action : Action) :
    Option History :=
  if ((c.act action).crew? operation).isNone then none
  else
    match action.time? with
    | none => history
    | some now =>
      let history := history.getD { began := now }
      if c.store.size operation < (c.act action).store.size operation then
        some { history with lastEvent := some now }
      else some history

/-- A collector and the history of `operation`, after some more operations. -/
def runFollowing (operation : String) (start : Collector × Option History)
    (actions : List Action) : Collector × Option History :=
  actions.foldl (fun (c, history) action => (c.act action, c.follow operation history action)) start

/-- The history of an operation after a run, if it is tracked. -/
def history? (halting : Bool) (operation : String) (actions : List Action) : Option History :=
  (runFollowing operation ({ halting }, none) actions).2

variable {c : Collector} {operation : String}

/-! ### What an operation of the collector does to one operation -/

theorem untrackAll_spec (hs : c.store.Sound) (dropped : List String) (other : String) :
    (c.untrackAll dropped).1.crew? other =
        (if other ∈ dropped then none else c.crew? other) ∧
      (c.untrackAll dropped).1.store.find? other =
        (if other ∈ dropped then none else c.store.find? other) := by
  induction dropped generalizing c with
  | nil => exact ⟨rfl, rfl⟩
  | cons operation rest ih =>
    obtain ⟨hsound, hfind⟩ := hs.evict_spec operation
    have hstore : (c.untrack operation).1.store = (c.store.evict operation).2 := rfl
    obtain ⟨hcrew, hkept⟩ := ih (c := (c.untrack operation).1) hsound
    rw [crew?_untrack] at hcrew
    rw [hstore, hfind] at hkept
    simp only [untrackAll, List.mem_cons, hcrew, hkept]
    by_cases ho : other = operation
    · simp [ho]
    · simp [ho, Ne.symm ho]

/-- A sweep forgets the operations whose sequences are idle and leaves the others as they are. -/
theorem sweep_spec (hs : c.store.Sound) (retention : Rat) (clock : Clock) (other : String) :
    (c.sweep retention clock).1.2.crew? other =
        (if other ∈ (c.sweep retention clock).1.1 then none else c.crew? other) ∧
      (c.sweep retention clock).1.2.store.find? other =
        (if other ∈ (c.sweep retention clock).1.1 then none else c.store.find? other) := by
  obtain ⟨hcrew, hfind⟩ := untrackAll_spec
    (c := { c with store := (c.store.evictIdle retention clock.monotonic).2 })
    (hs.evictIdle_spec retention clock.monotonic).1
    (c.store.evictIdle retention clock.monotonic).1 other
  have hnames : (c.sweep retention clock).1.1 =
      (c.store.evictIdle retention clock.monotonic).1 := rfl
  rw [hnames]
  refine ⟨hcrew, hfind.trans ?_⟩
  by_cases hidle : other ∈ (c.store.evictIdle retention clock.monotonic).1
  · rw [if_pos hidle, if_pos hidle]
  · rw [if_neg hidle, if_neg hidle]
    exact hs.find?_evictIdle_of_not_mem hidle

/-- An operation is forgotten, or its sequence stays what it was, or it has a new event. -/
theorem act_cases (hs : c.store.Sound) (action : Action) (operation : String) :
    (c.act action).crew? operation = none ∨
    (c.act action).store.find? operation = c.store.find? operation ∨
    ∃ now s, action.time? = some now ∧
      c.store.size operation < (c.act action).store.size operation ∧
      (c.act action).store.find? operation = some s ∧ s.lastWrite = now := by
  cases hsettles : action.settles with
  | false =>
    rcases act_store hs hsettles with ⟨now, htime, hgrows⟩ | hsame
    · rcases hgrows.sequences operation with hkept | ⟨hmore, s, hfind, hwritten⟩
      · exact Or.inr (Or.inl hkept)
      · exact Or.inr (Or.inr ⟨now, s, htime, hmore, hfind, hwritten⟩)
    · exact Or.inr (Or.inl (by rw [hsame]))
  | true =>
    cases action with
    | untrack other =>
      by_cases ho : other = operation
      · exact Or.inl ((crew?_untrack c other operation).trans (if_pos ho))
      · exact Or.inr (Or.inl (((hs.evict_spec other).2 operation).trans (if_neg (Ne.symm ho))))
    | sweep retention clock =>
      obtain ⟨hcrew, hfind⟩ := sweep_spec hs retention clock operation
      by_cases hidle : operation ∈ (c.sweep retention clock).1.1
      · exact Or.inl (hcrew.trans (if_pos hidle))
      · exact Or.inr (Or.inl (hfind.trans (if_neg hidle)))
    | _ => exact absurd hsettles (by simp [Action.settles])

/-- Nothing is tracked by an operation that does not look at the clock. -/
theorem crew?_of_untimed {action : Action} (h : action.time? = none)
    (hc : ((c.act action).crew? operation).isSome = true) :
    (c.crew? operation).isSome = true := by
  cases action with
  | page _ _ _ _ _ => exact hc
  | untrack other =>
    rw [act, crew?_untrack] at hc
    split at hc
    · exact absurd hc (by simp)
    · exact hc
  | stop => rwa [act, crew?_stop, Option.isSome_map] at hc
  | _ => exact absurd h (by simp [Action.time?])

/-! ### The history and what the collector knows -/

/-- The history agrees with the crews and with the last write in the store. -/
structure Recounts (c : Collector) (operation : String) (history : Option History) : Prop where
  tracked : history.isSome = (c.crew? operation).isSome
  lastEvent : ∀ h, history = some h →
    h.lastEvent = (c.store.find? operation).map Sequence.lastWrite

/-- An operation that was not tracked had no sequence, so its history begins without an event. -/
theorem Recounts.lastEvent_getD {history : Option History} (h : c.Recounts operation history)
    (hc : c.InStep []) (now : Rat) :
    (history.getD { began := now }).lastEvent =
      (c.store.find? operation).map Sequence.lastWrite := by
  cases hhistory : history with
  | some past => exact h.lastEvent past hhistory
  | none =>
    have huntracked : c.crew? operation = none := by
      rw [← Option.isNone_iff_eq_none, ← Option.not_isSome, ← h.tracked, hhistory]
      rfl
    rw [hc.untracked operation huntracked]
    rfl

theorem Recounts.follow {history : Option History} (h : c.Recounts operation history)
    (hc : c.InStep []) (action : Action) :
    (c.act action).Recounts operation (c.follow operation history action) := by
  unfold Collector.follow
  cases hcrew : (c.act action).crew? operation with
  | none =>
    rw [Option.isNone_none, if_pos rfl]
    exact ⟨by rw [hcrew]; rfl, fun _ hsome => absurd hsome (by simp)⟩
  | some crew =>
    rw [Option.isNone_some, if_neg Bool.false_ne_true]
    cases htime : action.time? with
    | none =>
      have hbefore := crew?_of_untimed htime (by rw [hcrew, Option.isSome_some])
      refine ⟨by rw [h.tracked, hbefore, hcrew, Option.isSome_some], ?_⟩
      intro past hpast
      rcases act_cases hc.sound action operation with hnone | hsame | ⟨now, _, hnow, -⟩
      · exact absurd hnone (by simp [hcrew])
      · exact (h.lastEvent past hpast).trans (by rw [hsame])
      · exact absurd hnow (by simp [htime])
    | some now =>
      rcases act_cases hc.sound action operation with hnone | hsame | ⟨_, s, hnow, hmore, hfind, hw⟩
      · exact absurd hnone (by simp [hcrew])
      · simp only [Store.size_eq_of_find? hsame, Nat.lt_irrefl, if_false]
        refine ⟨by rw [hcrew, Option.isSome_some, Option.isSome_some], ?_⟩
        intro past hpast
        rw [← Option.some.inj hpast, hsame, h.lastEvent_getD hc now]
      · obtain rfl := Option.some.inj (htime.symm.trans hnow)
        simp only [hmore, if_true]
        refine ⟨by rw [hcrew, Option.isSome_some, Option.isSome_some], ?_⟩
        intro past hpast
        rw [← Option.some.inj hpast, hfind, Option.map_some, hw]

theorem Recounts.run {history : Option History} (h : c.Recounts operation history)
    (hc : c.InStep []) (actions : List Action) :
    (runFollowing operation (c, history) actions).1 = actions.foldl act c ∧
      (actions.foldl act c).Recounts operation
        (runFollowing operation (c, history) actions).2 := by
  induction actions generalizing c history with
  | nil => exact ⟨rfl, h⟩
  | cons action rest ih => exact ih (h.follow hc action) (hc.act action)

theorem recounts_history (halting : Bool) (operation : String) (actions : List Action) :
    (run halting actions).Recounts operation (history? halting operation actions) := by
  have hstart : Recounts { halting } operation none :=
    ⟨rfl, fun _ hsome => absurd hsome (by simp)⟩
  exact (hstart.run (inStep_start halting) actions).2

theorem crew?_of_mem_loops {loop : Nat × String × Nat} (h : loop ∈ c.loops) :
    (c.crew? loop.2.1).isSome = true := by
  obtain ⟨⟨operation, crew⟩, hmem, hloop⟩ := List.mem_flatMap.1 h
  obtain ⟨⟨rank, k⟩, -, rfl⟩ := List.mem_map.1 hloop
  exact Keyed.isSome_get?_of_mem hmem

/-- A sweep after any run: an operation that has stored an event since its tracking began is
untracked, and its loops are gone, exactly if its last new event is older than the retention window.
Every other operation keeps its crew and its sequence, so one without any event is never untracked. -/
theorem sweep_untracks_by_last_event (halting : Bool) (actions : List Action) (retention : Rat)
    (clock : Clock) (operation : String) :
    let c := run halting actions
    let swept := (c.sweep retention clock).1.2
    let overdue := ∃ history last, history? halting operation actions = some history ∧
      history.lastEvent = some last ∧ retention < clock.monotonic - last
    (history? halting operation actions).isSome = (c.crew? operation).isSome ∧
      (operation ∈ (c.sweep retention clock).1.1 ↔ overdue) ∧
      (overdue → swept.crew? operation = none ∧ swept.store.find? operation = none ∧
        ∀ loop ∈ swept.loops, loop.2.1 ≠ operation) ∧
      (¬ overdue → swept.crew? operation = c.crew? operation ∧
        swept.store.find? operation = c.store.find? operation) := by
  intro c swept overdue
  have hc : c.InStep [] := run_inStep halting actions
  have hrecounts := recounts_history halting operation actions
  obtain ⟨hcrew, hfind⟩ := sweep_spec hc.sound retention clock operation
  have hidle : operation ∈ (c.sweep retention clock).1.1 ↔ overdue := by
    refine hc.sound.mem_evictIdle_iff.trans ?_
    constructor
    · rintro ⟨s, hs, hold⟩
      have htracked : (c.crew? operation).isSome = true := by
        rw [← Option.not_isNone, Bool.not_eq_true', ← Bool.not_eq_true, Option.isNone_iff_eq_none]
        intro huntracked
        rw [hc.untracked operation huntracked] at hs
        exact absurd hs (by simp)
      obtain ⟨history, hhistory⟩ := Option.isSome_iff_exists.1 (hrecounts.tracked.trans htracked)
      refine ⟨history, s.lastWrite, hhistory, ?_, of_decide_eq_true hold⟩
      rw [hrecounts.lastEvent history hhistory, hs, Option.map_some]
    · rintro ⟨history, last, hhistory, hlast, hold⟩
      rw [hrecounts.lastEvent history hhistory, Option.map_eq_some_iff] at hlast
      obtain ⟨s, hs, rfl⟩ := hlast
      exact ⟨s, hs, decide_eq_true hold⟩
  refine ⟨hrecounts.tracked, hidle, ?_, ?_⟩
  · intro hoverdue
    have hnone : swept.crew? operation = none := hcrew.trans (if_pos (hidle.2 hoverdue))
    refine ⟨hnone, hfind.trans (if_pos (hidle.2 hoverdue)), ?_⟩
    intro loop hloop heq
    have hsome := crew?_of_mem_loops hloop
    rw [heq, hnone] at hsome
    exact absurd hsome (by simp)
  · intro hrecent
    exact ⟨hcrew.trans (if_neg (hrecent ∘ hidle.1)), hfind.trans (if_neg (hrecent ∘ hidle.1))⟩

/-- One operation whose only worker has written nothing but a malformed line. -/
def silentRun : List Action := [.track (oneWorker ["1 USMEventLogger starting"]) 0 "blue" true]

/-- It is still tracked, and its loop still runs, long after its tracking began. -/
theorem silent_operation_is_not_swept :
    ¬ ∀ (halting : Bool) (actions : List Action) (retention : Rat) (clock : Clock)
        (operation : String) (history : History), 0 ≤ retention →
        history? halting operation actions = some history →
        let swept := ((run halting actions).sweep retention clock).1.2
        ((swept.crew? operation).isSome ∨ ∃ loop ∈ swept.loops, loop.2.1 = operation) →
          clock.monotonic - history.lastSign ≤ retention := by
  intro covered
  have hhistory : history? false "blue" silentRun = some ⟨0, none⟩ := rfl
  have htracked :
      ((((run false silentRun).sweep 5 ⟨100, 100, none⟩).1.2).crew? "blue").isSome = true := rfl
  have hrecent : (100 : Rat) - 0 ≤ 5 :=
    covered false silentRun 5 ⟨100, 100, none⟩ "blue" ⟨0, none⟩ (by decide) hhistory
      (Or.inl htracked)
  exact absurd hrecent (by grind)

end Collector

end Lifecycle
