import Lifecycle.Proofs.Collector.Identity
import Lifecycle.Proofs.Crew.Places
import Lifecycle.Proofs.Watcher.Alike

/-! # What belongs to a tracked operation

Crews, sequences and running loops belong to tracked operations, each to its own. An operation that
is untracked, or swept, loses all of them at once, and nothing else changes. Nothing of it comes back
by itself. When it is tracked again it begins anew: the collector stores what one that has never
heard of the operation would store, at the same indices. -/

namespace Lifecycle

namespace Collector

variable {c d : Collector} {operation : String}

/-- The crews, sequences and running loops of a collector belong together. -/
structure Owned (c : Collector) : Prop where
  /-- An operation has one crew. -/
  distinct : c.tracked.Distinct
  /-- Its watchers work for it, each on a worker of its own. -/
  watchers : ∀ operation crew, c.crew? operation = some crew →
    (∀ w ∈ crew.watchers, w.deployment = operation) ∧
      (crew.watchers.map fun w => w.worker.name).Nodup
  /-- The stored indices are those that the allocator of the crew has given out. -/
  desks : ∀ operation crew, c.crew? operation = some crew →
    Desk.InStep ⟨crew.allocator, c.store⟩ operation
  sequences : ∀ operation ∈ c.store.ids, (c.crew? operation).isSome = true
  loops : ∀ rank operation k, (rank, operation, k) ∈ c.loops →
    ∃ crew w, c.crew? operation = some crew ∧ crew.watchers[k]? = some w ∧ w.loop = some rank

/-- Some operations are forgotten, and all others are as they were. -/
structure Forgets (dropped : List String) (c next : Collector) : Prop where
  crews : ∀ operation, next.crew? operation =
    if operation ∈ dropped then none else c.crew? operation
  sequences : ∀ operation, next.store.find? operation =
    if operation ∈ dropped then none else c.store.find? operation
  loops : next.loops = c.loops.filter fun loop => loop.2.1 ∉ dropped

/-- The operations that an operation of the collector untracks. -/
def dropped (c : Collector) : Action → List String
  | .untrack operation => [operation]
  | .sweep retention clock => (c.sweep retention clock).1.1
  | _ => []

/-- The operation of the collector begins to track `operation`. -/
def Action.tracks (operation : String) : Action → Bool
  | .track _ _ other _ => other == operation
  | _ => false

/-! ### One crew for each operation -/

theorem distinct_update (h : c.tracked.Distinct) (operation : String) (crew : Crew)
    (store : Store) : (c.update operation crew store).tracked.Distinct :=
  h.set operation crew

theorem distinct_enrol (h : c.tracked.Distinct) (operation : String) :
    (c.enrol operation).tracked.Distinct := by
  rw [enrol]
  split
  · exact h
  · exact h.set operation {}

theorem distinct_refresh (h : c.tracked.Distinct) (world : World) (rank : Nat)
    (operation : String) (start : Bool) :
    (c.refresh world rank operation start).state.tracked.Distinct := by
  simp only [refresh, refreshWith]
  split
  · exact h
  · split
    · exact h
    · exact distinct_update h _ _ _

theorem distinct_wake (h : c.tracked.Distinct) (world : World) (operation : String) (k : Nat) :
    (c.wake world operation k).1.tracked.Distinct := by
  rcases c.wake_cases world operation k with heq | ⟨crew, w, -, -, heq⟩
  · rw [heq]
    exact h
  · rw [heq]
    exact distinct_update h _ _ _

theorem distinct_untrackAll (h : c.tracked.Distinct) (dropped : List String) :
    (c.untrackAll dropped).1.tracked.Distinct := by
  induction dropped generalizing c with
  | nil => exact h
  | cons operation rest ih => exact ih (c := (c.untrack operation).1) (h.erase operation)

theorem distinct_act (h : c.tracked.Distinct) (action : Action) :
    (c.act action).tracked.Distinct := by
  cases action with
  | track world rank operation start =>
    simp only [act, track, trackWith]
    split
    · exact h
    · exact distinct_refresh (distinct_enrol h operation) world rank operation start
  | refresh world rank operation start => exact distinct_refresh h world rank operation start
  | collect world operation =>
    simp only [act, catchUp]
    split
    · exact h
    · exact distinct_update h _ _ _
  | page _ _ _ _ _ => exact h
  | untrack operation => exact h.erase operation
  | sweep retention clock =>
    exact distinct_untrackAll (c := { c with
      store := (c.store.evictIdle retention clock.monotonic).2 }) h _
  | stop => exact h.map fun crew => crew.stop.1
  | wake world operation k => exact distinct_wake h world operation k
  | tick world =>
    refine tick_induction (P := fun c => c.tracked.Distinct) h ?_
    exact fun _ operation k h => distinct_wake h world operation k

theorem run_distinct (halting : Bool) (actions : List Action) :
    (run halting actions).tracked.Distinct := by
  refine run_induction (P := fun c => c.tracked.Distinct) Keyed.distinct_nil ?_ actions
  exact fun _ action h => distinct_act h action

theorem run_owned (halting : Bool) (actions : List Action) : (run halting actions).Owned := by
  have hc := run_inStep halting actions
  have hdistinct := run_distinct halting actions
  constructor
  · exact hdistinct
  · intro operation crew hcrew
    refine ⟨hc.watchers operation crew hcrew, ?_⟩
    have hnodup := (heeds_heard halting operation actions).nodup
    rw [staff_of_crew? hcrew, Option.getD_some, List.map_map] at hnodup
    exact hnodup
  · intro operation crew hcrew
    exact hc.desks operation crew hcrew List.not_mem_nil
  · intro operation hid
    rw [Store.ids, List.mem_mergeSort, hc.sound.mem_registered_iff] at hid
    by_contra huntracked
    rw [Bool.not_eq_true, Option.isSome_eq_false_iff, Option.isNone_iff_eq_none] at huntracked
    rw [hc.untracked operation huntracked] at hid
    exact Bool.false_ne_true hid
  · intro rank operation k hloop
    exact hdistinct.mem_loops_iff.1 hloop

/-! ### Untracking -/

theorem forgets_untrackAll (hs : c.store.Sound) (dropped : List String) :
    Forgets dropped c (c.untrackAll dropped).1 where
  crews := fun operation => (untrackAll_spec hs dropped operation).1
  sequences := fun operation => (untrackAll_spec hs dropped operation).2
  loops := by
    induction dropped generalizing c with
    | nil => exact (List.filter_eq_self.2 fun _ _ => decide_eq_true List.not_mem_nil).symm
    | cons operation rest ih =>
      have hfirst : (c.untrack operation).1.loops =
          c.loops.filter fun loop => !(loop.2.1 == operation) :=
        Keyed.loops_filter c.tracked fun other => !(other == operation)
      refine (ih (hs.evict_spec operation).1).trans ?_
      rw [hfirst, List.filter_filter]
      refine List.filter_congr ?_
      intro loop _
      rw [Bool.eq_iff_iff]
      simp [and_comm]

theorem forgets_act (hs : c.store.Sound) {drop : Action} (h : drop.settles = true) :
    Forgets (c.dropped drop) c (c.act drop) := by
  cases drop with
  | untrack operation => exact forgets_untrackAll hs [operation]
  | sweep retention clock =>
    have hidle := hs.evictIdle_spec retention clock.monotonic
    have hall := forgets_untrackAll (c := { c with
      store := (c.store.evictIdle retention clock.monotonic).2 }) hidle.1
      (c.store.evictIdle retention clock.monotonic).1
    exact ⟨hall.crews, fun operation => (sweep_spec hs retention clock operation).2, hall.loops⟩
  | _ => exact absurd h (by simp [Action.settles])

theorem settles_of_mem_dropped {drop : Action} (h : operation ∈ c.dropped drop) :
    drop.settles = true := by
  cases drop with
  | untrack _ => rfl
  | sweep _ _ => rfl
  | _ => exact absurd h List.not_mem_nil

/-! ### Nothing comes back -/

theorem crew?_act_of_untracked (hs : c.store.Sound) (h : c.crew? operation = none)
    {action : Action} (huntracked : action.tracks operation = false) :
    (c.act action).crew? operation = none := by
  have hstaff : ∀ {d : Collector}, d.staff operation = c.staff operation →
      d.crew? operation = none := by
    intro d hd
    rwa [staff, staff, h, Option.map_none, Option.map_eq_none_iff] at hd
  cases action with
  | track world rank other start =>
    rw [Action.tracks, beq_eq_false_iff_ne] at huntracked
    simp only [act, track, trackWith]
    split
    · exact h
    · refine hstaff ?_
      simp only [staff_refresh, staff_enrol, if_neg huntracked]
      rw [staff, h]
      rfl
  | refresh world rank other start =>
    refine hstaff ?_
    rw [act, staff_refresh, staff, h]
    rfl
  | collect world other => exact hstaff (staff_catchUp c world other operation)
  | page _ _ _ _ _ => exact h
  | untrack other =>
    rw [act, crew?_untrack, h]
    exact ite_self _
  | sweep retention clock =>
    rw [act, (sweep_spec hs retention clock operation).1, h]
    exact ite_self _
  | stop => exact hstaff (staff_stop c operation)
  | wake world other k => exact hstaff (staff_wake c world other k operation)
  | tick world => exact hstaff (staff_tick c world operation)

theorem crew?_run_of_untracked (hc : c.InStep []) (h : c.crew? operation = none)
    {later : List Action} (huntracked : ∀ action ∈ later, action.tracks operation = false) :
    (later.foldl act c).InStep [] ∧ (later.foldl act c).crew? operation = none := by
  induction later generalizing c with
  | nil => exact ⟨hc, h⟩
  | cons action rest ih =>
    exact ih (hc.act action)
      (crew?_act_of_untracked hc.sound h (huntracked action List.mem_cons_self))
      fun other hother => huntracked other (List.mem_cons_of_mem action hother)

/-! ### New watchers halt as they always did -/

theorem halting_refresh (c : Collector) (world : World) (rank : Nat) (operation : String)
    (start : Bool) : (c.refresh world rank operation start).state.halting = c.halting := by
  simp only [refresh, refreshWith]
  split
  · rfl
  · split <;> rfl

theorem halting_enrol (c : Collector) (operation : String) :
    (c.enrol operation).halting = c.halting := by
  rw [enrol]
  split <;> rfl

theorem halting_wake (c : Collector) (world : World) (operation : String) (k : Nat) :
    (c.wake world operation k).1.halting = c.halting := by
  rcases c.wake_cases world operation k with heq | ⟨crew, w, -, -, heq⟩
  · rw [heq]
  · rw [heq]
    rfl

theorem halting_untrackAll (c : Collector) (dropped : List String) :
    (c.untrackAll dropped).1.halting = c.halting := by
  induction dropped generalizing c with
  | nil => rfl
  | cons operation rest ih => exact ih (c.untrack operation).1

theorem halting_act (c : Collector) (action : Action) : (c.act action).halting = c.halting := by
  cases action with
  | track world rank operation start =>
    simp only [act, track, trackWith]
    split
    · rfl
    · exact (halting_refresh _ _ _ _ _).trans (c.halting_enrol operation)
  | refresh world rank operation start => exact c.halting_refresh world rank operation start
  | collect world operation =>
    simp only [act, catchUp]
    split <;> rfl
  | page _ _ _ _ _ => rfl
  | untrack _ => rfl
  | sweep retention clock => exact halting_untrackAll _ _
  | stop => rfl
  | wake world operation k => exact c.halting_wake world operation k
  | tick world =>
    refine tick_induction (P := fun d => d.halting = c.halting) rfl ?_
    exact fun d operation k h => (d.halting_wake world operation k).trans h

theorem halting_run (c : Collector) (actions : List Action) :
    (actions.foldl act c).halting = c.halting := by
  induction actions generalizing c with
  | nil => rfl
  | cons action rest ih => exact (ih (c.act action)).trans (c.halting_act action)

/-! ### Two collectors that know the same of an operation -/

/-- Two crews have the same watchers, and have given out the same indices. -/
structure SameCrew (operation : String) (c d : Collector) (crew crew' : Crew) : Prop where
  watchers : crew.watchers.map Watcher.bare = crew'.watchers.map Watcher.bare
  desk : Desk.Alike operation ⟨crew.allocator, c.store⟩ ⟨crew'.allocator, d.store⟩

/-- Two collectors know the same of an operation: nothing, or what their crews have found out. -/
structure Alike (operation : String) (c d : Collector) : Prop where
  inStep : c.InStep []
  inStep' : d.InStep []
  halting : c.halting = d.halting
  crews : (c.crew? operation = none ∧ d.crew? operation = none) ∨
    ∃ crew crew', c.crew? operation = some crew ∧ d.crew? operation = some crew' ∧
      SameCrew operation c d crew crew'

theorem Alike.undated (h : Alike operation c d) :
    c.store.undated operation = d.store.undated operation := by
  rcases h.crews with ⟨hcrew, hcrew'⟩ | ⟨crew, crew', -, -, hsame⟩
  · rw [Store.undated, Store.undated, Store.contents_of_none (h.inStep.untracked operation hcrew),
      Store.contents_of_none (h.inStep'.untracked operation hcrew')]
  · exact hsame.desk.undated

theorem Alike.update (h : Alike operation c d) {crew crew' : Crew} {store store' : Store}
    (hc : (c.update operation crew store).InStep [])
    (hd : (d.update operation crew' store').InStep [])
    (hwatchers : crew.watchers.map Watcher.bare = crew'.watchers.map Watcher.bare)
    (hdesk : Desk.Alike operation ⟨crew.allocator, store⟩ ⟨crew'.allocator, store'⟩) :
    Alike operation (c.update operation crew store) (d.update operation crew' store') := by
  refine ⟨hc, hd, h.halting, Or.inr ⟨crew, crew', ?_, ?_, hwatchers, hdesk⟩⟩
  · rw [crew?_update, if_pos rfl]
  · rw [crew?_update, if_pos rfl]

theorem Alike.catchUp (h : Alike operation c d) (world : World) (clock : Clock) :
    (c.catchUp world operation).value = (d.catchUp { world with clock } operation).value ∧
      Alike operation (c.catchUp world operation).state
        (d.catchUp { world with clock } operation).state := by
  rcases h.crews with ⟨hcrew, hcrew'⟩ | ⟨crew, crew', hcrew, hcrew', hsame⟩
  · simp only [Collector.catchUp, hcrew, hcrew', true_and]
    exact h
  · have hc := h.inStep.catchUp world operation
    have hd := h.inStep'.catchUp { world with clock } operation
    obtain ⟨hvalue, hwatchers, hdesk⟩ := Crew.pollAll_alike (h.inStep.watchers operation crew hcrew)
      hsame.watchers hsame.desk world.source world.clock clock
    rw [catchUp_of_crew? hcrew] at hc ⊢
    rw [catchUp_of_crew? hcrew'] at hd ⊢
    refine ⟨?_, h.update hc hd hwatchers hdesk⟩
    simp only [Collector.catchUp, hcrew, hcrew']
    exact hvalue

theorem newcomers_loop {crew : Crew} {workers : List Worker} {w : Watcher}
    (hw : w ∈ c.newcomers operation crew workers) : w.loop = none := by
  obtain ⟨_, -, -, rfl⟩ := exists_worker_of_newcomers hw
  rfl

theorem SameCrew.watches {crew crew' : Crew} (h : SameCrew operation c d crew crew')
    (name : String) : crew.watches name = crew'.watches name := by
  have hany : ∀ crew : Crew, crew.watches name =
      (crew.watchers.map Watcher.bare).any fun w => w.worker.name == name := by
    intro crew
    rw [List.any_map]
    rfl
  rw [hany, hany, h.watchers]

theorem enrol_of_untracked (h : c.crew? operation = none) :
    c.enrol operation = c.update operation {} c.store := by
  rw [enrol, h]
  rfl

theorem enrol_of_tracked {crew : Crew} (h : c.crew? operation = some crew) :
    c.enrol operation = c := by
  rw [enrol, h]

theorem Alike.enrol (h : Alike operation c d) :
    Alike operation (c.enrol operation) (d.enrol operation) := by
  rcases h.crews with ⟨hcrew, hcrew'⟩ | ⟨crew, crew', hcrew, hcrew', -⟩
  · have hc := h.inStep.enrol operation
    have hd := h.inStep'.enrol operation
    have htracked := c.crew?_enrol operation
    have htracked' := d.crew?_enrol operation
    rw [hcrew, Option.getD_none] at htracked
    rw [hcrew', Option.getD_none] at htracked'
    have hdesk := hc.desks operation {} htracked List.not_mem_nil
    have hdesk' := hd.desks operation {} htracked' List.not_mem_nil
    rw [enrol_of_untracked hcrew] at hc hdesk ⊢
    rw [enrol_of_untracked hcrew'] at hd hdesk' ⊢
    exact h.update hc hd rfl ⟨hdesk, hdesk', rfl, rfl⟩
  · rwa [enrol_of_tracked hcrew, enrol_of_tracked hcrew']

theorem Alike.refresh (h : Alike operation c d) (world : World) (clock : Clock) (rank rank' : Nat)
    (start : Bool) :
    (c.refresh world rank operation start).value =
        (d.refresh { world with clock } rank' operation start).value ∧
      Alike operation (c.refresh world rank operation start).state
        (d.refresh { world with clock } rank' operation start).state := by
  have hc := h.inStep.refresh world rank operation start
  have hd := h.inStep'.refresh { world with clock } rank' operation start
  revert hc hd
  simp only [Collector.refresh, Collector.refreshWith]
  cases (world.classifier.workersFor operation).value with
  | error fault => exact fun _ _ => ⟨rfl, h⟩
  | ok workers =>
    rcases h.crews with ⟨hcrew, hcrew'⟩ | ⟨crew, crew', hcrew, hcrew', hsame⟩
    · simp only [hcrew, hcrew']
      exact fun _ _ => ⟨trivial, h⟩
    · have hfresh := newcomers_congr h.halting hsame.watches operation (byName workers)
      have hjoin : ∀ {joined joined' : List Watcher},
          joined.map Watcher.bare = joined'.map Watcher.bare →
          (crew.watchers ++ joined).map Watcher.bare =
            (crew'.watchers ++ joined').map Watcher.bare := by
        intro joined joined' hjoined
        rw [List.map_append, List.map_append, hsame.watchers, hjoined]
      simp only [hcrew, hcrew', ← hfresh]
      intro hc hd
      cases start with
      | false => exact ⟨trivial, h.update hc hd (hjoin rfl) hsame.desk⟩
      | true =>
        have hdeployment : ∀ w ∈ c.newcomers operation crew (byName workers),
            w.deployment = operation := fun w hw => newcomers_deployment hw
        obtain ⟨hstarted, hdesk⟩ := Crew.startFrom_alike hdeployment (fun w hw => newcomers_loop hw)
          hsame.desk world.source world.clock clock rank rank'
        exact ⟨trivial, h.update hc hd (hjoin hstarted) hdesk⟩

theorem Alike.track (h : Alike operation c d) (world : World) (clock : Clock) (rank rank' : Nat)
    (start : Bool) :
    (c.track world rank operation start).value =
        (d.track { world with clock } rank' operation start).value ∧
      Alike operation (c.track world rank operation start).state
        (d.track { world with clock } rank' operation start).state := by
  simp only [Collector.track, Collector.trackWith]
  cases (world.classifier.classify operation).value with
  | error fault => exact ⟨rfl, h⟩
  | ok kind =>
    obtain ⟨hvalue, hstate⟩ := h.enrol.refresh world clock rank rank' start
    exact ⟨by rw [hvalue], hstate⟩

theorem InStep.indices (h : c.InStep []) (operation : String) :
    (c.store.contents operation).map Prod.fst =
      (List.range (c.store.size operation)).map Int.ofNat := by
  cases hcrew : c.crew? operation with
  | none =>
    have hnone := h.untracked operation hcrew
    rw [Store.size_eq_length_contents, Store.contents_of_none hnone]
    rfl
  | some crew =>
    have hdesk := h.desks operation crew hcrew List.not_mem_nil
    rw [hdesk.size_eq, hdesk.indices]

/-- In every state of a collector whose store nobody else writes, crews, sequences and running loops
belong to tracked operations. Untracking and sweeping make the collector forget just the operations
they name, which stay forgotten until they are tracked again. Then their events are stored as by a
new collector, from index 0 on. -/
theorem dropped_operations_begin_anew (halting : Bool) (actions : List Action) :
    let c := run halting actions
    c.Owned ∧
      (∀ drop : Action, drop.settles = true → Forgets (c.dropped drop) c (c.act drop)) ∧
      ∀ drop, ∀ operation ∈ c.dropped drop, ∀ later : List Action,
        (∀ action ∈ later, action.tracks operation = false) →
        let gone := later.foldl act (c.act drop)
        (gone.crew? operation = none ∧ gone.store.find? operation = none ∧
          ∀ loop ∈ gone.loops, loop.2.1 ≠ operation) ∧
        ∀ world current clock clock' rank rank' start,
          let again := gone.track world rank operation start
          let anew := Collector.track { halting } { world with clock } rank' operation start
          let collected := again.state.catchUp current operation
          let collected' := anew.state.catchUp { current with clock := clock' } operation
          again.value = anew.value ∧ collected.value = collected'.value ∧
            collected.state.store.undated operation = collected'.state.store.undated operation ∧
            (collected.state.store.contents operation).map Prod.fst =
              (List.range (collected.state.store.size operation)).map Int.ofNat := by
  intro c
  have hc : c.InStep [] := run_inStep halting actions
  refine ⟨run_owned halting actions, fun drop hdrop => forgets_act hc.sound hdrop, ?_⟩
  intro drop operation hmem later hlater gone
  have hforgets := forgets_act hc.sound (settles_of_mem_dropped hmem)
  have hdropped : (c.act drop).crew? operation = none :=
    (hforgets.crews operation).trans (if_pos hmem)
  obtain ⟨hgone, huntracked⟩ := crew?_run_of_untracked (hc.act drop) hdropped hlater
  refine ⟨⟨huntracked, hgone.untracked operation huntracked, ?_⟩, ?_⟩
  · intro loop hloop heq
    have htracked := crew?_of_mem_loops hloop
    rw [heq, huntracked] at htracked
    exact absurd htracked (by simp)
  · intro world current clock clock' rank rank' start again anew collected collected'
    have hhalting : gone.halting = halting :=
      (halting_run _ later).trans ((c.halting_act drop).trans (halting_run _ actions))
    have halike : Alike operation gone { halting } :=
      ⟨hgone, inStep_start halting, hhalting, Or.inl ⟨huntracked, rfl⟩⟩
    obtain ⟨hkind, htracked⟩ := halike.track world clock rank rank' start
    obtain ⟨hvalue, hcollected⟩ := htracked.catchUp current clock'
    exact ⟨hkind, hvalue, hcollected.undated, hcollected.inStep.indices operation⟩

end Collector

end Lifecycle
