import Lifecycle.Collector
import Lifecycle.Journal
import Lifecycle.Proofs.Desk.Reads
import Lifecycle.Proofs.Keyed
import Lifecycle.Proofs.Watcher.Passes

/-! # No gaps in tracked operations

An operation is tracked with an allocator, and its sequence is dropped only when the operation is
untracked. So the indices of a tracked operation are always those its allocator has given out, and
there is no sequence of an operation that is not tracked. No operation of the collector leaves a
gap: not a pass that ends at a malformed line, not a read that fails and not a sweep. -/

namespace Lifecycle

/-! ### Passes of watchers that share a desk -/

/-- From one desk to the next, the deployment has stayed in step and the others were not touched. -/
structure Desk.Keeps (id : String) (desk next : Desk) : Prop where
  inStep : next.InStep id
  frame : ∀ other, other ≠ id → next.store.find? other = desk.store.find? other

theorem Desk.Keeps.refl {id : String} {desk : Desk} (h : desk.InStep id) : Keeps id desk desk :=
  ⟨h, fun _ _ => rfl⟩

theorem Desk.Keeps.trans {id : String} {desk next last : Desk} (first : Keeps id desk next)
    (second : Keeps id next last) : Keeps id desk last :=
  ⟨second.inStep, fun other hother =>
    (second.frame other hother).trans (first.frame other hother)⟩

namespace Watcher

variable {w : Watcher} {id : String} {desk : Desk}

theorem catchUp_keeps (hw : w.deployment = id) (hd : desk.InStep id) (source : Source)
    (clock : Clock) :
    Desk.Keeps id desk (w.catchUp source clock desk).state.2 ∧
      (w.catchUp source clock desk).state.1.deployment = id := by
  subst hw
  cases hread : (source.read w.worker).value with
  | error fault =>
    rw [(catchUp_of_error hread clock desk).1]
    exact ⟨Desk.Keeps.refl hd, rfl⟩
  | ok lines =>
    rw [(catchUp_of_ok hread clock desk).1]
    have hadvance := pass_advance hd clock (lines.filter Line.isEvent)
    obtain ⟨generation, position, hmove⟩ := pass_moveTo (w := w) clock (lines.filter Line.isEvent) desk
    rw [hmove]
    exact ⟨⟨hadvance.inStep, hadvance.frame⟩, rfl⟩

theorem wake_keeps (hw : w.deployment = id) (hd : desk.InStep id) (source : Source)
    (clock : Clock) :
    Desk.Keeps id desk (w.wake source clock desk).state.2 ∧
      (w.wake source clock desk).state.1.deployment = id := by
  have hkeeps := catchUp_keeps hw hd source clock
  simp only [wake]
  split <;> exact hkeeps

theorem start_keeps (hw : w.deployment = id) (hd : desk.InStep id) (rank : Nat)
    (source : Source) (clock : Clock) :
    Desk.Keeps id desk (w.start rank source clock desk).state.2 ∧
      (w.start rank source clock desk).state.1.deployment = id := by
  simp only [start]
  split
  · exact ⟨Desk.Keeps.refl hd, hw⟩
  · exact wake_keeps (w := { w with loop := some rank }) hw hd source clock

theorem stop_deployment (w : Watcher) : w.stop.1.deployment = w.deployment := by
  rw [stop]
  split <;> rfl

end Watcher

namespace Crew

variable {id : String}

theorem pollAll_keeps {watchers : List Watcher} (hw : ∀ w ∈ watchers, w.deployment = id)
    {desk : Desk} (hd : desk.InStep id) (source : Source) (clock : Clock) :
    Desk.Keeps id desk (pollAll source clock watchers desk).state.2 ∧
      ∀ w ∈ (pollAll source clock watchers desk).state.1, w.deployment = id := by
  induction watchers generalizing desk with
  | nil => exact ⟨Desk.Keeps.refl hd, hw⟩
  | cons w rest ih =>
    obtain ⟨hfirst, hdeployment⟩ :=
      Watcher.catchUp_keeps (hw w List.mem_cons_self) hd source clock
    have hrest : ∀ v ∈ rest, v.deployment = id := fun v hv => hw v (List.mem_cons_of_mem w hv)
    simp only [pollAll]
    split
    · refine ⟨hfirst, ?_⟩
      intro v hv
      rcases List.mem_cons.1 hv with rfl | hv
      · exact hdeployment
      · exact hrest v hv
    · obtain ⟨hothers, hdeployments⟩ := ih hrest hfirst.inStep
      refine ⟨hfirst.trans hothers, ?_⟩
      intro v hv
      rcases List.mem_cons.1 hv with rfl | hv
      · exact hdeployment
      · exact hdeployments v hv

theorem startFrom_keeps {watchers : List Watcher} (hw : ∀ w ∈ watchers, w.deployment = id)
    {desk : Desk} (hd : desk.InStep id) (source : Source) (clock : Clock) (rank : Nat) :
    Desk.Keeps id desk (startFrom source clock rank watchers desk).1.2 ∧
      ∀ w ∈ (startFrom source clock rank watchers desk).1.1, w.deployment = id := by
  induction watchers generalizing desk rank with
  | nil => exact ⟨Desk.Keeps.refl hd, hw⟩
  | cons w rest ih =>
    obtain ⟨hfirst, hdeployment⟩ :=
      Watcher.start_keeps (hw w List.mem_cons_self) hd rank source clock
    have hrest : ∀ v ∈ rest, v.deployment = id := fun v hv => hw v (List.mem_cons_of_mem w hv)
    obtain ⟨hothers, hdeployments⟩ := ih hrest hfirst.inStep (rank + 1)
    simp only [startFrom]
    refine ⟨hfirst.trans hothers, ?_⟩
    intro v hv
    rcases List.mem_cons.1 hv with rfl | hv
    · exact hdeployment
    · exact hdeployments v hv

theorem mem_stop {crew : Crew} {w : Watcher} (hw : w ∈ crew.stop.1.watchers) :
    ∃ v ∈ crew.watchers, w.deployment = v.deployment := by
  obtain ⟨v, hv, rfl⟩ := List.mem_map.1 hw
  exact ⟨v, hv, v.stop_deployment⟩

end Crew

/-! ### The invariant -/

namespace Collector

/-- Tracked operations are in step, but for those in `dropped`, whose sequences are gone. -/
structure InStep (dropped : List String) (c : Collector) : Prop where
  sound : c.store.Sound
  desks : ∀ operation crew, c.crew? operation = some crew → operation ∉ dropped →
    Desk.InStep ⟨crew.allocator, c.store⟩ operation
  watchers : ∀ operation crew, c.crew? operation = some crew → ∀ w ∈ crew.watchers,
    w.deployment = operation
  untracked : ∀ operation, c.crew? operation = none → c.store.find? operation = none

variable {c : Collector} {operation : String}

theorem inStep_start (halting : Bool) : InStep [] { halting } where
  sound := Store.sound_empty
  desks := by
    intro operation crew hcrew
    exact absurd hcrew (by simp [crew?, Keyed.get?_nil])
  watchers := by
    intro operation crew hcrew
    exact absurd hcrew (by simp [crew?, Keyed.get?_nil])
  untracked := fun _ _ => rfl

theorem crew?_update (c : Collector) (operation : String) (crew : Crew) (store : Store)
    (other : String) :
    (c.update operation crew store).crew? other =
      if operation = other then some crew else c.crew? other := by
  simp only [update, crew?, Keyed.get?_set, beq_iff_eq]

theorem crew?_stop (c : Collector) (operation : String) :
    c.stop.1.crew? operation = (c.crew? operation).map fun crew => crew.stop.1 :=
  Keyed.get?_map c.tracked (fun crew => crew.stop.1) operation

theorem crew?_untrack (c : Collector) (operation other : String) :
    (c.untrack operation).1.crew? other =
      if operation = other then none else c.crew? other := by
  simp only [untrack, crew?, Keyed.get?_erase, beq_iff_eq]

/-- A desk in step stays so if the store changes elsewhere. -/
theorem inStep_of_frame {allocator : Allocator} {store next : Store} {id : String}
    (h : Desk.InStep ⟨allocator, store⟩ id) (sound : next.Sound)
    (frame : next.find? id = store.find? id) : Desk.InStep ⟨allocator, next⟩ id where
  sound := sound
  distinct := h.distinct
  indices := by
    rw [Store.contents_congr frame]
    exact h.indices
  labelled := by
    rw [Store.contents_congr frame]
    exact h.labelled

/-- An operation whose crew has worked at its desk. -/
theorem InStep.update (h : c.InStep []) {allocator : Allocator} {crew : Crew} {store : Store}
    (keeps : Desk.Keeps operation ⟨allocator, c.store⟩ ⟨crew.allocator, store⟩)
    (watchers : ∀ w ∈ crew.watchers, w.deployment = operation) :
    (c.update operation crew store).InStep [] where
  sound := keeps.inStep.sound
  desks := by
    intro other crew' hcrew _
    rw [crew?_update] at hcrew
    split at hcrew
    · rename_i heq
      rw [← heq, ← Option.some.inj hcrew]
      exact keeps.inStep
    · rename_i hne
      exact inStep_of_frame (h.desks other crew' hcrew List.not_mem_nil) keeps.inStep.sound
        (keeps.frame other (Ne.symm hne))
  watchers := by
    intro other crew' hcrew
    rw [crew?_update] at hcrew
    split at hcrew
    · rename_i heq
      rw [← heq, ← Option.some.inj hcrew]
      exact watchers
    · exact h.watchers other crew' hcrew
  untracked := by
    intro other hcrew
    rw [crew?_update] at hcrew
    split at hcrew
    · exact absurd hcrew (by simp)
    · rename_i hne
      exact (keeps.frame other (Ne.symm hne)).trans (h.untracked other hcrew)

/-! ### Every operation of the collector -/

theorem InStep.enrol (h : c.InStep []) (operation : String) : (c.enrol operation).InStep [] := by
  simp only [Collector.enrol]
  split
  · exact h
  · rename_i hcrew
    have hnone := h.untracked operation hcrew
    have hdesk : Desk.InStep ⟨{}, c.store⟩ operation :=
      inStep_of_frame (Desk.inStep_empty operation) h.sound hnone
    exact h.update (Desk.Keeps.refl hdesk) (fun w hw => absurd hw List.not_mem_nil)

theorem watches_join (crew : Crew) (newcomers : List Watcher) (name : String) :
    (crew.join newcomers).watches name =
      (crew.watches name || newcomers.any fun w => w.worker.name == name) :=
  List.any_append

/-- A newcomer is a watcher, as it begins, of a worker that the crew does not watch. -/
theorem exists_worker_of_newcomers {crew : Crew} {workers : List Worker} {w : Watcher}
    (hw : w ∈ c.newcomers operation crew workers) :
    ∃ worker ∈ workers, crew.watches worker.name = false ∧
      w = { deployment := operation, worker, halting := c.halting } := by
  induction workers generalizing crew with
  | nil => exact absurd hw List.not_mem_nil
  | cons worker rest ih =>
    rw [newcomers] at hw
    split at hw
    · obtain ⟨other, hother, hnew⟩ := ih hw
      exact ⟨other, List.mem_cons_of_mem worker hother, hnew⟩
    · rename_i hunwatched
      rcases List.mem_cons.1 hw with rfl | hw
      · exact ⟨worker, List.mem_cons_self, Bool.eq_false_iff.2 hunwatched, rfl⟩
      · obtain ⟨other, hother, hnew, heq⟩ := ih hw
        rw [watches_join, Bool.or_eq_false_iff] at hnew
        exact ⟨other, List.mem_cons_of_mem worker hother, hnew.1, heq⟩

theorem newcomers_deployment {crew : Crew} {workers : List Worker} {w : Watcher}
    (hw : w ∈ c.newcomers operation crew workers) : w.deployment = operation := by
  obtain ⟨_, -, -, rfl⟩ := exists_worker_of_newcomers hw
  rfl

theorem InStep.refresh (h : c.InStep []) (world : World) (rank : Nat) (operation : String)
    (start : Bool) : (c.refresh world rank operation start).state.InStep [] := by
  simp only [Collector.refresh, Collector.refreshWith]
  split
  · exact h
  · rename_i workers _
    split
    · exact h
    · rename_i crew hcrew
      have hdesk := h.desks operation crew hcrew List.not_mem_nil
      have hold := h.watchers operation crew hcrew
      have hnew : ∀ w ∈ c.newcomers operation crew (byName workers), w.deployment = operation :=
        fun w hw => newcomers_deployment hw
      cases start with
      | false =>
        refine h.update (Desk.Keeps.refl hdesk) ?_
        intro w hw
        rcases List.mem_append.1 hw with hw | hw
        · exact hold w hw
        · exact hnew w hw
      | true =>
        obtain ⟨hkeeps, hjoined⟩ :=
          Crew.startFrom_keeps hnew hdesk world.source world.clock rank
        refine h.update hkeeps ?_
        intro w hw
        rcases List.mem_append.1 hw with hw | hw
        · exact hold w hw
        · exact hjoined w hw

theorem InStep.track (h : c.InStep []) (world : World) (rank : Nat) (operation : String)
    (start : Bool) : (c.track world rank operation start).state.InStep [] := by
  simp only [Collector.track, Collector.trackWith]
  split
  · exact h
  · exact (h.enrol operation).refresh world rank operation start

theorem InStep.catchUp (h : c.InStep []) (world : World) (operation : String) :
    (c.catchUp world operation).state.InStep [] := by
  simp only [Collector.catchUp]
  split
  · exact h
  · rename_i crew hcrew
    obtain ⟨hkeeps, hwatchers⟩ := Crew.pollAll_keeps (h.watchers operation crew hcrew)
      (h.desks operation crew hcrew List.not_mem_nil) world.source world.clock
    exact h.update hkeeps hwatchers

/-- A loop that is not there does nothing. Any other wakes its watcher, which writes on the desk of
its crew. -/
theorem wake_cases (c : Collector) (world : World) (operation : String) (k : Nat) :
    c.wake world operation k = (c, []) ∨
      ∃ crew w, c.crew? operation = some crew ∧ crew.watchers[k]? = some w ∧
        let woken := w.wake world.source world.clock ⟨crew.allocator, c.store⟩
        c.wake world operation k =
          (c.update operation ⟨woken.state.2.allocator, crew.watchers.set k woken.state.1⟩
            woken.state.2.store, woken.effects) := by
  simp only [wake]
  cases hcrew : c.crew? operation with
  | none => exact Or.inl rfl
  | some crew =>
    simp only [Option.bind_eq_bind, Option.bind_some, Crew.act]
    cases hw : crew.watchers[k]? with
    | none => exact Or.inl rfl
    | some w => exact Or.inr ⟨crew, w, rfl, hw, rfl⟩

theorem InStep.wake (h : c.InStep []) (world : World) (operation : String) (k : Nat) :
    (c.wake world operation k).1.InStep [] := by
  rcases c.wake_cases world operation k with heq | ⟨crew, w, hcrew, hw, heq⟩
  · rw [heq]
    exact h
  · have hold := h.watchers operation crew hcrew
    obtain ⟨hkeeps, hdeployment⟩ := Watcher.wake_keeps (hold w (List.mem_of_getElem? hw))
      (h.desks operation crew hcrew List.not_mem_nil) world.source world.clock
    rw [heq]
    refine h.update hkeeps ?_
    intro v hv
    rcases List.mem_or_eq_of_mem_set hv with hv | rfl
    · exact hold v hv
    · exact hdeployment

/-- What holds whichever loop wakes holds after a tick. -/
theorem tick_induction {P : Collector → Prop} (h : P c) {world : World}
    (wake : ∀ c operation k, P c → P (c.wake world operation k).1) : P (c.tick world).1 := by
  refine List.foldlRecOn (motive := fun state : Collector × List Effect => P state.1)
    (byRank c.loops) _ h ?_
  intro state hstate loop _
  exact wake state.1 loop.2.1 loop.2.2 hstate

theorem InStep.tick (h : c.InStep []) (world : World) : (c.tick world).1.InStep [] :=
  tick_induction h fun _ operation k h => h.wake world operation k

theorem InStep.stop (h : c.InStep []) : c.stop.1.InStep [] := by
  refine ⟨h.sound, ?_, ?_, ?_⟩
  · intro operation crew hcrew hdropped
    rw [crew?_stop, Option.map_eq_some_iff] at hcrew
    obtain ⟨old, hold, rfl⟩ := hcrew
    exact h.desks operation old hold hdropped
  · intro operation crew hcrew w hw
    rw [crew?_stop, Option.map_eq_some_iff] at hcrew
    obtain ⟨old, hold, rfl⟩ := hcrew
    obtain ⟨v, hv, heq⟩ := Crew.mem_stop hw
    rw [heq]
    exact h.watchers operation old hold v hv
  · intro operation hcrew
    rw [crew?_stop, Option.map_eq_none_iff] at hcrew
    exact h.untracked operation hcrew

/-- Untracking an operation drops its sequence and its allocator together. -/
theorem InStep.untrack {dropped : List String} (h : c.InStep (operation :: dropped)) :
    (c.untrack operation).1.InStep dropped := by
  obtain ⟨hsound, hfind⟩ := h.sound.evict_spec operation
  have hstore : (c.untrack operation).1.store = (c.store.evict operation).2 := rfl
  refine ⟨hsound, ?_, ?_, ?_⟩
  · intro other crew hcrew hdropped
    rw [crew?_untrack] at hcrew
    split at hcrew
    · exact absurd hcrew (by simp)
    · rename_i hne
      refine inStep_of_frame (h.desks other crew hcrew ?_) hsound ?_
      · rw [List.mem_cons, not_or]
        exact ⟨Ne.symm hne, hdropped⟩
      · rw [hstore, hfind, if_neg (Ne.symm hne)]
  · intro other crew hcrew
    rw [crew?_untrack] at hcrew
    split at hcrew
    · exact absurd hcrew (by simp)
    · exact h.watchers other crew hcrew
  · intro other hcrew
    rw [crew?_untrack] at hcrew
    rw [hstore, hfind]
    split at hcrew
    · rename_i heq
      rw [if_pos heq.symm]
    · rename_i hne
      rw [if_neg (Ne.symm hne)]
      exact h.untracked other hcrew

theorem InStep.untrackAll {dropped : List String} (h : c.InStep dropped) :
    (c.untrackAll dropped).1.InStep [] := by
  induction dropped generalizing c with
  | nil => exact h
  | cons operation rest ih => exact ih h.untrack

/-- A sweep untracks just the operations whose sequences it has dropped. -/
theorem InStep.sweep (h : c.InStep []) (retention : Rat) (clock : Clock) :
    (c.sweep retention clock).1.2.InStep [] := by
  obtain ⟨hsound, hfind⟩ := h.sound.evictIdle_spec retention clock.monotonic
  refine InStep.untrackAll (c := { c with store := (c.store.evictIdle retention clock.monotonic).2 })
    ⟨hsound, ?_, h.watchers, ?_⟩
  · intro operation crew hcrew hdropped
    have hkept : operation ∉ (c.store.evictIdle retention clock.monotonic).1 := hdropped
    exact inStep_of_frame (h.desks operation crew hcrew List.not_mem_nil) hsound
      (h.sound.find?_evictIdle_of_not_mem hkept)
  · intro operation hcrew
    rw [hfind, h.untracked operation hcrew]
    rfl

/-! ### Every run -/

/-- An operation of the collector, with what it finds outside. -/
inductive Action
  | track (world : World) (rank : Nat) (operation : String) (start : Bool)
  | refresh (world : World) (rank : Nat) (operation : String) (start : Bool)
  | collect (world : World) (operation : String)
  | page (operation : String) (start stop : Int) (maxWait : Option Binary64)
      (correlation : Option String)
  | untrack (operation : String)
  | sweep (retention : Rat) (clock : Clock)
  | stop
  | wake (world : World) (operation : String) (k : Nat)
  | tick (world : World)

/-- The collector after one operation. Pages are read and leave it as it is. -/
def act (c : Collector) : Action → Collector
  | .track world rank operation start => (c.track world rank operation start).state
  | .refresh world rank operation start => (c.refresh world rank operation start).state
  | .collect world operation => (c.catchUp world operation).state
  | .page _ _ _ _ _ => c
  | .untrack operation => (c.untrack operation).1
  | .sweep retention clock => (c.sweep retention clock).1.2
  | .stop => c.stop.1
  | .wake world operation k => (c.wake world operation k).1
  | .tick world => (c.tick world).1

/-- The collector after some operations, from an empty store on. -/
def run (halting : Bool) (actions : List Action) : Collector := actions.foldl act { halting }

theorem InStep.act (h : c.InStep []) (action : Action) : (c.act action).InStep [] := by
  cases action with
  | track world rank operation start => exact h.track world rank operation start
  | refresh world rank operation start => exact h.refresh world rank operation start
  | collect world operation => exact h.catchUp world operation
  | page operation start stop maxWait correlation => exact h
  | untrack operation =>
    refine InStep.untrack ⟨h.sound, ?_, h.watchers, h.untracked⟩
    exact fun other crew hcrew _ => h.desks other crew hcrew List.not_mem_nil
  | sweep retention clock => exact h.sweep retention clock
  | stop => exact h.stop
  | wake world operation k => exact h.wake world operation k
  | tick world => exact h.tick world

/-- What holds at the start and whatever is done next holds of every run. -/
theorem run_induction {P : Collector → Prop} {halting : Bool} (start : P { halting })
    (act : ∀ c action, P c → P (c.act action)) (actions : List Action) :
    P (run halting actions) := by
  refine List.foldlRecOn (motive := P) actions _ start ?_
  intro c hc action _
  exact act c action hc

theorem run_inStep (halting : Bool) (actions : List Action) : (run halting actions).InStep [] :=
  run_induction (inStep_start halting) (fun _ action h => h.act action) actions

theorem run_concat (halting : Bool) (actions : List Action) (action : Action) :
    run halting (actions ++ [action]) = (run halting actions).act action := by
  rw [run, List.foldl_append]
  rfl

theorem page_value (c : Collector) (operation : String) {start stop : Int} (h0 : 0 ≤ start)
    (hle : start ≤ stop) (maxWait : Option Binary64) (correlation : Option String) :
    (c.page operation start stop maxWait correlation).value =
      if Journal.isTellable ⟨start, stop⟩ then
        .ok (Page.read c.store operation ⟨start, stop⟩ maxWait)
      else .error .unwritable := by
  rw [Collector.value_page, Page.poll_of_nonneg h0 (by omega)]
  rfl

theorem page_negative (c : Collector) (operation : String) {start : Int} (h0 : start < 0)
    (stop : Int) (maxWait : Option Binary64) (correlation : Option String) :
    (c.page operation start stop maxWait correlation).value =
      .error (BadBounds.fault ⟨start, stop⟩) := by
  rw [Collector.value_page, Page.poll_of_negative (Or.inl h0)]

/-- The desk once some watchers have polled. -/
def deskAfter (desk : Desk) (polls : List (Watcher × World)) : Desk :=
  polls.foldl (fun desk (w, world) => (w.catchUp world.source world.clock desk).state.2) desk

theorem inStep_deskAfter {id : String} {desk : Desk} (h : desk.InStep id)
    (polls : List (Watcher × World)) (hpolls : ∀ p ∈ polls, p.1.deployment = id) :
    (deskAfter desk polls).InStep id := by
  induction polls generalizing desk with
  | nil => exact h
  | cons p rest ih =>
    have hfirst := Watcher.catchUp_keeps (hpolls p List.mem_cons_self) h p.2.source p.2.clock
    exact ih hfirst.1.inStep fun q hq => hpolls q (List.mem_cons_of_mem p hq)

/-- In every state of a collector whose store nobody else writes, a tracked operation has its
events at the indices from 0 on, as many as its allocator has given out. So the mark and the pages
follow from their number, and no put of a watcher is refused, neither now nor after other watchers
of the operation have polled. -/
theorem tracked_operations_have_no_gap (halting : Bool) (actions : List Action)
    {operation : String} {crew : Crew}
    (tracked : (run halting actions).crew? operation = some crew) :
    let c := run halting actions
    (c.store.contents operation).map Prod.fst =
        (List.range crew.allocator.size).map Int.ofNat ∧
      c.store.size operation = crew.allocator.size ∧
      c.store.mark operation = (c.store.size operation : Int) - 1 ∧
      (∀ start stop maxWait correlation, start ≤ stop →
        (0 ≤ start → Journal.isTellable ⟨start, stop⟩ = true →
          ∃ page, (c.page operation start stop maxWait correlation).value = .ok page) ∧
        ∀ page, (c.page operation start stop maxWait correlation).value = .ok page →
          (page.isComplete = true ↔ stop < c.store.size operation)) ∧
      (∀ w ∈ crew.watchers, w.deployment = operation) ∧
      ∀ polls : List (Watcher × World), (∀ p ∈ polls, p.1.deployment = operation) →
        ∀ w : Watcher, w.deployment = operation → ∀ clock lines fault,
          (w.pass clock lines (deskAfter ⟨crew.allocator, c.store⟩ polls)).value ≠
            .error (.put fault) := by
  intro c
  have h : c.InStep [] := run_inStep halting actions
  have hdesk := h.desks operation crew tracked List.not_mem_nil
  refine ⟨hdesk.indices, hdesk.size_eq, ?_, ?_, h.watchers operation crew tracked, ?_⟩
  · rw [hdesk.size_eq]
    exact hdesk.mark_eq
  · intro start stop maxWait correlation hle
    constructor
    · intro h0 htellable
      rw [page_value c operation h0 hle]
      exact ⟨_, if_pos htellable⟩
    · intro page hpage
      by_cases h0 : start < 0
      · rw [page_negative c operation h0] at hpage
        exact absurd hpage (by simp)
      rw [page_value c operation (Int.not_lt.1 h0) hle] at hpage
      split at hpage
      · rw [← Except.ok.inj hpage]
        exact hdesk.page_isComplete_iff (Int.not_lt.1 h0) hle maxWait
      · exact absurd hpage (by simp)
  · intro polls hpolls w hw clock lines fault hput
    have hafter := inStep_deskAfter hdesk polls hpolls
    rw [← hw] at hafter
    obtain ⟨-, line, hline⟩ := Watcher.pass_fault hafter hput
    exact absurd hline (by simp)

/-- An operation with one worker, whose log has a malformed line and starts anew. -/
def oneWorker (lines : List String) : World where
  classifier :=
    { topology := .fixed [{ name := "unit", deployment := some "blue" }]
        [⟨"unit", [⟨"pod-0", ⟨"node-1", "10.0.0.1"⟩⟩]⟩] }
  source := .fixed [("pod-0", lines)]
  clock := ⟨0, 0, none⟩

def haltingRun : List Action :=
  [.track (oneWorker []) 0 "blue" true, .sweep 60 ⟨0, 0, none⟩,
    .collect (oneWorker ["1 - USMEventLogger.up", "2 USMEventLogger", "3 - USMEventLogger.down"])
      "blue",
    .wake (oneWorker ["1 - USMEventLogger.up", "2 USMEventLogger", "3 - USMEventLogger.down"])
      "blue" 0,
    .collect (oneWorker ["4 - USMEventLogger.again"]) "blue"]

theorem halting_run_has_no_gap :
    ∃ crew, (run true haltingRun).crew? "blue" = some crew ∧ crew.allocator.size = 2 ∧
      (run true haltingRun).store.mark "blue" = 1 ∧
      ((run true haltingRun).store.contents "blue").map Prod.fst = [0, 1] := by
  have isTracked : ((run true haltingRun).crew? "blue").isSome = true := rfl
  obtain ⟨crew, tracked⟩ := Option.isSome_iff_exists.1 isTracked
  have size : (((run true haltingRun).crew? "blue").map fun crew => crew.allocator.size) =
      some 2 := rfl
  rw [tracked, Option.map_some, Option.some.injEq] at size
  obtain ⟨indices, stored, mark, -⟩ := tracked_operations_have_no_gap true haltingRun tracked
  rw [size] at indices
  rw [stored, size] at mark
  exact ⟨crew, tracked, size, mark, indices⟩

end Collector

end Lifecycle
