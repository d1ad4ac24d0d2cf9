import Lifecycle.Proofs.Collector.Ownership
import Lifecycle.Proofs.Watcher.Growth

/-! # Discovery of workers

The workers of an operation come and go, and asking for them may fail at any time. Tracking and
refreshing an operation only ever add to its crew: a watcher for each name that is reported for the
first time, in order of the reports and within a report in order of the names. The watchers that are
there already, and what their allocator knows, are left alone. A refresh that fails does nothing, so
the next one makes up for it. -/

namespace Lifecycle.Collector

variable {c : Collector} {operation : String}

/-! ### Workers in order of their names -/

theorem insertByName_perm (worker : Worker) (workers : List Worker) :
    (insertByName worker workers).Perm (worker :: workers) := by
  induction workers with
  | nil => exact List.Perm.refl _
  | cons first rest ih =>
    rw [insertByName]
    split
    · exact List.Perm.refl _
    · exact (ih.cons first).trans (List.Perm.swap worker first rest)

theorem byName_perm (workers : List Worker) : (byName workers).Perm workers := by
  induction workers with
  | nil => exact List.Perm.refl _
  | cons worker rest ih => exact (insertByName_perm worker _).trans (ih.cons worker)

theorem pairwise_insertByName {workers : List Worker}
    (h : workers.Pairwise fun a b => a.name ≤ b.name) (worker : Worker) :
    (insertByName worker workers).Pairwise fun a b => a.name ≤ b.name := by
  induction workers with
  | nil => exact List.pairwise_singleton _ _
  | cons first rest ih =>
    obtain ⟨hfirst, hrest⟩ := List.pairwise_cons.1 h
    rw [insertByName]
    split
    · rename_i hle
      refine List.pairwise_cons.2 ⟨?_, h⟩
      intro other hother
      rcases List.mem_cons.1 hother with rfl | hother
      · exact hle
      · exact Std.le_trans hle (hfirst other hother)
    · rename_i hlt
      refine List.pairwise_cons.2 ⟨?_, ih hrest⟩
      intro other hother
      rcases List.mem_cons.1 ((insertByName_perm worker rest).mem_iff.1 hother) with rfl | hother
      · exact (Std.le_total (a := first.name) (b := other.name)).resolve_right hlt
      · exact hfirst other hother

theorem pairwise_byName (workers : List Worker) :
    (byName workers).Pairwise fun a b => a.name ≤ b.name := by
  induction workers with
  | nil => exact List.Pairwise.nil
  | cons worker rest ih => exact pairwise_insertByName ih worker

theorem map_name_byName (workers : List Worker) :
    (byName workers).map Worker.name = (workers.map Worker.name).mergeSort fun a b => a ≤ b := by
  have hsorted : ((byName workers).map Worker.name).Pairwise fun a b => a ≤ b :=
    List.pairwise_map.2 (pairwise_byName workers)
  have htrans : ∀ a b d : String, decide (a ≤ b) = true → decide (b ≤ d) = true →
      decide (a ≤ d) = true := by
    intro a b d hab hbd
    exact decide_eq_true (Std.le_trans (of_decide_eq_true hab) (of_decide_eq_true hbd))
  have htotal : ∀ a b : String, (decide (a ≤ b) || decide (b ≤ a)) = true := by
    intro a b
    simpa using Std.le_total (a := a) (b := b)
  have hmerged : ((workers.map Worker.name).mergeSort fun a b => a ≤ b).Pairwise fun a b => a ≤ b := by
    simpa using List.pairwise_mergeSort htrans htotal (workers.map Worker.name)
  refine List.Perm.eq_of_pairwise (fun a b _ _ => Std.le_antisymm) hsorted hmerged ?_
  exact ((byName_perm workers).map Worker.name).trans (List.mergeSort_perm _ _).symm

/-! ### Newcomers -/

theorem watches_iff (crew : Crew) (name : String) :
    crew.watches name = true ↔ name ∈ crew.watchers.map fun w => w.worker.name := by
  rw [Crew.watches, List.any_eq_true, List.mem_map]
  simp only [beq_iff_eq]

/-- The newcomers have the names that the crew does not watch, each once. -/
theorem map_name_newcomers (c : Collector) (operation : String) (crew : Crew)
    (workers : List Worker) :
    (c.newcomers operation crew workers).map (fun w => w.worker.name) =
      ((workers.map Worker.name).removeAll (crew.watchers.map fun w => w.worker.name)).eraseDups := by
  induction workers generalizing crew with
  | nil => rfl
  | cons worker rest ih =>
    rw [newcomers, List.map_cons, List.removeAll, List.filter_cons]
    have helem : (crew.watchers.map fun w => w.worker.name).elem worker.name =
        crew.watches worker.name := by
      rw [Bool.eq_iff_iff, List.elem_iff, watches_iff]
    rw [helem]
    cases hwatched : crew.watches worker.name with
    | true =>
      rw [if_pos rfl, ih]
      rfl
    | false =>
      rw [if_neg Bool.false_ne_true, List.map_cons, ih, Bool.not_false, if_pos rfl,
        List.eraseDups_cons, List.filter_filter, List.removeAll]
      congr 2
      refine List.filter_congr ?_
      intro name _
      rw [Bool.eq_iff_iff]
      simp [Crew.join, and_comm]

theorem mem_name_newcomers (c : Collector) (operation : String) (crew : Crew)
    (workers : List Worker) (name : String) :
    name ∈ (c.newcomers operation crew (byName workers)).map (fun w => w.worker.name) ↔
      name ∈ workers.map Worker.name ∧ name ∉ crew.watchers.map fun w => w.worker.name := by
  rw [map_name_newcomers, List.mem_eraseDups, List.removeAll, List.mem_filter,
    ((byName_perm workers).map Worker.name).mem_iff, Bool.not_eq_true', List.elem_eq_mem,
    decide_eq_false_iff_not]

theorem map_name_of_duty {watchers others : List Watcher}
    (h : watchers.map Watcher.duty = others.map Watcher.duty) :
    watchers.map (fun w => w.worker.name) = others.map fun w => w.worker.name := by
  have hnames := congrArg (List.map fun duty => duty.worker.name) h
  rwa [List.map_map, List.map_map] at hnames

/-- The newcomers come in order of their names if the workers do. -/
theorem pairwise_newcomers {workers : List Worker}
    (h : workers.Pairwise fun a b => a.name ≤ b.name) (c : Collector) (operation : String)
    (crew : Crew) :
    (c.newcomers operation crew workers).Pairwise fun v w => v.worker.name < w.worker.name := by
  induction workers generalizing crew with
  | nil => exact List.Pairwise.nil
  | cons worker rest ih =>
    obtain ⟨hfirst, hrest⟩ := List.pairwise_cons.1 h
    rw [newcomers]
    split
    · exact ih hrest crew
    · refine List.pairwise_cons.2 ⟨?_, ih hrest _⟩
      intro w hw
      obtain ⟨other, hother, hunwatched, rfl⟩ := exists_worker_of_newcomers hw
      -- the name is not that of the first newcomer, which is in the crew by then
      rw [watches_join, Bool.or_eq_false_iff, List.any_cons, Bool.or_eq_false_iff,
        beq_eq_false_iff_ne] at hunwatched
      exact Std.lt_of_le_of_ne (hfirst other hother) hunwatched.2.1

/-! ### One refresh -/

theorem refresh_of_error {world : World} {rank : Nat} {start : Bool} {fault : Fault}
    (h : (c.refresh world rank operation start).value = .error fault) :
    (c.refresh world rank operation start).state = c := by
  simp only [refresh, refreshWith] at h ⊢
  split
  · rfl
  · rename_i workers hfound
    split
    · rfl
    · rename_i crew hcrew
      simp only [hfound, hcrew] at h
      exact absurd h (by simp)

/-- A refresh of a tracked operation adds the newcomers behind the crew. -/
theorem refresh_of_ok {world : World} {found : List Worker} {crew : Crew}
    (hfound : (world.classifier.workersFor operation).value = .ok found)
    (hcrew : c.crew? operation = some crew) (rank : Nat) (start : Bool) :
    let outcome := c.refresh world rank operation start
    let fresh := c.newcomers operation crew (byName found)
    outcome.value = .ok (fresh.map Watcher.worker) ∧
      ∃ allocator joined, outcome.state.crew? operation = some ⟨allocator, crew.watchers ++ joined⟩ ∧
        joined.map Watcher.duty = fresh.map Watcher.duty ∧
        crew.allocator.Grows (fresh.map fun w => w.worker.name) allocator := by
  intro outcome fresh
  have hvalue : outcome.value = .ok (fresh.map Watcher.worker) := by
    simp only [outcome, refresh, refreshWith, hfound, hcrew]
    rfl
  refine ⟨hvalue, ?_⟩
  simp only [outcome, refresh, refreshWith, hfound, hcrew, crew?_update, if_true]
  cases start with
  | false => exact ⟨_, _, rfl, rfl, Allocator.Grows.refl _ _⟩
  | true =>
    exact ⟨_, _, rfl, Crew.startFrom_duty world.source world.clock rank fresh _,
      Crew.grows_startFrom world.source world.clock fresh ⟨crew.allocator, c.store⟩ rank⟩

theorem crew?_refresh_of_ne {other : String} (h : operation ≠ other) (world : World) (rank : Nat)
    (start : Bool) :
    (c.refresh world rank operation start).state.crew? other = c.crew? other := by
  simp only [refresh, refreshWith]
  split
  · rfl
  · split
    · rfl
    · rw [crew?_update, if_neg h]

/-! ### Every name that was reported -/

/-- The names reported for an operation since its tracking began, after one more operation of the
collector. -/
def namesAfter (c : Collector) (operation : String) (names : List String) (action : Action) :
    List String :=
  if ((c.act action).crew? operation).isNone then []
  else names ++ ((action.reports operation).map Worker.name).mergeSort fun a b => a ≤ b

/-- The names reported for an operation, where `names` have been reported before. -/
def namesFrom (operation : String) (c : Collector) (names : List String) : List Action → List String
  | [] => names
  | action :: rest => namesFrom operation (c.act action) (c.namesAfter operation names action) rest

/-- The names reported for an operation since its tracking began, in order of the reports and within
a report in alphabetical order. -/
def reportedNames (halting : Bool) (operation : String) (actions : List Action) : List String :=
  namesFrom operation { halting } [] actions

/-- The names that an operation watches, in order of taking them on. -/
def watchedNames (c : Collector) (operation : String) : List String :=
  (c.watchers operation).map fun w => w.worker.name

theorem watchedNames_of_crew? {crew : Crew} (h : c.crew? operation = some crew) :
    c.watchedNames operation = crew.watchers.map fun w => w.worker.name := by
  rw [watchedNames, watchers, h]
  rfl

theorem watchedNames_of_staff (c : Collector) (operation : String) :
    c.watchedNames operation =
      ((c.staff operation).getD []).map fun duty => duty.worker.name := by
  rw [watchedNames, watchers, staff]
  cases c.crew? operation with
  | none => rfl
  | some crew =>
    rw [Option.map_some, Option.getD_some, Option.map_some, Option.getD_some, List.map_map]
    rfl

theorem watchedNames_staffAfter (c : Collector) (operation : String) (workers : List Worker) :
    (c.staffAfter operation workers).map (fun duty => duty.worker.name) =
      c.watchedNames operation ++
        (((workers.map Worker.name).mergeSort fun a b => a ≤ b).removeAll
          (c.watchedNames operation)).eraseDups := by
  have hcrew : c.watchedNames operation =
      ((c.crew? operation).getD {}).watchers.map fun w => w.worker.name := by
    rw [watchedNames, watchers]
    cases c.crew? operation <;> rfl
  have hnames := c.map_name_newcomers operation ((c.crew? operation).getD {}) (byName workers)
  rw [map_name_byName] at hnames
  rw [staffAfter, List.map_map, List.map_append, hcrew, ← hnames]
  rfl

theorem removeAll_eraseDups (names known : List String) :
    names.removeAll known.eraseDups = names.removeAll known := by
  refine List.filter_congr ?_
  intro name _
  rw [Bool.eq_iff_iff]
  simp

/-- An operation of the collector adds the names that it reports and that were not reported before. -/
theorem watchedNames_act (hs : c.store.Sound) {names : List String}
    (h : c.watchedNames operation = names.eraseDups) (action : Action) :
    (c.act action).watchedNames operation = (c.namesAfter operation names action).eraseDups := by
  rw [namesAfter, watchedNames_of_staff]
  cases hcrew : (c.act action).crew? operation with
  | none =>
    rw [staff, hcrew]
    rfl
  | some crew =>
    rw [Option.isNone_some, if_neg Bool.false_ne_true, List.eraseDups_append, ← h]
    rcases staff_act hs action operation with hnone | hstaff
    · rw [staff, hcrew, Option.map_some] at hnone
      exact absurd hnone (by simp)
    · rw [hstaff, Option.getD_some, watchedNames_staffAfter, h, removeAll_eraseDups]

theorem watchedNames_foldl (hc : c.InStep []) {names : List String}
    (h : c.watchedNames operation = names.eraseDups) (actions : List Action) :
    (actions.foldl act c).watchedNames operation =
      (namesFrom operation c names actions).eraseDups := by
  induction actions generalizing c names with
  | nil => exact h
  | cons action rest ih => exact ih (hc.act action) (watchedNames_act hc.sound h action)

theorem nodup_watchedNames (halting : Bool) (actions : List Action) (operation : String) :
    ((run halting actions).watchedNames operation).Nodup := by
  rw [watchedNames_of_staff]
  exact (heeds_heard halting operation actions).nodup

/-! ### Crews that grow -/

/-- The operation of the collector looks for workers. -/
def Action.discovers : Action → Bool
  | .track _ _ _ _ => true
  | .refresh _ _ _ _ => true
  | _ => false

/-- The second crew is the first with watchers behind it, and their allocator has not looked at the
logs of the others. -/
structure Extends (crew next : Crew) (fresh : List Watcher) : Prop where
  watchers : next.watchers = crew.watchers ++ fresh
  allocator : crew.allocator.Grows (fresh.map fun w => w.worker.name) next.allocator

theorem Extends.refl (crew : Crew) : Extends crew crew [] :=
  ⟨(List.append_nil _).symm, Allocator.Grows.refl _ _⟩

theorem Extends.trans {crew next last : Crew} {fresh more : List Watcher}
    (first : Extends crew next fresh) (second : Extends next last more) :
    Extends crew last (fresh ++ more) where
  watchers := by rw [second.watchers, first.watchers, List.append_assoc]
  allocator := by
    rw [List.map_append]
    exact first.allocator.trans second.allocator

theorem extends_refresh {crew : Crew} (hcrew : c.crew? operation = some crew) (world : World)
    (rank : Nat) (other : String) (start : Bool) :
    ∃ next fresh, (c.refresh world rank other start).state.crew? operation = some next ∧
      Extends crew next fresh := by
  by_cases hother : other = operation
  · subst hother
    cases hfound : (world.classifier.workersFor other).value with
    | error fault =>
      have hfault : (c.refresh world rank other start).value = .error fault := by
        simp only [refresh, refreshWith, hfound]
      rw [refresh_of_error hfault]
      exact ⟨crew, [], hcrew, Extends.refl crew⟩
    | ok found =>
      obtain ⟨-, allocator, joined, hnext, hduty, hgrows⟩ := refresh_of_ok hfound hcrew rank start
      refine ⟨_, joined, hnext, rfl, ?_⟩
      rw [map_name_of_duty hduty]
      exact hgrows
  · rw [crew?_refresh_of_ne hother]
    exact ⟨crew, [], hcrew, Extends.refl crew⟩

theorem crew?_enrol_of_crew? {crew : Crew} (hcrew : c.crew? operation = some crew)
    (other : String) : (c.enrol other).crew? operation = some crew := by
  simp only [enrol]
  split
  · exact hcrew
  · rename_i hnone
    have hne : other ≠ operation := by
      rintro rfl
      rw [hcrew] at hnone
      exact absurd hnone (by simp)
    exact (crew?_update c other {} c.store operation).trans ((if_neg hne).trans hcrew)

theorem extends_act {crew : Crew} (hcrew : c.crew? operation = some crew) {action : Action}
    (h : action.discovers = true) :
    ∃ next fresh, (c.act action).crew? operation = some next ∧ Extends crew next fresh := by
  cases action with
  | track world rank other start =>
    simp only [act, track, trackWith]
    split
    · exact ⟨crew, [], hcrew, Extends.refl crew⟩
    · exact extends_refresh (crew?_enrol_of_crew? hcrew other) world rank other start
  | refresh world rank other start => exact extends_refresh hcrew world rank other start
  | _ => exact absurd h (by simp [Action.discovers])

theorem extends_foldl {crew : Crew} (hcrew : c.crew? operation = some crew) {later : List Action}
    (h : ∀ action ∈ later, action.discovers = true) :
    ∃ next fresh, (later.foldl act c).crew? operation = some next ∧ Extends crew next fresh := by
  induction later generalizing c crew with
  | nil => exact ⟨crew, [], hcrew, Extends.refl crew⟩
  | cons action rest ih =>
    obtain ⟨next, fresh, hnext, hfirst⟩ := extends_act hcrew (h action List.mem_cons_self)
    obtain ⟨last, more, hlast, hsecond⟩ :=
      ih hnext fun other hother => h other (List.mem_cons_of_mem action hother)
    exact ⟨last, fresh ++ more, hlast, hfirst.trans hsecond⟩

/-! ### Crews that last -/

/-- The second crew has what the first has: the watchers in their places, and the keys. -/
structure Retains (crew next : Crew) : Prop where
  duties : crew.watchers.map Watcher.duty <+: next.watchers.map Watcher.duty
  keys : crew.allocator.keys <+: next.allocator.keys

theorem Retains.refl (crew : Crew) : Retains crew crew := ⟨List.prefix_rfl, List.prefix_rfl⟩

theorem Retains.trans {crew next last : Crew} (first : Retains crew next)
    (second : Retains next last) : Retains crew last :=
  ⟨first.duties.trans second.duties, first.keys.trans second.keys⟩

theorem Extends.retains {crew next : Crew} {fresh : List Watcher} (h : Extends crew next fresh) :
    Retains crew next where
  duties := by
    rw [h.watchers, List.map_append]
    exact List.prefix_append _ _
  keys := h.allocator.keys

theorem retains_update {crew worked next : Crew} {other : String}
    (hcrew : c.crew? operation = some crew) (hworked : c.crew? other = some worked)
    (h : Retains worked next) (store : Store) :
    ∃ last, (c.update other next store).crew? operation = some last ∧ Retains crew last := by
  rw [crew?_update]
  by_cases hother : other = operation
  · rw [if_pos hother]
    rw [hother, hcrew, Option.some.injEq] at hworked
    rw [hworked]
    exact ⟨next, rfl, h⟩
  · rw [if_neg hother]
    exact ⟨crew, hcrew, Retains.refl crew⟩

theorem retains_collect {crew : Crew} (hcrew : c.crew? operation = some crew) (world : World)
    (other : String) :
    ∃ next, (c.catchUp world other).state.crew? operation = some next ∧ Retains crew next := by
  cases hworked : c.crew? other with
  | none =>
    simp only [catchUp, hworked]
    exact ⟨crew, hcrew, Retains.refl crew⟩
  | some worked =>
    rw [catchUp_of_crew? hworked]
    refine retains_update hcrew hworked ⟨?_, ?_⟩ _
    · have hduty := Crew.pollAll_duty world.source world.clock worked.watchers
        ⟨worked.allocator, c.store⟩
      show _ <+: List.map Watcher.duty (Crew.pollAll _ _ _ _).state.1
      rw [hduty]
    · exact (Crew.grows_pollAll world.source world.clock worked.watchers
        ⟨worked.allocator, c.store⟩).keys

theorem retains_wake {crew : Crew} (hcrew : c.crew? operation = some crew) (world : World)
    (other : String) (k : Nat) :
    ∃ next, (c.wake world other k).1.crew? operation = some next ∧ Retains crew next := by
  rcases c.wake_cases world other k with heq | ⟨worked, w, hworked, hw, heq⟩
  · rw [heq]
    exact ⟨crew, hcrew, Retains.refl crew⟩
  · have hduty := w.wake_duty world.source world.clock ⟨worked.allocator, c.store⟩
    rw [heq]
    refine retains_update hcrew hworked ⟨?_, ?_⟩ _
    · rw [Crew.set_duty hw hduty]
    · exact (w.grows_wake world.source world.clock ⟨worked.allocator, c.store⟩).keys

/-- A crew lasts through every operation of the collector that does not untrack its operation. -/
theorem retains_act (hs : c.store.Sound) {crew : Crew} (hcrew : c.crew? operation = some crew)
    {action : Action} (spared : operation ∉ c.dropped action) :
    ∃ next, (c.act action).crew? operation = some next ∧ Retains crew next := by
  have hdiscovers (h : action.discovers = true) :
      ∃ next, (c.act action).crew? operation = some next ∧ Retains crew next := by
    obtain ⟨next, fresh, hnext, hextends⟩ := extends_act hcrew h
    exact ⟨next, hnext, hextends.retains⟩
  cases action with
  | track world rank other start => exact hdiscovers rfl
  | refresh world rank other start => exact hdiscovers rfl
  | collect world other => exact retains_collect hcrew world other
  | page _ _ _ _ _ => exact ⟨crew, hcrew, Retains.refl crew⟩
  | untrack other =>
    have hother : other ≠ operation := fun heq => spared (heq ▸ List.mem_singleton_self _)
    rw [act, crew?_untrack, if_neg hother]
    exact ⟨crew, hcrew, Retains.refl crew⟩
  | sweep retention clock =>
    have hkept : operation ∉ (c.sweep retention clock).1.1 := spared
    rw [act, (sweep_spec hs retention clock operation).1, if_neg hkept]
    exact ⟨crew, hcrew, Retains.refl crew⟩
  | stop =>
    rw [act, crew?_stop, hcrew, Option.map_some]
    refine ⟨_, rfl, ?_, List.prefix_rfl⟩
    rw [crew.stop_duty]
  | wake world other k => exact retains_wake hcrew world other k
  | tick world =>
    refine tick_induction
      (P := fun d => ∃ next, d.crew? operation = some next ∧ Retains crew next)
      ⟨crew, hcrew, Retains.refl crew⟩ ?_
    rintro d other k ⟨next, hnext, hfirst⟩
    obtain ⟨last, hlast, hsecond⟩ := retains_wake hnext world other k
    exact ⟨last, hlast, hfirst.trans hsecond⟩

/-- No operation of the run untracks the operation. -/
def Spares (c : Collector) (operation : String) : List Action → Prop
  | [] => True
  | action :: rest => operation ∉ c.dropped action ∧ (c.act action).Spares operation rest

theorem retains_foldl (hc : c.InStep []) {crew : Crew} (hcrew : c.crew? operation = some crew)
    {later : List Action} (spared : c.Spares operation later) :
    ∃ next, (later.foldl act c).crew? operation = some next ∧ Retains crew next := by
  induction later generalizing c crew with
  | nil => exact ⟨crew, hcrew, Retains.refl crew⟩
  | cons action rest ih =>
    obtain ⟨next, hnext, hfirst⟩ := retains_act hc.sound hcrew spared.1
    obtain ⟨last, hlast, hsecond⟩ := ih (hc.act action) hnext spared.2
    exact ⟨last, hlast, hfirst.trans hsecond⟩

/-! ### What a refresh attaches -/

theorem refresh_created {world : World} {rank : Nat} {start : Bool} {created : List Worker}
    (h : (c.refresh world rank operation start).value = .ok created) :
    ∃ crew next fresh found, c.crew? operation = some crew ∧
      (world.classifier.workersFor operation).value = .ok found ∧
      (c.refresh world rank operation start).state.crew? operation = some next ∧
      next.watchers = crew.watchers ++ fresh ∧
      fresh.map Watcher.duty = created.map (fun worker => ⟨operation, worker, c.halting⟩) ∧
      (created.Pairwise fun v w => v.name < w.name) ∧
      (∀ worker ∈ created, worker ∈ found) ∧
      ∀ name, name ∈ created.map Worker.name ↔
        name ∈ found.map Worker.name ∧ name ∉ c.watchedNames operation := by
  cases hfound : (world.classifier.workersFor operation).value with
  | error fault =>
    simp only [refresh, refreshWith, hfound] at h
    exact absurd h (by simp)
  | ok found =>
    cases hcrew : c.crew? operation with
    | none =>
      simp only [refresh, refreshWith, hfound, hcrew] at h
      exact absurd h (by simp)
    | some crew =>
      obtain ⟨hvalue, allocator, joined, hnext, hduty, -⟩ := refresh_of_ok hfound hcrew rank start
      rw [hvalue, Except.ok.injEq] at h
      subst h
      refine ⟨crew, _, joined, found, rfl, rfl, hnext, rfl, ?_, ?_, ?_, ?_⟩
      · rw [hduty, List.map_map]
        refine List.map_congr_left ?_
        intro w hw
        obtain ⟨_, -, -, rfl⟩ := exists_worker_of_newcomers hw
        rfl
      · exact List.pairwise_map.2 (pairwise_newcomers (pairwise_byName found) c operation crew)
      · intro worker hworker
        obtain ⟨w, hw, rfl⟩ := List.mem_map.1 hworker
        obtain ⟨_, hfresh, -, rfl⟩ := exists_worker_of_newcomers hw
        exact (byName_perm found).mem_iff.1 hfresh
      · intro name
        rw [List.map_map, watchedNames_of_crew? hcrew]
        exact c.mem_name_newcomers operation crew found name

theorem refresh_fault {world : World} {rank : Nat} {start : Bool} {fault : Fault}
    (h : (c.refresh world rank operation start).value = .error fault) :
    (world.classifier.workersFor operation).value = .error fault ∨
      c.crew? operation = none ∧ fault = .notTracked operation := by
  cases hfound : (world.classifier.workersFor operation).value with
  | error other =>
    simp only [refresh, refreshWith, hfound] at h
    exact Or.inl h
  | ok found =>
    cases hcrew : c.crew? operation with
    | none =>
      simp only [refresh, refreshWith, hfound, hcrew] at h
      exact Or.inr ⟨rfl, (Except.error.inj h).symm⟩
    | some crew =>
      simp only [refresh, refreshWith, hfound, hcrew] at h
      exact absurd h (by simp)

/-- After a refresh all workers that it found are watched. -/
theorem refresh_attaches {world : World} {found : List Worker}
    (hfound : (world.classifier.workersFor operation).value = .ok found)
    (htracked : (c.crew? operation).isSome = true) (rank : Nat) (start : Bool) :
    ∃ created, (c.refresh world rank operation start).value = .ok created ∧
      ∀ worker ∈ found,
        worker.name ∈ (c.refresh world rank operation start).state.watchedNames operation := by
  obtain ⟨crew, hcrew⟩ := Option.isSome_iff_exists.1 htracked
  obtain ⟨hvalue, allocator, joined, hnext, hduty, -⟩ := refresh_of_ok hfound hcrew rank start
  refine ⟨_, hvalue, ?_⟩
  intro worker hworker
  rw [watchedNames_of_crew? hnext, List.map_append, List.mem_append, map_name_of_duty hduty,
    mem_name_newcomers]
  by_cases hwatched : worker.name ∈ crew.watchers.map fun w => w.worker.name
  · exact Or.inl hwatched
  · exact Or.inr ⟨List.mem_map_of_mem hworker, hwatched⟩

/-! ### Main result -/

/-- Tracking and refreshing an operation adds a watcher for each new name that is reported and
changes nothing else of its crew. A refresh that fails changes nothing, and the next one that does not
fail attaches all that it should have. -/
theorem discovery_only_adds_watchers (halting : Bool) (actions : List Action) (operation : String) :
    let c := run halting actions
    c.watchedNames operation = (reportedNames halting operation actions).eraseDups ∧
      (c.watchedNames operation).Nodup ∧
      (∀ (crew : Crew) (later : List Action), c.crew? operation = some crew →
        (∀ action ∈ later, action.discovers = true) →
        ∃ (next : Crew) (fresh : List Watcher),
          (later.foldl act c).crew? operation = some next ∧
          next.watchers = crew.watchers ++ fresh ∧
          crew.allocator.keys <+: next.allocator.keys ∧
          ∀ w ∈ crew.watchers,
            next.allocator.memory w.worker.name = crew.allocator.memory w.worker.name) ∧
      (∀ (crew : Crew) (later : List Action), c.crew? operation = some crew →
        c.Spares operation later →
        ∃ next, (later.foldl act c).crew? operation = some next ∧ Retains crew next) ∧
      (∀ (world : World) (rank : Nat) (start : Bool) (created : List Worker),
        (c.refresh world rank operation start).value = .ok created →
        ∃ crew next fresh found, c.crew? operation = some crew ∧
          (world.classifier.workersFor operation).value = .ok found ∧
          (c.refresh world rank operation start).state.crew? operation = some next ∧
          next.watchers = crew.watchers ++ fresh ∧
          fresh.map Watcher.duty = created.map (fun worker => ⟨operation, worker, halting⟩) ∧
          (created.Pairwise fun v w => v.name < w.name) ∧
          (∀ worker ∈ created, worker ∈ found) ∧
          ∀ name, name ∈ created.map Worker.name ↔
            name ∈ found.map Worker.name ∧ name ∉ c.watchedNames operation) ∧
      ∀ (world : World) (rank : Nat) (start : Bool) (fault : Fault),
        (c.refresh world rank operation start).value = .error fault →
        (c.refresh world rank operation start).state = c ∧
        ((world.classifier.workersFor operation).value = .error fault ∨
          c.crew? operation = none ∧ fault = .notTracked operation) ∧
        ∀ (later : List Action) (world' : World) (rank' : Nat) (start' : Bool)
          (found : List Worker), (world'.classifier.workersFor operation).value = .ok found →
          let d := later.foldl act (c.act (.refresh world rank operation start))
          (d.crew? operation).isSome = true →
          ∃ created, (d.refresh world' rank' operation start').value = .ok created ∧
            ∀ worker ∈ found, worker.name ∈
              (d.refresh world' rank' operation start').state.watchedNames operation := by
  intro c
  have hc : c.InStep [] := run_inStep halting actions
  refine ⟨?_, nodup_watchedNames halting actions operation, ?_, ?_, ?_, ?_⟩
  · exact watchedNames_foldl (inStep_start halting) rfl actions
  · intro crew later hcrew hdiscovers
    obtain ⟨next, fresh, hnext, hextends⟩ := extends_foldl hcrew hdiscovers
    refine ⟨next, fresh, hnext, hextends.watchers, hextends.allocator.keys, ?_⟩
    intro w hw
    apply hextends.allocator.memory
    -- a name that is watched is not taken on again
    intro hfresh
    have hnodup : ((later.foldl act c).watchedNames operation).Nodup := by
      have hrun := nodup_watchedNames halting (actions ++ later) operation
      rwa [run, List.foldl_append] at hrun
    rw [watchedNames_of_crew? hnext, hextends.watchers, List.map_append, List.nodup_append] at hnodup
    exact hnodup.2.2 _ (List.mem_map_of_mem hw) _ hfresh rfl
  · intro crew later hcrew hspared
    exact retains_foldl hc hcrew hspared
  · intro world rank start created hcreated
    have hhalting : c.halting = halting := halting_run { halting } actions
    rw [← hhalting]
    exact refresh_created hcreated
  · intro world rank start fault hfault
    refine ⟨refresh_of_error hfault, refresh_fault hfault, ?_⟩
    intro later world' rank' start' found hfound d htracked
    exact refresh_attaches hfound htracked rank' start'

/-- The operation of `oneWorker` with other workers and no logs. -/
def crowd (workers : List Worker) : World :=
  { oneWorker [] with
    classifier :=
      { topology := .fixed [{ name := "unit", deployment := some "blue" }] [⟨"unit", workers⟩] } }

/-- The same operation, while its workers cannot be asked for. -/
def refusing : World :=
  { oneWorker [] with
    classifier :=
      { topology :=
          { units := .of [{ name := "unit", deployment := some "blue" }]
            zone := fun _ => .fail (.refused 500) } } }

def pod (name : String) : Worker := ⟨name, ⟨"node-1", "10.0.0.1"⟩⟩

/-- The operation is tracked before its workers can be asked for, and they come and go. -/
def crowdedRun : List Action :=
  [.track refusing 0 "blue" false, .refresh (crowd [pod "pod-1", pod "pod-0"]) 0 "blue" false,
    .refresh (crowd []) 0 "blue" false,
    .refresh (crowd [pod "pod-2", pod "pod-0"]) 0 "blue" false]

/-- The workers that join the operation afterwards, with one that it has. -/
def joining : World := crowd [pod "pod-4", pod "pod-1", pod "pod-3"]

theorem refused_refresh_is_made_up_for :
    let c := run false crowdedRun
    let refused := c.refresh refusing 0 "blue" false
    let created := [pod "pod-3", pod "pod-4"]
    (reportedNames false "blue" crowdedRun).eraseDups = ["pod-0", "pod-1", "pod-2"] ∧
      refused.value = .error (.refused 500) ∧ refused.state = c ∧
      (refused.state.refresh joining 0 "blue" false).value = .ok created ∧
      (∀ worker ∈ [pod "pod-4", pod "pod-1", pod "pod-3"],
        worker.name ∈ (refused.state.refresh joining 0 "blue" false).state.watchedNames "blue") ∧
      ∃ crew next fresh, c.crew? "blue" = some crew ∧
        (c.act (.refresh joining 0 "blue" false)).crew? "blue" = some next ∧
        next.watchers = crew.watchers ++ fresh ∧
        fresh.map Watcher.duty = created.map (fun worker => ⟨"blue", worker, false⟩) ∧
        (∀ w ∈ crew.watchers,
          next.allocator.memory w.worker.name = crew.allocator.memory w.worker.name) ∧
        ∃ last, ((c.act (.refresh joining 0 "blue" false)).act .stop).crew? "blue" = some last ∧
          Retains crew last := by
  intro c refused created
  obtain ⟨hnames, -, hgrows, hlasts, hcreated, hfailed⟩ :=
    discovery_only_adds_watchers false crowdedRun "blue"
  have hwatched : c.watchedNames "blue" = ["pod-0", "pod-1", "pod-2"] := by decide +kernel
  have hfault : refused.value = .error (.refused 500) := rfl
  have hvalue : (c.refresh joining 0 "blue" false).value = .ok created := rfl
  have htracked : (refused.state.crew? "blue").isSome = true := rfl
  obtain ⟨hsame, -, hmade⟩ := hfailed refusing 0 false (.refused 500) hfault
  obtain ⟨-, -, hattached⟩ := hmade [] joining 0 false _ rfl htracked
  obtain ⟨crew, next, fresh, found, hcrew, -, hnext, hwatchers, hduty, -⟩ :=
    hcreated joining 0 false created hvalue
  obtain ⟨grown, -, hgrown, -, -, hmemory⟩ :=
    hgrows crew [.refresh joining 0 "blue" false] hcrew (by simp [Action.discovers])
  obtain rfl : next = grown := Option.some.inj (hnext.symm.trans hgrown)
  have hlast := hlasts crew [.refresh joining 0 "blue" false, .stop] hcrew
    ⟨List.not_mem_nil, List.not_mem_nil, trivial⟩
  have hsecond : (refused.state.refresh joining 0 "blue" false).value = .ok created := rfl
  exact ⟨hnames ▸ hwatched, hfault, hsame, hsecond, hattached, crew, next, fresh, hcrew, hnext,
    hwatchers, hduty, hmemory, hlast⟩

end Lifecycle.Collector
