import Lifecycle.Proofs.Collector.Retention

/-! # Who is in a crew

A watcher is taken on for one worker of one operation, and what it is there for never changes. A
crew takes on a watcher when a worker of a new name is reported for its operation, keeps it whatever
is reported later, and loses it only together with all others when the operation is untracked. So the
crew after an operation of the collector can be read off the crew before and what was reported: for
each name there is one watcher, and it watches the first worker of this name. -/

namespace Lifecycle

/-- What a watcher is there for. No pass changes it. -/
structure Duty where
  deployment : String
  worker : Worker
  halting : Bool

namespace Watcher

/-- The duty of a watcher, without what it has found out. -/
def duty (w : Watcher) : Duty := ⟨w.deployment, w.worker, w.halting⟩

variable (w : Watcher) (source : Source) (clock : Clock) (desk : Desk)

theorem catchUp_duty : (w.catchUp source clock desk).state.1.duty = w.duty := by
  cases hread : (source.read w.worker).value with
  | error fault => rw [(catchUp_of_error hread clock desk).1]
  | ok lines =>
    obtain ⟨generation, position, hmove⟩ := pass_moveTo (w := w) clock (lines.filter Line.isEvent) desk
    rw [(catchUp_of_ok hread clock desk).1, hmove]
    rfl

theorem wake_duty : (w.wake source clock desk).state.1.duty = w.duty := by
  have hduty := w.catchUp_duty source clock desk
  simp only [wake]
  split <;> exact hduty

theorem start_duty (rank : Nat) : (w.start rank source clock desk).state.1.duty = w.duty := by
  simp only [start]
  split
  · rfl
  · exact wake_duty { w with loop := some rank } source clock desk

theorem stop_duty : w.stop.1.duty = w.duty := by
  rw [stop]
  split <;> rfl

end Watcher

namespace Crew

theorem pollAll_duty (source : Source) (clock : Clock) (watchers : List Watcher) (desk : Desk) :
    (pollAll source clock watchers desk).state.1.map Watcher.duty = watchers.map Watcher.duty := by
  induction watchers generalizing desk with
  | nil => rfl
  | cons w rest ih =>
    have hfirst := w.catchUp_duty source clock desk
    simp only [pollAll]
    split
    · rw [List.map_cons, hfirst, List.map_cons]
    · rw [List.map_cons, hfirst, ih, List.map_cons]

theorem startFrom_duty (source : Source) (clock : Clock) (rank : Nat) (watchers : List Watcher)
    (desk : Desk) :
    (startFrom source clock rank watchers desk).1.1.map Watcher.duty =
      watchers.map Watcher.duty := by
  induction watchers generalizing desk rank with
  | nil => rfl
  | cons w rest ih =>
    simp only [startFrom]
    rw [List.map_cons, w.start_duty source clock desk rank, ih, List.map_cons]

theorem stop_duty (crew : Crew) :
    crew.stop.1.watchers.map Watcher.duty = crew.watchers.map Watcher.duty := by
  simp only [stop, List.map_map]
  exact List.map_congr_left fun w _ => w.stop_duty

theorem set_duty {watchers : List Watcher} {k : Nat} {w after : Watcher}
    (hk : watchers[k]? = some w) (h : after.duty = w.duty) :
    (watchers.set k after).map Watcher.duty = watchers.map Watcher.duty := by
  have hduty : (watchers.map Watcher.duty)[k]? = some after.duty := by
    rw [List.getElem?_map, hk, h, Option.map_some]
  rw [List.map_set]
  obtain ⟨hlt, hself⟩ := List.getElem?_eq_some_iff.1 hduty
  rw [← hself, List.set_getElem_self]

end Crew

namespace Collector

/-- What the watchers of a tracked operation are there for. -/
def staff (c : Collector) (operation : String) : Option (List Duty) :=
  (c.crew? operation).map fun crew => crew.watchers.map Watcher.duty

variable {c : Collector} {operation : String}

theorem staff_of_crew? {crew : Crew} (h : c.crew? operation = some crew) :
    c.staff operation = some (crew.watchers.map Watcher.duty) := by
  rw [staff, h, Option.map_some]

theorem staff_update (c : Collector) (operation : String) (crew : Crew) (store : Store)
    (other : String) :
    (c.update operation crew store).staff other =
      if operation = other then some (crew.watchers.map Watcher.duty) else c.staff other := by
  rw [staff, crew?_update]
  split <;> rfl

/-- A crew that has worked has the staff it had. -/
theorem staff_update_of_duty {crew next : Crew} (h : c.crew? operation = some crew)
    (hduty : next.watchers.map Watcher.duty = crew.watchers.map Watcher.duty) (store : Store)
    (other : String) : (c.update operation next store).staff other = c.staff other := by
  rw [staff_update]
  split
  · rename_i heq
    rw [hduty, ← heq, staff_of_crew? h]
  · rfl

theorem staff_catchUp (c : Collector) (world : World) (operation other : String) :
    (c.catchUp world operation).state.staff other = c.staff other := by
  simp only [catchUp]
  split
  · rfl
  · rename_i crew hcrew
    exact staff_update_of_duty hcrew
      (Crew.pollAll_duty world.source world.clock crew.watchers ⟨crew.allocator, c.store⟩) _ other

theorem staff_wake (c : Collector) (world : World) (operation : String) (k : Nat)
    (other : String) : (c.wake world operation k).1.staff other = c.staff other := by
  rcases c.wake_cases world operation k with heq | ⟨crew, w, hcrew, hw, heq⟩
  · rw [heq]
  · have hduty := w.wake_duty world.source world.clock ⟨crew.allocator, c.store⟩
    rw [heq]
    exact staff_update_of_duty hcrew (Crew.set_duty hw hduty) _ other

theorem staff_tick (c : Collector) (world : World) (other : String) :
    (c.tick world).1.staff other = c.staff other := by
  refine tick_induction (P := fun d => d.staff other = c.staff other) rfl ?_
  intro d operation k hstaff
  exact (staff_wake d world operation k other).trans hstaff

theorem staff_stop (c : Collector) (other : String) : c.stop.1.staff other = c.staff other := by
  rw [staff, crew?_stop, Option.map_map, staff]
  cases c.crew? other with
  | none => rfl
  | some crew => exact congrArg some crew.stop_duty

theorem staff_enrol (c : Collector) (operation other : String) :
    (c.enrol operation).staff other =
      if operation = other then some ((c.staff operation).getD []) else c.staff other := by
  simp only [enrol]
  split
  · rename_i crew hcrew
    rw [staff_of_crew? hcrew, Option.getD_some]
    split
    · rename_i heq
      rw [← heq, staff_of_crew? hcrew]
    · rfl
  · rename_i hcrew
    have hstaff : c.staff operation = none := by rw [staff, hcrew, Option.map_none]
    rw [hstaff]
    exact staff_update c operation {} c.store other

theorem crew?_enrol (c : Collector) (operation : String) :
    (c.enrol operation).crew? operation = some ((c.crew? operation).getD {}) := by
  simp only [enrol]
  split
  · rename_i crew hcrew
    rw [hcrew, Option.getD_some]
  · rename_i hcrew
    rw [hcrew, Option.getD_none]
    exact (crew?_update c operation {} c.store operation).trans (if_pos rfl)

/-! ### Reports -/

/-- The workers that the topology names for an operation, none if it fails. -/
def reported (world : World) (operation : String) : List Worker :=
  (world.classifier.workersFor operation).value.toOption.getD []

/-- The workers that an operation of the collector hears of for `operation`. -/
def Action.reports (operation : String) : Action → List Worker
  | .track world _ other _ => if other = operation then reported world operation else []
  | .refresh world _ other _ => if other = operation then reported world operation else []
  | _ => []

theorem reported_of_ok {world : World} {workers : List Worker}
    (h : (world.classifier.workersFor operation).value = .ok workers) :
    reported world operation = workers := by
  rw [reported, h]
  rfl

theorem reported_of_error {world : World} {fault : Fault}
    (h : (world.classifier.workersFor operation).value = .error fault) :
    reported world operation = [] := by
  rw [reported, h]
  rfl

/-- The workers are not asked for if the kind of the operation is not known. -/
theorem workersFor_of_classify {world : World} {fault : Fault}
    (h : (world.classifier.classify operation).value = .error fault) :
    (world.classifier.workersFor operation).value = .error fault := by
  rw [Classifier.workersFor, Traced.value_bind, h]
  rfl

theorem find?_insertByName (worker : Worker) (workers : List Worker) (name : String) :
    (insertByName worker workers).find? (fun v => v.name == name) =
      (worker :: workers).find? fun v => v.name == name := by
  induction workers with
  | nil => rfl
  | cons first rest ih =>
    rw [insertByName]
    split
    · rfl
    · rename_i hless
      have hother : first.name ≠ worker.name := fun heq => hless (heq ▸ Std.le_refl _)
      rw [List.find?_cons, ih, List.find?_cons, List.find?_cons, List.find?_cons]
      by_cases hname : first.name = name
      · have hworker : worker.name ≠ name := fun heq => hother (hname.trans heq.symm)
        rw [beq_iff_eq.2 hname, beq_false_of_ne hworker]
      · rw [beq_false_of_ne hname]

/-- The first worker of each name stays the first. -/
theorem find?_byName (workers : List Worker) (name : String) :
    (byName workers).find? (fun v => v.name == name) =
      workers.find? fun v => v.name == name := by
  induction workers with
  | nil => rfl
  | cons worker rest ih =>
    rw [byName, find?_insertByName, List.find?_cons, ih, List.find?_cons]

theorem newcomers_congr {d : Collector} (h : c.halting = d.halting) {crew crew' : Crew}
    (hcrew : ∀ name, crew.watches name = crew'.watches name) (operation : String)
    (workers : List Worker) :
    c.newcomers operation crew workers = d.newcomers operation crew' workers := by
  induction workers generalizing crew crew' with
  | nil => rfl
  | cons worker rest ih =>
    have hjoin : ∀ w name, (crew.join [w]).watches name = (crew'.join [w]).watches name := by
      intro w name
      rw [watches_join, watches_join, hcrew]
    simp only [newcomers, h, hcrew, ih hcrew, ih (hjoin _)]

/-- The duties of a crew that hears of some workers. -/
def staffAfter (c : Collector) (operation : String) (workers : List Worker) : List Duty :=
  let crew := (c.crew? operation).getD {}
  (crew.watchers ++ c.newcomers operation crew (byName workers)).map Watcher.duty

theorem staffAfter_nil (c : Collector) (operation : String) :
    c.staffAfter operation [] = (c.staff operation).getD [] := by
  rw [staffAfter, byName, newcomers, List.append_nil, staff]
  cases c.crew? operation <;> rfl

theorem staff_eq_staffAfter_nil (h : c.staff operation ≠ none) :
    c.staff operation = some (c.staffAfter operation []) := by
  rw [staffAfter_nil]
  obtain ⟨staff, hstaff⟩ := Option.ne_none_iff_exists'.1 h
  rw [hstaff, Option.getD_some]

theorem staffAfter_enrol (c : Collector) (operation : String) (workers : List Worker) :
    (c.enrol operation).staffAfter operation workers = c.staffAfter operation workers := by
  have hhalting : (c.enrol operation).halting = c.halting := by
    rw [enrol]
    split <;> rfl
  rw [staffAfter, staffAfter, crew?_enrol, Option.getD_some, newcomers_congr hhalting fun _ => rfl]

theorem staff_refresh (c : Collector) (world : World) (rank : Nat) (operation : String)
    (start : Bool) (other : String) :
    (c.refresh world rank operation start).state.staff other =
      (c.staff other).map fun _ =>
        c.staffAfter other (if operation = other then reported world other else []) := by
  have hsame : c.staff other = (c.staff other).map fun _ => c.staffAfter other [] := by
    cases hstaff : c.staff other with
    | none => rfl
    | some staff => rw [staffAfter_nil, hstaff, Option.getD_some, Option.map_some]
  simp only [refresh, refreshWith]
  split
  · rename_i fault hfound
    by_cases heq : operation = other
    · rw [if_pos heq, ← heq, reported_of_error hfound]
      rwa [← heq] at hsame
    · rwa [if_neg heq]
  · rename_i workers hfound
    split
    · rename_i hcrew
      by_cases heq : operation = other
      · rw [← heq, staff, hcrew]
        rfl
      · rwa [if_neg heq]
    · rename_i crew hcrew
      rw [staff_update]
      by_cases heq : operation = other
      · rw [if_pos heq, if_pos heq, ← heq, reported_of_ok hfound, staff_of_crew? hcrew,
          Option.map_some, staffAfter, hcrew, Option.getD_some, Crew.join, List.map_append,
          List.map_append]
        cases start with
        | false => rfl
        | true =>
          have hduty := Crew.startFrom_duty world.source world.clock rank
            (c.newcomers operation crew (byName workers)) ⟨crew.allocator, c.store⟩
          exact congrArg (fun fresh => some (crew.watchers.map Watcher.duty ++ fresh)) hduty
      · rwa [if_neg heq, if_neg heq]

/-- After an operation of the collector, an operation has no crew, or the crew has taken on the
workers of new names that were reported. -/
theorem staff_act (hs : c.store.Sound) (action : Action) (operation : String) :
    (c.act action).staff operation = none ∨
      (c.act action).staff operation = some (c.staffAfter operation (action.reports operation)) := by
  have hkept : ∀ {staff : Option (List Duty)}, staff = c.staff operation →
      staff = none ∨ staff = some (c.staffAfter operation []) := by
    intro staff hstaff
    rw [hstaff]
    exact (Decidable.em _).imp_right staff_eq_staffAfter_nil
  cases action with
  | track world rank other start =>
    simp only [act, track, trackWith]
    split
    · rename_i fault hclassify
      have hreports : Action.reports operation (.track world rank other start) = [] := by
        rw [Action.reports]
        split
        · rename_i heq
          rw [heq] at hclassify
          exact reported_of_error (workersFor_of_classify hclassify)
        · rfl
      rw [hreports]
      exact hkept rfl
    · simp only [staff_refresh, staff_enrol, Action.reports]
      by_cases heq : other = operation
      · rw [if_pos heq, if_pos heq, heq, staffAfter_enrol, Option.map_some]
        exact Or.inr rfl
      · rw [if_neg heq, if_neg heq, staffAfter_nil, staff_enrol, if_neg heq, staffAfter_nil]
        cases c.staff operation with
        | none => exact Or.inl rfl
        | some staff => exact Or.inr rfl
  | refresh world rank other start =>
    rw [act, staff_refresh]
    cases c.staff operation with
    | none => exact Or.inl rfl
    | some staff => exact Or.inr rfl
  | collect world other => exact hkept (staff_catchUp c world other operation)
  | page _ _ _ _ _ => exact hkept rfl
  | untrack other =>
    rw [act, staff, crew?_untrack]
    split
    · exact Or.inl rfl
    · exact hkept rfl
  | sweep retention clock =>
    rw [act, staff, (sweep_spec hs retention clock operation).1]
    split
    · exact Or.inl rfl
    · exact hkept rfl
  | stop => exact hkept (staff_stop c operation)
  | wake world other k => exact hkept (staff_wake c world other k operation)
  | tick world => exact hkept (staff_tick c world operation)

/-! ### One watcher for each name -/

theorem find?_newcomers (c : Collector) (operation : String) (crew : Crew) (workers : List Worker)
    (name : String) :
    ((crew.watchers ++ c.newcomers operation crew workers).map Watcher.worker).find?
        (fun v => v.name == name) =
      (crew.watchers.map Watcher.worker ++ workers).find? fun v => v.name == name := by
  induction workers generalizing crew with
  | nil => rw [newcomers, List.append_nil, List.append_nil]
  | cons worker rest ih =>
    rw [newcomers]
    split
    · rename_i hwatched
      obtain ⟨w, hw, hname⟩ := List.any_eq_true.1 hwatched
      rw [ih, List.find?_append, List.find?_append, List.find?_cons]
      cases hfind : (crew.watchers.map Watcher.worker).find? fun v => v.name == name with
      | some first => rfl
      | none =>
        -- the name is not looked for, since it is watched already
        have hother := List.find?_eq_none.1 hfind w.worker (List.mem_map_of_mem hw)
        rw [beq_iff_eq.1 hname, Bool.not_eq_true] at hother
        rw [hother]
    · have hjoined := ih (crew.join [{ deployment := operation, worker, halting := c.halting }])
      simp only [Crew.join, List.append_assoc, List.map_append, List.map_cons, List.map_nil,
        List.singleton_append] at hjoined
      rw [List.map_append, List.map_cons]
      exact hjoined

theorem nodup_newcomers {crew : Crew} (h : (crew.watchers.map fun w => w.worker.name).Nodup)
    (c : Collector) (operation : String) (workers : List Worker) :
    ((crew.watchers ++ c.newcomers operation crew workers).map fun w => w.worker.name).Nodup := by
  induction workers generalizing crew with
  | nil => rwa [newcomers, List.append_nil]
  | cons worker rest ih =>
    rw [newcomers]
    split
    · exact ih h
    · rename_i hwatched
      have hnew : worker.name ∉ crew.watchers.map fun w => w.worker.name := by
        intro hmem
        obtain ⟨w, hw, hname⟩ := List.mem_map.1 hmem
        exact hwatched (List.any_eq_true.2 ⟨w, hw, beq_iff_eq.2 hname⟩)
      have hjoined :
          ((crew.join [{ deployment := operation, worker, halting := c.halting }]).watchers.map
            fun w => w.worker.name).Nodup := by
        rw [Crew.join, List.map_append, List.nodup_append]
        refine ⟨h, List.nodup_singleton _, ?_⟩
        intro a ha b hb hab
        rw [List.map_singleton, List.mem_singleton] at hb
        exact hnew (hb ▸ hab ▸ ha)
      have hall := ih hjoined
      rwa [Crew.join, List.append_assoc, List.singleton_append] at hall

/-- Of the workers that were reported under one name, the first is the one that is watched. -/
theorem staffAfter_first (c : Collector) (operation : String) (workers : List Worker)
    (name : String) :
    ((c.staffAfter operation workers).map Duty.worker).find? (fun v => v.name == name) =
      (((c.staff operation).getD []).map Duty.worker ++ workers).find? fun v => v.name == name := by
  have hfirst := c.find?_newcomers operation ((c.crew? operation).getD {}) (byName workers) name
  rw [List.find?_append, find?_byName, ← List.find?_append] at hfirst
  rw [staffAfter, List.map_map]
  refine hfirst.trans ?_
  rw [staff]
  cases c.crew? operation with
  | none => rfl
  | some crew =>
    rw [Option.getD_some, Option.map_some, Option.getD_some, List.map_map]
    rfl

theorem staffAfter_nodup {c : Collector} {operation : String}
    (h : (((c.staff operation).getD []).map fun duty => duty.worker.name).Nodup)
    (workers : List Worker) :
    ((c.staffAfter operation workers).map fun duty => duty.worker.name).Nodup := by
  have hcrew : (((c.crew? operation).getD {}).watchers.map fun w => w.worker.name).Nodup := by
    rw [staff] at h
    cases hc : c.crew? operation with
    | none => exact List.nodup_nil
    | some crew =>
      rw [hc, Option.map_some, Option.getD_some, List.map_map] at h
      exact h
  rw [staffAfter, List.map_map]
  exact nodup_newcomers hcrew c operation (byName workers)

end Collector

end Lifecycle
