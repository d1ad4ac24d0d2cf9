import Lifecycle.Proofs.Store.Registry

/-! # Runs of store operations

Writers put events and evictions take sequences away, in any order. What a reader can see of a
deployment is the event at each of its indices. A put fills an index that is empty and does nothing
else; an eviction empties all indices of the deployments it drops and does nothing to the others.
So between two evictions of a deployment an event stays where it is, and whatever is stored was put
there. -/

namespace Lifecycle.Store

/-- An operation that may change the store. -/
inductive Action
  | put (now : Rat) (id : String) (index : Int) (event : Event)
  | evict (id : String)
  | evictIdle (maxIdle now : Rat)

/-- The operation puts an event of the deployment. -/
def Action.putsTo (id : String) : Action → Bool
  | .put _ other _ _ => other == id
  | .evict _ => false
  | .evictIdle _ _ => false

/-- The store after an operation. A put that is refused leaves it as it is. -/
def act (store : Store) : Action → Store
  | .put now id index event =>
    match store.put now id index event with
    | .error _ => store
    | .ok (_, next) => next
  | .evict id => (store.evict id).2
  | .evictIdle maxIdle now => (store.evictIdle maxIdle now).2

/-- The store after some operations. -/
def run (store : Store) (actions : List Action) : Store := actions.foldl act store

/-- The operation drops the sequence of the deployment, if there is one. -/
def drops (store : Store) (id : String) : Action → Bool
  | .put _ _ _ _ => false
  | .evict other => other == id
  | .evictIdle maxIdle now => (store.evictIdle maxIdle now).1.contains id

/-- No operation of the run drops the sequence of the deployment. -/
def keeps (store : Store) (id : String) : List Action → Bool
  | [] => true
  | action :: rest => !store.drops id action && (store.act action).keeps id rest

/-- The event at an index of a deployment. -/
def event? (store : Store) (id : String) (i : Int) : Option Event :=
  (store.find? id).bind fun s => s.events[i]?

theorem run_append (store : Store) (actions more : List Action) :
    store.run (actions ++ more) = (store.run actions).run more :=
  List.foldl_append

theorem keeps_append (store : Store) (id : String) (actions more : List Action) :
    store.keeps id (actions ++ more) =
      (store.keeps id actions && (store.run actions).keeps id more) := by
  induction actions generalizing store with
  | nil => rfl
  | cons action rest ih =>
    rw [List.cons_append, keeps, keeps, ih, Bool.and_assoc]
    rfl

theorem event?_of_find? {store : Store} {id : String} {s : Sequence}
    (h : store.find? id = some s) (i : Int) : store.event? id i = s.events[i]? := by
  rw [event?, h, Option.bind_some]

theorem event?_of_none {store : Store} {id : String} (h : store.find? id = none) (i : Int) :
    store.event? id i = none := by
  rw [event?, h, Option.bind_none]

theorem event?_congr {store other : Store} {id : String} (h : store.find? id = other.find? id)
    (i : Int) : store.event? id i = other.event? id i := by
  rw [event?, event?, h]

theorem size_eq_of_find? {store other : Store} {id : String}
    (h : store.find? id = other.find? id) : store.size id = other.size id := by
  rw [size, size, h]

theorem getElem?_events_sequenceAt (store : Store) (now : Rat) (id : String) (i : Int) :
    (store.sequenceAt now id).events[i]? = store.event? id i := by
  rw [sequenceAt, event?]
  cases store.find? id with
  | some s => rfl
  | none => simp

/-! ### Puts -/

theorem put_of_check_error {index : Int} {event : Event} {fault : PutFault}
    (h : check index event = .error fault) (store : Store) (now : Rat) (id : String) :
    store.put now id index event = .error fault := by
  rw [put, putFound, h]
  rfl

theorem act_put_of_error {store : Store} {now : Rat} {id : String} {index : Int} {event : Event}
    {fault : PutFault} (h : store.put now id index event = .error fault) :
    store.act (.put now id index event) = store := by
  simp only [act, h]

theorem act_put_of_ok {store next : Store} {now : Rat} {id : String} {index : Int} {event : Event}
    {report : PutReport} (h : store.put now id index event = .ok (report, next)) :
    store.act (.put now id index event) = next := by
  simp only [act, h]

/-- A put fills its index if nothing was there, and touches no other. -/
theorem Sound.event?_put {store : Store} (hs : store.Sound) {index : Int} {event : Event}
    (ok : check index event = .ok ()) (now : Rat) (id : String) (other : String) (i : Int) :
    (store.act (.put now id index event)).event? other i =
      if other = id ∧ i = index then some ((store.event? id index).getD event)
      else store.event? other i := by
  obtain ⟨report, next, hput, -, -, hfind⟩ := hs.put_spec ok now id
  rw [act_put_of_ok hput, event?, hfind]
  by_cases ho : other = id
  · rw [if_pos ho, Option.bind_some, Sequence.getElem?_insert, getElem?_events_sequenceAt,
      getElem?_events_sequenceAt, ho]
    simp only [true_and]
  · rw [if_neg ho, if_neg fun h => ho h.1, event?]

/-- The report of a put says what was at its index. -/
theorem Sound.put_report {store : Store} (hs : store.Sound) {index : Int} {event : Event}
    (ok : check index event = .ok ()) (now : Rat) (id : String) :
    ∃ report next, store.put now id index event = .ok (report, next) ∧
      report.put = match store.event? id index with
        | some kept => .duplicate kept
        | none => .stored event := by
  obtain ⟨report, next, hput, -, hreport, -⟩ := hs.put_spec ok now id
  refine ⟨report, next, hput, ?_⟩
  rw [hreport, ← getElem?_events_sequenceAt store now id index]
  cases h : (store.sequenceAt now id).events[index]? with
  | some kept => rw [Sequence.insert_of_some h]
  | none => rw [Sequence.insert_of_none h]

/-- A put at an index that is taken leaves the whole store as it is. -/
theorem Sound.put_duplicate {store : Store} (hs : store.Sound) {id : String} {index : Int}
    {kept : Event} (taken : store.event? id index = some kept) {event : Event}
    (ok : check index event = .ok ()) (now : Rat) :
    ∃ report, store.put now id index event = .ok (report, store) ∧
      report.put = .duplicate kept := by
  obtain ⟨s, hs', hkept⟩ := Option.bind_eq_some_iff.1 taken
  obtain ⟨k, slot, hk, hserves, rfl⟩ := hs.unique.find?_eq_some_iff.1 hs'
  have hcurrent := hs.unique.current?_eq_some hk hserves
  have hseq : store.sequenceAt now id = slot.sequence := by
    rw [sequenceAt, hs', Option.getD_some]
  have hsame : store.setSequence k slot.sequence = store := by
    have hslots : (store.setSequence k slot.sequence).slots = store.slots := by
      apply List.ext_getElem?
      intro j
      rw [slots_setSequence]
      split
      · rename_i hkj
        rw [← hkj, hk, Option.map_some]
      · rfl
    exact congrArg Store.mk hslots
  have hput := hs.put_eq ok now id
  rw [hseq, Sequence.insert_of_some hkept, lookup_of_current? hcurrent, hsame] at hput
  exact ⟨_, hput, rfl⟩

/-! ### What one operation does -/

theorem Sound.act {store : Store} (hs : store.Sound) (action : Action) :
    (store.act action).Sound := by
  cases action with
  | put now id index event =>
    cases hcheck : check index event with
    | error fault =>
      rw [act_put_of_error (put_of_check_error hcheck store now id)]
      exact hs
    | ok _ =>
      obtain ⟨report, next, hput, hnext, -, -⟩ := hs.put_spec hcheck now id
      rw [act_put_of_ok hput]
      exact hnext
  | evict id => exact (hs.evict_spec id).1
  | evictIdle maxIdle now => exact (hs.evictIdle_spec maxIdle now).1

/-- What an operation does to one deployment: it drops its sequence, or it puts one of its events,
or it leaves its sequence as it is. -/
theorem Sound.act_cases {store : Store} (hs : store.Sound) (id : String) (action : Action) :
    (store.drops id action = true ∧ (store.act action).find? id = none) ∨
    (store.drops id action = false ∧ (store.act action).find? id = store.find? id) ∨
    ∃ now index event, action = .put now id index event ∧ check index event = .ok () ∧
      ∀ i, (store.act action).event? id i =
        if i = index then some ((store.event? id index).getD event) else store.event? id i := by
  cases action with
  | put now other index event =>
    cases hcheck : check index event with
    | error fault =>
      rw [act_put_of_error (put_of_check_error hcheck store now other)]
      exact Or.inr (Or.inl ⟨rfl, rfl⟩)
    | ok _ =>
      by_cases hid : id = other
      · subst hid
        refine Or.inr (Or.inr ⟨now, index, event, rfl, hcheck, ?_⟩)
        intro i
        rw [hs.event?_put hcheck]
        simp only [true_and]
      · obtain ⟨report, next, hput, -, -, hfind⟩ := hs.put_spec hcheck now other
        rw [act_put_of_ok hput, hfind, if_neg hid]
        exact Or.inr (Or.inl ⟨rfl, rfl⟩)
  | evict other =>
    rw [Store.act, (hs.evict_spec other).2, drops]
    by_cases hid : id = other
    · exact Or.inl ⟨beq_iff_eq.2 hid.symm, if_pos hid⟩
    · exact Or.inr (Or.inl ⟨beq_eq_false_iff_ne.2 (Ne.symm hid), if_neg hid⟩)
  | evictIdle maxIdle now =>
    rw [Store.act, drops, List.contains_eq_mem]
    by_cases hmem : id ∈ (store.evictIdle maxIdle now).1
    · obtain ⟨s, hfind, hidle⟩ := hs.mem_evictIdle_iff.1 hmem
      refine Or.inl ⟨decide_eq_true hmem, ?_⟩
      rw [(hs.evictIdle_spec maxIdle now).2, hfind, Option.filter_some, hidle]
      rfl
    · exact Or.inr (Or.inl ⟨decide_eq_false hmem, hs.find?_evictIdle_of_not_mem hmem⟩)

theorem Sound.find?_act_of_drops {store : Store} (hs : store.Sound) {id : String} {action : Action}
    (h : store.drops id action = true) : (store.act action).find? id = none := by
  rcases hs.act_cases id action with hdrop | hkeep | ⟨now, index, event, rfl, -, -⟩
  · exact hdrop.2
  · rw [hkeep.1] at h
    exact absurd h (by simp)
  · exact absurd h (by simp [drops])

/-- An event stays at its index unless its sequence is dropped. -/
theorem Sound.event?_act {store : Store} (hs : store.Sound) {id : String} {action : Action}
    (h : store.drops id action = false) {i : Int} {event : Event}
    (hevent : store.event? id i = some event) : (store.act action).event? id i = some event := by
  rcases hs.act_cases id action with hdrop | hkeep | ⟨now, index, new, -, -, hafter⟩
  · rw [hdrop.1] at h
    exact absurd h (by simp)
  · rw [event?_congr hkeep.2, hevent]
  · rw [hafter]
    split
    · rename_i hi
      rw [← hi, hevent, Option.getD_some]
    · exact hevent

/-- What is stored was stored before or has just been put. -/
theorem Sound.event?_of_act {store : Store} (hs : store.Sound) {id : String} {action : Action}
    {i : Int} {event : Event} (h : (store.act action).event? id i = some event) :
    store.event? id i = some event ∨
      ∃ now, action = .put now id i event ∧ check i event = .ok () := by
  rcases hs.act_cases id action with hdrop | hkeep | ⟨now, index, new, rfl, ok, hafter⟩
  · rw [event?_of_none hdrop.2] at h
    exact absurd h (by simp)
  · rw [event?_congr hkeep.2] at h
    exact Or.inl h
  · rw [hafter] at h
    split at h
    · rename_i hi
      subst hi
      cases hbefore : store.event? id i with
      | some kept =>
        rw [hbefore, Option.getD_some] at h
        exact Or.inl h
      | none =>
        rw [hbefore, Option.getD_none] at h
        obtain rfl := Option.some.inj h
        exact Or.inr ⟨now, rfl, ok⟩
    · exact Or.inl h

/-! ### What a run does -/

theorem Sound.run {store : Store} (hs : store.Sound) (actions : List Action) :
    (store.run actions).Sound := by
  induction actions generalizing store with
  | nil => exact hs
  | cons action rest ih => exact ih (hs.act action)

theorem run_sound (actions : List Action) : (({} : Store).run actions).Sound :=
  sound_empty.run actions

/-- Between two evictions of its deployment an event stays at its index. -/
theorem Sound.event?_run {store : Store} (hs : store.Sound) {id : String} {actions : List Action}
    (h : store.keeps id actions = true) {i : Int} {event : Event}
    (hevent : store.event? id i = some event) : (store.run actions).event? id i = some event := by
  induction actions generalizing store with
  | nil => exact hevent
  | cons action rest ih =>
    rw [keeps, Bool.and_eq_true, Bool.not_eq_true'] at h
    exact ih (hs.act action) h.2 (hs.event?_act h.1 hevent)

/-- Whatever is stored after a run was stored before or was put. -/
theorem Sound.event?_of_run {store : Store} (hs : store.Sound) {id : String}
    {actions : List Action} {i : Int} {event : Event}
    (h : (store.run actions).event? id i = some event) :
    store.event? id i = some event ∨
      ∃ now, .put now id i event ∈ actions ∧ check i event = .ok () := by
  induction actions generalizing store with
  | nil => exact Or.inl h
  | cons action rest ih =>
    rcases ih (hs.act action) h with hact | ⟨now, hmem, ok⟩
    · rcases hs.event?_of_act hact with hevent | ⟨now, rfl, ok⟩
      · exact Or.inl hevent
      · exact Or.inr ⟨now, List.mem_cons_self, ok⟩
    · exact Or.inr ⟨now, List.mem_cons_of_mem _ hmem, ok⟩

/-- Every stored event has the index it is stored at. -/
theorem index_eq_of_run {actions : List Action} {id : String} {i : Int} {event : Event}
    (h : (({} : Store).run actions).event? id i = some event) : event.index = i := by
  rcases sound_empty.event?_of_run h with hempty | ⟨-, -, ok⟩
  · exact absurd hempty (by simp [event?, find?])
  · exact (check_eq_ok_iff.1 ok).2

/-- A deployment without a sequence gets one only by a put. -/
theorem Sound.find?_run_of_none {store : Store} (hs : store.Sound) {id : String}
    (hnone : store.find? id = none) {actions : List Action}
    (h : ∀ action ∈ actions, action.putsTo id = false) : (store.run actions).find? id = none := by
  induction actions generalizing store with
  | nil => exact hnone
  | cons action rest ih =>
    refine ih (hs.act action) ?_ fun a ha => h a (List.mem_cons_of_mem _ ha)
    rcases hs.act_cases id action with hdrop | hkeep | ⟨now, index, event, rfl, -, -⟩
    · exact hdrop.2
    · rw [hkeep.2, hnone]
    · exact absurd (h _ List.mem_cons_self) (by simp [Action.putsTo])

end Lifecycle.Store
