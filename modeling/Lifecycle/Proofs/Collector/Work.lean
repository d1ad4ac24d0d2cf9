import Lifecycle.Proofs.Collector.Dense

/-! # What work leaves in the store

Watchers work on the store by puts alone. A put that opens a sequence stores its event there; any
other put stores its event in the sequence that serves the deployment, or finds the index taken and
leaves everything as it was. So while nothing is evicted, a sequence has either stayed what it was,
or it has more events than before and was written just now. -/

namespace Lifecycle

namespace Store

/-- From one store to the next, events were stored at the time `now` and nothing was dropped. -/
structure Grows (now : Rat) (store next : Store) : Prop where
  sound : next.Sound
  registered : store.registered <+: next.registered
  sequences : ∀ id, next.find? id = store.find? id ∨
    (store.size id < next.size id ∧ ∃ s, next.find? id = some s ∧ s.lastWrite = now)

variable {store next last : Store} {now : Rat} {id : String}

theorem size_of_find? {s : Sequence} (h : store.find? id = some s) : store.size id = s.size := by
  rw [size, h, Option.map_some, Option.getD_some]

theorem Grows.refl (hs : store.Sound) : Grows now store store :=
  ⟨hs, List.prefix_refl _, fun _ => Or.inl rfl⟩

theorem Grows.trans (first : Grows now store next) (second : Grows now next last) :
    Grows now store last where
  sound := second.sound
  registered := first.registered.trans second.registered
  sequences := by
    intro id
    rcases second.sequences id with hsame | ⟨hmore, hwritten⟩
    · rw [hsame, size_eq_of_find? hsame]
      exact first.sequences id
    · right
      refine ⟨?_, hwritten⟩
      rcases first.sequences id with hbefore | ⟨hgrown, -⟩
      · rwa [size_eq_of_find? hbefore] at hmore
      · exact Nat.lt_trans hgrown hmore

/-! ### Puts -/

theorem registered_setSequence (store : Store) (k : Nat) (q : Sequence) :
    (store.setSequence k q).registered = store.registered := by
  obtain ⟨slots⟩ := store
  simp only [registered, setSequence]
  induction slots generalizing k with
  | nil => simp
  | cons s rest ih =>
    cases k with
    | zero => cases h : s.registered <;> simp [h]
    | succ k => cases h : s.registered <;> simp [h, ih]

theorem registered_lookup (store : Store) (now : Rat) (id : String) :
    store.registered <+: (store.lookup now id).2.registered := by
  cases h : store.current? id with
  | some k => rw [lookup_of_current? h]
  | none =>
    rw [lookup_of_none h]
    exact ⟨[id], by simp [registered]⟩

theorem size_sequenceAt (store : Store) (now : Rat) (id : String) :
    (store.sequenceAt now id).size = store.size id := by
  rw [size_eq_length_contents, ← toList_sequenceAt store now id, Sequence.size,
    Std.TreeMap.length_toList]

theorem size_insert_of_none {s : Sequence} {i : Int} (h : s.events[i]? = none) (event : Event) :
    (s.insert now i event).2.size = s.size + 1 := by
  have hnew : s.events.contains i = false := by
    rw [Std.TreeMap.contains_eq_isSome_getElem?, h, Option.isSome_none]
  rw [Sequence.insert_of_none h]
  simp only [Sequence.size, Std.TreeMap.size_insert, hnew, Bool.false_eq_true, if_false]

theorem Sound.put_grows (hs : store.Sound) {index : Int} {event : Event} {report : PutReport}
    (h : store.put now id index event = .ok (report, next)) : Grows now store next := by
  have ok : check index event = .ok () := by
    cases hcheck : check index event with
    | ok _ => rfl
    | error fault =>
      rw [put_of_check_error hcheck] at h
      exact absurd h (by simp)
  obtain ⟨_, after, hput, hsound, -, hfind⟩ := hs.put_spec ok now id
  have hafter : next = after := by
    rw [h] at hput
    exact (Prod.mk.inj (Except.ok.inj hput)).2
  subst hafter
  refine ⟨hsound, ?_, ?_⟩
  · have heq := hs.put_eq ok now id
    rw [h] at heq
    rw [(Prod.mk.inj (Except.ok.inj heq)).2, registered_setSequence]
    exact registered_lookup store now id
  · intro other
    by_cases hid : other = id
    · subst hid
      have hself := hfind other
      rw [if_pos rfl] at hself
      cases hi : (store.sequenceAt now other).events[index]? with
      | some kept =>
        -- a sequence that has just been opened has no index taken
        obtain ⟨s, hs', -⟩ := Option.bind_eq_some_iff.1
          ((getElem?_events_sequenceAt store now other index).symm.trans hi)
        rw [Sequence.insert_of_some hi, sequenceAt, hs', Option.getD_some] at hself
        exact Or.inl (hself.trans hs'.symm)
      | none =>
        refine Or.inr ⟨?_, _, hself, ?_⟩
        · rw [size_of_find? hself, size_insert_of_none hi, size_sequenceAt]
          exact Nat.lt_succ_self _
        · rw [Sequence.insert_of_none hi]
    · exact Or.inl ((hfind other).trans (if_neg hid))

end Store

/-! ### Watchers and crews -/

namespace Watcher

theorem takeLine_grows (w : Watcher) (clock : Clock) (generation position : Nat) (line : String)
    (desk : Desk) (hs : desk.store.Sound) :
    Store.Grows clock.monotonic desk.store
      (w.takeLine clock generation position line desk).desk.store := by
  simp only [takeLine]
  split
  · split <;> exact Store.Grows.refl hs
  · split
    · exact Store.Grows.refl hs
    · rename_i hput
      exact hs.put_grows hput

theorem takeLines_grows (w : Watcher) (clock : Clock) (generation position : Nat)
    (lines : List String) (desk : Desk) (hs : desk.store.Sound) :
    Store.Grows clock.monotonic desk.store
      (w.takeLines clock generation position lines desk).desk.store := by
  induction lines generalizing position desk with
  | nil => exact Store.Grows.refl hs
  | cons line rest ih =>
    have hfirst := w.takeLine_grows clock generation position line desk hs
    simp only [takeLines]
    split
    · exact hfirst
    · exact hfirst.trans (ih (position + 1) _ hfirst.sound)

theorem pass_grows (w : Watcher) (clock : Clock) (lines : List String) (desk : Desk)
    (hs : desk.store.Sound) :
    Store.Grows clock.monotonic desk.store (w.pass clock lines desk).state.2.store := by
  simp only [pass]
  split <;> exact w.takeLines_grows clock _ _ _ (desk.note w.worker.name lines) hs

theorem catchUp_grows (w : Watcher) (source : Source) (clock : Clock) (desk : Desk)
    (hs : desk.store.Sound) :
    Store.Grows clock.monotonic desk.store (w.catchUp source clock desk).state.2.store := by
  simp only [catchUp]
  split
  · exact Store.Grows.refl hs
  · exact w.pass_grows clock _ desk hs

theorem wake_grows (w : Watcher) (source : Source) (clock : Clock) (desk : Desk)
    (hs : desk.store.Sound) :
    Store.Grows clock.monotonic desk.store (w.wake source clock desk).state.2.store := by
  simp only [wake]
  split <;> exact w.catchUp_grows source clock desk hs

theorem start_grows (w : Watcher) (rank : Nat) (source : Source) (clock : Clock) (desk : Desk)
    (hs : desk.store.Sound) :
    Store.Grows clock.monotonic desk.store (w.start rank source clock desk).state.2.store := by
  simp only [start]
  split
  · exact Store.Grows.refl hs
  · exact wake_grows _ source clock desk hs

end Watcher

namespace Crew

theorem pollAll_grows (source : Source) (clock : Clock) (watchers : List Watcher) (desk : Desk)
    (hs : desk.store.Sound) :
    Store.Grows clock.monotonic desk.store (pollAll source clock watchers desk).state.2.store := by
  induction watchers generalizing desk with
  | nil => exact Store.Grows.refl hs
  | cons w rest ih =>
    have hfirst := w.catchUp_grows source clock desk hs
    simp only [pollAll]
    split
    · exact hfirst
    · exact hfirst.trans (ih _ hfirst.sound)

theorem startFrom_grows (source : Source) (clock : Clock) (rank : Nat) (watchers : List Watcher)
    (desk : Desk) (hs : desk.store.Sound) :
    Store.Grows clock.monotonic desk.store
      (startFrom source clock rank watchers desk).1.2.store := by
  induction watchers generalizing desk rank with
  | nil => exact Store.Grows.refl hs
  | cons w rest ih =>
    have hfirst := w.start_grows rank source clock desk hs
    simp only [startFrom]
    exact hfirst.trans (ih (rank + 1) _ hfirst.sound)

end Crew

/-! ### The collector -/

namespace Collector

variable {c : Collector}

theorem enrol_store (c : Collector) (operation : String) :
    (c.enrol operation).store = c.store := by
  rw [enrol]
  split <;> rfl

theorem refresh_grows (hs : c.store.Sound) (world : World) (rank : Nat) (operation : String)
    (start : Bool) :
    Store.Grows world.clock.monotonic c.store
      (c.refresh world rank operation start).state.store := by
  simp only [refresh, refreshWith]
  split
  · exact Store.Grows.refl hs
  · split
    · exact Store.Grows.refl hs
    · cases start with
      | false => exact Store.Grows.refl hs
      | true => exact Crew.startFrom_grows world.source world.clock rank _ ⟨_, c.store⟩ hs

theorem track_grows (hs : c.store.Sound) (world : World) (rank : Nat) (operation : String)
    (start : Bool) :
    Store.Grows world.clock.monotonic c.store (c.track world rank operation start).state.store := by
  simp only [track, trackWith]
  split
  · exact Store.Grows.refl hs
  · have henrol := refresh_grows (c := c.enrol operation) (by rwa [enrol_store]) world rank
      operation start
    rwa [enrol_store] at henrol

theorem catchUp_grows (hs : c.store.Sound) (world : World) (operation : String) :
    Store.Grows world.clock.monotonic c.store (c.catchUp world operation).state.store := by
  simp only [catchUp]
  split
  · exact Store.Grows.refl hs
  · exact Crew.pollAll_grows world.source world.clock _ ⟨_, c.store⟩ hs

theorem wake_grows (hs : c.store.Sound) (world : World) (operation : String) (k : Nat) :
    Store.Grows world.clock.monotonic c.store (c.wake world operation k).1.store := by
  rcases c.wake_cases world operation k with heq | ⟨crew, w, -, -, heq⟩
  · rw [heq]
    exact Store.Grows.refl hs
  · rw [heq]
    exact w.wake_grows world.source world.clock ⟨_, c.store⟩ hs

theorem tick_grows (hs : c.store.Sound) (world : World) :
    Store.Grows world.clock.monotonic c.store (c.tick world).1.store := by
  refine tick_induction (P := fun d => Store.Grows world.clock.monotonic c.store d.store)
    (Store.Grows.refl hs) ?_
  intro d operation k hgrown
  exact hgrown.trans (wake_grows hgrown.sound world operation k)

/-- The monotonic time of an operation that looks at the clock. -/
def Action.time? : Action → Option Rat
  | .track world _ _ _ => some world.clock.monotonic
  | .refresh world _ _ _ => some world.clock.monotonic
  | .collect world _ => some world.clock.monotonic
  | .page _ _ _ _ _ => none
  | .untrack _ => none
  | .sweep _ clock => some clock.monotonic
  | .stop => none
  | .wake world _ _ => some world.clock.monotonic
  | .tick world => some world.clock.monotonic

/-- The operation drops sequences, and then says how many there are. -/
def Action.settles : Action → Bool
  | .untrack _ => true
  | .sweep _ _ => true
  | _ => false

/-- An operation that drops no sequences works at its time, or does not touch the store. -/
theorem act_store (hs : c.store.Sound) {action : Action} (h : action.settles = false) :
    (∃ now, action.time? = some now ∧ Store.Grows now c.store (c.act action).store) ∨
      (c.act action).store = c.store := by
  cases action with
  | track world rank operation start =>
    exact Or.inl ⟨_, rfl, track_grows hs world rank operation start⟩
  | refresh world rank operation start =>
    exact Or.inl ⟨_, rfl, refresh_grows hs world rank operation start⟩
  | collect world operation => exact Or.inl ⟨_, rfl, catchUp_grows hs world operation⟩
  | page operation start stop maxWait correlation => exact Or.inr rfl
  | untrack operation => exact absurd h (by simp [Action.settles])
  | sweep retention clock => exact absurd h (by simp [Action.settles])
  | stop => exact Or.inr rfl
  | wake world operation k => exact Or.inl ⟨_, rfl, wake_grows hs world operation k⟩
  | tick world => exact Or.inl ⟨_, rfl, tick_grows hs world⟩

end Collector

end Lifecycle
