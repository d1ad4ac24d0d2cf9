import Lifecycle.Proofs.Registers.Crews

/-! # The table of crews refines the registers

Whatever the collector does with its registers, it does with one table of crews as well, with the
same value and the same effects, and leaves registers that match the table again. The loops, which
are found wherever watchers are, are those of the crews, and a tick wakes them in the same order. -/

namespace Lifecycle

namespace Registers

variable {r : Registers} {c : Collector} {operation : String}

/-- An operation came out the same, and left registers that match the collector. -/
structure Agrees {α : Type} (outcome : Outcome Registers α) (outcome' : Outcome Collector α) : Prop
    where
  value : outcome.value = outcome'.value
  effects : outcome.effects = outcome'.effects
  state : outcome.state.Matches outcome'.state

theorem matches_start (halting : Bool) : Matches { halting } { halting } where
  store := rfl
  halting := rfl
  distinct := Keyed.distinct_nil
  allocatorKeys := rfl
  watcherKeys := rfl
  crews := fun _ _ hcrew => absurd hcrew (by simp [Collector.crew?, Keyed.get?_nil])
  apart := fun _ _ _ hcrew => absurd hcrew (by simp [Keyed.get?_nil])
  listed := fun _ _ hpost => absurd hpost (by simp)
  ranks := fun _ _ _ hloop => absurd hloop List.not_mem_nil

/-- The store may change by itself. -/
theorem Matches.withStore (h : r.Matches c) (store : Store) :
    Matches { r with store } { c with store } where
  store := rfl
  halting := h.halting
  distinct := h.distinct
  allocatorKeys := h.allocatorKeys
  watcherKeys := h.watcherKeys
  crews := by
    intro operation crew hcrew
    obtain ⟨address, table, haddress, htable, hholds⟩ := h.crews operation crew hcrew
    exact ⟨address, table, haddress, htable, hholds.frame rfl fun _ _ hpost _ => hpost⟩
  apart := h.apart
  listed := h.listed
  ranks := h.ranks

/-! ### Tracking -/

theorem Matches.enrol (h : r.Matches c) (operation : String) :
    (r.enrol operation).Matches (c.enrol operation) := by
  cases hcrew : c.crew? operation with
  | some crew =>
    obtain ⟨address, table, haddress, htable, -⟩ := h.crews operation crew hcrew
    simp only [Registers.enrol, giveAllocator, giveTable, Collector.enrol, haddress, htable, hcrew]
    exact h
  | none =>
    have haddress := h.get?_allocatorOf_of_none hcrew
    have htable := h.get?_watchersOf_of_none hcrew
    simp only [Registers.enrol, giveAllocator, giveTable, Collector.enrol, haddress, htable, hcrew]
    constructor
    · exact h.store
    · exact h.halting
    · exact h.distinct.set _ _
    · simp only [Keyed.set_of_get?_eq_none haddress, Keyed.set_of_get?_eq_none hcrew,
        List.map_append, h.allocatorKeys, List.map_cons]
      rfl
    · simp only [Keyed.set_of_get?_eq_none htable, Keyed.set_of_get?_eq_none hcrew,
        List.map_append, h.watcherKeys, List.map_cons]
      rfl
    · intro other crew hcrew'
      simp only [Collector.crew?, Keyed.get?_set, beq_iff_eq] at hcrew' ⊢
      by_cases heq : operation = other
      · rw [if_pos heq] at hcrew' ⊢
        rw [if_pos heq, ← Option.some.inj hcrew']
        refine ⟨_, _, rfl, rfl, List.getElem?_concat_length, rfl, ?_, Keyed.distinct_nil⟩
        intro k name place w hentry
        exact absurd hentry (by simp)
      · rw [if_neg heq] at hcrew' ⊢
        rw [if_neg heq]
        obtain ⟨address, table, haddress, htable, hholds⟩ := h.crews other crew hcrew'
        refine ⟨address, table, haddress, htable, hholds.frame ?_ fun _ _ hpost _ => hpost⟩
        exact List.getElem?_append_left (h.address_lt haddress)
    · intro other other' address hother hother'
      simp only [Keyed.get?_set, beq_iff_eq] at hother hother'
      by_cases heq : operation = other
      · by_cases heq' : operation = other'
        · exact heq.symm.trans heq'
        · rw [if_pos heq] at hother
          rw [if_neg heq'] at hother'
          exact absurd (h.address_lt hother') (by rw [← Option.some.inj hother]; exact Nat.lt_irrefl _)
      · rw [if_neg heq] at hother
        by_cases heq' : operation = other'
        · rw [if_pos heq'] at hother'
          exact absurd (h.address_lt hother) (by rw [← Option.some.inj hother']; exact Nat.lt_irrefl _)
        · rw [if_neg heq'] at hother'
          exact h.apart other other' address hother hother'
    · intro place post hpost hrunning
      obtain ⟨table, htable', hmem⟩ := h.listed place post hpost hrunning
      refine ⟨table, ?_, hmem⟩
      rw [Keyed.get?_set, beq_false_of_ne, if_neg Bool.false_ne_true]
      · exact htable'
      · rintro rfl
        exact absurd htable' (by simp [htable])
    · exact h.ranks

/-- Enrolling makes no watcher and starts no loop. -/
theorem loops_enrol (r : Registers) (operation : String) : (r.enrol operation).loops = r.loops := by
  have hposts : (r.enrol operation).posts = r.posts := by
    rw [Registers.enrol, giveTable, giveAllocator]
    split <;> split <;> rfl
  rw [loops, hposts, loops]

theorem Matches.refresh (h : r.Matches c) (world : World) (operation : String) (start : Bool) :
    Agrees (r.refresh world operation start)
      (c.refresh world (Collector.nextRank r.loops) operation start) := by
  simp only [Registers.refresh, Collector.refresh, Collector.refreshWith]
  cases (world.classifier.workersFor operation).value with
  | error fault => exact ⟨rfl, rfl, h⟩
  | ok workers =>
    cases hcrew : c.crew? operation with
    | none =>
      simp only [h.get?_watchersOf_of_none hcrew]
      exact ⟨rfl, rfl, h⟩
    | some crew =>
      obtain ⟨address, table, haddress, htable, -⟩ := h.crews operation crew hcrew
      obtain ⟨hworkers, hloops, hmatch, later, hlater, hplaces⟩ :=
        h.hire hcrew haddress htable (Collector.byName workers)
      simp only [htable, haddress]
      cases start with
      | false => exact ⟨by rw [hworkers], rfl, hmatch⟩
      | true =>
        have hjoined := (c.crew?_update operation
          (crew.join (c.newcomers operation crew (Collector.byName workers))) c.store
            operation).trans (if_pos rfl)
        have hmidway : Midway _ _ operation crew.allocator crew.watchers
            (c.newcomers operation crew (Collector.byName workers)) _ :=
          ⟨hmatch, hjoined, table, later, hlater, h.length_table hcrew htable, hplaces⟩
        have hrank : ∀ e ∈ (r.hire operation address (Collector.byName workers)).1.loops,
            e.1 < Collector.nextRank r.loops := fun e he => Collector.lt_nextRank (hloops e he)
        obtain ⟨heffects, hstarted⟩ := hmidway.startAll world.source world.clock hrank
        rw [c.update_update] at hstarted
        exact ⟨by rw [hworkers], by simp only [if_true, heffects]; rfl, hstarted⟩

theorem Matches.track (h : r.Matches c) (world : World) (operation : String) (start : Bool) :
    Agrees (r.track world operation start)
      (c.track world (Collector.nextRank r.loops) operation start) := by
  simp only [Registers.track, Collector.track, Collector.trackWith]
  cases (world.classifier.classify operation).value with
  | error fault => exact ⟨rfl, rfl, h⟩
  | ok kind =>
    have hrefreshed := (h.enrol operation).refresh world operation start
    rw [loops_enrol] at hrefreshed
    exact ⟨by rw [hrefreshed.value], by rw [hrefreshed.effects], hrefreshed.state⟩

theorem Matches.catchUp (h : r.Matches c) (world : World) (operation : String) :
    Agrees (r.catchUp world operation) (c.catchUp world operation) := by
  cases hcrew : c.crew? operation with
  | none =>
    simp only [Registers.catchUp, Collector.catchUp, hcrew, places, h.get?_watchersOf_of_none hcrew]
    exact ⟨rfl, rfl, h⟩
  | some crew =>
    obtain ⟨hvalue, heffects, hmatch⟩ := (h.midway hcrew).pollAll world.source world.clock
    simp only [Registers.catchUp, Collector.catchUp, hcrew]
    exact ⟨hvalue, heffects, hmatch⟩

/-! ### Untracking -/

/-- The watchers do not look into the registers. -/
theorem actAt_strike {α : Type} [Inhabited α] (r : Registers) (operation : String) (place : Nat)
    (f : Watcher → Desk → Outcome (Watcher × Desk) α) :
    (r.strike operation).actAt place f =
      let acted := r.actAt place f
      ⟨acted.state.strike operation, acted.value, acted.effects⟩ := by
  simp only [actAt, strike]
  cases hpost : r.posts[place]? with
  | none => rfl
  | some post =>
    cases hallocator : r.allocators[post.allocator]? with
    | none => simp [hallocator]
    | some allocator => simp [hallocator, Registers.putBack]

theorem stopAll_strike (r : Registers) (operation : String) (places : List Nat) :
    stopAll places (r.strike operation) =
      ((stopAll places r).1.strike operation, (stopAll places r).2) := by
  induction places generalizing r with
  | nil => rfl
  | cons place rest ih => simp only [stopAll, actAt_strike, ih]

/-- An operation without running loops is struck from both registers. -/
theorem Matches.strike (h : r.Matches c) (operation : String)
    (hloops : ∀ crew, c.crew? operation = some crew → ∀ w ∈ crew.watchers, w.loop = none)
    (store : Store) :
    Matches { r.strike operation with store }
      { c with store, tracked := Keyed.erase c.tracked operation } := by
  have hcrew? : ∀ {other crew}, Keyed.get? (Keyed.erase c.tracked operation) other = some crew →
      operation ≠ other ∧ c.crew? other = some crew := by
    intro other crew hcrew
    rw [Keyed.get?_erase] at hcrew
    by_cases heq : operation = other
    · exact absurd hcrew (by simp [heq])
    · rw [beq_false_of_ne heq, if_neg Bool.false_ne_true] at hcrew
      exact ⟨heq, hcrew⟩
  have hkept : ∀ {β : Type} (l : Keyed String β) {other}, operation ≠ other →
      Keyed.get? (Keyed.erase l operation) other = Keyed.get? l other := by
    intro β l other hne
    rw [Keyed.get?_erase, beq_false_of_ne hne, if_neg Bool.false_ne_true]
  constructor
  · rfl
  · exact h.halting
  · exact h.distinct.erase operation
  · simp only [Registers.strike, Keyed.map_fst_erase, h.allocatorKeys]
  · simp only [Registers.strike, Keyed.map_fst_erase, h.watcherKeys]
  · intro other crew hcrew
    obtain ⟨hne, hcrew⟩ := hcrew? hcrew
    obtain ⟨address, table, haddress, htable, hholds⟩ := h.crews other crew hcrew
    exact ⟨address, table, (hkept _ hne).trans haddress, (hkept _ hne).trans htable,
      hholds.frame rfl fun _ _ hpost _ => hpost⟩
  · intro other other' address hother hother'
    simp only [Registers.strike, Keyed.get?_erase] at hother hother'
    split at hother
    · exact absurd hother (by simp)
    · split at hother'
      · exact absurd hother' (by simp)
      · exact h.apart other other' address hother hother'
  · intro place post hpost hrunning
    obtain ⟨table, htable, hmem⟩ := h.listed place post hpost hrunning
    refine ⟨table, (hkept _ ?_).trans htable, hmem⟩
    -- the watchers of the operation have stopped
    intro heq
    obtain ⟨crew, address, hcrew, -, hholds⟩ := h.crew_of_table htable
    rw [← heq] at hcrew
    obtain ⟨k, hentry⟩ := List.mem_iff_getElem?.1 hmem
    obtain ⟨w, hw⟩ := hholds.exists_watcher hentry
    have hpost' := (hholds.posts k _ place w hentry hw).1
    rw [Option.some.inj (hpost.symm.trans hpost'), Watcher.isRunning,
      hloops crew hcrew w (List.mem_of_getElem? hw)] at hrunning
    exact absurd hrunning (by simp)
  · exact h.ranks

theorem Matches.untrack (h : r.Matches c) (operation : String) :
    (r.untrack operation).2 = (c.untrack operation).2 ∧
      (r.untrack operation).1.Matches (c.untrack operation).1 := by
  simp only [Registers.untrack, Collector.untrack, stopAll_strike]
  cases hcrew : c.crew? operation with
  | none =>
    have hplaces : r.places operation = [] := by
      rw [places, h.get?_watchersOf_of_none hcrew]
      rfl
    have hmatch := h.strike operation (fun crew hcrew' => absurd hcrew' (by simp [hcrew]))
      (c.store.evict operation).2
    simp only [hplaces, stopAll, Registers.strike, h.store]
    exact ⟨rfl, hmatch⟩
  | some crew =>
    obtain ⟨heffects, hmatch⟩ := (h.midway hcrew).stopAll
    have hstopped : ∀ crew', (c.update operation ⟨crew.allocator, [] ++ crew.watchers.map
        fun w => w.stop.1⟩ c.store).crew? operation = some crew' →
        ∀ w ∈ crew'.watchers, w.loop = none := by
      intro crew' hcrew' w hw
      rw [Collector.crew?_update, if_pos rfl] at hcrew'
      rw [← Option.some.inj hcrew', List.nil_append] at hw
      obtain ⟨v, -, rfl⟩ := List.mem_map.1 hw
      exact v.loop_stop
    have hstruck := hmatch.strike operation hstopped (c.store.evict operation).2
    rw [Collector.update, Keyed.erase_set] at hstruck
    have hstore : (stopAll (r.places operation) r).1.store = c.store := hmatch.store
    simp only [Registers.strike, Option.map_some, Option.getD_some, hstore, heffects]
    exact ⟨rfl, hstruck⟩

theorem Matches.untrackAll (h : r.Matches c) (operations : List String) :
    (r.untrackAll operations).2 = (c.untrackAll operations).2 ∧
      (r.untrackAll operations).1.Matches (c.untrackAll operations).1 := by
  induction operations generalizing r c with
  | nil => exact ⟨rfl, h⟩
  | cons operation rest ih =>
    obtain ⟨heffects, hmatch⟩ := h.untrack operation
    obtain ⟨hothers, hlast⟩ := ih hmatch
    exact ⟨by simp only [Registers.untrackAll, Collector.untrackAll, heffects, hothers], hlast⟩

theorem Matches.sweep (h : r.Matches c) (retention : Rat) (clock : Clock) :
    (r.sweep retention clock).1.1 = (c.sweep retention clock).1.1 ∧
      (r.sweep retention clock).2 = (c.sweep retention clock).2 ∧
      (r.sweep retention clock).1.2.Matches (c.sweep retention clock).1.2 := by
  simp only [Registers.sweep, Collector.sweep, h.store]
  obtain ⟨heffects, hmatch⟩ :=
    (h.withStore (c.store.evictIdle retention clock.monotonic).2).untrackAll
      (c.store.evictIdle retention clock.monotonic).1
  exact ⟨trivial, by rw [heffects, hmatch.store], hmatch⟩

/-! ### Stopping -/

theorem Matches.stopEach {stopped rest : Keyed String Crew} (h : r.Matches c)
    (hc : c.tracked = stopped ++ rest) :
    (stopEach (rest.map Prod.fst) r).2 = rest.flatMap (fun (_, crew) => crew.stop.2) ∧
      (stopEach (rest.map Prod.fst) r).1.Matches { c with
        tracked := stopped ++ rest.map fun (operation, crew) => (operation, crew.stop.1) } := by
  induction rest generalizing r c stopped with
  | nil =>
    rw [List.append_nil] at hc
    simp only [List.map_nil, List.append_nil, ← hc]
    exact ⟨rfl, h⟩
  | cons e rest ih =>
    obtain ⟨operation, crew⟩ := e
    have hdistinct := h.distinct
    have hcrew : c.crew? operation = some crew :=
      hdistinct.get?_of_mem (by rw [hc]; exact List.mem_append_right _ List.mem_cons_self)
    rw [hc] at hdistinct
    obtain ⟨heffects, hmatch⟩ := (h.midway hcrew).stopAll
    rw [Collector.update, hc, hdistinct.set_append_cons, List.append_cons] at hmatch
    obtain ⟨hothers, hlast⟩ := ih hmatch rfl
    refine ⟨?_, ?_⟩
    · simp only [Registers.stopEach, List.map_cons, List.flatMap_cons, heffects, hothers]
      rfl
    · simp only [List.append_assoc, List.singleton_append, List.nil_append] at hlast
      exact hlast

theorem Matches.stop (h : r.Matches c) :
    r.stop.2 = c.stop.2 ∧ r.stop.1.Matches c.stop.1 := by
  have hall : c.tracked = [] ++ c.tracked := rfl
  rw [Registers.stop, h.watcherKeys]
  exact h.stopEach hall

/-! ### Loops -/

/-- The `k`-th watcher of an operation is at a place. -/
def Entry (r : Registers) (operation : String) (k place : Nat) : Prop :=
  (r.places operation)[k]? = some place

variable {k place rank : Nat}

/-- The watcher at a place of a table is the one of the crew. -/
theorem Matches.entry (h : r.Matches c) (hentry : r.Entry operation k place) :
    ∃ crew w address table name, c.crew? operation = some crew ∧ crew.watchers[k]? = some w ∧
      Keyed.get? r.watchersOf operation = some table ∧ table[k]? = some (name, place) ∧
      r.Holds operation address table crew := by
  rw [Entry, places, List.getElem?_map, Option.map_eq_some_iff] at hentry
  obtain ⟨⟨name, place⟩, hentry, rfl⟩ := hentry
  cases hcrew : c.crew? operation with
  | none => exact absurd hentry (by simp [h.get?_watchersOf_of_none hcrew])
  | some crew =>
    obtain ⟨address, table, -, htable, hholds⟩ := h.crews operation crew hcrew
    rw [htable, Option.getD_some] at hentry
    obtain ⟨w, hw⟩ := hholds.exists_watcher hentry
    exact ⟨crew, w, address, table, name, rfl, hw, htable, hentry, hholds⟩

/-- A place holds one watcher, who stands in one table, and there once. -/
theorem Matches.entry_unique (h : r.Matches c) (hentry : r.Entry operation k place)
    {other : String} {j : Nat} (hother : r.Entry other j place) : operation = other ∧ k = j := by
  obtain ⟨_, w, _, table, name, -, hw, htable, hentry, hholds⟩ := h.entry hentry
  obtain ⟨_, w', _, table', name', -, hw', htable', hentry', hholds'⟩ := h.entry hother
  obtain ⟨hpost, -, hdeployment⟩ := hholds.posts k name place w hentry hw
  obtain ⟨hpost', -, hdeployment'⟩ := hholds'.posts j name' place w' hentry' hw'
  obtain ⟨rfl, -⟩ := Post.mk.inj (Option.some.inj (hpost.symm.trans hpost'))
  obtain rfl := hdeployment.symm.trans hdeployment'
  obtain rfl := Option.some.inj (htable.symm.trans htable')
  exact ⟨rfl, hholds.entry_unique hentry hentry'⟩

/-- A loop of the registers runs in a crew. -/
theorem Matches.exists_loop (h : r.Matches c) (hloop : (rank, place) ∈ r.loops) :
    ∃ operation k, r.Entry operation k place ∧ (rank, operation, k) ∈ c.loops := by
  obtain ⟨post, table, hpost, hrank, htable, hmem⟩ := h.post_of_loop hloop
  obtain ⟨k, hk⟩ := List.mem_iff_getElem?.1 hmem
  have hentry : r.Entry post.watcher.deployment k place := by
    rw [Entry, places, htable, Option.getD_some, List.getElem?_map, hk, Option.map_some]
  obtain ⟨crew, w, address, table', name, hcrew, hw, htable', hk', hholds⟩ := h.entry hentry
  have hpost' := (hholds.posts k name place w hk' hw).1
  rw [Option.some.inj (hpost.symm.trans hpost')] at hrank
  exact ⟨_, k, hentry, h.distinct.mem_loops_iff.2 ⟨crew, w, hcrew, hw, hrank⟩⟩

/-- A loop of a crew runs in the registers. -/
theorem Matches.exists_place (h : r.Matches c) (hloop : (rank, operation, k) ∈ c.loops) :
    ∃ place, r.Entry operation k place ∧ (rank, place) ∈ r.loops := by
  obtain ⟨crew, w, hcrew, hw, hrank⟩ := h.distinct.mem_loops_iff.1 hloop
  obtain ⟨address, table, -, htable, hholds⟩ := h.crews operation crew hcrew
  obtain ⟨name, place, hentry⟩ := hholds.exists_entry hw
  refine ⟨place, ?_, mem_loops_iff.2 ⟨_, (hholds.posts k name place w hentry hw).1, hrank⟩⟩
  rw [Entry, places, htable, Option.getD_some, List.getElem?_map, hentry, Option.map_some]

/-- The place of a loop that runs in a crew. -/
def placed (r : Registers) (loop : Nat × String × Nat) : Nat × Nat :=
  (loop.1, (r.places loop.2.1).getD loop.2.2 0)

theorem Entry.placed (h : r.Entry operation k place) :
    r.placed (rank, operation, k) = (rank, place) := by
  rw [Registers.placed, List.getD_eq_getElem?_getD, h, Option.getD_some]

/-- The loops wake in the same order. -/
theorem Matches.byRank_loops (h : r.Matches c) :
    Collector.byRank r.loops = (Collector.byRank c.loops).map r.placed := by
  have hmem : ∀ {loop}, loop ∈ Collector.byRank c.loops ↔ loop ∈ c.loops :=
    (List.mergeSort_perm c.loops _).mem_iff
  refine Collector.byRank_eq r.nodup_loops ?_ ?_
  · rw [List.pairwise_map]
    have hnodup : (Collector.byRank c.loops).Nodup :=
      (List.mergeSort_perm c.loops _).nodup_iff.2 h.distinct.nodup_loops
    refine ((Collector.pairwise_byRank c.loops).and hnodup).imp_of_mem ?_
    rintro ⟨rank, operation, k⟩ ⟨rank', operation', k'⟩ ha hb ⟨hle, hne⟩
    obtain ⟨place, hentry, hloop⟩ := h.exists_place (hmem.1 ha)
    obtain ⟨place', hentry', hloop'⟩ := h.exists_place (hmem.1 hb)
    refine Nat.lt_of_le_of_ne hle ?_
    -- two loops of one rank are one loop
    intro heq
    change rank = rank' at heq
    subst heq
    obtain rfl := h.ranks rank place place' hloop hloop'
    obtain ⟨rfl, rfl⟩ := h.entry_unique hentry hentry'
    exact hne rfl
  · rintro ⟨rank, place⟩
    rw [List.mem_map]
    constructor
    · intro hloop
      obtain ⟨operation, k, hentry, hloop'⟩ := h.exists_loop hloop
      exact ⟨_, hmem.2 hloop', hentry.placed⟩
    · rintro ⟨⟨rank', operation, k⟩, hloop, heq⟩
      obtain ⟨place', hentry, hloop'⟩ := h.exists_place (hmem.1 hloop)
      rw [← heq, hentry.placed]
      exact hloop'

theorem Matches.wake (h : r.Matches c) (hentry : r.Entry operation k place) (world : World) :
    let woken := r.actAt place fun w desk => w.wake world.source world.clock desk
    woken.effects = (c.wake world operation k).2 ∧
      woken.state.Matches (c.wake world operation k).1 ∧
      woken.state.watchersOf = r.watchersOf := by
  obtain ⟨crew, w, address, table, name, hcrew, hw, htable, hk, -⟩ := h.entry hentry
  have hacts := h.actAt hcrew htable hk hw
    (f := fun w desk => w.wake world.source world.clock desk) (w.wake_duty _ _ _)
    fun rank hrank => Or.inl (w.wake_loop _ _ _ hrank)
  have hwake : c.wake world operation k =
      let woken := w.wake world.source world.clock ⟨crew.allocator, c.store⟩
      (c.update operation ⟨woken.state.2.allocator, crew.watchers.set k woken.state.1⟩
        woken.state.2.store, woken.effects) := by
    simp only [Collector.wake, Crew.act, hcrew, hw, Option.bind_eq_bind, Option.bind_some,
      Option.map_some]
  rw [hwake]
  exact ⟨hacts.effects, hacts.isMatch, hacts.watchersOf⟩

theorem Matches.wakes (h : r.Matches c) (world : World) {placed : Nat × String × Nat → Nat × Nat}
    (loops : List (Nat × String × Nat))
    (hentries : ∀ loop ∈ loops, r.Entry loop.2.1 loop.2.2 (placed loop).2)
    (effects : List Effect) :
    let woken := (loops.map placed).foldl
      (fun (r, effects) (_, place) =>
        let woken := r.actAt place fun w desk => w.wake world.source world.clock desk
        (woken.state, effects ++ woken.effects)) (r, effects)
    let woken' := loops.foldl
      (fun (c, effects) (_, operation, k) =>
        let woken := c.wake world operation k
        (woken.1, effects ++ woken.2)) (c, effects)
    woken.2 = woken'.2 ∧ woken.1.Matches woken'.1 := by
  induction loops generalizing r c effects with
  | nil => exact ⟨rfl, h⟩
  | cons loop rest ih =>
    obtain ⟨heffects, hmatch, htables⟩ := h.wake (hentries loop List.mem_cons_self) world
    have hrest : ∀ other ∈ rest, (r.actAt (placed loop).2 fun w desk =>
        w.wake world.source world.clock desk).state.Entry other.2.1 other.2.2
          (placed other).2 := by
      intro other hother
      rw [Entry, places, htables]
      exact hentries other (List.mem_cons_of_mem _ hother)
    simp only [List.map_cons, List.foldl_cons, heffects]
    exact ih hmatch hrest _

theorem Matches.tick (h : r.Matches c) (world : World) :
    (r.tick world).2 = (c.tick world).2 ∧ (r.tick world).1.Matches (c.tick world).1 := by
  rw [Registers.tick, h.byRank_loops]
  refine h.wakes world (Collector.byRank c.loops) ?_ []
  rintro ⟨rank, operation, k⟩ hloop
  obtain ⟨place, hentry, -⟩ := h.exists_place ((List.mergeSort_perm c.loops _).mem_iff.1 hloop)
  rw [hentry.placed]
  exact hentry

end Registers

end Lifecycle
