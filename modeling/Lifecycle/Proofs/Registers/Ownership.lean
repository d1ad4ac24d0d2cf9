import Lifecycle.Proofs.Collector.Ownership
import Lifecycle.Proofs.Registers.Refinement

/-! # What the registers hold of a tracked operation

Two registers, the allocators, the watchers and their loops are separate things, and yet they belong
together: an operation has an allocator just if it has a table of watchers, these watchers were made
for this operation and with this allocator, and whatever runs or is stored belongs to an operation
in the registers. Untracking strikes an operation from the registers, stops its loops and drops its
sequence, and nothing of the others changes.

All of this is read off the table of crews that the registers match. -/

namespace Lifecycle

namespace Registers

/-- An operation of the collector, with what it finds outside. -/
inductive Action
  | track (world : World) (operation : String) (start : Bool)
  | refresh (world : World) (operation : String) (start : Bool)
  | collect (world : World) (operation : String)
  | page (operation : String) (start stop : Int) (maxWait : Option Binary64)
      (correlation : Option String)
  | untrack (operation : String)
  | sweep (retention : Rat) (clock : Clock)
  | stop
  | tick (world : World)

/-- The registers after one operation. Pages are read from the store and leave them as they are. -/
def act (r : Registers) : Action → Registers
  | .track world operation start => (r.track world operation start).state
  | .refresh world operation start => (r.refresh world operation start).state
  | .collect world operation => (r.catchUp world operation).state
  | .page _ _ _ _ _ => r
  | .untrack operation => (r.untrack operation).1
  | .sweep retention clock => (r.sweep retention clock).1.2
  | .stop => r.stop.1
  | .tick world => (r.tick world).1

/-- The registers after some operations, from an empty store on. -/
def run (halting : Bool) (actions : List Action) : Registers := actions.foldl act { halting }

/-- The operation begins to track `operation`. -/
def Action.tracks (operation : String) : Action → Bool
  | .track _ other _ => other == operation
  | _ => false

/-- The same operation over the table of crews. Its loops have ranks from `rank` on. -/
def Action.ranked (rank : Nat) : Action → Collector.Action
  | .track world operation start => .track world rank operation start
  | .refresh world operation start => .refresh world rank operation start
  | .collect world operation => .collect world operation
  | .page operation first last maxWait correlation => .page operation first last maxWait correlation
  | .untrack operation => .untrack operation
  | .sweep retention clock => .sweep retention clock
  | .stop => .stop
  | .tick world => .tick world

/-- The same operations over the table of crews. -/
def ranked : Registers → List Action → List Collector.Action
  | _, [] => []
  | r, action :: rest => action.ranked (Collector.nextRank r.loops) :: ranked (r.act action) rest

/-- Operations are dropped one at a time, or by a sweep. -/
inductive Drops (r : Registers) : List String → Registers → Prop
  | untrack (operation : String) : Drops r [operation] (r.untrack operation).1
  | sweep (retention : Rat) (clock : Clock) :
    Drops r (r.sweep retention clock).1.1 (r.sweep retention clock).1.2

/-- The registers, the watchers, the loops and the sequences belong together. -/
structure Owned (r : Registers) : Prop where
  /-- The operations with an allocator are those with a table of watchers. -/
  operations : r.allocatorOf.map Prod.fst = r.watchersOf.map Prod.fst
  distinct : r.watchersOf.Distinct
  /-- A watcher in the table of an operation works for it, with its allocator. -/
  watchers : ∀ operation table name place, Keyed.get? r.watchersOf operation = some table →
    (name, place) ∈ table → ∃ w address, r.posts[place]? = some ⟨w, address⟩ ∧
      w.deployment = operation ∧ w.worker.name = name ∧
      Keyed.get? r.allocatorOf operation = some address
  names : ∀ operation table, Keyed.get? r.watchersOf operation = some table → table.Distinct
  /-- The stored indices of an operation are those that its allocator has given out. -/
  allocators : ∀ operation address, Keyed.get? r.allocatorOf operation = some address →
    ∃ allocator, r.allocators[address]? = some allocator ∧
      Desk.InStep ⟨allocator, r.store⟩ operation
  apart : ∀ operation other address, Keyed.get? r.allocatorOf operation = some address →
    Keyed.get? r.allocatorOf other = some address → operation = other
  sequences : ∀ operation ∈ r.store.ids, (Keyed.get? r.watchersOf operation).isSome = true
  /-- A running loop is that of a watcher in the table of his operation. -/
  loops : ∀ rank place, (rank, place) ∈ r.loops → ∃ post table, r.posts[place]? = some post ∧
    Keyed.get? r.watchersOf post.watcher.deployment = some table ∧
    (post.watcher.worker.name, place) ∈ table

/-- Some operations are dropped, and all others are as they were. -/
structure Forgets (dropped : List String) (r next : Registers) : Prop where
  allocatorOf : ∀ operation, Keyed.get? next.allocatorOf operation =
    if operation ∈ dropped then none else Keyed.get? r.allocatorOf operation
  watchersOf : ∀ operation, Keyed.get? next.watchersOf operation =
    if operation ∈ dropped then none else Keyed.get? r.watchersOf operation
  allocators : ∀ operation ∉ dropped, ∀ address,
    Keyed.get? r.allocatorOf operation = some address →
      next.allocators[address]? = r.allocators[address]?
  posts : ∀ operation ∉ dropped, ∀ place ∈ r.places operation,
    next.posts[place]? = r.posts[place]?
  sequences : ∀ operation, next.store.find? operation =
    if operation ∈ dropped then none else r.store.find? operation
  /-- The loops that still run are those of the other operations. -/
  loops : ∀ rank place, (rank, place) ∈ next.loops ↔ (rank, place) ∈ r.loops ∧
    ∀ post, r.posts[place]? = some post → post.watcher.deployment ∉ dropped

/-- Nothing is left of an operation. -/
structure Without (operation : String) (r : Registers) : Prop where
  allocatorOf : Keyed.get? r.allocatorOf operation = none
  watchersOf : Keyed.get? r.watchersOf operation = none
  sequences : r.store.find? operation = none
  loops : ∀ rank place, (rank, place) ∈ r.loops →
    ∀ post, r.posts[place]? = some post → post.watcher.deployment ≠ operation

variable {r next : Registers} {c : Collector} {operation : String} {dropped : List String}

/-! ### Runs -/

theorem Matches.act (h : r.Matches c) (action : Action) :
    (r.act action).Matches (c.act (action.ranked (Collector.nextRank r.loops))) := by
  cases action with
  | track world operation start => exact (h.track world operation start).state
  | refresh world operation start => exact (h.refresh world operation start).state
  | collect world operation => exact (h.catchUp world operation).state
  | page _ _ _ _ _ => exact h
  | untrack operation => exact (h.untrack operation).2
  | sweep retention clock => exact (h.sweep retention clock).2.2
  | stop => exact h.stop.2
  | tick world => exact (h.tick world).2

/-- The same operations leave registers that match the table of crews. -/
theorem Matches.foldl_act (h : r.Matches c) (actions : List Action) :
    (actions.foldl Registers.act r).Matches ((r.ranked actions).foldl Collector.act c) := by
  induction actions generalizing r c with
  | nil => exact h
  | cons action rest ih => exact ih (h.act action)

theorem run_matches (halting : Bool) (actions : List Action) :
    (run halting actions).Matches (Collector.run halting (ranked { halting } actions)) :=
  (matches_start halting).foldl_act actions

theorem tracks_ranked {actions : List Action}
    (h : ∀ action ∈ actions, action.tracks operation = false) :
    ∀ action ∈ r.ranked actions, action.tracks operation = false := by
  induction actions generalizing r with
  | nil => exact fun action haction => absurd haction List.not_mem_nil
  | cons first rest ih =>
    intro action haction
    rcases List.mem_cons.1 haction with rfl | haction
    · have hfirst := h first List.mem_cons_self
      cases first <;> exact hfirst
    · exact ih (fun other hother => h other (List.mem_cons_of_mem _ hother)) action haction

/-! ### What matching registers inherit -/

theorem Matches.isSome_watchersOf (h : r.Matches c) (operation : String) :
    (Keyed.get? r.watchersOf operation).isSome = (c.crew? operation).isSome := by
  cases hcrew : c.crew? operation with
  | none =>
    rw [h.get?_watchersOf_of_none hcrew]
    rfl
  | some crew =>
    obtain ⟨_, table, -, htable, -⟩ := h.crews operation crew hcrew
    rw [htable]
    rfl

theorem Matches.owned (h : r.Matches c) (hc : c.Owned) : r.Owned where
  operations := h.allocatorKeys.trans h.watcherKeys.symm
  distinct := by
    rw [Keyed.Distinct, h.watcherKeys]
    exact h.distinct
  watchers := by
    intro operation table name place htable hmem
    obtain ⟨crew, address, -, haddress, hholds⟩ := h.crew_of_table htable
    obtain ⟨k, hentry⟩ := List.mem_iff_getElem?.1 hmem
    obtain ⟨w, hw⟩ := hholds.exists_watcher hentry
    obtain ⟨hpost, hname, hdeployment⟩ := hholds.posts k name place w hentry hw
    exact ⟨w, address, hpost, hdeployment, hname, haddress⟩
  names := by
    intro operation table htable
    obtain ⟨_, _, -, -, hholds⟩ := h.crew_of_table htable
    exact hholds.names
  allocators := by
    intro operation address haddress
    obtain ⟨crew, hcrew, hallocator⟩ := h.crew_of_allocator haddress
    refine ⟨crew.allocator, hallocator, ?_⟩
    rw [h.store]
    exact hc.desks operation crew hcrew
  apart := h.apart
  sequences := by
    intro operation hid
    rw [h.isSome_watchersOf]
    exact hc.sequences operation (h.store ▸ hid)
  loops := by
    intro rank place hloop
    obtain ⟨post, table, hpost, -, htable, hmem⟩ := h.post_of_loop hloop
    exact ⟨post, table, hpost, htable, hmem⟩

theorem Matches.without (h : r.Matches c) (hcrew : c.crew? operation = none)
    (hstore : c.store.find? operation = none) : r.Without operation where
  allocatorOf := h.get?_allocatorOf_of_none hcrew
  watchersOf := h.get?_watchersOf_of_none hcrew
  sequences := by rw [h.store, hstore]
  loops := by
    rintro rank place hloop post hpost rfl
    obtain ⟨post', table, hpost', -, htable, -⟩ := h.post_of_loop hloop
    obtain rfl := Option.some.inj (hpost.symm.trans hpost')
    exact absurd htable (by simp [h.get?_watchersOf_of_none hcrew])

/-! ### Dropping operations -/

theorem actAt_registers {α : Type} [Inhabited α] (r : Registers) (place : Nat)
    (f : Watcher → Desk → Outcome (Watcher × Desk) α) :
    (r.actAt place f).state.allocatorOf = r.allocatorOf ∧
      (r.actAt place f).state.watchersOf = r.watchersOf := by
  simp only [actAt]
  cases hpost : r.posts[place]? with
  | none => exact ⟨rfl, rfl⟩
  | some post =>
    cases hallocator : r.allocators[post.allocator]? with
    | none => simp [hallocator]
    | some allocator => simp [hallocator, Registers.putBack]

theorem stopAll_registers (r : Registers) (places : List Nat) :
    (stopAll places r).1.allocatorOf = r.allocatorOf ∧
      (stopAll places r).1.watchersOf = r.watchersOf := by
  induction places generalizing r with
  | nil => exact ⟨rfl, rfl⟩
  | cons place rest ih =>
    obtain ⟨hallocators, hwatchers⟩ := r.actAt_registers place
      fun w desk => (⟨(w.stop.1, desk), .ok (), w.stop.2⟩ : Outcome _ Unit)
    exact ⟨(ih _).1.trans hallocators, (ih _).2.trans hwatchers⟩

theorem untrack_registers (r : Registers) (operation : String) :
    (r.untrack operation).1.allocatorOf = Keyed.erase r.allocatorOf operation ∧
      (r.untrack operation).1.watchersOf = Keyed.erase r.watchersOf operation :=
  (r.strike operation).stopAll_registers (r.places operation)

theorem untrackAll_registers (r : Registers) (dropped : List String) (operation : String) :
    Keyed.get? (r.untrackAll dropped).1.allocatorOf operation =
        (if operation ∈ dropped then none else Keyed.get? r.allocatorOf operation) ∧
      Keyed.get? (r.untrackAll dropped).1.watchersOf operation =
        if operation ∈ dropped then none else Keyed.get? r.watchersOf operation := by
  induction dropped generalizing r with
  | nil => exact ⟨(if_neg List.not_mem_nil).symm, (if_neg List.not_mem_nil).symm⟩
  | cons first rest ih =>
    obtain ⟨hallocators, hwatchers⟩ := ih (r.untrack first).1
    obtain ⟨hallocators', hwatchers'⟩ := r.untrack_registers first
    simp only [Registers.untrackAll, hallocators, hwatchers, hallocators', hwatchers',
      Keyed.get?_erase, List.mem_cons, beq_iff_eq]
    by_cases hrest : operation ∈ rest
    · simp [hrest]
    · by_cases hfirst : operation = first
      · simp [hfirst]
      · simp [hrest, hfirst, Ne.symm hfirst]

/-- An operation that both collectors track with one crew, and both registers at the same places,
has the same allocator and the same watchers in both. -/
theorem Matches.same_objects {d : Collector} (h : r.Matches c) (hnext : next.Matches d)
    (hcrew : d.crew? operation = c.crew? operation)
    (hallocatorOf : Keyed.get? next.allocatorOf operation = Keyed.get? r.allocatorOf operation)
    (hwatchersOf : Keyed.get? next.watchersOf operation = Keyed.get? r.watchersOf operation) :
    (∀ address, Keyed.get? r.allocatorOf operation = some address →
      next.allocators[address]? = r.allocators[address]?) ∧
    ∀ place ∈ r.places operation, next.posts[place]? = r.posts[place]? := by
  cases hc : c.crew? operation with
  | none =>
    rw [places, h.get?_watchersOf_of_none hc, h.get?_allocatorOf_of_none hc]
    exact ⟨fun _ haddress => absurd haddress (by simp), fun _ hplace => absurd hplace (by simp)⟩
  | some crew =>
    obtain ⟨address, table, haddress, htable, hholds⟩ := h.crews operation crew hc
    obtain ⟨address', table', haddress', htable', hholds'⟩ :=
      hnext.crews operation crew (hcrew.trans hc)
    obtain rfl := Option.some.inj (haddress.symm.trans (hallocatorOf.symm.trans haddress'))
    obtain rfl := Option.some.inj (htable.symm.trans (hwatchersOf.symm.trans htable'))
    constructor
    · intro other hother
      rw [← Option.some.inj (haddress.symm.trans hother), hholds.allocator, hholds'.allocator]
    · intro place hplace
      rw [places, htable, Option.getD_some] at hplace
      obtain ⟨⟨name, place⟩, hmem, rfl⟩ := List.mem_map.1 hplace
      obtain ⟨k, hentry⟩ := List.mem_iff_getElem?.1 hmem
      obtain ⟨w, hw⟩ := hholds.exists_watcher hentry
      rw [(hholds.posts k name place w hentry hw).1, (hholds'.posts k name place w hentry hw).1]

theorem Matches.deployment (h : r.Matches c) {k place : Nat} (hentry : r.Entry operation k place)
    {post : Post} (hpost : r.posts[place]? = some post) : post.watcher.deployment = operation := by
  obtain ⟨_, w, _, _, name, -, hw, -, hk, hholds⟩ := h.entry hentry
  obtain ⟨hpost', -, hdeployment⟩ := hholds.posts k name place w hk hw
  rw [Option.some.inj (hpost.symm.trans hpost'), hdeployment]

/-- What the table of crews forgets, the registers forget. -/
theorem Matches.forgets {d : Collector} (h : r.Matches c) (hnext : next.Matches d)
    (hforgets : Collector.Forgets dropped c d)
    (hallocatorOf : ∀ operation, Keyed.get? next.allocatorOf operation =
      if operation ∈ dropped then none else Keyed.get? r.allocatorOf operation)
    (hwatchersOf : ∀ operation, Keyed.get? next.watchersOf operation =
      if operation ∈ dropped then none else Keyed.get? r.watchersOf operation) :
    Forgets dropped r next := by
  have hsame : ∀ {operation}, operation ∉ dropped →
      next.places operation = r.places operation := by
    intro operation hkept
    rw [places, hwatchersOf, if_neg hkept, places]
  have hobjects := fun operation (hkept : operation ∉ dropped) =>
    h.same_objects hnext ((hforgets.crews operation).trans (if_neg hkept))
      ((hallocatorOf operation).trans (if_neg hkept)) ((hwatchersOf operation).trans (if_neg hkept))
  have hloops : ∀ {rank operation k}, (rank, operation, k) ∈ d.loops ↔
      (rank, operation, k) ∈ c.loops ∧ operation ∉ dropped := by
    intro rank operation k
    rw [hforgets.loops, List.mem_filter, decide_eq_true_iff]
  refine ⟨hallocatorOf, hwatchersOf, fun operation hkept => (hobjects operation hkept).1,
    fun operation hkept => (hobjects operation hkept).2, ?_, ?_⟩
  · intro operation
    rw [hnext.store, h.store, hforgets.sequences]
  · intro rank place
    constructor
    · intro hloop
      obtain ⟨operation, k, hentry, hloop⟩ := hnext.exists_loop hloop
      obtain ⟨hloop, hkept⟩ := hloops.1 hloop
      obtain ⟨place', hentry', hloop'⟩ := h.exists_place hloop
      have hplace : place = place' := by
        rw [Entry, hsame hkept] at hentry
        exact Option.some.inj (hentry.symm.trans hentry')
      rw [hplace]
      refine ⟨hloop', fun post hpost => ?_⟩
      rw [h.deployment hentry' hpost]
      exact hkept
    · rintro ⟨hloop, hkept⟩
      obtain ⟨operation, k, hentry, hloop'⟩ := h.exists_loop hloop
      obtain ⟨post, hpost, -⟩ := mem_loops_iff.1 hloop
      have hoperation := hkept post hpost
      rw [h.deployment hentry hpost] at hoperation
      obtain ⟨place', hentry', hrunning⟩ := hnext.exists_place (hloops.2 ⟨hloop', hoperation⟩)
      rw [Entry, hsame hoperation] at hentry'
      rw [Option.some.inj (hentry.symm.trans hentry')]
      exact hrunning

/-- Dropping operations from the registers drops them from the table of crews. -/
theorem Drops.forgets (hdrops : r.Drops dropped next) (h : r.Matches c) (hs : c.store.Sound) :
    ∃ drop : Collector.Action, dropped = c.dropped drop ∧ next.Matches (c.act drop) ∧
      Forgets dropped r next := by
  cases hdrops with
  | untrack operation =>
    have hnext := (h.untrack operation).2
    have hforgets : Collector.Forgets [operation] c (c.untrack operation).1 :=
      Collector.forgets_untrackAll hs [operation]
    refine ⟨.untrack operation, rfl, hnext, h.forgets hnext hforgets ?_ ?_⟩
    · exact fun other => (r.untrackAll_registers [operation] other).1
    · exact fun other => (r.untrackAll_registers [operation] other).2
  | sweep retention clock =>
    obtain ⟨hdropped, -, hnext⟩ := h.sweep retention clock
    have hforgets : Collector.Forgets (r.sweep retention clock).1.1 c
        (c.sweep retention clock).1.2 := by
      rw [hdropped]
      have hsettles : (Collector.Action.sweep retention clock).settles = true := rfl
      exact Collector.forgets_act hs hsettles
    refine ⟨.sweep retention clock, hdropped, hnext, h.forgets hnext hforgets ?_ ?_⟩
    · exact fun other => (untrackAll_registers _ _ other).1
    · exact fun other => (untrackAll_registers _ _ other).2

/-- In every state of a collector whose store nobody else writes, registers, watchers, loops and
sequences belong together. Untracking and sweeping make it forget just the operations they name,
which stay forgotten until they are tracked again. Then their events are stored as by a new
collector, from index 0 on. -/
theorem untracked_operations_begin_anew (halting : Bool) (actions : List Action) :
    let r := run halting actions
    r.Owned ∧ ∀ dropped next, r.Drops dropped next →
      Forgets dropped r next ∧
      ∀ operation ∈ dropped, ∀ later : List Action,
        (∀ action ∈ later, action.tracks operation = false) →
        let gone := later.foldl act next
        gone.Without operation ∧
        ∀ world current clock clock' start,
          let again := gone.track world operation start
          let anew := Registers.track { halting } { world with clock } operation start
          let collected := again.state.catchUp current operation
          let collected' := anew.state.catchUp { current with clock := clock' } operation
          again.value = anew.value ∧ collected.value = collected'.value ∧
            collected.state.store.undated operation = collected'.state.store.undated operation ∧
            (collected.state.store.contents operation).map Prod.fst =
              (List.range (collected.state.store.size operation)).map Int.ofNat := by
  intro r
  have h := run_matches halting actions
  obtain ⟨howned, -, hanew⟩ :=
    Collector.dropped_operations_begin_anew halting (ranked { halting } actions)
  refine ⟨h.owned howned, ?_⟩
  intro dropped next hdrops
  obtain ⟨drop, hdropped, hnext, hforgets⟩ :=
    hdrops.forgets h (Collector.run_inStep halting (ranked { halting } actions)).sound
  refine ⟨hforgets, ?_⟩
  intro operation hmem later hlater gone
  obtain ⟨⟨hcrew, hstore, -⟩, hsame⟩ :=
    hanew drop operation (hdropped ▸ hmem) (next.ranked later) (tracks_ranked hlater)
  have hgone := hnext.foldl_act later
  refine ⟨hgone.without hcrew hstore, ?_⟩
  intro world current clock clock' start again anew collected collected'
  obtain ⟨hkind, hvalue, hundated, hindices⟩ := hsame world current clock clock'
    (Collector.nextRank gone.loops) (Collector.nextRank (Registers.loops { halting })) start
  have hagain := hgone.track world operation start
  have hanew := (matches_start halting).track { world with clock } operation start
  have hcollected := hagain.state.catchUp current operation
  have hcollected' := hanew.state.catchUp { current with clock := clock' } operation
  refine ⟨hagain.value.trans (hkind.trans hanew.value.symm),
    hcollected.value.trans (hvalue.trans hcollected'.value.symm), ?_, ?_⟩
  · rw [hcollected.state.store, hcollected'.state.store]
    exact hundated
  · rw [hcollected.state.store]
    exact hindices

open Collector (oneWorker)

def twoLines : World := oneWorker ["1 - USMEventLogger.up", "2 - USMEventLogger.down"]

/-- An operation that had an event and a running loop. -/
def blueRun : List Action :=
  [.track (oneWorker []) "blue" true, .tick (oneWorker ["1 - USMEventLogger.early"])]

theorem untracked_operation_begins_at_zero :
    (run false blueRun).Drops ["blue"] ((run false blueRun).untrack "blue").1 ∧
      "blue" ∈ ["blue"] ∧ Action.tracks "blue" (.tick twoLines) = false ∧
      let gone := ((run false blueRun).untrack "blue").1.act (.tick twoLines)
      gone.loops = [] ∧
        ((gone.track twoLines "blue" true).state.catchUp twoLines "blue").state.store.undated
            "blue" =
          [(0, ⟨0, "[node-1/10.0.0.1] - up", .zero false⟩),
            (1, ⟨1, "[node-1/10.0.0.1] - down", .zero false⟩)] := by
  have hdrops : (run false blueRun).Drops ["blue"] ((run false blueRun).untrack "blue").1 :=
    .untrack "blue"
  have hmem : "blue" ∈ ["blue"] := List.mem_singleton_self _
  have hlater : ∀ action ∈ [Action.tick twoLines], action.tracks "blue" = false := by
    intro action haction
    rw [List.mem_singleton.1 haction]
    rfl
  obtain ⟨-, hall⟩ := untracked_operations_begin_anew false blueRun
  obtain ⟨-, hanew⟩ := hall ["blue"] _ hdrops
  obtain ⟨-, hsame⟩ := hanew "blue" hmem [.tick twoLines] hlater
  obtain ⟨-, -, hevents, -⟩ := hsame twoLines twoLines ⟨0, 0, none⟩ ⟨0, 0, none⟩ true
  exact ⟨hdrops, hmem, rfl, by decide +kernel, hevents.trans rfl⟩

end Registers

end Lifecycle
