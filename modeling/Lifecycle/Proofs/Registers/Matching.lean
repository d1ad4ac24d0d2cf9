import Lifecycle.Proofs.Collector.Staff
import Lifecycle.Proofs.Crew.Places
import Lifecycle.Registers

/-! # Registers that match a table of crews

The registers match a collector if each tracked operation has a place in both of them: its allocator
is the one of its crew, and the watchers in its table are those of its crew, each made with this
allocator. No two operations share an allocator, and every running loop belongs to a watcher that
stands in the table of its operation.

A watcher that acts changes its post, its allocator and the store. That is what the crew does when
the same watcher acts in it, and no other operation notices. -/

namespace Lifecycle

namespace Registers

variable {r : Registers} {c : Collector} {operation : String} {crew : Crew} {w : Watcher}
  {table : Keyed String Nat} {name : String} {address place k : Nat}

theorem mem_loops_iff {rank : Nat} :
    (rank, place) ∈ r.loops ↔
      ∃ post, r.posts[place]? = some post ∧ post.watcher.loop = some rank :=
  mem_ranked_iff r.posts fun post => post.watcher.loop

theorem nodup_loops (r : Registers) : r.loops.Nodup :=
  nodup_ranked r.posts fun post => post.watcher.loop

/-- A table names the watchers of a crew, who were made with the allocator at an address. -/
structure Holds (r : Registers) (operation : String) (address : Nat) (table : Keyed String Nat)
    (crew : Crew) : Prop where
  allocator : r.allocators[address]? = some crew.allocator
  length : table.length = crew.watchers.length
  posts : ∀ (k : Nat) (name : String) (place : Nat) (w : Watcher),
    table[k]? = some (name, place) → crew.watchers[k]? = some w →
      r.posts[place]? = some ⟨w, address⟩ ∧ w.worker.name = name ∧ w.deployment = operation
  names : table.Distinct

theorem Holds.exists_watcher (h : r.Holds operation address table crew)
    (hentry : table[k]? = some (name, place)) : ∃ w, crew.watchers[k]? = some w := by
  obtain ⟨hlt, -⟩ := List.getElem?_eq_some_iff.1 hentry
  rw [h.length] at hlt
  exact ⟨_, List.getElem?_eq_getElem hlt⟩

theorem Holds.exists_entry (h : r.Holds operation address table crew)
    (hw : crew.watchers[k]? = some w) : ∃ name place, table[k]? = some (name, place) := by
  obtain ⟨hlt, -⟩ := List.getElem?_eq_some_iff.1 hw
  rw [← h.length] at hlt
  exact ⟨_, _, List.getElem?_eq_getElem hlt⟩

/-- A watcher stands in a table once, under the name of his worker. -/
theorem Holds.entry_unique (h : r.Holds operation address table crew) {name' : String} {j : Nat}
    (hk : table[k]? = some (name, place)) (hj : table[j]? = some (name', place)) : k = j := by
  obtain ⟨w, hw⟩ := h.exists_watcher hk
  obtain ⟨w', hw'⟩ := h.exists_watcher hj
  obtain ⟨hpost, hname, -⟩ := h.posts k name place w hk hw
  obtain ⟨hpost', hname', -⟩ := h.posts j name' place w' hj hw'
  obtain ⟨rfl, -⟩ := Post.mk.inj (Option.some.inj (hpost.symm.trans hpost'))
  have hkeys : (table.map Prod.fst)[k]? = (table.map Prod.fst)[j]? := by
    rw [List.getElem?_map, List.getElem?_map, hk, hj, Option.map_some, Option.map_some, ← hname,
      ← hname']
  obtain ⟨hlt, -⟩ := List.getElem?_eq_some_iff.1 hk
  exact (List.getElem?_inj (by rwa [List.length_map]) h.names).1 hkeys

/-- A crew stays as long as its allocator and its posts do. -/
theorem Holds.frame (h : r.Holds operation address table crew) {next : Registers}
    (allocator : next.allocators[address]? = r.allocators[address]?)
    (posts : ∀ (place : Nat) (post : Post), r.posts[place]? = some post →
      post.watcher.deployment = operation →
      next.posts[place]? = some post) : next.Holds operation address table crew where
  allocator := allocator.trans h.allocator
  length := h.length
  posts := by
    intro k name place w hentry hw
    obtain ⟨hpost, hname, hdeployment⟩ := h.posts k name place w hentry hw
    exact ⟨posts place _ hpost hdeployment, hname, hdeployment⟩
  names := h.names

/-- One watcher of a crew has acted. -/
theorem Holds.putBack (h : r.Holds operation address table crew)
    (hentry : table[k]? = some (name, place)) (hw : crew.watchers[k]? = some w) {after : Watcher}
    (hduty : after.duty = w.duty) (desk : Desk) :
    (r.putBack place ⟨after, address⟩ desk).Holds operation address table
      ⟨desk.allocator, crew.watchers.set k after⟩ where
  allocator := by
    obtain ⟨hlt, -⟩ := List.getElem?_eq_some_iff.1 h.allocator
    exact List.getElem?_set_self hlt
  length := by rw [List.length_set, h.length]
  posts := by
    obtain ⟨hpost, hname, hdeployment⟩ := h.posts k name place w hentry hw
    obtain ⟨hlt, -⟩ := List.getElem?_eq_some_iff.1 hpost
    intro j name' place' w' hentry' hw'
    by_cases hj : k = j
    · subst hj
      obtain ⟨rfl, rfl⟩ := Prod.mk.inj (Option.some.inj (hentry.symm.trans hentry'))
      obtain ⟨hkt, -⟩ := List.getElem?_eq_some_iff.1 hw
      rw [List.getElem?_set_self hkt] at hw'
      obtain rfl := Option.some.inj hw'
      refine ⟨List.getElem?_set_self hlt, ?_, ?_⟩
      · exact (congrArg (fun duty => duty.worker.name) hduty).trans hname
      · exact (congrArg Duty.deployment hduty).trans hdeployment
    · rw [List.getElem?_set_ne hj] at hw'
      obtain ⟨hpost', hname', hdeployment'⟩ := h.posts j name' place' w' hentry' hw'
      have hplace : place ≠ place' := by
        rintro rfl
        exact hj (h.entry_unique hentry hentry')
      exact ⟨(List.getElem?_set_ne hplace).trans hpost', hname', hdeployment'⟩
  names := h.names

/-- The collector is what the registers say. -/
structure Matches (r : Registers) (c : Collector) : Prop where
  store : r.store = c.store
  halting : r.halting = c.halting
  distinct : c.tracked.Distinct
  allocatorKeys : r.allocatorOf.map Prod.fst = c.tracked.map Prod.fst
  watcherKeys : r.watchersOf.map Prod.fst = c.tracked.map Prod.fst
  crews : ∀ operation crew, c.crew? operation = some crew →
    ∃ address table, Keyed.get? r.allocatorOf operation = some address ∧
      Keyed.get? r.watchersOf operation = some table ∧ r.Holds operation address table crew
  apart : ∀ operation other address, Keyed.get? r.allocatorOf operation = some address →
    Keyed.get? r.allocatorOf other = some address → operation = other
  /-- A running loop belongs to a watcher in the table of its operation. -/
  listed : ∀ (place : Nat) (post : Post), r.posts[place]? = some post →
    post.watcher.isRunning = true →
    ∃ table, Keyed.get? r.watchersOf post.watcher.deployment = some table ∧
      (post.watcher.worker.name, place) ∈ table
  ranks : ∀ rank place other, (rank, place) ∈ r.loops → (rank, other) ∈ r.loops → place = other

theorem Matches.get?_watchersOf_of_none (h : r.Matches c) (hcrew : c.crew? operation = none) :
    Keyed.get? r.watchersOf operation = none := by
  rw [Keyed.get?_eq_none_iff, h.watcherKeys, ← Keyed.get?_eq_none_iff]
  exact hcrew

theorem Matches.get?_allocatorOf_of_none (h : r.Matches c) (hcrew : c.crew? operation = none) :
    Keyed.get? r.allocatorOf operation = none := by
  rw [Keyed.get?_eq_none_iff, h.allocatorKeys, ← Keyed.get?_eq_none_iff]
  exact hcrew

/-- The table of an operation names the watchers of its crew. -/
theorem Matches.holds (h : r.Matches c) (hcrew : c.crew? operation = some crew)
    (htable : Keyed.get? r.watchersOf operation = some table) :
    ∃ address, Keyed.get? r.allocatorOf operation = some address ∧
      r.Holds operation address table crew := by
  obtain ⟨address, table', haddress, htable', hholds⟩ := h.crews operation crew hcrew
  obtain rfl := Option.some.inj (htable.symm.trans htable')
  exact ⟨address, haddress, hholds⟩

/-- An operation with a table of watchers has a crew. -/
theorem Matches.crew_of_table (h : r.Matches c)
    (htable : Keyed.get? r.watchersOf operation = some table) :
    ∃ crew address, c.crew? operation = some crew ∧
      Keyed.get? r.allocatorOf operation = some address ∧
      r.Holds operation address table crew := by
  cases hcrew : c.crew? operation with
  | none => exact absurd htable (by simp [h.get?_watchersOf_of_none hcrew])
  | some crew =>
    obtain ⟨address, haddress, hholds⟩ := h.holds hcrew htable
    exact ⟨crew, address, rfl, haddress, hholds⟩

/-- An operation with an allocator has a crew. -/
theorem Matches.crew_of_allocator (h : r.Matches c)
    (haddress : Keyed.get? r.allocatorOf operation = some address) :
    ∃ crew, c.crew? operation = some crew ∧
      r.allocators[address]? = some crew.allocator := by
  cases hcrew : c.crew? operation with
  | none => exact absurd haddress (by simp [h.get?_allocatorOf_of_none hcrew])
  | some crew =>
    obtain ⟨address', _, haddress', -, hholds⟩ := h.crews operation crew hcrew
    obtain rfl := Option.some.inj (haddress.symm.trans haddress')
    exact ⟨crew, rfl, hholds.allocator⟩

/-- An allocator in use was made before. -/
theorem Matches.address_lt (h : r.Matches c)
    (haddress : Keyed.get? r.allocatorOf operation = some address) :
    address < r.allocators.length := by
  obtain ⟨_, -, hallocator⟩ := h.crew_of_allocator haddress
  exact (List.getElem?_eq_some_iff.1 hallocator).1

/-- A running loop is that of a watcher in the table of its operation. -/
theorem Matches.post_of_loop (h : r.Matches c) {rank : Nat} (hloop : (rank, place) ∈ r.loops) :
    ∃ post table, r.posts[place]? = some post ∧ post.watcher.loop = some rank ∧
      Keyed.get? r.watchersOf post.watcher.deployment = some table ∧
      (post.watcher.worker.name, place) ∈ table := by
  obtain ⟨post, hpost, hrank⟩ := mem_loops_iff.1 hloop
  obtain ⟨table, htable, hmem⟩ :=
    h.listed place post hpost (by rw [Watcher.isRunning, hrank, Option.isSome_some])
  exact ⟨post, table, hpost, hrank, htable, hmem⟩

theorem actAt_of_post {α : Type} [Inhabited α] {allocator : Allocator}
    (hpost : r.posts[place]? = some ⟨w, address⟩)
    (hallocator : r.allocators[address]? = some allocator)
    (f : Watcher → Desk → Outcome (Watcher × Desk) α) :
    r.actAt place f =
      let outcome := f w ⟨allocator, r.store⟩
      ⟨r.putBack place ⟨outcome.state.1, address⟩ outcome.state.2, outcome.value,
        outcome.effects⟩ := by
  simp only [actAt, hpost, hallocator, Option.bind_eq_bind, Option.bind_some, Option.getD_some]

/-- One watcher of a crew has acted, in the registers and in the crew. Its loop has not changed, or
is a new one. -/
theorem Matches.putBack (h : r.Matches c) (hcrew : c.crew? operation = some crew)
    (haddress : Keyed.get? r.allocatorOf operation = some address)
    (htable : Keyed.get? r.watchersOf operation = some table)
    (hholds : r.Holds operation address table crew)
    (hentry : table[k]? = some (name, place)) (hw : crew.watchers[k]? = some w) {after : Watcher}
    (hduty : after.duty = w.duty) (desk : Desk)
    (hloop : ∀ rank, after.loop = some rank → w.loop = some rank ∨
      ∀ other, (rank, other) ∉ r.loops) :
    (r.putBack place ⟨after, address⟩ desk).Matches
      (c.update operation ⟨desk.allocator, crew.watchers.set k after⟩ desk.store) := by
  obtain ⟨hpost, hname, hdeployment⟩ := hholds.posts k name place w hentry hw
  obtain ⟨hlt, -⟩ := List.getElem?_eq_some_iff.1 hpost
  have hkeys : (Keyed.set c.tracked operation ⟨desk.allocator, crew.watchers.set k after⟩).map
      Prod.fst = c.tracked.map Prod.fst := Keyed.map_fst_set_of_get? hcrew _
  -- the posts of the others are elsewhere
  have hposts : ∀ {q post}, (r.putBack place ⟨after, address⟩ desk).posts[q]? = some post →
      q = place ∧ post = ⟨after, address⟩ ∨ q ≠ place ∧ r.posts[q]? = some post := by
    intro q post hq
    by_cases heq : place = q
    · subst heq
      exact Or.inl ⟨rfl, Option.some.inj (hq.symm.trans (List.getElem?_set_self hlt))⟩
    · exact Or.inr ⟨Ne.symm heq, (List.getElem?_set_ne heq).symm.trans hq⟩
  have hloops : ∀ {rank q}, (rank, q) ∈ (r.putBack place ⟨after, address⟩ desk).loops →
      (rank, q) ∈ r.loops ∨ q = place ∧ ∀ other, (rank, other) ∉ r.loops := by
    intro rank q hq
    obtain ⟨post, hq, hrank⟩ := mem_loops_iff.1 hq
    rcases hposts hq with ⟨rfl, rfl⟩ | ⟨-, hq⟩
    · rcases hloop rank hrank with hold | hnew
      · exact Or.inl (mem_loops_iff.2 ⟨_, hpost, hold⟩)
      · exact Or.inr ⟨rfl, hnew⟩
    · exact Or.inl (mem_loops_iff.2 ⟨post, hq, hrank⟩)
  constructor
  · rfl
  · exact h.halting
  · exact h.distinct.set _ _
  · exact h.allocatorKeys.trans hkeys.symm
  · exact h.watcherKeys.trans hkeys.symm
  · intro other crew' hcrew'
    rw [Collector.crew?_update] at hcrew'
    by_cases heq : operation = other
    · rw [if_pos heq] at hcrew'
      rw [← Option.some.inj hcrew', ← heq]
      exact ⟨address, table, haddress, htable, hholds.putBack hentry hw hduty desk⟩
    · rw [if_neg heq] at hcrew'
      obtain ⟨address', table', haddress', htable', hholds'⟩ := h.crews other crew' hcrew'
      have hapart : address ≠ address' := by
        rintro rfl
        exact heq (h.apart operation other address haddress haddress')
      refine ⟨address', table', haddress', htable', hholds'.frame ?_ ?_⟩
      · exact List.getElem?_set_ne hapart
      · intro q post hq hother
        refine (List.getElem?_set_ne ?_).trans hq
        rintro rfl
        rw [hpost] at hq
        rw [← Option.some.inj hq, hdeployment] at hother
        exact heq hother
  · exact h.apart
  · intro q post hq hrunning
    rcases hposts hq with ⟨rfl, rfl⟩ | ⟨-, hq⟩
    · have hafter : after.deployment = operation :=
        (congrArg Duty.deployment hduty).trans hdeployment
      have hworker : after.worker.name = name :=
        (congrArg (fun duty => duty.worker.name) hduty).trans hname
      refine ⟨table, ?_, ?_⟩
      · rw [hafter]
        exact htable
      · rw [hworker]
        exact List.mem_of_getElem? hentry
    · exact h.listed q post hq hrunning
  · intro rank q q' hq hq'
    rcases hloops hq with hold | ⟨hplace, hnew⟩
    · rcases hloops hq' with hold' | ⟨-, hnew⟩
      · exact h.ranks rank q q' hold hold'
      · exact absurd hold (hnew q)
    · rcases hloops hq' with hold' | ⟨hplace', -⟩
      · exact absurd hold' (hnew q')
      · exact hplace.trans hplace'.symm

/-- A watcher acts at its place as it does in its crew. The other posts and both registers are as
they were. -/
structure Acts {α : Type} (r : Registers) (c : Collector) (operation : String) (crew : Crew)
    (k : Nat) (w : Watcher) (outcome : Outcome (Watcher × Desk) α) (acted : Outcome Registers α) :
    Prop where
  value : acted.value = outcome.value
  effects : acted.effects = outcome.effects
  isMatch : acted.state.Matches (c.update operation
    ⟨outcome.state.2.allocator, crew.watchers.set k outcome.state.1⟩ outcome.state.2.store)
  watchersOf : acted.state.watchersOf = r.watchersOf
  loops : ∀ rank place, (rank, place) ∈ acted.state.loops →
    (rank, place) ∈ r.loops ∨ outcome.state.1.loop = some rank ∧ w.loop ≠ some rank

theorem Matches.actAt {α : Type} [Inhabited α] (h : r.Matches c)
    (hcrew : c.crew? operation = some crew)
    (htable : Keyed.get? r.watchersOf operation = some table)
    (hentry : table[k]? = some (name, place)) (hw : crew.watchers[k]? = some w)
    {f : Watcher → Desk → Outcome (Watcher × Desk) α}
    (hduty : (f w ⟨crew.allocator, c.store⟩).state.1.duty = w.duty)
    (hloop : ∀ rank, (f w ⟨crew.allocator, c.store⟩).state.1.loop = some rank →
      w.loop = some rank ∨ ∀ other, (rank, other) ∉ r.loops) :
    Acts r c operation crew k w (f w ⟨crew.allocator, c.store⟩) (r.actAt place f) := by
  obtain ⟨address, haddress, hholds⟩ := h.holds hcrew htable
  have hpost := (hholds.posts k name place w hentry hw).1
  rw [actAt_of_post hpost hholds.allocator, h.store]
  refine ⟨rfl, rfl, h.putBack hcrew haddress htable hholds hentry hw hduty _ hloop, rfl, ?_⟩
  intro rank other hother
  obtain ⟨post, hother, hrank⟩ := mem_loops_iff.1 hother
  by_cases heq : place = other
  · subst heq
    obtain ⟨hlt, -⟩ := List.getElem?_eq_some_iff.1 hpost
    obtain rfl := Option.some.inj ((List.getElem?_set_self hlt).symm.trans hother)
    by_cases hold : w.loop = some rank
    · exact Or.inl (mem_loops_iff.2 ⟨_, hpost, hold⟩)
    · exact Or.inr ⟨hrank, hold⟩
  · exact Or.inl (mem_loops_iff.2 ⟨post, (List.getElem?_set_ne heq).symm.trans hother, hrank⟩)

theorem Matches.length_table (h : r.Matches c) (hcrew : c.crew? operation = some crew)
    (htable : Keyed.get? r.watchersOf operation = some table) :
    table.length = crew.watchers.length := by
  obtain ⟨_, -, hholds⟩ := h.holds hcrew htable
  exact hholds.length

end Registers

end Lifecycle
