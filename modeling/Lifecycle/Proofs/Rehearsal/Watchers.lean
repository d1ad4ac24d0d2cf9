import Lifecycle.Proofs.Crew.Places
import Lifecycle.Proofs.Watcher.Alike
import Lifecycle.Rehearsal

/-! # The watchers of a script

A watcher of a script has a place: the name of its crew and its place there. When it acts, it and the
desk of its crew are replaced, and all other watchers stay what they were. -/

namespace Lifecycle

/-- The name of a crew and a place in it. -/
abbrev Place := String × Nat

instance : LawfulBEq Place := inferInstance

/-- The crew without its loops and errors. -/
def Crew.bare (crew : Crew) : Crew := { crew with watchers := crew.watchers.map Watcher.bare }

namespace Rehearsal

/-- The watcher at a place, if there is one. -/
def watcherAt (r : Rehearsal) (place : Place) : Option Watcher :=
  (r.crew place.1).watchers[place.2]?

/-- What the watcher at a place finds on its desk. -/
def deskOf (r : Rehearsal) (place : Place) : Desk := ⟨(r.crew place.1).allocator, r.store⟩

/-- Puts a watcher back to its place, and what it has left on its desk. -/
def putBack (r : Rehearsal) (place : Place) (after : Watcher) (desk : Desk) : Rehearsal :=
  (r.setCrew place.1 ⟨desk.allocator, (r.crew place.1).watchers.set place.2 after⟩).setStore
    desk.store

variable {r : Rehearsal} {place : Place} {w after : Watcher} {desk : Desk}

theorem act_of_none {α : Type} (h : r.watcherAt place = none)
    (f : Watcher → Desk → Outcome (Watcher × Desk) α) : r.act place.1 place.2 f = none := by
  rw [watcherAt] at h
  rw [act, Crew.act, h]
  rfl

theorem act_of_watcherAt {α : Type} (h : r.watcherAt place = some w)
    (f : Watcher → Desk → Outcome (Watcher × Desk) α) :
    r.act place.1 place.2 f =
      let outcome := f w (r.deskOf place)
      some ⟨r.putBack place outcome.state.1 outcome.state.2, outcome.value, outcome.effects⟩ := by
  rw [watcherAt] at h
  rw [act, Crew.act, h]
  rfl

/-! ### Crews after an act -/

theorem crew_setCrew (r : Rehearsal) (allocator other : String) (next : Crew) :
    (r.setCrew allocator next).crew other = if allocator = other then next else r.crew other := by
  simp only [crew, setCrew, Keyed.get?_set, beq_iff_eq]
  split <;> rfl

theorem crew_putBack (r : Rehearsal) (place : Place) (after : Watcher) (desk : Desk)
    (other : String) :
    (r.putBack place after desk).crew other =
      if place.1 = other then ⟨desk.allocator, (r.crew place.1).watchers.set place.2 after⟩
      else r.crew other :=
  r.crew_setCrew place.1 other _

theorem watcherAt_putBack (h : r.watcherAt place = some w) (after : Watcher) (desk : Desk)
    (other : Place) :
    (r.putBack place after desk).watcherAt other =
      if place = other then some after else r.watcherAt other := by
  obtain ⟨allocator, k⟩ := place
  obtain ⟨other, j⟩ := other
  have hlt : k < (r.crew allocator).watchers.length := (List.getElem?_eq_some_iff.1 h).1
  rw [watcherAt, crew_putBack]
  by_cases hcrew : allocator = other
  · subst hcrew
    rw [if_pos rfl, List.getElem?_set]
    by_cases hk : k = j
    · subst hk
      simp [hlt]
    · simp [hk, watcherAt]
  · simp [hcrew, watcherAt]

theorem isSome_watcherAt_putBack (h : r.watcherAt place = some w) (after : Watcher) (desk : Desk)
    (other : Place) :
    ((r.putBack place after desk).watcherAt other).isSome = (r.watcherAt other).isSome := by
  rw [watcherAt_putBack h]
  split
  · rename_i heq
    rw [← heq, h]
    rfl
  · rfl

theorem deskOf_putBack (r : Rehearsal) (place : Place) (after : Watcher) (desk : Desk) :
    (r.putBack place after desk).deskOf place = desk := by
  rw [deskOf, crew_putBack, if_pos rfl]
  rfl

theorem putBack_putBack (r : Rehearsal) (place : Place) (first after : Watcher) (between desk : Desk) :
    (r.putBack place first between).putBack place after desk = r.putBack place after desk := by
  have hcrew := r.crew_putBack place first between place.1
  rw [if_pos rfl] at hcrew
  rw [putBack, hcrew, List.set_set]
  simp only [putBack, setCrew, setStore, Keyed.set_set]

/-- A watcher that is put back unchanged leaves everything as it was. -/
theorem putBack_self (h : r.watcherAt place = some w) : r.putBack place w (r.deskOf place) = r := by
  rw [watcherAt] at h
  obtain ⟨hlt, hw⟩ := List.getElem?_eq_some_iff.1 h
  have hset : (r.crew place.1).watchers.set place.2 w = (r.crew place.1).watchers := by
    rw [← hw, List.set_getElem_self]
  have hcrew : Keyed.get? r.crews place.1 = some (r.crew place.1) := by
    cases hc : Keyed.get? r.crews place.1 with
    | some found => rw [crew, hc, Option.getD_some]
    | none =>
      rw [crew, hc, Option.getD_none] at hlt
      exact absurd hlt (Nat.not_lt_zero _)
  rw [putBack, hset]
  show ({ r with crews := Keyed.set r.crews place.1 (r.crew place.1) } : Rehearsal) = r
  rw [Keyed.set_get? hcrew]

/-! ### A rehearsal apart from its loops -/

/-- The rehearsal apart from loops, calls and counters. -/
def bare (r : Rehearsal) : Rehearsal :=
  { r with
    crews := r.crews.map fun (name, crew) => (name, crew.bare)
    calls := []
    counters := none }

theorem crew_bare (r : Rehearsal) (allocator : String) :
    r.bare.crew allocator = (r.crew allocator).bare := by
  rw [crew, bare, Keyed.get?_map, crew]
  cases Keyed.get? r.crews allocator <;> rfl

theorem watcherAt_bare (r : Rehearsal) (place : Place) :
    r.bare.watcherAt place = (r.watcherAt place).map Watcher.bare := by
  rw [watcherAt, crew_bare, Crew.bare, List.getElem?_map, watcherAt]

theorem deskOf_bare (r : Rehearsal) (place : Place) : r.bare.deskOf place = r.deskOf place := by
  rw [deskOf, crew_bare]
  rfl

theorem bare_setCrew (r : Rehearsal) (allocator : String) (next : Crew) :
    (r.setCrew allocator next).bare = r.bare.setCrew allocator next.bare := by
  simp only [bare, setCrew, Keyed.map_set]

theorem bare_putBack (r : Rehearsal) (place : Place) (after : Watcher) (desk : Desk) :
    (r.putBack place after desk).bare = r.bare.putBack place after.bare desk := by
  have hcrew := r.bare_setCrew place.1
    ⟨desk.allocator, (r.crew place.1).watchers.set place.2 after⟩
  rw [Crew.bare, List.map_set] at hcrew
  rw [putBack, putBack, crew_bare]
  exact congrArg (fun r => r.setStore desk.store) hcrew

end Rehearsal

end Lifecycle
