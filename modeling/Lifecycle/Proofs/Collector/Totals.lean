import Lifecycle.Proofs.Collector.Work
import Mathlib.Algebra.BigOperators.Group.Finset.Piecewise
import Mathlib.Algebra.GroupWithZero.Nat

/-! # What the sequences add up to

The live sequences of a store have some number of events in all. A put that stores its event adds one
to that number, and any other put adds none. When sequences are dropped, the number goes down by
their sizes, and what is left of the store is as it was. -/

namespace Lifecycle

/-! ### One sequence -/

theorem Sequence.size_insert (s : Sequence) (now : Rat) (i : Int) (event : Event) :
    (s.insert now i event).2.size =
      s.size + if (s.insert now i event).1.isStored then 1 else 0 := by
  cases hi : s.events[i]? with
  | some kept =>
    rw [insert_of_some hi]
    rfl
  | none =>
    rw [Store.size_insert_of_none hi, insert_of_none hi]
    rfl

namespace Store

/-- The number of events in all live sequences. -/
def liveSizes (store : Store) : Nat := (store.registered.map store.size).sum

/-- The sizes that sequences had in a store if they are gone from the next one. -/
def droppedSizes (store next : Store) : Nat :=
  ((store.registered.filter (· ∉ next.registered)).map store.size).sum

variable {store next : Store}

theorem Sound.size_of_not_mem_registered (hs : store.Sound) {id : String}
    (h : id ∉ store.registered) : store.size id = 0 := by
  rw [hs.mem_registered_iff, Bool.not_eq_true, Option.isSome_eq_false_iff,
    Option.isNone_iff_eq_none] at h
  rw [size, h]
  rfl

/-- Deployments without a sequence add nothing. -/
theorem Sound.liveSizes_eq_sum (hs : store.Sound) {ids : Finset String}
    (known : ∀ id ∈ store.registered, id ∈ ids) : store.liveSizes = ∑ id ∈ ids, store.size id := by
  rw [liveSizes, ← List.sum_toFinset _ hs.nodup_registered]
  refine Finset.sum_subset (fun id hid => known id (List.mem_toFinset.1 hid)) ?_
  exact fun id _ hid => hs.size_of_not_mem_registered fun h => hid (List.mem_toFinset.2 h)

theorem Sound.droppedSizes_eq_sum (hs : store.Sound) :
    store.droppedSizes next = ∑ id ∈ store.registered.toFinset,
      if id ∉ next.registered then store.size id else 0 := by
  rw [droppedSizes, ← List.sum_toFinset _ (hs.nodup_registered.filter _), List.toFinset_filter,
    Finset.sum_filter]
  simp only [decide_eq_true_eq]

/-- Nothing is dropped if the registered deployments stay. -/
theorem droppedSizes_of_subset (h : store.registered ⊆ next.registered) :
    store.droppedSizes next = 0 := by
  have hnone : store.registered.filter (· ∉ next.registered) = [] := by
    rw [List.filter_eq_nil_iff]
    intro id hid
    simp [h hid]
  rw [droppedSizes, hnone]
  rfl

/-! ### Puts -/

theorem Sound.liveSizes_put (hs : store.Sound) {now : Rat} {id : String} {index : Int}
    {event : Event} {report : PutReport} (ok : check index event = .ok ())
    (h : store.put now id index event = .ok (report, next)) :
    next.liveSizes = store.liveSizes + if report.put.isStored then 1 else 0 := by
  obtain ⟨_, after, hput, hsound, hreport, hfind⟩ := hs.put_spec ok now id
  obtain ⟨rfl, rfl⟩ := Prod.mk.inj (Except.ok.inj (h.symm.trans hput))
  have hsize (other : String) : next.size other =
      store.size other + if other = id then (if report.put.isStored then 1 else 0) else 0 := by
    by_cases hid : other = id
    · have hself := hfind other
      rw [if_pos hid] at hself
      rw [size_of_find? hself, Sequence.size_insert, size_sequenceAt, ← hreport, if_pos hid, hid]
    · rw [size_eq_of_find? ((hfind other).trans (if_neg hid)), if_neg hid, Nat.add_zero]
  have hregistered : ∀ other ∈ next.registered, other ∈ insert id store.registered.toFinset := by
    intro other hother
    rw [hsound.mem_registered_iff, hfind] at hother
    rw [Finset.mem_insert, List.mem_toFinset, hs.mem_registered_iff]
    by_cases hid : other = id
    · exact Or.inl hid
    · rw [if_neg hid] at hother
      exact Or.inr hother
  have hbefore : ∀ other ∈ store.registered, other ∈ insert id store.registered.toFinset :=
    fun other hother => Finset.mem_insert_of_mem (List.mem_toFinset.2 hother)
  rw [hsound.liveSizes_eq_sum hregistered, hs.liveSizes_eq_sum hbefore,
    Finset.sum_congr rfl fun other _ => hsize other, Finset.sum_add_distrib, Finset.sum_ite_eq',
    if_pos (Finset.mem_insert_self id _)]

/-! ### Drops -/

/-- From one store to the next, sequences were dropped and no other was touched. -/
structure Drops (store next : Store) : Prop where
  sound : next.Sound
  sequences : ∀ id, next.find? id = store.find? id ∨ next.find? id = none

namespace Drops

variable {last : Store}

theorem refl (hs : store.Sound) : Drops store store := ⟨hs, fun _ => Or.inl rfl⟩

theorem trans (first : Drops store next) (second : Drops next last) : Drops store last where
  sound := second.sound
  sequences := by
    intro id
    rcases second.sequences id with hsame | hgone
    · rw [hsame]
      exact first.sequences id
    · exact Or.inr hgone

/-- What was dropped is missing. -/
theorem liveSizes_add (h : Drops store next) (hs : store.Sound) :
    next.liveSizes + store.droppedSizes next = store.liveSizes := by
  have hregistered : ∀ id ∈ next.registered, id ∈ store.registered.toFinset := by
    intro id hid
    rw [h.sound.mem_registered_iff] at hid
    rw [List.mem_toFinset, hs.mem_registered_iff]
    rcases h.sequences id with hsame | hgone
    · rwa [hsame] at hid
    · exact absurd hid (by rw [hgone]; exact Bool.false_ne_true)
  have hsize (id : String) : next.size id + (if id ∉ next.registered then store.size id else 0) =
      store.size id := by
    by_cases hid : id ∈ next.registered
    · rcases h.sequences id with hsame | hgone
      · rw [if_neg (not_not_intro hid), Nat.add_zero, size_eq_of_find? hsame]
      · rw [h.sound.mem_registered_iff, hgone] at hid
        exact absurd hid Bool.false_ne_true
    · rw [if_pos hid, h.sound.size_of_not_mem_registered hid, Nat.zero_add]
  rw [h.sound.liveSizes_eq_sum hregistered, hs.droppedSizes_eq_sum,
    hs.liveSizes_eq_sum fun id hid => List.mem_toFinset.2 hid, ← Finset.sum_add_distrib]
  exact Finset.sum_congr rfl fun id _ => hsize id

end Drops

theorem Sound.drops_evict (hs : store.Sound) (id : String) : Drops store (store.evict id).2 := by
  obtain ⟨hsound, hfind⟩ := hs.evict_spec id
  refine ⟨hsound, ?_⟩
  intro other
  rw [hfind]
  split
  · exact Or.inr rfl
  · exact Or.inl rfl

theorem Sound.drops_evictIdle (hs : store.Sound) (maxIdle now : Rat) :
    Drops store (store.evictIdle maxIdle now).2 := by
  obtain ⟨hsound, hfind⟩ := hs.evictIdle_spec maxIdle now
  refine ⟨hsound, ?_⟩
  intro other
  rw [hfind]
  cases store.find? other with
  | none => exact Or.inl rfl
  | some s =>
    rw [Option.filter_some]
    split
    · exact Or.inl rfl
    · exact Or.inr rfl

end Store

end Lifecycle
