import Lifecycle.Sequence
import Mathlib.Data.List.Nodup
import Mathlib.Data.List.Perm.Subperm

/-! # The mark of a sequence

The mark of a sequence is kept up to date by a loop that moves it over the indices already stored.
The loop is bounded by the number of stored events, and that bound is never what stops it: as many
steps would need more stored indices than there are. So the mark is always the end of the unbroken
run from 0, in whatever order the indices came. -/

namespace Lifecycle.Sequence

/-- The mark is the end of the unbroken run of stored indices from 0. -/
structure Sound (s : Sequence) : Prop where
  neg_one_le_mark : -1 ≤ s.mark
  holds_of_le_mark : ∀ i, 0 ≤ i → i ≤ s.mark → s.holds i = true
  not_holds_next : s.holds (s.mark + 1) = false

/-! ### What a put changes -/

theorem insert_of_some {s : Sequence} {i : Int} {kept : Event} (h : s.events[i]? = some kept)
    (now : Rat) (event : Event) : s.insert now i event = (.duplicate kept, s) := by
  simp only [insert, h]

theorem insert_of_none {s : Sequence} {i : Int} (h : s.events[i]? = none) (now : Rat)
    (event : Event) :
    s.insert now i event =
      (.stored event,
        { s with
          events := s.events.insert i event
          mark := markAfter (s.events.insert i event) s.mark i
          lastWrite := now }) := by
  simp only [insert, h]

/-- A put never takes an event away or replaces it. -/
theorem getElem?_insert_of_some {s : Sequence} {j : Int} {kept : Event}
    (h : s.events[j]? = some kept) (now : Rat) (i : Int) (event : Event) :
    (s.insert now i event).2.events[j]? = some kept := by
  cases hi : s.events[i]? with
  | some other => rw [insert_of_some hi, h]
  | none =>
    have hij : compare i j ≠ .eq := by
      intro he
      rw [Std.LawfulEqCmp.eq_of_compare he, h] at hi
      exact absurd hi (by simp)
    rw [insert_of_none hi]
    simp only [Std.TreeMap.getElem?_insert, hij, ite_false, h]

theorem getElem?_insert_self (s : Sequence) (now : Rat) (i : Int) (event : Event) :
    (s.insert now i event).2.events[i]? = some (s.insert now i event).1.event := by
  cases hi : s.events[i]? with
  | some kept => rw [insert_of_some hi, hi, Put.event]
  | none =>
    rw [insert_of_none hi]
    simp only [Std.TreeMap.getElem?_insert_self, Put.event]

/-- A put fills its index if nothing was there, and touches no other. -/
theorem getElem?_insert (s : Sequence) (now : Rat) (i : Int) (event : Event) (j : Int) :
    (s.insert now i event).2.events[j]? =
      if j = i then some (s.events[i]?.getD event) else s.events[j]? := by
  cases hi : s.events[i]? with
  | some kept =>
    rw [insert_of_some hi]
    split
    · rename_i hji
      rw [hji, hi, Option.getD_some]
    · rfl
  | none =>
    rw [insert_of_none hi]
    by_cases hji : j = i
    · rw [hji, if_pos rfl, Std.TreeMap.getElem?_insert_self, Option.getD_none]
    · rw [if_neg hji]
      simp [Std.TreeMap.getElem?_insert, Ne.symm hji]

theorem eq_of_insert_stored {s : Sequence} {now : Rat} {i : Int} {event e : Event}
    (h : (s.insert now i event).1 = .stored e) : e = event := by
  cases hi : s.events[i]? with
  | some kept =>
    rw [insert_of_some hi] at h
    exact absurd h (by simp)
  | none =>
    rw [insert_of_none hi] at h
    exact (Put.stored.inj h).symm

/-! ### The advance of the mark -/

/-- Different stored indices are never more than the stored events. -/
theorem length_le_size {events : Std.TreeMap Int Event} {l : List Int} (distinct : l.Nodup)
    (stored : ∀ i ∈ l, events.contains i = true) : l.length ≤ events.size := by
  have hsub : l ⊆ events.keys := by
    intro i hi
    exact Std.TreeMap.mem_keys.2 (Std.TreeMap.contains_iff_mem.1 (stored i hi))
  have hle := (distinct.subperm hsub).length_le
  rwa [Std.TreeMap.length_keys] at hle

theorem le_advance (events : Std.TreeMap Int Event) (fuel : Nat) (h : Int) :
    h ≤ advance events fuel h := by
  induction fuel generalizing h with
  | zero => exact Int.le_refl h
  | succ fuel ih =>
    rw [advance]
    split
    · exact Int.le_trans (by omega) (ih (h + 1))
    · exact Int.le_refl h

theorem contains_of_le_advance {events : Std.TreeMap Int Event} {fuel : Nat} {h i : Int}
    (above : h < i) (upTo : i ≤ advance events fuel h) : events.contains i = true := by
  induction fuel generalizing h with
  | zero =>
    rw [advance] at upTo
    omega
  | succ fuel ih =>
    rw [advance] at upTo
    split at upTo
    · rename_i hnext
      by_cases hi : i = h + 1
      · rw [hi]
        exact hnext
      · exact ih (by omega) upTo
    · omega

/-- The loop ends at a gap, or it has used up its fuel. -/
theorem advance_end (events : Std.TreeMap Int Event) (fuel : Nat) (h : Int) :
    events.contains (advance events fuel h + 1) = false ∨ advance events fuel h = h + fuel := by
  induction fuel generalizing h with
  | zero =>
    right
    simp [advance]
  | succ fuel ih =>
    rw [advance]
    split
    · rcases ih (h + 1) with hgap | hfuel
      · exact Or.inl hgap
      · right
        omega
    · rename_i hgap
      exact Or.inl (Bool.eq_false_iff.2 hgap)

/-- As many steps as there are events lead to a gap: one more would need one more event. -/
theorem not_contains_advance (events : Std.TreeMap Int Event) (h : Int) :
    events.contains (advance events events.size h + 1) = false := by
  rcases advance_end events events.size h with hgap | hfuel
  · exact hgap
  · by_contra hnext
    have distinct : ((List.range (events.size + 1)).map fun k : Nat => h + 1 + k).Nodup := by
      refine List.Nodup.map ?_ List.nodup_range
      intro a b hab
      simp only at hab
      omega
    have stored : ∀ i ∈ (List.range (events.size + 1)).map fun k : Nat => h + 1 + k,
        events.contains i = true := by
      intro i hi
      obtain ⟨k, hk, rfl⟩ := List.mem_map.1 hi
      rw [List.mem_range] at hk
      by_cases hlast : k = events.size
      · have he : advance events events.size h + 1 = h + 1 + (k : Int) := by omega
        rw [← he]
        simpa using hnext
      · have hle : h + 1 + (k : Int) ≤ advance events events.size h := by omega
        exact contains_of_le_advance (by omega) hle
    have hle := length_le_size distinct stored
    simp only [List.length_map, List.length_range] at hle
    omega

/-! ### Soundness -/

theorem sound_empty (now : Rat) : ({ lastWrite := now } : Sequence).Sound where
  neg_one_le_mark := Int.le_refl _
  holds_of_le_mark := by
    intro i h0 hi
    simp only at hi
    omega
  not_holds_next := by simp [holds]

theorem holds_insert_of_none {s : Sequence} {i : Int} (h : s.events[i]? = none) (now : Rat)
    (event : Event) (j : Int) :
    (s.insert now i event).2.holds j = (s.holds j || i == j) := by
  rw [insert_of_none h]
  simp only [holds, Std.TreeMap.contains_insert, Bool.or_comm]
  congr 1
  by_cases hij : i = j <;> simp [hij]

theorem mark_le_markAfter (events : Std.TreeMap Int Event) (mark index : Int) :
    mark ≤ markAfter events mark index := by
  unfold markAfter
  split
  · have := le_advance events events.size index
    omega
  · exact Int.le_refl _

theorem Sound.insert {s : Sequence} (hs : s.Sound) (now : Rat) (i : Int) (event : Event) :
    (s.insert now i event).2.Sound := by
  cases hi : s.events[i]? with
  | some kept =>
    rw [insert_of_some hi]
    exact hs
  | none =>
    have hholds := holds_insert_of_none hi now event
    have hmark : (s.insert now i event).2.mark = markAfter (s.events.insert i event) s.mark i := by
      rw [insert_of_none hi]
    have hevents : (s.insert now i event).2.events = s.events.insert i event := by
      rw [insert_of_none hi]
    refine ⟨?_, ?_, ?_⟩
    · have := mark_le_markAfter (s.events.insert i event) s.mark i
      have := hs.neg_one_le_mark
      omega
    · intro j h0 hj
      rw [hmark, markAfter] at hj
      by_cases hnext : i = s.mark + 1
      · rw [if_pos hnext] at hj
        by_cases hle : j ≤ i
        · rw [hholds]
          by_cases hji : i = j
          · simp [hji]
          · simp [hs.holds_of_le_mark j h0 (by omega)]
        · rw [Sequence.holds, hevents]
          exact contains_of_le_advance (by omega) hj
      · rw [if_neg hnext] at hj
        rw [hholds, hs.holds_of_le_mark j h0 hj, Bool.true_or]
    · rw [hmark, markAfter]
      by_cases hnext : i = s.mark + 1
      · rw [if_pos hnext, Sequence.holds, hevents]
        exact not_contains_advance _ _
      · rw [if_neg hnext, hholds, hs.not_holds_next]
        simpa using hnext

end Lifecycle.Sequence
