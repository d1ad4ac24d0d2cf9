import Lifecycle.Proofs.Sequence.Mark

/-! # Reads of a sequence

Whether a window is complete is decided without looking at all its indices where possible: a window
that ends at the mark is complete, and one that is larger than the sequence is not. Neither
shortcut ever gives another answer than asking for each index.

The events of a window are found in two ways, index by index or among all that are stored. Both give
the events at the indices of the window in ascending order. -/

namespace Lifecycle

theorem Window.all_indices_iff {w : Window} {p : Int → Bool} :
    w.indices.all p = true ↔ ∀ i, w.start ≤ i → i ≤ w.stop → p i = true := by
  simp only [List.all_eq_true, Window.mem_indices, and_imp]

namespace Sequence

theorem nodup_indices (w : Window) : w.indices.Nodup := by
  refine List.Nodup.map ?_ List.nodup_range
  intro a b hab
  simp only at hab
  omega

/-! ### Completeness

A window below the mark has no gap, a window larger than the sequence has one, and the indices up to
the mark need not be asked for. -/

theorem forall_holds_of_le_mark {s : Sequence} (hs : s.Sound) {w : Window} (h0 : 0 ≤ w.start)
    (h : w.stop ≤ s.mark) : ∀ i, w.start ≤ i → i ≤ w.stop → s.holds i = true := by
  intro i h1 h2
  exact hs.holds_of_le_mark i (by omega) (by omega)

/-- A window whose indices are all stored is not larger than the sequence. -/
theorem size_le_of_forall_holds {s : Sequence} {w : Window}
    (h : ∀ i, w.start ≤ i → i ≤ w.stop → s.holds i = true) : w.size ≤ s.size := by
  rw [← Window.length_indices]
  refine length_le_size (nodup_indices w) ?_
  intro i hi
  rw [Window.mem_indices] at hi
  exact h i hi.1 hi.2

theorem forall_holds_above_mark_iff {s : Sequence} (hs : s.Sound) {w : Window} (h0 : 0 ≤ w.start) :
    (∀ i, max w.start (s.mark + 1) ≤ i → i ≤ w.stop → s.holds i = true) ↔
      ∀ i, w.start ≤ i → i ≤ w.stop → s.holds i = true := by
  constructor
  · intro h i h1 h2
    by_cases hi : i ≤ s.mark
    · exact hs.holds_of_le_mark i (by omega) hi
    · exact h i (by omega) h2
  · intro h i h1 h2
    exact h i (by omega) h2

/-- A window is complete exactly if each of its indices is stored. -/
theorem isComplete_iff {s : Sequence} (hs : s.Sound) {w : Window} (h0 : 0 ≤ w.start) :
    s.isComplete w = true ↔ ∀ i, w.start ≤ i → i ≤ w.stop → s.holds i = true := by
  unfold isComplete
  split
  · rename_i hempty
    rw [Window.isEmpty_iff] at hempty
    simp only [true_iff]
    intro i h1 h2
    omega
  · split
    · rename_i hmark
      simp only [true_iff]
      exact forall_holds_of_le_mark hs h0 hmark
    · split
      · rename_i hlarge
        simp only [Bool.false_eq_true, false_iff]
        intro hall
        have := size_le_of_forall_holds hall
        omega
      · rw [Window.all_indices_iff]
        exact forall_holds_above_mark_iff hs h0

/-! ### The events in order -/

/-- Events in strictly ascending order of their indices are determined by their members. -/
theorem eq_of_ascending {l m : List (Int × Event)} (hl : l.Pairwise fun a b => a.1 < b.1)
    (hm : m.Pairwise fun a b => a.1 < b.1) (h : ∀ e, e ∈ l ↔ e ∈ m) : l = m := by
  have distinct (k : List (Int × Event)) (hk : k.Pairwise fun a b => a.1 < b.1) : k.Nodup := by
    refine hk.imp ?_
    intro a b hab heq
    rw [heq] at hab
    exact Int.lt_irrefl _ hab
  have hperm : l.Perm m := (List.perm_ext_iff_of_nodup (distinct l hl) (distinct m hm)).2 h
  refine List.Perm.eq_of_pairwise ?_ hl hm hperm
  intro a b _ _ hab hba
  omega

theorem ascending_toList (events : Std.TreeMap Int Event) :
    events.toList.Pairwise fun a b => a.1 < b.1 := by
  refine events.ordered_keys_toList.imp ?_
  intro a b hab
  exact Int.compare_eq_lt.1 hab

/-- An event behind all others is the last one in order. -/
theorem toList_insert_of_lt {events : Std.TreeMap Int Event} {i : Int}
    (h : ∀ e ∈ events.toList, e.1 < i) (event : Event) :
    (events.insert i event).toList = events.toList ++ [(i, event)] := by
  have hbehind : (events.toList ++ [(i, event)]).Pairwise fun a b => a.1 < b.1 := by
    rw [List.pairwise_append]
    refine ⟨ascending_toList events, List.pairwise_singleton _ _, ?_⟩
    intro a ha b hb
    rw [List.mem_singleton.1 hb]
    exact h a ha
  refine eq_of_ascending (ascending_toList _) hbehind ?_
  rintro ⟨j, f⟩
  have hlt : events[j]? = some f → j < i := fun hj =>
    h (j, f) (Std.TreeMap.mem_toList_iff_getElem?_eq_some.2 hj)
  simp only [Std.TreeMap.mem_toList_iff_getElem?_eq_some, Std.TreeMap.getElem?_insert,
    List.mem_append, List.mem_singleton, Prod.mk.injEq, Std.compare_eq_iff_eq]
  by_cases hij : i = j
  · subst hij
    have hnone : events[i]? ≠ some f := fun hj => absurd (hlt hj) (by omega)
    simp [hnone, eq_comm]
  · simp [hij, Ne.symm hij]

theorem ascending_indices (w : Window) : w.indices.Pairwise (· < ·) := by
  rw [Window.indices, List.pairwise_map]
  refine List.pairwise_lt_range.imp ?_
  intro a b hab
  omega

/-- Asking for each index of a window gives the stored events that lie in it. -/
theorem filter_toList (s : Sequence) (w : Window) :
    s.events.toList.filter (fun e => w.contains e.1) =
      w.indices.filterMap fun i => s.events[i]?.map (Prod.mk i) := by
  have hasked : (w.indices.filterMap fun i => s.events[i]?.map (Prod.mk i)).Pairwise
      fun a b => a.1 < b.1 := by
    rw [List.pairwise_filterMap]
    refine (ascending_indices w).imp ?_
    intro i j hij a ha b hb
    obtain ⟨-, -, rfl⟩ := Option.map_eq_some_iff.1 ha
    obtain ⟨-, -, rfl⟩ := Option.map_eq_some_iff.1 hb
    exact hij
  refine eq_of_ascending ((ascending_toList s.events).filter _) hasked ?_
  rintro ⟨i, event⟩
  simp only [List.mem_filter, List.mem_filterMap, Std.TreeMap.mem_toList_iff_getElem?_eq_some,
    Window.contains_iff, Window.mem_indices, Option.map_eq_some_iff, Prod.mk.injEq]
  constructor
  · rintro ⟨hevent, hin⟩
    exact ⟨i, hin, event, hevent, rfl, rfl⟩
  · rintro ⟨_, hin, _, hevent, rfl, rfl⟩
    exact ⟨hevent, hin⟩

/-- The events of a window are those at its indices, in ascending order, whichever way they are
found. -/
theorem extract_eq (s : Sequence) (w : Window) :
    s.extract w = w.indices.filterMap fun i => s.events[i]? := by
  unfold extract
  split
  · rename_i hempty
    rw [List.eq_nil_of_length_eq_zero
      ((Window.length_indices w).trans (Window.size_eq_zero_iff.2 hempty)), List.filterMap_nil]
  · split
    · rfl
    · rw [filter_toList, List.map_filterMap]
      congr 1
      funext i
      cases s.events[i]? <;> rfl

end Sequence

end Lifecycle
