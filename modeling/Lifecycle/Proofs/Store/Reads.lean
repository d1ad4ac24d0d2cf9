import Lifecycle.Proofs.Sequence.Reads
import Lifecycle.Proofs.Store.Runs

/-! # Reads of the store

All that is read from a deployment follows from the events at its indices: its events in order,
their number, the events of a window, and whether a window is complete. The main statement is that
completeness is exact: a window of any size is complete if and only if each of its indices has an
event, or equivalently if reading it gives as many events as it has indices. None of the shortcuts
taken on the way gives another answer than asking for every index. -/

namespace Lifecycle

/-- The events of a deployment in order, each with its index. -/
def Store.contents (store : Store) (id : String) : List (Int × Event) :=
  ((store.find? id).map fun s => s.events.toList).getD []

namespace Store

variable {store : Store} {id : String}

/-! ### Contents of the store -/

theorem contents_congr {other : Store} (h : store.find? id = other.find? id) :
    store.contents id = other.contents id := by
  rw [contents, contents, h]

theorem contents_of_find? {s : Sequence} (h : store.find? id = some s) :
    store.contents id = s.events.toList := by
  rw [contents, h, Option.map_some, Option.getD_some]

theorem contents_of_none (h : store.find? id = none) : store.contents id = [] := by
  rw [contents, h, Option.map_none, Option.getD_none]

theorem toList_sequenceAt (store : Store) (now : Rat) (id : String) :
    (store.sequenceAt now id).events.toList = store.contents id := by
  rw [sequenceAt]
  cases h : store.find? id with
  | some s => rw [contents_of_find? h, Option.getD_some]
  | none =>
    rw [contents_of_none h, Option.getD_none]
    rfl

theorem getElem?_sequenceAt {now : Rat} {i : Int} {event : Event} :
    (store.sequenceAt now id).events[i]? = some event ↔ (i, event) ∈ store.contents id := by
  rw [← toList_sequenceAt store now id, Std.TreeMap.mem_toList_iff_getElem?_eq_some]

theorem mem_contents_iff {i : Int} {event : Event} :
    (i, event) ∈ store.contents id ↔ store.event? id i = some event := by
  rw [← getElem?_events_sequenceAt store 0 id i, getElem?_sequenceAt]

theorem ascending_contents (store : Store) (id : String) :
    (store.contents id).Pairwise fun a b => a.1 < b.1 := by
  rw [← toList_sequenceAt store 0 id]
  exact Sequence.ascending_toList _

theorem size_eq_length_contents (store : Store) (id : String) :
    store.size id = (store.contents id).length := by
  rw [size]
  cases h : store.find? id with
  | some s =>
    rw [contents_of_find? h, Option.map_some, Option.getD_some, Sequence.size,
      Std.TreeMap.length_toList]
  | none =>
    rw [contents_of_none h]
    rfl

/-! ### Windows -/

theorem isSome_event?_of_find? {s : Sequence} (h : store.find? id = some s) (i : Int) :
    (store.event? id i).isSome = s.holds i := by
  rw [event?_of_find? h, Sequence.holds, Std.TreeMap.contains_eq_isSome_getElem?]

theorem extract_eq (store : Store) (id : String) (w : Window) :
    store.extract id w = w.indices.filterMap (store.event? id) := by
  rw [extract]
  cases h : store.find? id with
  | some s =>
    simp only
    rw [Sequence.extract_eq]
    congr 1
    funext i
    rw [event?_of_find? h]
  | none =>
    simp only
    rw [eq_comm, List.filterMap_eq_nil_iff]
    intro i _
    exact event?_of_none h i

/-- The number of events read from a window is the number of its indices that have one. -/
theorem length_extract (store : Store) (id : String) (w : Window) :
    (store.extract id w).length = w.indices.countP fun i => (store.event? id i).isSome := by
  rw [extract_eq, List.length_filterMap_eq_countP]

theorem length_extract_le (store : Store) (id : String) (w : Window) :
    (store.extract id w).length ≤ w.size := by
  rw [extract_eq, ← Window.length_indices]
  exact List.length_filterMap_le _ _

theorem length_extract_eq_size_iff {w : Window} :
    (store.extract id w).length = w.size ↔
      ∀ i, w.start ≤ i → i ≤ w.stop → (store.event? id i).isSome = true := by
  rw [length_extract, ← Window.length_indices, List.countP_eq_length]
  constructor
  · intro h i h1 h2
    exact h i (Window.mem_indices.2 ⟨h1, h2⟩)
  · intro h i hi
    rw [Window.mem_indices] at hi
    exact h i hi.1 hi.2

/-- The events of a window without a gap, one at each index. -/
theorem map_some_extract {w : Window} (h : (store.extract id w).length = w.size) :
    (store.extract id w).map some = w.indices.map (store.event? id) := by
  rw [length_extract_eq_size_iff] at h
  rw [extract_eq, List.map_filterMap, ← List.filterMap_eq_map]
  refine List.filterMap_congr ?_
  intro i hi
  rw [Window.mem_indices] at hi
  obtain ⟨event, hevent⟩ := Option.isSome_iff_exists.1 (h i hi.1 hi.2)
  rw [hevent, Option.map_some, Function.comp_apply, hevent]

theorem isComplete_of_none (h : store.find? id = none) (w : Window) :
    store.isComplete id w = true ↔ w.stop < w.start := by
  rw [isComplete, h]
  simp [Window.isEmpty]

theorem Sound.isComplete_iff (hs : store.Sound) {w : Window} (h0 : 0 ≤ w.start) :
    store.isComplete id w = true ↔
      ∀ i, w.start ≤ i → i ≤ w.stop → (store.event? id i).isSome = true := by
  cases h : store.find? id with
  | some s =>
    have hseq : store.isComplete id w = s.isComplete w := by
      rw [Store.isComplete, h]
      split
      · rename_i hempty
        rw [Sequence.isComplete, if_pos hempty]
      · rfl
    rw [hseq, Sequence.isComplete_iff (hs.find?_sound h).1 h0]
    simp only [isSome_event?_of_find? h]
  | none =>
    rw [isComplete_of_none h]
    simp only [event?_of_none h, Option.isSome_none, Bool.false_eq_true]
    constructor
    · intro hempty i h1 h2
      omega
    · intro hall
      by_contra hne
      exact hall w.start (Int.le_refl _) (by omega)

/-! ### What reads depend on

Two stores that agree on the event at each index of a deployment are read alike. -/

/-- The mark is the end of the unbroken run of indices with an event. -/
theorem Sound.mark_spec (hs : store.Sound) (id : String) :
    -1 ≤ store.mark id ∧
      (∀ i, 0 ≤ i → i ≤ store.mark id → (store.event? id i).isSome = true) ∧
      store.event? id (store.mark id + 1) = none := by
  cases h : store.find? id with
  | some s =>
    have hsound := (hs.find?_sound h).1
    simp only [mark, h, Option.map_some, Option.getD_some, isSome_event?_of_find? h]
    refine ⟨hsound.neg_one_le_mark, hsound.holds_of_le_mark, ?_⟩
    rw [← Option.isNone_iff_eq_none, ← Option.not_isSome, isSome_event?_of_find? h,
      hsound.not_holds_next]
    rfl
  | none =>
    simp only [mark, h, Option.map_none, Option.getD_none, event?_of_none h]
    refine ⟨Int.le_refl _, ?_, trivial⟩
    intro i h0 hi
    omega

variable {other : Store}

theorem Sound.mark_le_of_event? (hs : store.Sound) (ho : other.Sound)
    (h : ∀ i, store.event? id i = other.event? id i) : store.mark id ≤ other.mark id := by
  obtain ⟨-, hbelow, -⟩ := hs.mark_spec id
  obtain ⟨hlow, -, hnext⟩ := ho.mark_spec id
  by_contra hlt
  have hstored := hbelow (other.mark id + 1) (by omega) (by omega)
  rw [h, hnext] at hstored
  exact absurd hstored (by simp)

theorem Sound.mark_congr (hs : store.Sound) (ho : other.Sound)
    (h : ∀ i, store.event? id i = other.event? id i) : store.mark id = other.mark id :=
  Int.le_antisymm (hs.mark_le_of_event? ho h) (ho.mark_le_of_event? hs fun i => (h i).symm)

theorem contents_eq_of_event? (h : ∀ i, store.event? id i = other.event? id i) :
    store.contents id = other.contents id := by
  refine Sequence.eq_of_ascending (ascending_contents store id) (ascending_contents other id) ?_
  rintro ⟨i, event⟩
  rw [mem_contents_iff, mem_contents_iff, h]

theorem extract_congr (h : ∀ i, store.event? id i = other.event? id i) (w : Window) :
    store.extract id w = other.extract id w := by
  rw [extract_eq, extract_eq, funext h]

theorem Sound.isComplete_congr (hs : store.Sound) (ho : other.Sound)
    (h : ∀ i, store.event? id i = other.event? id i) {w : Window} (h0 : 0 ≤ w.start) :
    store.isComplete id w = other.isComplete id w := by
  rw [Bool.eq_iff_iff, hs.isComplete_iff h0, ho.isComplete_iff h0]
  simp only [h]

/-! ### Main result -/

/-- Completeness is exact for windows of any size, and no shortcut disagrees with the full scan. -/
theorem completeness_is_exact (actions : List Action) (id : String) {start stop : Int}
    (h0 : 0 ≤ start) (h1 : 0 ≤ stop) :
    let store := ({} : Store).run actions
    let w : Window := ⟨start, stop⟩
    let scan := w.indices.all fun i => (store.event? id i).isSome
    Window.ofBounds start stop = .ok w ∧
      (store.isComplete id w = true ↔
        stop < start ∨ ∀ i, start ≤ i → i ≤ stop → (store.event? id i).isSome = true) ∧
      (store.isComplete id w = true ↔ (store.extract id w).length = w.size) ∧
      store.isComplete id w = scan ∧
      (∀ s, store.find? id = some s →
        (stop ≤ s.mark → scan = true) ∧ (s.size < w.size → scan = false) ∧
          (Window.indices ⟨max start (s.mark + 1), stop⟩).all s.holds = scan) ∧
      (store.find? id = none → (store.isComplete id w = true ↔ stop < start)) := by
  intro store w scan
  have hs : store.Sound := run_sound actions
  have hcomplete : store.isComplete id w = true ↔
      ∀ i, start ≤ i → i ≤ stop → (store.event? id i).isSome = true := hs.isComplete_iff h0
  have hscan : scan = true ↔ ∀ i, start ≤ i → i ≤ stop → (store.event? id i).isSome = true :=
    Window.all_indices_iff
  refine ⟨Window.ofBounds_eq_ok_iff.2 ⟨h0, h1, rfl⟩, ?_, ?_, ?_, ?_,
    fun h => isComplete_of_none h w⟩
  · rw [hcomplete]
    constructor
    · exact Or.inr
    · rintro (hempty | hall)
      · intro i h2 h3
        omega
      · exact hall
  · rw [hcomplete, length_extract_eq_size_iff]
  · rw [Bool.eq_iff_iff, hcomplete, hscan]
  · intro s hfind
    have hsound := (hs.find?_sound hfind).1
    simp only [isSome_event?_of_find? hfind] at hscan
    refine ⟨fun hmark => ?_, fun hlarge => ?_, ?_⟩
    · exact hscan.2 (Sequence.forall_holds_of_le_mark (w := w) hsound h0 hmark)
    · rw [← Bool.not_eq_true, hscan]
      intro hall
      have := Sequence.size_le_of_forall_holds (w := w) hall
      omega
    · rw [Bool.eq_iff_iff, hscan, Window.all_indices_iff]
      exact Sequence.forall_holds_above_mark_iff (w := w) hsound h0

/-- Events that came out of order, with a gap, beside a deployment that was evicted. -/
def gapped : List Action :=
  [.put 0 "d" 2 ⟨2, "c", .zero false⟩, .put 0 "e" 0 ⟨0, "a", .zero false⟩,
    .put 1 "d" 0 ⟨0, "a", .zero false⟩, .put 1 "d" 2 ⟨2, "z", .zero false⟩, .evict "e"]

theorem gapped_window_is_incomplete :
    (0 : Int) ≤ 0 ∧ (0 : Int) ≤ 2 ∧
      let store := ({} : Store).run gapped
      (store.isComplete "d" ⟨0, 2⟩ = true ↔ (store.extract "d" ⟨0, 2⟩).length = 3) ∧
      store.extract "d" ⟨0, 2⟩ = [⟨0, "a", .zero false⟩, ⟨2, "c", .zero false⟩] ∧
      (store.isComplete "e" ⟨0, 2⟩ = true ↔ (2 : Int) < 0) := by
  have h0 : (0 : Int) ≤ 0 := by decide
  have h1 : (0 : Int) ≤ 2 := by decide
  obtain ⟨-, -, hlength, -, -, -⟩ := completeness_is_exact gapped "d" h0 h1
  obtain ⟨-, -, -, -, -, hunknown⟩ := completeness_is_exact gapped "e" h0 h1
  exact ⟨h0, h1, hlength, rfl, hunknown rfl⟩

end Store

end Lifecycle
