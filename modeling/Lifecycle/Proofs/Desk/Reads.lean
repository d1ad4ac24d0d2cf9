import Lifecycle.Proofs.Desk.Ledger
import Lifecycle.Proofs.Page.Poll
import Lifecycle.Proofs.Store.Extraction

/-! # Reads of a desk in step

If the stored indices are those that were given out, a reader learns from the mark and from the
number of events alone how far it can read: a page is complete exactly if it ends before the next
index. -/

namespace Lifecycle.Desk.InStep

variable {desk : Desk} {id : String}

theorem size_eq (h : desk.InStep id) : desk.store.size id = desk.allocator.size := by
  rw [Store.size_eq_length_contents, h.length_contents]

theorem isSome_event?_iff (h : desk.InStep id) (i : Int) :
    (desk.store.event? id i).isSome = true ↔ 0 ≤ i ∧ i < desk.allocator.size := by
  rw [Option.isSome_iff_exists]
  constructor
  · rintro ⟨event, hevent⟩
    exact h.mem_contents_lt (Store.mem_contents_iff.2 hevent)
  · rintro ⟨h0, hlt⟩
    obtain ⟨n, rfl⟩ := Int.eq_ofNat_of_zero_le h0
    obtain ⟨event, hmem⟩ := h.exists_mem_contents (Int.ofNat_lt.1 hlt)
    exact ⟨event, Store.mem_contents_iff.1 hmem⟩

/-- The mark is at the last index given out. -/
theorem mark_eq (h : desk.InStep id) : desk.store.mark id = (desk.allocator.size : Int) - 1 := by
  obtain ⟨hlow, hbelow, hnext⟩ := h.sound.mark_spec id
  have hlast : 0 ≤ desk.store.mark id → desk.store.mark id < desk.allocator.size := fun h0 =>
    ((h.isSome_event?_iff _).1 (hbelow _ h0 (Int.le_refl _))).2
  have hgap : ¬(0 ≤ desk.store.mark id + 1 ∧ desk.store.mark id + 1 < desk.allocator.size) := by
    rw [← h.isSome_event?_iff, hnext]
    exact Bool.false_ne_true
  omega

/-- A window is complete exactly if it ends before the next index. -/
theorem isComplete_iff (h : desk.InStep id) {w : Window} (h0 : 0 ≤ w.start)
    (hle : w.start ≤ w.stop) :
    desk.store.isComplete id w = true ↔ w.stop < desk.store.size id := by
  rw [h.sound.isComplete_iff h0, h.size_eq]
  simp only [h.isSome_event?_iff]
  constructor
  · intro hall
    exact (hall w.stop hle (Int.le_refl _)).2
  · intro hlt i h1 h2
    omega

theorem page_isComplete_iff (h : desk.InStep id) {w : Window} (h0 : 0 ≤ w.start)
    (hle : w.start ≤ w.stop) (maxWait : Option Binary64) :
    (Page.read desk.store id w maxWait).isComplete = true ↔ w.stop < desk.store.size id := by
  rw [Page.read, Page.isComplete_read_iff h.sound h0, ← h.sound.isComplete_iff h0]
  exact h.isComplete_iff h0 hle

/-! ### The events of a window -/

theorem length_extract_of_lt (h : desk.InStep id) {w : Window} (h0 : 0 ≤ w.start)
    (hlt : w.stop < desk.store.size id) : (desk.store.extract id w).length = w.size := by
  rw [Store.length_extract_eq_size_iff]
  intro i h1 h2
  rw [h.isSome_event?_iff, ← h.size_eq]
  omega

theorem extract_of_le (h : desk.InStep id) {w : Window} (hle : desk.store.size id ≤ w.start) :
    desk.store.extract id w = [] := by
  rw [Store.extract_eq, List.filterMap_eq_nil_iff]
  intro i hi
  rw [Window.mem_indices] at hi
  have hstored := h.isSome_event?_iff i
  rw [← h.size_eq] at hstored
  rw [← Option.not_isSome_iff_eq_none, hstored]
  omega

/-- Of a window that ends behind the last event those up to the last event are there. -/
theorem length_extract_of_le (h : desk.InStep id) {start stop : Int} (h0 : 0 ≤ start)
    (hle : desk.store.size id ≤ stop) :
    ((desk.store.extract id ⟨start, stop⟩).length : Int) = max 0 (desk.store.size id - start) := by
  by_cases hbehind : desk.store.size id ≤ start
  · rw [h.extract_of_le hbehind, List.length_nil]
    omega
  · obtain ⟨last, hsize⟩ : ∃ last : Int, (desk.store.size id : Int) = last + 1 :=
      ⟨desk.store.size id - 1, by omega⟩
    have hlow : start ≤ last + 1 := by omega
    have hhigh : last ≤ stop := by omega
    have hfirst : (desk.store.extract id ⟨start, last⟩).length = Window.size ⟨start, last⟩ :=
      h.length_extract_of_lt h0 (by simp only; omega)
    have hlast : desk.store.extract id ⟨last + 1, stop⟩ = [] := h.extract_of_le (by simp only; omega)
    rw [Store.extract_append desk.store id last hlow hhigh, hlast, List.append_nil, hfirst]
    simp only [Window.size]
    omega

end Lifecycle.Desk.InStep
