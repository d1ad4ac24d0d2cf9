/-! # Windows

A window is a closed interval of event indices with bounds that are not negative. A window whose
start lies after its end is empty. Windows may be far larger than any sequence, so nothing here
lists the indices of a window before its size is known. -/

namespace Lifecycle

/-- A closed interval of indices. -/
structure Window where
  start : Int
  stop : Int
  deriving DecidableEq, Repr, Inhabited

/-- Bounds that make no window. -/
structure BadBounds where
  start : Int
  stop : Int
  deriving DecidableEq, Repr

/-- The text of the refusal. -/
def BadBounds.message (b : BadBounds) : String :=
  s!"range bounds must be non-negative, got [{b.start}, {b.stop}]"

namespace Window

/-- The window with these bounds, if neither is negative. -/
def ofBounds (start stop : Int) : Except BadBounds Window :=
  if start < 0 ∨ stop < 0 then .error ⟨start, stop⟩ else .ok ⟨start, stop⟩

/-- No index lies in the window. -/
def isEmpty (w : Window) : Bool := w.stop < w.start

/-- The number of indices in the window. -/
def size (w : Window) : Nat := (w.stop + 1 - w.start).toNat

/-- The index lies in the window. -/
def contains (w : Window) (i : Int) : Bool := w.start ≤ i && i ≤ w.stop

/-- The indices of the window in ascending order. -/
def indices (w : Window) : List Int := (List.range w.size).map fun k : Nat => w.start + k

theorem ofBounds_eq_ok_iff {start stop : Int} {w : Window} :
    ofBounds start stop = .ok w ↔ 0 ≤ start ∧ 0 ≤ stop ∧ w = ⟨start, stop⟩ := by
  unfold ofBounds
  split
  · simp only [reduceCtorEq, false_iff]
    omega
  · simp only [Except.ok.injEq]
    constructor
    · rintro rfl
      exact ⟨by omega, by omega, rfl⟩
    · rintro ⟨-, -, rfl⟩
      rfl

theorem isEmpty_iff {w : Window} : w.isEmpty = true ↔ w.stop < w.start := by simp [isEmpty]

theorem contains_iff {w : Window} {i : Int} : w.contains i = true ↔ w.start ≤ i ∧ i ≤ w.stop := by
  simp [contains]

theorem size_eq_zero_iff {w : Window} : w.size = 0 ↔ w.isEmpty = true := by
  simp only [size, isEmpty, decide_eq_true_eq]
  omega

theorem length_indices (w : Window) : w.indices.length = w.size := by simp [indices]

theorem mem_indices {w : Window} {i : Int} : i ∈ w.indices ↔ w.start ≤ i ∧ i ≤ w.stop := by
  simp only [indices, List.mem_map, List.mem_range, size]
  constructor
  · rintro ⟨k, hk, rfl⟩
    omega
  · intro h
    exact ⟨(i - w.start).toNat, by omega, by omega⟩

end Window

end Lifecycle
