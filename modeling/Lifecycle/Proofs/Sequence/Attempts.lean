import Lifecycle.Proofs.Sequence.Mark
import Mathlib.Order.Bounds.Defs

/-! # Attempts on one sequence

Whoever holds a sequence may put events at any indices and in any order: again, with gaps, late into
a gap, and at negative indices as well. After every such run the mark is the largest number up to
which all indices from 0 are stored. It never goes back. A put that fills the index behind the mark
starts a loop over the indices that were stored before it; the loop always ends, after no more steps
than there are events. -/

namespace Lifecycle.Sequence

/-- A put that a sequence is asked for. It may come through a reference that is held to an evicted
sequence, and its index may be any. -/
structure Attempt where
  now : Rat
  index : Int
  event : Event

/-- The sequence after a put. A put that an evicted sequence refuses leaves it as it is. -/
def attempt (s : Sequence) (a : Attempt) : Sequence :=
  match s.put a.now a.index a.event with
  | none => s
  | some (_, next) => next

/-- The sequence after some puts. -/
def run (s : Sequence) (attempts : List Attempt) : Sequence := attempts.foldl attempt s

theorem run_nil (s : Sequence) : s.run [] = s := rfl

theorem run_cons (s : Sequence) (a : Attempt) (rest : List Attempt) :
    s.run (a :: rest) = (s.attempt a).run rest := rfl

/-! ### The loop

The loop has no bound of its own: it asks whether the next index is stored and goes on from there. -/

/-- The loop that begins at `h` ends at `last`. -/
inductive Climbs (events : Std.TreeMap Int Event) : Int → Int → Prop
  | gap {h : Int} (next : events.contains (h + 1) = false) : Climbs events h h
  | step {h last : Int} (next : events.contains (h + 1) = true)
      (rest : Climbs events (h + 1) last) : Climbs events h last

variable {events : Std.TreeMap Int Event}

theorem Climbs.unique {h last other : Int} (first : Climbs events h last)
    (second : Climbs events h other) : other = last := by
  induction first with
  | gap hgap =>
    cases second with
    | gap _ => rfl
    | step hnext _ =>
      rw [hgap] at hnext
      exact absurd hnext Bool.false_ne_true
  | step hnext _ ih =>
    cases second with
    | gap hgap =>
      rw [hgap] at hnext
      exact absurd hnext Bool.false_ne_true
    | step _ hrest => exact ih hrest

/-- Steps that lead to a gap are those of the loop. -/
theorem climbs_of_gap {fuel : Nat} {h : Int}
    (hgap : events.contains (advance events fuel h + 1) = false) :
    Climbs events h (advance events fuel h) := by
  induction fuel generalizing h with
  | zero =>
    rw [advance] at hgap ⊢
    exact .gap hgap
  | succ fuel ih =>
    rw [advance] at hgap ⊢
    split at hgap
    · rename_i hnext
      rw [if_pos hnext]
      exact .step hnext (ih hgap)
    · rename_i hnext
      rw [if_neg hnext]
      exact .gap hgap

theorem climbs_advance (events : Std.TreeMap Int Event) (h : Int) :
    Climbs events h (advance events events.size h) :=
  climbs_of_gap (not_contains_advance events h)

theorem advance_le (events : Std.TreeMap Int Event) (fuel : Nat) (h : Int) :
    advance events fuel h ≤ h + fuel := by
  induction fuel generalizing h with
  | zero =>
    rw [advance]
    omega
  | succ fuel ih =>
    rw [advance]
    split
    · have hrest := ih (h + 1)
      omega
    · omega

/-! ### One put -/

section

variable {s : Sequence}

theorem attempt_of_live (live : s.evicted = false) (a : Attempt) :
    s.attempt a = (s.insert a.now a.index a.event).2 := by
  simp only [attempt, put, live, Bool.false_eq_true, if_false]

theorem evicted_attempt (live : s.evicted = false) (a : Attempt) :
    (s.attempt a).evicted = false := by
  rw [attempt_of_live live, insert_evicted, live]

theorem getElem?_eq_none_iff_holds (s : Sequence) (i : Int) :
    s.events[i]? = none ↔ s.holds i = false := by
  rw [holds, Std.TreeMap.contains_eq_isSome_getElem?, Option.isSome_eq_false_iff,
    Option.isNone_iff_eq_none]

theorem holds_attempt (live : s.evicted = false) (a : Attempt) (i : Int) :
    (s.attempt a).holds i = (s.holds i || a.index == i) := by
  rw [attempt_of_live live]
  cases h : s.events[a.index]? with
  | none => exact holds_insert_of_none h a.now a.event i
  | some kept =>
    rw [insert_of_some h]
    cases hi : a.index == i with
    | false => rw [Bool.or_false]
    | true =>
      have hheld : s.holds a.index = true := by
        rw [holds, Std.TreeMap.contains_eq_isSome_getElem?, h, Option.isSome_some]
      rw [← beq_iff_eq.1 hi, hheld, Bool.or_true]

theorem Sound.attempt (hs : s.Sound) (live : s.evicted = false) (a : Attempt) :
    (s.attempt a).Sound := by
  rw [attempt_of_live live]
  exact hs.insert a.now a.index a.event

/-- Only a put that fills the index behind the mark moves it, and as far as the loop gets. -/
theorem mark_attempt (live : s.evicted = false) (a : Attempt) :
    (s.attempt a).mark =
      if s.holds a.index = false ∧ a.index = s.mark + 1 then
        advance (s.attempt a).events (s.attempt a).events.size a.index
      else s.mark := by
  rw [attempt_of_live live]
  cases h : s.events[a.index]? with
  | some kept =>
    have hheld : ¬(s.holds a.index = false ∧ a.index = s.mark + 1) := by
      rintro ⟨hnone, -⟩
      rw [← getElem?_eq_none_iff_holds, h] at hnone
      exact absurd hnone (by simp)
    rw [insert_of_some h, if_neg hheld]
  | none =>
    have hnew := (getElem?_eq_none_iff_holds s a.index).1 h
    simp only [insert_of_none h, markAfter, hnew, true_and]

theorem mark_le_attempt (live : s.evicted = false) (a : Attempt) :
    s.mark ≤ (s.attempt a).mark := by
  rw [mark_attempt live]
  split
  · rename_i hnext
    have hle := le_advance (s.attempt a).events (s.attempt a).events.size a.index
    omega
  · exact Int.le_refl _

/-! ### Runs -/

theorem evicted_run (live : s.evicted = false) (attempts : List Attempt) :
    (s.run attempts).evicted = false := by
  induction attempts generalizing s with
  | nil => exact live
  | cons a rest ih => exact ih (evicted_attempt live a)

theorem Sound.run (hs : s.Sound) (live : s.evicted = false) (attempts : List Attempt) :
    (s.run attempts).Sound := by
  induction attempts generalizing s with
  | nil => exact hs
  | cons a rest ih => exact ih (hs.attempt live a) (evicted_attempt live a)

theorem mark_le_run (live : s.evicted = false) (attempts : List Attempt) :
    s.mark ≤ (s.run attempts).mark := by
  induction attempts generalizing s with
  | nil => exact Int.le_refl _
  | cons a rest ih =>
    have hfirst := mark_le_attempt live a
    have hrest := ih (evicted_attempt live a)
    rw [run_cons]
    omega

theorem holds_run_iff (live : s.evicted = false) (attempts : List Attempt) (i : Int) :
    (s.run attempts).holds i = true ↔ s.holds i = true ∨ ∃ a ∈ attempts, a.index = i := by
  induction attempts generalizing s with
  | nil =>
    rw [run_nil]
    simp
  | cons a rest ih =>
    rw [run_cons, ih (evicted_attempt live a), holds_attempt live, Bool.or_eq_true, beq_iff_eq,
      or_assoc]
    simp only [List.mem_cons, exists_eq_or_imp]

/-! ### The mark -/

/-- A sound mark is the greatest number up to which all indices from 0 are stored. -/
theorem Sound.isGreatest (hs : s.Sound) :
    IsGreatest {h : Int | ∀ i, 0 ≤ i → i ≤ h → s.holds i = true} s.mark := by
  refine ⟨hs.holds_of_le_mark, ?_⟩
  intro h hall
  by_contra hlt
  have hlow := hs.neg_one_le_mark
  have hnext := hall (s.mark + 1) (by omega) (by omega)
  rw [hs.not_holds_next] at hnext
  exact absurd hnext Bool.false_ne_true

theorem Sound.mark_eq_neg_one_iff (hs : s.Sound) : s.mark = -1 ↔ s.holds 0 = false := by
  have hlow := hs.neg_one_le_mark
  constructor
  · intro hmark
    have hnext := hs.not_holds_next
    rwa [hmark] at hnext
  · intro hnone
    by_contra hne
    have hzero := hs.holds_of_le_mark 0 (Int.le_refl 0) (by omega)
    rw [hnone] at hzero
    exact absurd hzero Bool.false_ne_true

end

/-- Whatever is put into a new sequence and in whatever order, the mark is the end of the unbroken
run of indices from 0; the loop of every put ends there, and the mark never goes back. -/
theorem mark_ends_unbroken_run (opened : Rat) (attempts : List Attempt) :
    let s := ({ lastWrite := opened } : Sequence).run attempts
    (∀ i, s.holds i = true ↔ ∃ a ∈ attempts, a.index = i) ∧
      IsGreatest {h : Int | ∀ i, 0 ≤ i → i ≤ h → s.holds i = true} s.mark ∧
      (s.mark = -1 ↔ s.holds 0 = false) ∧
      (∀ a : Attempt, ∃ last, Climbs (s.attempt a).events a.index last ∧
        (∀ other, Climbs (s.attempt a).events a.index other → other = last) ∧
        last ≤ a.index + (s.attempt a).size ∧
        (s.attempt a).mark =
          if s.holds a.index = false ∧ a.index = s.mark + 1 then last else s.mark) ∧
      ∀ more, s.mark ≤ (s.run more).mark := by
  intro s
  have hs : s.Sound := (sound_empty opened).run rfl attempts
  have live : s.evicted = false := evicted_run rfl attempts
  refine ⟨?_, hs.isGreatest, hs.mark_eq_neg_one_iff, ?_, mark_le_run live⟩
  · intro i
    have hempty : ({ lastWrite := opened } : Sequence).holds i = false := by simp [holds]
    rw [holds_run_iff rfl, hempty]
    simp only [Bool.false_eq_true, false_or]
  · intro a
    have hclimb := climbs_advance (s.attempt a).events a.index
    exact ⟨_, hclimb, fun other hother => hclimb.unique hother,
      advance_le (s.attempt a).events (s.attempt a).events.size a.index, mark_attempt live a⟩

/-- Puts out of order: above a gap, below 0, and twice at one index. -/
def scattered : List Attempt :=
  [⟨0, 2, ⟨2, "c", .zero false⟩⟩, ⟨1, -1, ⟨-1, "z", .zero false⟩⟩, ⟨2, 0, ⟨0, "a", .zero false⟩⟩,
    ⟨3, 2, ⟨2, "d", .zero false⟩⟩]

theorem late_put_moves_mark_over_gap :
    let s := ({ lastWrite := 0 } : Sequence).run scattered
    let late : Attempt := ⟨4, 1, ⟨1, "b", .zero false⟩⟩
    s.mark = 0 ∧ Climbs (s.attempt late).events 1 2 ∧ (s.attempt late).mark = 2 ∧
      s.mark ≤ (s.run [late]).mark := by
  intro s late
  obtain ⟨-, -, -, hloop, hmore⟩ := mark_ends_unbroken_run 0 scattered
  obtain ⟨last, hclimb, -, -, hmark⟩ := hloop late
  have hbefore : s.mark = 0 := by decide +kernel
  have hafter : (s.attempt late).mark = 2 := by decide +kernel
  have hfills : s.holds 1 = false ∧ (1 : Int) = s.mark + 1 := by decide +kernel
  rw [if_pos hfills] at hmark
  have hlast : last = 2 := hmark.symm.trans hafter
  rw [hlast] at hclimb
  exact ⟨hbefore, hclimb, hafter, hmore [late]⟩

end Lifecycle.Sequence
