import Lifecycle.Waiting
import Mathlib.Algebra.BigOperators.Group.List.Basic
import Mathlib.Algebra.Order.Ring.Rat
import Mathlib.Data.List.Chain
import Mathlib.Tactic.Linarith

/-! # The turns of a wait

A wait goes on for an unknown number of turns: the page is read, and unless that was the last
reading a pause follows. Here the turns of a whole wait are listed without any bound on their
number. If time moves by the pauses alone, each turn but the last one leaves less patience, by a
whole interval unless it leaves none, so a wait with a deadline comes to an end, and a bound that is
large enough for the patience never cuts it short. -/

namespace Lifecycle.Waiting

variable {σ : Type}

/-- Time moves by the length of each pause that does not fail, and not while the page is read. -/
structure KeepsTime (w : Waiting σ) : Prop where
  poll : ∀ s left, w.now (w.poll s left).state = w.now s
  pause : ∀ s seconds, (w.pause s seconds).value = .ok () →
    w.now (w.pause s seconds).state = w.now s + seconds

/-- A reading of the page, and the pause behind it if there was one. -/
structure Turn where
  time : Rat
  told : Option Rat
  page : Except Fault Page
  pause : Option Rat

/-- The pauses among some turns. -/
def Turn.pauses (turns : List Turn) : List Rat := turns.filterMap Turn.pause

section

variable (w : Waiting σ) (deadline : Deadline) (interval : Option Rat) (s : σ)

/-- The patience that is left in a state. -/
def left : Option Rat := remaining deadline (w.now s)

/-- The reading of a turn. -/
def reading : Outcome σ Page := w.poll s (told (w.left deadline s))

/-- The pause of a turn. -/
def pausing : Outcome σ Unit :=
  w.pause (w.reading deadline s).state (pauseLength interval (w.left deadline s))

/-- The turn that begins in a state, with the pause behind it. -/
def turn (pause : Option Rat) : Turn :=
  ⟨w.now s, told (w.left deadline s), (w.reading deadline s).value, pause⟩

/-- The reading is not the last one. -/
def GoesOn : Prop :=
  ∃ page, (w.reading deadline s).value = .ok page ∧ page.isComplete = false ∧
    isOver (w.left deadline s) = false

/-- A whole wait from a state on, with its turns and what it leaves. -/
inductive Loop (w : Waiting σ) (deadline : Deadline) (interval : Option Rat) :
    σ → List Turn → Outcome σ Page → Prop
  | ends {s : σ} (last : ¬ w.GoesOn deadline s) :
    Loop w deadline interval s [w.turn deadline s none] (w.reading deadline s)
  | fails {s : σ} {fault : Fault} (on : w.GoesOn deadline s)
    (failed : (w.pausing deadline interval s).value = .error fault) :
    Loop w deadline interval s
      [w.turn deadline s (some (pauseLength interval (w.left deadline s)))]
      ⟨(w.pausing deadline interval s).state, .error fault,
        (w.reading deadline s).effects ++ (w.pausing deadline interval s).effects⟩
  | again {s : σ} {turns : List Turn} {rest : Outcome σ Page} (on : w.GoesOn deadline s)
    (paused : (w.pausing deadline interval s).value = .ok ())
    (more : Loop w deadline interval (w.pausing deadline interval s).state turns rest) :
    Loop w deadline interval s
      (w.turn deadline s (some (pauseLength interval (w.left deadline s))) :: turns)
      { rest with
        effects := (w.reading deadline s).effects ++ (w.pausing deadline interval s).effects ++
          rest.effects }

end

section

variable {w : Waiting σ} {deadline : Deadline} {interval : Option Rat} {s : σ}

/-! ### One turn -/

theorem await_of_last (last : ¬ w.GoesOn deadline s) (fuel : Nat) :
    w.await deadline interval fuel s = w.reading deadline s := by
  cases fuel with
  | zero => rfl
  | succ fuel =>
    simp only [await]
    split
    · rfl
    · rename_i page hpage
      have hover : (page.isComplete || isOver (remaining deadline (w.now s))) = true := by
        rw [← Bool.not_eq_false, Bool.or_eq_false_iff]
        exact fun ⟨hcomplete, hleft⟩ => last ⟨page, hpage, hcomplete, hleft⟩
      rw [if_pos hover]
      rfl

theorem await_of_goesOn (on : w.GoesOn deadline s) (fuel : Nat) :
    w.await deadline interval (fuel + 1) s =
      match (w.pausing deadline interval s).value with
      | .error fault =>
        ⟨(w.pausing deadline interval s).state, .error fault,
          (w.reading deadline s).effects ++ (w.pausing deadline interval s).effects⟩
      | .ok _ =>
        let rest := w.await deadline interval fuel (w.pausing deadline interval s).state
        { rest with
          effects := (w.reading deadline s).effects ++ (w.pausing deadline interval s).effects ++
            rest.effects } := by
  obtain ⟨page, hpage, hcomplete, hleft⟩ := on
  rw [reading] at hpage
  rw [left] at hpage hleft
  simp only [await, hpage, hcomplete, hleft, Bool.or_false, Bool.false_eq_true, if_false]
  rfl

end

section

variable {w : Waiting σ} {deadline i : Rat} {s : σ}

theorem isOver_left_iff : isOver (w.left (some deadline) s) = true ↔ deadline ≤ w.now s := by
  simp only [isOver, left, remaining, Option.map_some, Option.any_some, decide_eq_true_eq,
    sub_nonpos]

theorem GoesOn.now_lt (on : w.GoesOn (some deadline) s) : w.now s < deadline := by
  obtain ⟨-, -, -, hleft⟩ := on
  rwa [← Bool.not_eq_true, isOver_left_iff, not_le] at hleft

theorem told_left (w : Waiting σ) (deadline : Rat) (s : σ) :
    told (w.left (some deadline) s) = some (max (deadline - w.now s) 0) := by
  simp only [told, left, remaining, Option.map_some, Option.some.injEq]
  split
  · rename_i h
    exact (max_eq_right h).symm
  · rename_i h
    exact (max_eq_left (le_of_not_ge h)).symm

/-- A pause takes a whole interval, or else all patience that is left. -/
theorem pauseLength_cases (i left : Rat) :
    (pauseLength (some i) (some left) = i ∧ i ≤ left) ∨
      (pauseLength (some i) (some left) = left ∧ left < i) := by
  simp only [pauseLength, Option.map_some, Option.getD_some]
  split
  · rename_i h
    exact Or.inl ⟨rfl, h⟩
  · rename_i h
    exact Or.inr ⟨rfl, not_le.1 h⟩

theorem now_pausing (keeps : w.KeepsTime) {deadline : Deadline} {interval : Option Rat} {s : σ}
    (paused : (w.pausing deadline interval s).value = .ok ()) :
    w.now (w.pausing deadline interval s).state =
      w.now s + pauseLength interval (w.left deadline s) := by
  rw [pausing] at paused
  rw [pausing, keeps.pause _ _ paused, reading, keeps.poll]

/-- What is left behind a pause. -/
theorem left_pausing_le (keeps : w.KeepsTime) (on : w.GoesOn (some deadline) s)
    (paused : (w.pausing (some deadline) (some i) s).value = .ok ()) {n : Nat}
    (h : deadline - w.now s ≤ (n + 1 : Nat) * i) :
    deadline - w.now (w.pausing (some deadline) (some i) s).state ≤ n * i := by
  have hlt := on.now_lt
  rw [Nat.cast_succ, add_mul, one_mul] at h
  rw [now_pausing keeps paused]
  obtain ⟨hlength, -⟩ | ⟨hlength, hshort⟩ := pauseLength_cases i (deadline - w.now s)
  · have hpause : pauseLength (some i) (w.left (some deadline) s) = i := hlength
    linarith
  · have hpause : pauseLength (some i) (w.left (some deadline) s) = deadline - w.now s := hlength
    have hallowed : 0 ≤ (n : Rat) * i := mul_nonneg (Nat.cast_nonneg n) (by linarith)
    linarith

theorem pauseLength_bounds (positive : 0 < i) (on : w.GoesOn (some deadline) s) :
    0 < pauseLength (some i) (w.left (some deadline) s) ∧
      pauseLength (some i) (w.left (some deadline) s) ≤ deadline - w.now s := by
  have hlt := on.now_lt
  obtain ⟨hlength, hle⟩ | ⟨hlength, -⟩ := pauseLength_cases i (deadline - w.now s)
  · have hpause : pauseLength (some i) (w.left (some deadline) s) = i := hlength
    constructor <;> linarith
  · have hpause : pauseLength (some i) (w.left (some deadline) s) = deadline - w.now s := hlength
    constructor <;> linarith

/-! ### Whole waits -/

/-- A bound that is large enough for the patience does not cut the wait short. -/
theorem exists_loop_await (keeps : w.KeepsTime) {fuel : Nat}
    (enough : deadline - w.now s ≤ fuel * i) :
    ∃ turns, w.Loop (some deadline) (some i) s turns (w.await (some deadline) (some i) fuel s) ∧
      turns.length ≤ fuel + 1 := by
  induction fuel generalizing s with
  | zero =>
    have hlast : ¬ w.GoesOn (some deadline) s := by
      intro on
      have hlt := on.now_lt
      rw [Nat.cast_zero, zero_mul] at enough
      linarith
    exact ⟨_, .ends hlast, Nat.le_refl 1⟩
  | succ fuel ih =>
    by_cases on : w.GoesOn (some deadline) s
    · rw [await_of_goesOn on]
      cases hpaused : (w.pausing (some deadline) (some i) s).value with
      | error fault => exact ⟨_, .fails on hpaused, Nat.le_add_left 1 (fuel + 1)⟩
      | ok =>
        obtain ⟨turns, hloop, hcount⟩ := ih (left_pausing_le keeps on hpaused enough)
        exact ⟨_, .again on hpaused hloop, Nat.succ_le_succ hcount⟩
    · rw [await_of_last on]
      exact ⟨_, .ends on, Nat.le_add_left 1 (fuel + 1)⟩

/-- The turns of a wait that keeps to its patience, and what it comes to. -/
structure InTime (start patience : Rat) (turns : List Turn) (value : Except Fault Page) : Prop where
  pauses_pos : ∀ seconds ∈ Turn.pauses turns, 0 < seconds
  sum_pauses : (Turn.pauses turns).sum ≤ max patience 0
  /-- What the reader is told is less each time. -/
  told : ∃ told : List Rat, turns.map Turn.told = told.map some ∧ told.Pairwise (· > ·) ∧
    ∀ left ∈ told, 0 ≤ left ∧ left ≤ max patience 0
  /-- Every reading but the last one finds a gap. -/
  earlier : ∀ t ∈ turns.dropLast, ∃ page, t.page = .ok page ∧ page.isComplete = false
  /-- If the last one finds a gap as well it is made when the patience is used up. -/
  last : ∃ t, turns.getLast? = some t ∧ ∀ page, value = .ok page → t.page = .ok page ∧
    (page.isComplete = false → t.time = start + max patience 0)

/-- A wait of one turn. -/
theorem inTime_singleton {t : Turn} {patience : Rat} {value : Except Fault Page}
    (told : t.told = some (max patience 0))
    (pause : ∀ seconds ∈ t.pause, 0 < seconds ∧ seconds ≤ patience)
    (last : ∀ page, value = .ok page → t.page = .ok page ∧
      (page.isComplete = false → patience ≤ 0)) :
    InTime t.time patience [t] value where
  pauses_pos := by
    intro seconds hmem
    obtain ⟨t', ht', hpause⟩ := List.mem_filterMap.1 hmem
    rw [List.mem_singleton.1 ht'] at hpause
    exact (pause seconds hpause).1
  sum_pauses := by
    cases h : t.pause with
    | none =>
      have hnone : Turn.pauses [t] = [] := by simp [Turn.pauses, h]
      rw [hnone, List.sum_nil]
      exact le_max_right _ _
    | some seconds =>
      have hone : Turn.pauses [t] = [seconds] := by simp [Turn.pauses, h]
      rw [hone, List.sum_singleton]
      exact (pause seconds h).2.trans (le_max_left _ _)
  told := by
    refine ⟨[max patience 0], by simp [told], List.pairwise_singleton _ _, ?_⟩
    intro left hleft
    rw [List.mem_singleton.1 hleft]
    exact ⟨le_max_right _ _, le_rfl⟩
  earlier := by
    intro t' ht'
    exact absurd ht' List.not_mem_nil
  last := by
    refine ⟨t, rfl, ?_⟩
    intro page hpage
    obtain ⟨hread, hover⟩ := last page hpage
    refine ⟨hread, ?_⟩
    intro hgap
    rw [max_eq_right (hover hgap), add_zero]

/-- One more turn in front of a wait. -/
theorem InTime.cons {t : Turn} {patience : Rat} {turns : List Turn} {value : Except Fault Page}
    {seconds : Rat} (h : InTime (t.time + seconds) (patience - seconds) turns value)
    (told : t.told = some (max patience 0)) (pause : t.pause = some seconds)
    (positive : 0 < seconds) (le : seconds ≤ patience)
    (gap : ∃ page, t.page = .ok page ∧ page.isComplete = false) (hne : turns ≠ []) :
    InTime t.time patience (t :: turns) value := by
  have hpauses : Turn.pauses (t :: turns) = seconds :: Turn.pauses turns := by
    simp [Turn.pauses, pause]
  have hnow : max patience 0 = patience := max_eq_left (by linarith)
  have hlater : max (patience - seconds) 0 = patience - seconds := max_eq_left (by linarith)
  obtain ⟨later, hmap, hsorted, hbounds⟩ := h.told
  obtain ⟨last, hlast, hpage⟩ := h.last
  have hsum := h.sum_pauses
  rw [hlater] at hsum hbounds hpage
  rw [hnow] at told
  refine ⟨?_, ?_, ?_, ?_, ?_⟩
  · rw [hpauses]
    intro x hx
    obtain rfl | hx := List.mem_cons.1 hx
    · exact positive
    · exact h.pauses_pos x hx
  · rw [hpauses, List.sum_cons, hnow]
    linarith
  · refine ⟨patience :: later, ?_, ?_, ?_⟩
    · rw [List.map_cons, List.map_cons, told, hmap]
    · -- whatever the reader is told later is less by this pause at least
      refine List.pairwise_cons.2 ⟨?_, hsorted⟩
      intro left hleft
      have hle := (hbounds left hleft).2
      show left < patience
      linarith
    · rw [hnow]
      intro left hleft
      obtain rfl | hleft := List.mem_cons.1 hleft
      · exact ⟨by linarith, le_rfl⟩
      · exact ⟨(hbounds left hleft).1, by linarith [(hbounds left hleft).2]⟩
  · rw [List.dropLast_cons_of_ne_nil hne]
    intro t' ht'
    obtain rfl | ht' := List.mem_cons.1 ht'
    · exact gap
    · exact h.earlier t' ht'
  · refine ⟨last, by rw [List.getLast?_cons, hlast, Option.getD_some], ?_⟩
    intro page hvalue
    obtain ⟨hread, htime⟩ := hpage page hvalue
    refine ⟨hread, ?_⟩
    intro hgap
    rw [htime hgap, hnow]
    linarith

theorem Loop.ne_nil {interval : Option Rat} {deadline : Deadline} {turns : List Turn}
    {outcome : Outcome σ Page} (h : w.Loop deadline interval s turns outcome) : turns ≠ [] := by
  cases h <;> exact List.cons_ne_nil _ _

/-- Every wait keeps to the patience with which it begins. -/
theorem Loop.inTime (keeps : w.KeepsTime) (positive : 0 < i) {turns : List Turn}
    {outcome : Outcome σ Page} (h : w.Loop (some deadline) (some i) s turns outcome) :
    InTime (w.now s) (deadline - w.now s) turns outcome.value := by
  induction h with
  | @ends s last =>
    refine inTime_singleton (t := w.turn (some deadline) s none) (told_left w deadline s) ?_ ?_
    · intro seconds hpause
      exact absurd hpause (by simp [turn])
    · intro page hpage
      refine ⟨hpage, ?_⟩
      intro hgap
      refine sub_nonpos.2 (isOver_left_iff.1 ?_)
      rw [← Bool.not_eq_false]
      exact fun hleft => last ⟨page, hpage, hgap, hleft⟩
  | @fails s fault on failed =>
    refine inTime_singleton (t := w.turn (some deadline) s _) (told_left w deadline s) ?_ ?_
    · intro seconds hpause
      obtain rfl := Option.some.inj hpause
      exact pauseLength_bounds positive on
    · intro page hpage
      exact absurd hpage (by simp)
  | @again s turns rest on paused more ih =>
    obtain ⟨hpos, hle⟩ := pauseLength_bounds positive on
    rw [now_pausing keeps paused, ← sub_sub] at ih
    obtain ⟨page, hpage, hgap, -⟩ := on
    exact InTime.cons (t := w.turn (some deadline) s _) ih (told_left w deadline s) rfl hpos hle
      ⟨page, hpage, hgap⟩ more.ne_nil

end

end Lifecycle.Waiting
