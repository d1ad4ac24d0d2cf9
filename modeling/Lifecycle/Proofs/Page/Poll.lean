import Lifecycle.Proofs.Store.Reads
import Lifecycle.Rehearsal
import Mathlib.Algebra.Group.Nat.Defs

/-! # Pages of a store that changes

A reader asks whether a window is complete and then takes its events, and puts and evictions may
come between the two reads. The page says what the second read found, whatever the first one was: it
is complete only if it has an event for every index, and else it counts those that are there.

Before a page is handed over it is put on record, and a record can only be written if each of its
numbers has at most 4300 digits. So no page is ever handed over of a window that is larger than
that, although its events can be read. Bounds that make no window are named in their refusal, so it
cannot be told of longer ones either. -/

namespace Lifecycle

/-! ### Numbers that can be written -/

theorem Number.isWritable_iff {n : Int} : isWritable n = true ↔ n.natAbs < 10 ^ maxDigits := by
  have hbase : 1 < 10 := by decide
  have hdigits : 0 < maxDigits := by decide
  rw [isWritable, isWithin, Option.all_some, decide_eq_true_iff, digitCount,
    Nat.length_toDigits_le_iff hbase hdigits]

theorem Journal.isTellable_iff {w : Window} :
    isTellable w = true ↔ w.start.natAbs < 10 ^ Number.maxDigits ∧
      w.stop.natAbs < 10 ^ Number.maxDigits ∧ w.size < 10 ^ Number.maxDigits := by
  rw [isTellable, Bool.and_eq_true, Bool.and_eq_true, Number.isWritable_iff, Number.isWritable_iff,
    Number.isWritable_iff, Int.natAbs_natCast, and_assoc]

namespace Page

/-- The page of a window with these bounds, read from two states of the store and put on record. -/
def poll (before after : Store) (id : String) (start stop : Int) (maxWait : Option Binary64)
    (correlation : Option String) : Traced Page :=
  match Window.asked start stop with
  | .error fault => .fail fault
  | .ok w => Journal.handOver (between before after id w maxWait) correlation

/-- A page says of its window what is stored there. -/
structure Truthful (page : Page) (store : Store) (id : String) (w : Window)
    (maxWait : Option Binary64) : Prop where
  deployment : page.deployment = id
  window : page.window = w
  complete : ∀ events, page.content = .complete events →
    events.map some = w.indices.map (store.event? id) ∧ events.map Event.index = w.indices
  incomplete : ∀ present patience, page.content = .incomplete present patience →
    (present = w.indices.countP fun i => (store.event? id i).isSome) ∧ patience = maxWait ∧
      present ≤ w.size ∧ page.missing = w.size - present

end Page

/-! ### The readers

The collector reads a page from one state of its store. A rehearsal may drop the deployment between
the two reads. -/

theorem Collector.page_eq_poll (c : Collector) (operation : String) (start stop : Int)
    (maxWait : Option Binary64) (correlation : Option String) :
    c.page operation start stop maxWait correlation = (do
      let page ← Page.poll c.store c.store operation start stop maxWait correlation
      .emit (.tally (.page page.isComplete))
      return page) := by
  rw [Collector.page, Page.poll]
  cases Window.asked start stop with
  | error fault => rfl
  | ok w => rfl

theorem Collector.value_page (c : Collector) (operation : String) (start stop : Int)
    (maxWait : Option Binary64) (correlation : Option String) :
    (c.page operation start stop maxWait correlation).value =
      (Page.poll c.store c.store operation start stop maxWait correlation).value := by
  rw [page_eq_poll, Traced.value_bind]
  cases (Page.poll c.store c.store operation start stop maxWait correlation).value <;> rfl

theorem Rehearsal.act?_poll (r : Rehearsal) (id : String) (start stop : Int)
    (maxWait : Option Binary64) (correlation : Option String) (evictBetween : Bool) :
    (r.act? (.poll id start stop maxWait correlation evictBetween)).value =
      (Page.poll r.store (if evictBetween then (r.store.evict id).2 else r.store) id start stop
        maxWait correlation).value.map .page := by
  rw [act?, inWindow, Page.poll]
  cases Window.asked start stop with
  | error fault => rfl
  | ok w => cases evictBetween <;> rfl

namespace Page

section

variable {before after : Store} {id : String} {w : Window} {start stop : Int}
  {maxWait : Option Binary64} {correlation : Option String}

/-! ### Two reads -/

theorem between_of_full (h : before.isComplete id w = true ∧ (after.extract id w).length = w.size)
    (maxWait : Option Binary64) :
    between before after id w maxWait = ⟨id, w, .complete (after.extract id w)⟩ := by
  simp only [between, h.1, h.2, beq_self_eq_true, Bool.and_self, if_true]

theorem between_of_gap
    (h : ¬(before.isComplete id w = true ∧ (after.extract id w).length = w.size))
    (maxWait : Option Binary64) :
    between before after id w maxWait =
      ⟨id, w, .incomplete (after.extract id w).length maxWait⟩ := by
  simp only [between, Bool.and_eq_true, beq_iff_eq, if_neg h]

theorem isComplete_between_iff :
    (between before after id w maxWait).isComplete = true ↔
      before.isComplete id w = true ∧ (after.extract id w).length = w.size := by
  by_cases h : before.isComplete id w = true ∧ (after.extract id w).length = w.size
  · simp only [between_of_full h, isComplete, h, and_self]
  · simp only [between_of_gap h, isComplete, h, Bool.false_eq_true]

theorem window_between (before after : Store) (id : String) (w : Window)
    (maxWait : Option Binary64) : (between before after id w maxWait).window = w := by
  by_cases h : before.isComplete id w = true ∧ (after.extract id w).length = w.size
  · rw [between_of_full h]
  · rw [between_of_gap h]

/-- The events that fill a window have its indices. -/
theorem map_index_extract (h : (after.extract id w).length = w.size)
    (labelled : ∀ i event, after.event? id i = some event → event.index = i) :
    (after.extract id w).map Event.index = w.indices := by
  rw [Store.length_extract_eq_size_iff] at h
  rw [Store.extract_eq, List.map_filterMap]
  refine (List.filterMap_congr ?_).trans List.filterMap_some
  intro i hi
  rw [Window.mem_indices] at hi
  obtain ⟨event, hevent⟩ := Option.isSome_iff_exists.1 (h i hi.1 hi.2)
  rw [hevent, Option.map_some, labelled i event hevent]

theorem truthful_between (before : Store) (w : Window) (maxWait : Option Binary64)
    (labelled : ∀ i event, after.event? id i = some event → event.index = i) :
    (between before after id w maxWait).Truthful after id w maxWait := by
  by_cases h : before.isComplete id w = true ∧ (after.extract id w).length = w.size
  · rw [between_of_full h]
    refine ⟨rfl, rfl, ?_, fun present patience hcontent => absurd hcontent (by simp)⟩
    intro events hcontent
    rw [← PageContent.complete.inj hcontent]
    exact ⟨Store.map_some_extract h.2, map_index_extract h.2 labelled⟩
  · rw [between_of_gap h]
    refine ⟨rfl, rfl, fun events hcontent => absurd hcontent (by simp), ?_⟩
    intro present patience hcontent
    obtain ⟨rfl, rfl⟩ := PageContent.incomplete.inj hcontent
    exact ⟨Store.length_extract after id w, rfl, Store.length_extract_le after id w, rfl⟩

/-- If nothing changes between the two reads, a page is complete exactly if its window is. -/
theorem isComplete_read_iff {store : Store} (hs : store.Sound) (h0 : 0 ≤ w.start) :
    (between store store id w maxWait).isComplete = true ↔
      ∀ i, w.start ≤ i → i ≤ w.stop → (store.event? id i).isSome = true := by
  rw [isComplete_between_iff, hs.isComplete_iff h0, Store.length_extract_eq_size_iff, and_self]

theorem one_le_missing_read {store : Store} (hs : store.Sound) (h0 : 0 ≤ w.start)
    (h : (between store store id w maxWait).isComplete = false) :
    1 ≤ (between store store id w maxWait).missing := by
  rw [← Bool.not_eq_true, isComplete_between_iff, hs.isComplete_iff h0,
    ← Store.length_extract_eq_size_iff, and_self] at h
  have hle := Store.length_extract_le store id w
  rw [between_of_gap fun hfull => h hfull.2, missing, present]
  simp only
  omega

/-- Of a deployment that is gone when the events are read, no event is counted. -/
theorem between_of_none (hnone : after.find? id = none) (hle : w.start ≤ w.stop) :
    (between before after id w maxWait).content = .incomplete 0 maxWait := by
  have hread : (after.extract id w).length = 0 := by
    rw [Store.extract, hnone, List.length_nil]
  have hsize : w.size ≠ 0 := by
    rw [Ne, Window.size_eq_zero_iff, Window.isEmpty_iff]
    omega
  rw [between_of_gap (by rw [hread]; exact fun h => hsize h.2.symm), hread]

/-! ### What a reader gets -/

theorem poll_of_negative (h : start < 0 ∨ stop < 0) (before after : Store) (id : String)
    (maxWait : Option Binary64) (correlation : Option String) :
    (poll before after id start stop maxWait correlation).value =
      .error (BadBounds.fault ⟨start, stop⟩) := by
  rw [poll, Window.asked_of_negative h]
  rfl

theorem poll_of_nonneg (h0 : 0 ≤ start) (h1 : 0 ≤ stop) (before after : Store) (id : String)
    (maxWait : Option Binary64) (correlation : Option String) :
    (poll before after id start stop maxWait correlation).value =
      if Journal.isTellable ⟨start, stop⟩ = true then
        .ok (between before after id ⟨start, stop⟩ maxWait)
      else .error .unwritable := by
  rw [poll, Window.asked_eq_ok_iff.2 ⟨h0, h1, rfl⟩]
  simp only [Journal.handOver, window_between]
  split <;> rfl

/-- A complete page is read of a window that was complete at the first read and had no gap at the
second. -/
theorem poll_complete_iff {events : List Event} :
    (∃ page, (poll before after id start stop maxWait correlation).value = .ok page ∧
      page.content = .complete events) ↔
      (0 ≤ start ∧ 0 ≤ stop) ∧ Journal.isTellable ⟨start, stop⟩ = true ∧
        before.isComplete id ⟨start, stop⟩ = true ∧
        (after.extract id ⟨start, stop⟩).length = Window.size ⟨start, stop⟩ ∧
        after.extract id ⟨start, stop⟩ = events := by
  by_cases hneg : start < 0 ∨ stop < 0
  · rw [poll_of_negative hneg]
    constructor
    · rintro ⟨page, h, -⟩
      exact absurd h (by simp)
    · intro h
      omega
  · rw [poll_of_nonneg (by omega) (by omega)]
    constructor
    · rintro ⟨page, h, hcontent⟩
      split at h
      · rename_i hshort
        rw [← Except.ok.inj h] at hcontent
        by_cases hfull : before.isComplete id ⟨start, stop⟩ = true ∧
            (after.extract id ⟨start, stop⟩).length = Window.size ⟨start, stop⟩
        · rw [between_of_full hfull] at hcontent
          exact ⟨by omega, hshort, hfull.1, hfull.2, PageContent.complete.inj hcontent⟩
        · rw [between_of_gap hfull] at hcontent
          exact absurd hcontent (by simp)
      · exact absurd h (by simp)
    · rintro ⟨-, hshort, hcomplete, hfull, rfl⟩
      exact ⟨_, if_pos hshort, by rw [between_of_full ⟨hcomplete, hfull⟩]⟩

theorem poll_eq_badBounds_iff :
    (∃ bounds, (poll before after id start stop maxWait correlation).value =
      .error (.badBounds bounds)) ↔
      (start < 0 ∨ stop < 0) ∧ Number.isWritable start = true ∧ Number.isWritable stop = true := by
  by_cases hneg : start < 0 ∨ stop < 0
  · rw [poll_of_negative hneg, BadBounds.fault]
    cases Number.isWritable start <;> cases Number.isWritable stop <;> simp [hneg]
  · rw [poll_of_nonneg (by omega) (by omega)]
    refine iff_of_false ?_ fun h => hneg h.1
    rintro ⟨bounds, h⟩
    split at h <;> exact absurd h (by simp)

theorem poll_eq_unwritable_iff :
    (poll before after id start stop maxWait correlation).value = .error .unwritable ↔
      Number.isWritable start = false ∨ Number.isWritable stop = false ∨
        0 ≤ start ∧ 0 ≤ stop ∧ Number.isWritable (Window.size ⟨start, stop⟩) = false := by
  by_cases hneg : start < 0 ∨ stop < 0
  · -- a refusal names the bounds and no size
    have hsize : ¬(0 ≤ start ∧ 0 ≤ stop ∧
        Number.isWritable (Window.size ⟨start, stop⟩) = false) := by omega
    rw [poll_of_negative hneg, or_iff_left hsize, BadBounds.fault]
    cases Number.isWritable start <;> cases Number.isWritable stop <;> simp
  · have h0 : 0 ≤ start := by omega
    have h1 : 0 ≤ stop := by omega
    rw [poll_of_nonneg h0 h1, Journal.isTellable]
    simp only [h0, h1, true_and]
    cases Number.isWritable start <;> cases Number.isWritable stop <;>
      cases Number.isWritable (Window.size ⟨start, stop⟩) <;> simp

/-- A page is read of every window whose numbers can be written, and it says what the second of its
two reads found, whatever happened to the store in between. Bounds below zero are refused by name,
and where a bound or the size of the window cannot be written there is neither a page nor such a
refusal. -/
theorem poll_reflects_second_read (earlier meanwhile : List Store.Action) (id : String)
    (start stop : Int) (maxWait : Option Binary64) (correlation : Option String) :
    let before := ({} : Store).run earlier
    let after := before.run meanwhile
    let w : Window := ⟨start, stop⟩
    let answer := (poll before after id start stop maxWait correlation).value
    ((∃ bounds, answer = .error (.badBounds bounds)) ↔
        (start < 0 ∨ stop < 0) ∧ Number.isWritable start = true ∧
          Number.isWritable stop = true) ∧
      (answer = .error .unwritable ↔
        Number.isWritable start = false ∨ Number.isWritable stop = false ∨
          0 ≤ start ∧ 0 ≤ stop ∧ Number.isWritable w.size = false) ∧
      (0 ≤ start → 0 ≤ stop → Journal.isTellable w = true → ∃ page, answer = .ok page ∧
        page.Truthful after id w maxWait ∧
        (after = before →
          (page.isComplete = true ↔
            stop < start ∨ ∀ i, start ≤ i → i ≤ stop → (after.event? id i).isSome = true) ∧
          (page.isComplete = false → 1 ≤ page.missing)) ∧
        ∀ first drop rest, meanwhile = first ++ drop :: rest →
          (before.run first).drops id drop = true →
          (∀ action ∈ rest, action.putsTo id = false) → start ≤ stop →
          page.content = .incomplete 0 maxWait) := by
  intro before after w answer
  have hbefore : before.Sound := Store.run_sound earlier
  have hrun : after = ({} : Store).run (earlier ++ meanwhile) := by
    rw [Store.run_append]
  refine ⟨poll_eq_badBounds_iff, poll_eq_unwritable_iff, ?_⟩
  · intro h0 h1 hshort
    refine ⟨between before after id w maxWait,
      (poll_of_nonneg h0 h1 before after id maxWait correlation).trans (if_pos hshort), ?_, ?_, ?_⟩
    · refine truthful_between before w maxWait ?_
      intro i event hevent
      rw [hrun] at hevent
      exact Store.index_eq_of_run hevent
    · intro hsame
      rw [hsame]
      refine ⟨?_, one_le_missing_read hbefore h0⟩
      rw [isComplete_read_iff hbefore h0]
      constructor
      · exact Or.inr
      · rintro (hempty | hall)
        · intro i h2 h3
          simp only [w] at h2 h3
          omega
        · exact hall
    · rintro first drop rest rfl hdrop hputs hle
      refine between_of_none ?_ hle
      have hfirst := hbefore.run first
      simp only [after, Store.run_append]
      exact (hfirst.act drop).find?_run_of_none (hfirst.find?_act_of_drops hdrop) hputs

end

/-- Two events of a deployment, whose sequence is then evicted and opened for another one. -/
def filled : List Store.Action :=
  [.put 0 "d" 1 ⟨1, "b", .zero false⟩, .put 0 "d" 0 ⟨0, "a", .zero false⟩]

def emptied : List Store.Action := [.evict "d", .put 1 "e" 0 ⟨0, "a", .zero false⟩]

theorem emptied_window_counts_nothing :
    let before := ({} : Store).run filled
    before.isComplete "d" ⟨0, 1⟩ = true ∧
      ∃ page, (poll before (before.run emptied) "d" 0 1 none none).value = .ok page ∧
        page.content = .incomplete 0 none ∧ page.missing = 2 := by
  obtain ⟨-, -, hread⟩ := poll_reflects_second_read filled emptied "d" 0 1 none none
  obtain ⟨page, hvalue, htrue, -, hgone⟩ := hread (by decide) (by decide) (by decide)
  have hputs : ∀ action ∈ [Store.Action.put 1 "e" 0 ⟨0, "a", .zero false⟩],
      action.putsTo "d" = false := by decide
  have hcontent := hgone [] (.evict "d") _ rfl rfl hputs (by decide)
  exact ⟨rfl, page, hvalue, hcontent, (htrue.incomplete 0 none hcontent).2.2.2⟩

/-- A window whose bounds can be written and whose size has a digit too many: the store answers for
it, but its reader gets no page. -/
theorem huge_window_gets_no_page :
    let store := ({} : Store).run filled
    let stop : Int := ((10 ^ Number.maxDigits : Nat) : Int) - 1
    Window.ofBounds 0 stop = .ok ⟨0, stop⟩ ∧ store.isComplete "d" ⟨0, stop⟩ = false ∧
      (poll store store "d" 0 stop none none).value = .error .unwritable := by
  intro store stop
  have hlarge : 2 < 10 ^ Number.maxDigits := by
    have hten : 10 ^ 1 ≤ 10 ^ Number.maxDigits := Nat.pow_le_pow_right (by decide) (by decide)
    omega
  have h1 : 0 ≤ stop := by omega
  have hgap : store.event? "d" 2 = none := rfl
  have hlong : Journal.isTellable ⟨0, stop⟩ = false := by
    rw [← Bool.not_eq_true, Journal.isTellable_iff]
    simp only [Window.size]
    omega
  refine ⟨Window.ofBounds_eq_ok_iff.2 ⟨Int.le_refl 0, h1, rfl⟩, ?_, ?_⟩
  · rw [← Bool.not_eq_true, (Store.run_sound filled).isComplete_iff (Int.le_refl 0)]
    intro hall
    have hstored := hall 2 (by decide) (by simp only; omega)
    exact absurd hstored (by rw [hgap]; decide)
  · rw [poll_of_nonneg (Int.le_refl 0) h1, if_neg (by rw [hlong]; decide)]

end Page

end Lifecycle
