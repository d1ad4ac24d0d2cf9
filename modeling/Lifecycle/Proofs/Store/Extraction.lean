import Lifecycle.Proofs.Store.Reads
import Mathlib.Data.List.Induction

/-! # Extraction of windows

The events of a window are found by asking for each of its indices, or, where the window is larger
than the sequence, by sorting out the stored indices. Both ways give the same events, one for each
stored index of the window and in ascending order, so a reader who turns the pages of a deployment
may be served either way from page to page. The event at an index is the one that was put there
first since the deployment was last dropped. -/

namespace Lifecycle

/-! ### Two searches -/

namespace Window

/-- Two windows that follow each other have the indices of both. -/
theorem indices_append {start middle stop : Int} (h0 : start ≤ middle + 1) (h1 : middle ≤ stop) :
    indices ⟨start, stop⟩ = indices ⟨start, middle⟩ ++ indices ⟨middle + 1, stop⟩ := by
  have hsize : size ⟨start, stop⟩ = size ⟨start, middle⟩ + size ⟨middle + 1, stop⟩ := by
    simp only [size]
    omega
  have hfirst : start + (size ⟨start, middle⟩ : Int) = middle + 1 := by
    simp only [size]
    omega
  simp only [indices, hsize, List.range_add, List.map_append, List.map_map]
  congr 1
  refine List.map_congr_left ?_
  intro k _
  simp only [Function.comp_apply]
  omega

end Window

namespace Sequence

/-- The events found by asking for each index of a window. -/
def ask (s : Sequence) (w : Window) : List Event := w.indices.filterMap fun i => s.events[i]?

/-- The events found by sorting those of the stored indices `keys` that lie in a window. -/
def sift (s : Sequence) (keys : List Int) (w : Window) : List Event :=
  ((keys.filter w.contains).mergeSort fun a b => a ≤ b).filterMap fun i => s.events[i]?

variable {s : Sequence} {w : Window}

theorem extract_eq_ask (s : Sequence) (w : Window) : s.extract w = s.ask w := extract_eq s w

theorem filterMap_filter_holds (s : Sequence) (l : List Int) :
    (l.filter s.holds).filterMap (fun i => s.events[i]?) = l.filterMap fun i => s.events[i]? := by
  rw [List.filterMap_filter]
  refine List.filterMap_congr ?_
  intro i _
  rw [holds, Std.TreeMap.contains_eq_isSome_getElem?]
  cases s.events[i]? <;> rfl

/-- In whatever order the stored indices are kept, sorting those of a window gives its stored
indices in ascending order. -/
theorem mergeSort_filter_keys {keys : List Int} (h : keys.Perm s.events.keys) (w : Window) :
    ((keys.filter w.contains).mergeSort fun a b => a ≤ b) = w.indices.filter s.holds := by
  have hsorted : ((keys.filter w.contains).mergeSort fun a b => a ≤ b).Pairwise (· ≤ ·) := by
    have transitive : ∀ a b c : Int, decide (a ≤ b) = true → decide (b ≤ c) = true →
        decide (a ≤ c) = true := by
      intro a b c hab hbc
      rw [decide_eq_true_iff] at *
      exact Int.le_trans hab hbc
    have total : ∀ a b : Int, (decide (a ≤ b) || decide (b ≤ a)) = true := by
      intro a b
      rw [Bool.or_eq_true, decide_eq_true_iff, decide_eq_true_iff]
      exact Int.le_total a b
    have hpair := List.pairwise_mergeSort transitive total (keys.filter w.contains)
    exact hpair.imp fun hab => of_decide_eq_true hab
  have hascending : (w.indices.filter s.holds).Pairwise (· ≤ ·) :=
    ((ascending_indices w).filter _).imp fun hab => Int.le_of_lt hab
  have hkeys : keys.Nodup := h.nodup_iff.2 Std.TreeMap.nodup_keys
  have hperm : (keys.filter w.contains).Perm (w.indices.filter s.holds) := by
    refine (List.perm_ext_iff_of_nodup (hkeys.filter _) ((nodup_indices w).filter _)).2 ?_
    intro i
    rw [List.mem_filter, List.mem_filter, h.mem_iff, Std.TreeMap.mem_keys, Window.contains_iff,
      Window.mem_indices, holds, Std.TreeMap.contains_iff_mem, and_comm]
  refine List.Perm.eq_of_pairwise ?_ hsorted hascending ((List.mergeSort_perm _ _).trans hperm)
  intro a b _ _ hab hba
  omega

theorem sift_eq_ask {keys : List Int} (h : keys.Perm s.events.keys) (w : Window) :
    s.sift keys w = s.ask w := by
  rw [sift, mergeSort_filter_keys h, filterMap_filter_holds, ask]

end Sequence

namespace Store

variable {store : Store} {id : String}

/-! ### Windows one after the other -/

theorem extract_append (store : Store) (id : String) {start stop : Int} (middle : Int)
    (h0 : start ≤ middle + 1) (h1 : middle ≤ stop) :
    store.extract id ⟨start, stop⟩ =
      store.extract id ⟨start, middle⟩ ++ store.extract id ⟨middle + 1, stop⟩ := by
  simp only [extract_eq, Window.indices_append h0 h1, List.filterMap_append]

theorem extract_of_empty (store : Store) (id : String) {w : Window} (h : w.stop < w.start) :
    store.extract id w = [] := by
  have hsize : w.size = 0 := by
    rw [Window.size_eq_zero_iff, Window.isEmpty_iff]
    exact h
  have hle := length_extract_le store id w
  exact List.eq_nil_of_length_eq_zero (by omega)

/-! ### Events and their indices -/

theorem ascending_extract (labelled : ∀ i event, store.event? id i = some event → event.index = i)
    (w : Window) : (store.extract id w).Pairwise fun a b => a.index < b.index := by
  rw [extract_eq, List.pairwise_filterMap]
  refine (Sequence.ascending_indices w).imp ?_
  intro i j hij a ha b hb
  rw [labelled i a ha, labelled j b hb]
  exact hij

theorem mem_extract_iff (labelled : ∀ i event, store.event? id i = some event → event.index = i)
    {w : Window} {event : Event} :
    event ∈ store.extract id w ↔
      w.start ≤ event.index ∧ event.index ≤ w.stop ∧
        store.event? id event.index = some event := by
  rw [extract_eq, List.mem_filterMap]
  constructor
  · rintro ⟨i, hi, hevent⟩
    rw [Window.mem_indices] at hi
    have hindex := labelled i event hevent
    subst hindex
    exact ⟨hi.1, hi.2, hevent⟩
  · rintro ⟨h0, h1, hevent⟩
    exact ⟨event.index, Window.mem_indices.2 ⟨h0, h1⟩, hevent⟩

/-! ### The first event at an index -/

/-- The event that an operation offers for an index of a deployment: that of a put which the store
does not refuse. -/
def Action.offer? (id : String) (i : Int) : Action → Option Event
  | .put _ other index event =>
    if other = id ∧ index = i ∧ 0 ≤ index ∧ event.index = index then some event else none
  | .evict _ => none
  | .evictIdle _ _ => none

/-- While its deployment is not dropped, an index takes the first event that it is offered. -/
theorem Sound.event?_act_of_keeps (hs : store.Sound) {action : Action}
    (h : store.drops id action = false) (i : Int) :
    (store.act action).event? id i = (store.event? id i).or (action.offer? id i) := by
  cases action with
  | evict other =>
    rcases hs.act_cases id (.evict other) with hdrop | hkeep | ⟨_, _, _, haction, -⟩
    · rw [hdrop.1] at h
      exact absurd h (by simp)
    · rw [event?_congr hkeep.2, Action.offer?, Option.or_none]
    · exact absurd haction (by simp)
  | evictIdle maxIdle now =>
    rcases hs.act_cases id (.evictIdle maxIdle now) with hdrop | hkeep | ⟨_, _, _, haction, -⟩
    · rw [hdrop.1] at h
      exact absurd h (by simp)
    · rw [event?_congr hkeep.2, Action.offer?, Option.or_none]
    · exact absurd haction (by simp)
  | put now other index event =>
    cases hcheck : check index event with
    | error fault =>
      have hbad : ¬(0 ≤ index ∧ event.index = index) := by
        rw [← check_eq_ok_iff, hcheck]
        simp
      rw [act_put_of_error (put_of_check_error hcheck store now other), Action.offer?,
        if_neg fun hoffer => hbad hoffer.2.2, Option.or_none]
    | ok _ =>
      have hgood := check_eq_ok_iff.1 hcheck
      rw [hs.event?_put hcheck, Action.offer?]
      by_cases hhere : other = id ∧ index = i
      · obtain ⟨rfl, rfl⟩ := hhere
        rw [if_pos ⟨rfl, rfl⟩, if_pos ⟨rfl, rfl, hgood⟩]
        cases store.event? other index <;> rfl
      · rw [if_neg fun heq => hhere ⟨heq.1.symm, heq.2.symm⟩,
          if_neg fun hoffer => hhere ⟨hoffer.1, hoffer.2.1⟩, Option.or_none]

/-- Since its deployment was last without a sequence each index has taken the first event that it
was offered. -/
theorem exists_since_drop (actions : List Action) (id : String) :
    ∃ before since, actions = before ++ since ∧ (({} : Store).run before).find? id = none ∧
      (({} : Store).run before).keeps id since = true ∧
      ∀ i, (({} : Store).run actions).event? id i = since.findSome? (Action.offer? id i) := by
  induction actions using List.reverseRecOn with
  | nil => exact ⟨[], [], rfl, rfl, rfl, fun _ => rfl⟩
  | append_singleton actions action ih =>
    have hs : (({} : Store).run actions).Sound := run_sound actions
    have hlast : ({} : Store).run (actions ++ [action]) = (({} : Store).run actions).act action :=
      run_append _ _ _
    cases hdrops : (({} : Store).run actions).drops id action with
    | true =>
      have hnone := hs.find?_act_of_drops hdrops
      rw [← hlast] at hnone
      exact ⟨actions ++ [action], [], (List.append_nil _).symm, hnone, rfl, event?_of_none hnone⟩
    | false =>
      obtain ⟨before, since, rfl, hnone, hkeeps, hevents⟩ := ih
      refine ⟨before, since ++ [action], (List.append_assoc _ _ _), hnone, ?_, ?_⟩
      · rw [keeps_append, hkeeps, ← run_append, keeps, hdrops]
        rfl
      · intro i
        rw [hlast, hs.event?_act_of_keeps hdrops, hevents, List.findSome?_append,
          List.findSome?_singleton]

/-! ### Main result -/

/-- A window of any size is read alike by both searches: the events at its stored indices in
ascending order, each of them the first that was put there. -/
theorem either_search_extracts_the_window (actions : List Action) (id : String) {start stop : Int}
    (h0 : 0 ≤ start) (h1 : 0 ≤ stop) :
    let store := ({} : Store).run actions
    let w : Window := ⟨start, stop⟩
    let events := store.extract id w
    Window.ofBounds start stop = .ok w ∧
      (events.Pairwise fun a b => a.index < b.index) ∧
      (∀ event, event ∈ events ↔ start ≤ event.index ∧ event.index ≤ stop ∧
        store.event? id event.index = some event) ∧
      (∃ before since, actions = before ++ since ∧ (({} : Store).run before).find? id = none ∧
        (({} : Store).run before).keeps id since = true ∧
        ∀ i, store.event? id i = since.findSome? (Action.offer? id i)) ∧
      (∀ s, store.find? id = some s →
        events = s.ask w ∧ ∀ keys, keys.Perm s.events.keys → events = s.sift keys w) ∧
      (store.find? id = none ∨ stop < start → events = []) ∧
      ∀ middle, start ≤ middle → middle < stop →
        events = store.extract id ⟨start, middle⟩ ++ store.extract id ⟨middle + 1, stop⟩ := by
  intro store w events
  have labelled : ∀ i event, store.event? id i = some event → event.index = i :=
    fun i event hevent => index_eq_of_run hevent
  refine ⟨Window.ofBounds_eq_ok_iff.2 ⟨h0, h1, rfl⟩, ascending_extract labelled w,
    fun event => mem_extract_iff labelled, exists_since_drop actions id, ?_, ?_, ?_⟩
  · intro s hfind
    have hask : events = s.ask w := by
      rw [← Sequence.extract_eq_ask]
      simp only [events, extract, hfind]
    exact ⟨hask, fun keys hkeys => hask.trans (Sequence.sift_eq_ask hkeys w).symm⟩
  · rintro (hnone | hempty)
    · simp only [events, extract, hnone]
    · exact extract_of_empty store id hempty
  · intro middle hle hlt
    exact extract_append store id _ (by omega) (by omega)

/-- A deployment that was dropped and filled again, out of order and with a gap. -/
def refilled : List Action :=
  [.put 0 "d" 1 ⟨1, "old", .zero false⟩, .evict "d", .put 1 "d" 2 ⟨2, "c", .zero false⟩,
    .put 1 "d" 0 ⟨0, "a", .zero false⟩, .put 2 "d" 2 ⟨2, "z", .zero false⟩]

/-- The whole window is larger than the sequence, and its two parts are not. -/
theorem pages_of_a_refilled_deployment :
    (0 : Int) ≤ 0 ∧ (0 : Int) ≤ 2 ∧
      let store := ({} : Store).run refilled
      (∃ s, store.find? "d" = some s ∧ s.size < Window.size ⟨0, 2⟩ ∧ Window.size ⟨1, 2⟩ ≤ s.size ∧
        store.extract "d" ⟨0, 2⟩ = s.ask ⟨0, 2⟩ ∧
        store.extract "d" ⟨0, 2⟩ = s.sift [2, 0] ⟨0, 2⟩) ∧
      store.extract "d" ⟨0, 2⟩ = [⟨0, "a", .zero false⟩, ⟨2, "c", .zero false⟩] ∧
      store.extract "d" ⟨0, 2⟩ = store.extract "d" ⟨0, 0⟩ ++ store.extract "d" ⟨1, 2⟩ ∧
      store.extract "e" ⟨0, 2⟩ = [] := by
  have h0 : (0 : Int) ≤ 0 := by decide
  have h1 : (0 : Int) ≤ 2 := by decide
  obtain ⟨-, -, -, -, hsearch, -, hpages⟩ := either_search_extracts_the_window refilled "d" h0 h1
  obtain ⟨-, -, -, -, -, hunknown, -⟩ := either_search_extracts_the_window refilled "e" h0 h1
  have hfind : ∃ s, (({} : Store).run refilled).find? "d" = some s ∧
      s.events.keys = [0, 2] ∧ s.size = 2 := ⟨_, rfl, rfl, rfl⟩
  obtain ⟨s, hs, hkeys, hsize⟩ := hfind
  obtain ⟨hask, hsift⟩ := hsearch s hs
  have harrived : [2, 0].Perm s.events.keys := hkeys ▸ List.Perm.swap 0 2 []
  refine ⟨h0, h1, ⟨s, hs, ?_, ?_, hask, hsift _ harrived⟩, rfl, hpages 0 h0 (by decide),
    hunknown (Or.inl rfl)⟩
  · rw [hsize]
    decide
  · rw [hsize]
    decide

end Store

end Lifecycle
