import Lifecycle.Proofs.Store.Reads
import Mathlib.Data.List.Induction

/-! # Sweeps of idle sequences

How long a deployment has had its sequence, and when a new event was last stored there, can be told
from the operations alone: refused puts and puts at indices that are taken do not count, and after
an eviction all begins anew. A sweep drops the deployments that have had no new event for too long,
in the order in which their sequences were opened, and it does nothing else. It is the same as
evicting them one by one, in whatever order. -/

namespace Lifecycle.Store

/-! ### Tenures -/

/-- How long a deployment has had its sequence. -/
structure Tenure where
  /-- The number of the operation that opened the sequence. -/
  opened : Nat
  /-- When a new event was last put. -/
  lastNew : Rat
  /-- The indices that have been put. -/
  filled : List Int

/-- The tenure after a put at an index, which counts only if the index is new. -/
def Tenure.take (t : Tenure) (now : Rat) (index : Int) : Tenure :=
  if index ∈ t.filled then t else { t with lastNew := now, filled := index :: t.filled }

/-- The tenure after the operation with the number `n`. -/
def Action.follow (id : String) (n : Nat) (old : Option Tenure) : Action → Option Tenure
  | .put now other index event =>
    if other = id ∧ 0 ≤ index ∧ event.index = index then
      some ((old.getD ⟨n, now, []⟩).take now index)
    else old
  | .evict other => if other = id then none else old
  | .evictIdle maxIdle now => old.filter fun t => !decide (maxIdle < now - t.lastNew)

/-- The tenure after some operations, the first of which has the number `n`. -/
def tenureFrom (id : String) (n : Nat) (old : Option Tenure) : List Action → Option Tenure
  | [] => old
  | action :: rest => tenureFrom id (n + 1) (action.follow id n old) rest

/-- The tenure of a deployment after some operations on an empty store. -/
def tenure? (id : String) (actions : List Action) : Option Tenure := tenureFrom id 0 none actions

theorem tenureFrom_concat (id : String) (n : Nat) (old : Option Tenure) (actions : List Action)
    (action : Action) :
    tenureFrom id n old (actions ++ [action]) =
      action.follow id (n + actions.length) (tenureFrom id n old actions) := by
  induction actions generalizing n old with
  | nil => rfl
  | cons first rest ih =>
    rw [List.cons_append, tenureFrom, ih, tenureFrom, List.length_cons, Nat.add_assoc,
      Nat.add_comm 1]

theorem tenure?_concat (id : String) (actions : List Action) (action : Action) :
    tenure? id (actions ++ [action]) = action.follow id actions.length (tenure? id actions) := by
  rw [tenure?, tenureFrom_concat, Nat.zero_add]
  rfl

theorem opened_follow {id : String} {n : Nat} {action : Action} {old new : Tenure}
    (h : action.follow id n (some old) = some new) : new.opened = old.opened := by
  cases action with
  | put now other index event =>
    simp only [Action.follow, Option.getD_some] at h
    split at h
    · rw [← Option.some.inj h, Tenure.take]
      split <;> rfl
    · rw [← Option.some.inj h]
  | evict other =>
    simp only [Action.follow] at h
    split at h
    · exact absurd h (by simp)
    · rw [← Option.some.inj h]
  | evictIdle maxIdle now =>
    rw [Action.follow, Option.filter_eq_some_iff] at h
    rw [← Option.some.inj h.1]

/-! ### Slots -/

section

variable {store : Store} {k : Nat} {s : Slot}

theorem Sound.slots_evict (hs : store.Sound) (id : String) :
    (store.evict id).2.slots =
      store.slots.map fun s => if s.serves id then s.detach.markEvicted else s := by
  apply List.ext_getElem?
  intro j
  rw [List.getElem?_map]
  cases hc : store.current? id with
  | none =>
    rw [evict_of_none hc]
    cases hj : store.slots[j]? with
    | none => rfl
    | some s =>
      rw [Option.map_some, current?_eq_none_iff.1 hc j s hj]
      rfl
  | some k =>
    obtain ⟨t, hk, hserves⟩ := serves_of_current? hc
    rw [evict_of_current? hc]
    show ((store.detach k).markEvicted k).slots[j]? = _
    rw [slots_markEvicted, slots_detach]
    by_cases hkj : k = j
    · subst hkj
      rw [if_pos rfl, if_pos rfl, hk, Option.map_some, Option.map_some, Option.map_some, hserves]
      rfl
    · rw [if_neg hkj, if_neg hkj]
      cases hj : store.slots[j]? with
      | none => rfl
      | some s =>
        have hother : ¬ s.serves id = true :=
          fun h => hkj (hs.unique k j t s id hk hj hserves h)
        rw [Option.map_some, if_neg hother]

theorem Sound.registered_of_evicted (hs : store.Sound) (hk : store.slots[k]? = some s)
    (evicted : s.sequence.evicted = true) : s.registered = false := by
  rw [← Bool.not_eq_true]
  intro hregistered
  rw [hs.live k s hk hregistered] at evicted
  exact absurd evicted (by simp)

/-- Nothing is done any more to a sequence that was evicted. -/
theorem Sound.slots_act_of_evicted (hs : store.Sound) (hk : store.slots[k]? = some s)
    (evicted : s.sequence.evicted = true) (action : Action) :
    (store.act action).slots[k]? = some s := by
  have hunregistered := hs.registered_of_evicted hk evicted
  cases action with
  | put now id index event =>
    cases hcheck : check index event with
    | error fault =>
      rw [act_put_of_error (put_of_check_error hcheck store now id)]
      exact hk
    | ok _ =>
      rw [act_put_of_ok (hs.put_eq hcheck now id), slots_setSequence]
      have hlater := getElem?_lookup hk now id
      have hother : (store.lookup now id).1 ≠ k := by
        obtain ⟨t, ht, -, hseq⟩ := hs.lookup_serves now id
        rintro rfl
        rw [hlater] at ht
        rw [Option.some.inj ht, hseq, (sequenceAt_sound hs now id).2] at evicted
        exact absurd evicted (by simp)
      rw [if_neg hother, hlater]
  | evict id =>
    have hserves : s.serves id = false := by rw [Slot.serves, hunregistered, Bool.false_and]
    show (store.evict id).2.slots[k]? = _
    rw [hs.slots_evict, List.getElem?_map, hk, Option.map_some, hserves]
    rfl
  | evictIdle maxIdle now =>
    have hidle : s.isIdle maxIdle now = false := by
      rw [Slot.isIdle, hunregistered, Bool.false_and]
    show (store.evictIdle maxIdle now).2.slots[k]? = _
    rw [slots_evictIdle, hk, Option.map_some, hidle]
    rfl

theorem Sound.slots_run_of_evicted (hs : store.Sound) (hk : store.slots[k]? = some s)
    (evicted : s.sequence.evicted = true) (actions : List Action) :
    (store.run actions).slots[k]? = some s := by
  induction actions generalizing store with
  | nil => exact hk
  | cons action rest ih => exact ih (hs.act action) (hs.slots_act_of_evicted hk evicted action)

/-- A registered sequence was registered for the same deployment before, or is a new one behind all
others. -/
theorem Sound.registered_of_act (hs : store.Sound) {action : Action}
    (hk : (store.act action).slots[k]? = some s) (registered : s.registered = true) :
    (∃ t, store.slots[k]? = some t ∧ t.registered = true ∧ t.deployment = s.deployment) ∨
      (k = store.slots.length ∧ store.find? s.deployment = none) := by
  cases action with
  | put now id index event =>
    cases hcheck : check index event with
    | error fault =>
      rw [act_put_of_error (put_of_check_error hcheck store now id)] at hk
      exact Or.inl ⟨s, hk, registered, rfl⟩
    | ok _ =>
      rw [act_put_of_ok (hs.put_eq hcheck now id), slots_setSequence] at hk
      have hfound : ∃ t, (store.lookup now id).2.slots[k]? = some t ∧ t.registered = true ∧
          t.deployment = s.deployment := by
        split at hk
        · obtain ⟨t, ht, rfl⟩ := Option.map_eq_some_iff.1 hk
          exact ⟨t, ht, registered, rfl⟩
        · exact ⟨s, hk, registered, rfl⟩
      obtain ⟨t, ht, hregistered, hdeployment⟩ := hfound
      rcases getElem?_of_lookup ht with hold | ⟨hnone, hlast, rfl⟩
      · exact Or.inl ⟨t, hold, hregistered, hdeployment⟩
      · rw [← hdeployment]
        exact Or.inr ⟨hlast, find?_eq_none_iff_current?.2 hnone⟩
  | evict id =>
    have hmap : (store.evict id).2.slots[k]? = some s := hk
    rw [hs.slots_evict, List.getElem?_map] at hmap
    obtain ⟨t, ht, rfl⟩ := Option.map_eq_some_iff.1 hmap
    split at registered
    · exact absurd registered (by simp [Slot.detach, Slot.markEvicted])
    · rename_i hserves
      rw [if_neg hserves]
      exact Or.inl ⟨t, ht, registered, rfl⟩
  | evictIdle maxIdle now =>
    have hmap : (store.evictIdle maxIdle now).2.slots[k]? = some s := hk
    rw [slots_evictIdle] at hmap
    obtain ⟨t, ht, rfl⟩ := Option.map_eq_some_iff.1 hmap
    split at registered
    · exact absurd registered (by simp [Slot.detach, Slot.markEvicted])
    · rename_i hidle
      rw [if_neg hidle]
      exact Or.inl ⟨t, ht, registered, rfl⟩

end

/-! ### Sequences as their tenures tell -/

/-- The sequence is as the tenure tells. -/
structure Tenure.Of (t : Tenure) (s : Sequence) : Prop where
  lastWrite : s.lastWrite = t.lastNew
  filled : ∀ i, s.events[i]?.isSome = true ↔ i ∈ t.filled

theorem Tenure.Of.insert {t : Tenure} {s : Sequence} (h : t.Of s) (now : Rat) (i : Int)
    (event : Event) : (t.take now i).Of (s.insert now i event).2 := by
  rw [take]
  cases hi : s.events[i]? with
  | some kept =>
    have hmem : i ∈ t.filled := (h.filled i).1 (by rw [hi, Option.isSome_some])
    rw [Sequence.insert_of_some hi, if_pos hmem]
    exact h
  | none =>
    have hmem : i ∉ t.filled := by
      rw [← h.filled, hi, Option.isSome_none]
      exact Bool.false_ne_true
    rw [if_neg hmem]
    refine ⟨by rw [Sequence.insert_of_none hi], ?_⟩
    intro j
    rw [Sequence.getElem?_insert, List.mem_cons]
    by_cases hj : j = i
    · rw [if_pos hj]
      exact iff_of_true rfl (Or.inl hj)
    · rw [if_neg hj, h.filled, or_iff_right hj]

variable {store : Store} {tenure : Option Tenure} {id : String}

theorem of_sequenceAt (h : Option.Rel Tenure.Of tenure (store.find? id)) (n : Nat) (now : Rat) :
    (tenure.getD ⟨n, now, []⟩).Of (store.sequenceAt now id) := by
  rw [sequenceAt]
  generalize store.find? id = found at h ⊢
  cases h with
  | none =>
    refine ⟨rfl, ?_⟩
    intro i
    simp
  | some h => exact h

theorem Sound.follow (hs : store.Sound) (h : Option.Rel Tenure.Of tenure (store.find? id)) (n : Nat)
    (action : Action) :
    Option.Rel Tenure.Of (action.follow id n tenure) ((store.act action).find? id) := by
  cases action with
  | put now other index event =>
    cases hcheck : check index event with
    | error fault =>
      have hbad : ¬(0 ≤ index ∧ event.index = index) := by
        rw [← check_eq_ok_iff, hcheck]
        simp
      rw [act_put_of_error (put_of_check_error hcheck store now other), Action.follow,
        if_neg fun hgood => hbad hgood.2]
      exact h
    | ok _ =>
      obtain ⟨hindex, hevent⟩ := check_eq_ok_iff.1 hcheck
      obtain ⟨report, next, hput, -, -, hfind⟩ := hs.put_spec hcheck now other
      rw [act_put_of_ok hput, hfind]
      by_cases hid : id = other
      · subst hid
        rw [if_pos rfl, Action.follow, if_pos ⟨rfl, hindex, hevent⟩]
        exact Option.Rel.some ((of_sequenceAt h n now).insert now index event)
      · rw [if_neg hid, Action.follow, if_neg fun hgood => hid hgood.1.symm]
        exact h
  | evict other =>
    show Option.Rel _ _ ((store.evict other).2.find? id)
    rw [(hs.evict_spec other).2, Action.follow]
    by_cases hid : id = other
    · rw [if_pos hid, if_pos hid.symm]
      exact Option.Rel.none
    · rw [if_neg hid, if_neg (Ne.symm hid)]
      exact h
  | evictIdle maxIdle now =>
    show Option.Rel _ _ ((store.evictIdle maxIdle now).2.find? id)
    rw [(hs.evictIdle_spec maxIdle now).2, Action.follow]
    generalize store.find? id = found at h ⊢
    cases h with
    | none => exact Option.Rel.none
    | @some t s h =>
      rw [Option.filter_some, Option.filter_some, Sequence.isIdle, h.lastWrite]
      split
      · exact Option.Rel.some h
      · exact Option.Rel.none

/-! ### The order of opening -/

theorem opened_follow_none {n : Nat} {action : Action} {new : Tenure}
    (h : action.follow id n none = some new) : new.opened = n := by
  cases action with
  | put now other index event =>
    simp only [Action.follow, Option.getD_none] at h
    split at h
    · rw [← Option.some.inj h, Tenure.take]
      split <;> rfl
    · exact absurd h (by simp)
  | evict other =>
    simp only [Action.follow, ite_self] at h
    exact absurd h (by simp)
  | evictIdle maxIdle now => exact absurd h (by simp [Action.follow])

/-- The store after some operations is as the operations tell. -/
structure Told (actions : List Action) : Prop where
  sequences : ∀ id, Option.Rel Tenure.Of (tenure? id actions) ((({} : Store).run actions).find? id)
  opened_lt : ∀ id t, tenure? id actions = some t → t.opened < actions.length
  ordered : ∀ (i j : Nat) (a b : Slot), i < j → (({} : Store).run actions).slots[i]? = some a →
    (({} : Store).run actions).slots[j]? = some b → a.registered = true → b.registered = true →
    ∀ s t, tenure? a.deployment actions = some s → tenure? b.deployment actions = some t →
      s.opened < t.opened

variable {actions : List Action}

theorem Told.exists_tenure (h : Told actions) {s : Sequence}
    (hfind : (({} : Store).run actions).find? id = some s) :
    ∃ t, tenure? id actions = some t ∧ t.Of s := by
  have hrel := h.sequences id
  rw [hfind] at hrel
  generalize tenure? id actions = tenure at hrel ⊢
  cases hrel with
  | some hof => exact ⟨_, rfl, hof⟩

theorem Told.exists_sequence (h : Told actions) {t : Tenure}
    (htenure : tenure? id actions = some t) :
    ∃ s, (({} : Store).run actions).find? id = some s ∧ t.Of s := by
  have hrel := h.sequences id
  rw [htenure] at hrel
  generalize (({} : Store).run actions).find? id = found at hrel ⊢
  cases hrel with
  | some hof => exact ⟨_, rfl, hof⟩

theorem Told.tenure_of_slot (h : Told actions) {k : Nat} {s : Slot}
    (hk : (({} : Store).run actions).slots[k]? = some s) (registered : s.registered = true) :
    ∃ t, tenure? s.deployment actions = some t ∧ t.Of s.sequence :=
  h.exists_tenure ((run_sound actions).unique.find?_eq_some_iff.2
    ⟨k, s, hk, Slot.serves_iff.2 ⟨registered, rfl⟩, rfl⟩)

theorem Told.tenure?_of_find?_none (h : Told actions)
    (hnone : (({} : Store).run actions).find? id = none) : tenure? id actions = none := by
  cases htenure : tenure? id actions with
  | none => rfl
  | some t =>
    obtain ⟨s, hfind, -⟩ := h.exists_sequence htenure
    rw [hnone] at hfind
    exact absurd hfind (by simp)

/-- The last operation does not change when a sequence was opened that was there before. -/
theorem Told.opened_concat (h : Told actions) {action : Action} {k : Nat} {s : Slot} {new : Tenure}
    (hk : (({} : Store).run actions).slots[k]? = some s) (registered : s.registered = true)
    (hnew : tenure? s.deployment (actions ++ [action]) = some new) :
    ∃ old, tenure? s.deployment actions = some old ∧ new.opened = old.opened := by
  obtain ⟨old, hold, -⟩ := h.tenure_of_slot hk registered
  rw [tenure?_concat, hold] at hnew
  exact ⟨old, hold, opened_follow hnew⟩

theorem Told.opened_lt_concat (h : Told actions) {action : Action} {t : Tenure}
    (htenure : tenure? id (actions ++ [action]) = some t) :
    t.opened < (actions ++ [action]).length := by
  rw [tenure?_concat] at htenure
  rw [List.length_append, List.length_singleton]
  cases hold : tenure? id actions with
  | none =>
    rw [hold] at htenure
    rw [opened_follow_none htenure]
    omega
  | some old =>
    rw [hold] at htenure
    have hbefore := h.opened_lt id old hold
    rw [opened_follow htenure]
    omega

theorem Told.ordered_concat (h : Told actions) {action : Action} {i j : Nat} {a b : Slot}
    (hij : i < j) (hi : ((({} : Store).run actions).act action).slots[i]? = some a)
    (hj : ((({} : Store).run actions).act action).slots[j]? = some b) (ha : a.registered = true)
    (hb : b.registered = true) {s t : Tenure}
    (hs : tenure? a.deployment (actions ++ [action]) = some s)
    (ht : tenure? b.deployment (actions ++ [action]) = some t) : s.opened < t.opened := by
  have hsound : (({} : Store).run actions).Sound := run_sound actions
  rcases hsound.registered_of_act hi ha with ⟨a', hi', ha', hdeployment⟩ | ⟨hend, -⟩
  · rw [← hdeployment] at hs
    obtain ⟨s', hs', hopened⟩ := h.opened_concat hi' ha' hs
    rcases hsound.registered_of_act hj hb with ⟨b', hj', hb', hdeployment'⟩ | ⟨-, hnone⟩
    · rw [← hdeployment'] at ht
      obtain ⟨t', ht', hopened'⟩ := h.opened_concat hj' hb' ht
      rw [hopened, hopened']
      exact h.ordered i j a' b' hij hi' hj' ha' hb' s' t' hs' ht'
    · -- the later sequence is the one that the last operation opened
      rw [tenure?_concat, h.tenure?_of_find?_none hnone] at ht
      rw [hopened, opened_follow_none ht]
      exact h.opened_lt _ s' hs'
  · -- the earlier sequence is already the last of all
    rcases hsound.registered_of_act hj hb with ⟨b', hj', -, -⟩ | ⟨hend', -⟩
    · have hbound := (List.getElem?_eq_some_iff.1 hj').1
      omega
    · omega

theorem told (actions : List Action) : Told actions := by
  induction actions using List.reverseRecOn with
  | nil =>
    refine ⟨fun id => Option.Rel.none, fun id t h => ?_, fun i j a b hij hi => ?_⟩
    · exact absurd h (by simp [tenure?, tenureFrom])
    · exact absurd hi (by simp [run])
  | append_singleton actions action ih =>
    have hlast : ({} : Store).run (actions ++ [action]) = (({} : Store).run actions).act action :=
      run_append _ _ _
    refine ⟨?_, fun id t h => ih.opened_lt_concat h, ?_⟩
    · intro id
      rw [hlast, tenure?_concat]
      exact (run_sound actions).follow (ih.sequences id) _ action
    · intro i j a b hij hi hj ha hb s t hs ht
      rw [hlast] at hi hj
      exact ih.ordered_concat hij hi hj ha hb hs ht

/-! ### The sweep -/

/-- The deployment is read as one that was never put to. -/
structure Unknown (store : Store) (id : String) : Prop where
  find? : store.find? id = none
  extract : ∀ w, store.extract id w = []
  isComplete : ∀ w, store.isComplete id w = true ↔ w.stop < w.start
  mark : store.mark id = -1
  size : store.size id = 0
  not_mem_ids : id ∉ store.ids

theorem Sound.unknown_of_find? (hs : store.Sound) (h : store.find? id = none) :
    store.Unknown id where
  find? := h
  extract := by
    intro w
    rw [Store.extract, h]
  isComplete := isComplete_of_none h
  mark := by
    rw [Store.mark, h]
    rfl
  size := by
    rw [Store.size, h]
    rfl
  not_mem_ids := by
    rw [ids, List.mem_mergeSort, hs.mem_registered_iff, h, Option.isSome_none]
    exact Bool.false_ne_true

theorem isIdle_markEvicted_detach (s : Slot) (maxIdle now : Rat) :
    s.detach.markEvicted.isIdle maxIdle now = false := rfl

/-- A second sweep at the same time finds nothing to do. -/
theorem evictIdle_evictIdle (store : Store) (maxIdle now : Rat) :
    (store.evictIdle maxIdle now).2.evictIdle maxIdle now =
      ([], (store.evictIdle maxIdle now).2) := by
  have hbusy : ∀ s ∈ (store.evictIdle maxIdle now).2.slots, s.isIdle maxIdle now = false := by
    intro s hs
    obtain ⟨t, -, rfl⟩ := List.mem_map.1 hs
    split
    · exact isIdle_markEvicted_detach t maxIdle now
    · rename_i hidle
      exact Bool.eq_false_iff.2 hidle
  generalize (store.evictIdle maxIdle now).2 = swept at hbusy ⊢
  have hnone : swept.slots.filter (fun s => s.isIdle maxIdle now) = [] := by
    rw [List.filter_eq_nil_iff]
    intro s hs
    rw [hbusy s hs]
    exact Bool.false_ne_true
  have hsame : (swept.slots.map fun s =>
      if s.isIdle maxIdle now then s.detach.markEvicted else s) = swept.slots := by
    conv_rhs => rw [← List.map_id swept.slots]
    refine List.map_congr_left ?_
    intro s hs
    rw [hbusy s hs]
    rfl
  rw [evictIdle, hnone, hsame]
  rfl

theorem evictIdle_sublist (store : Store) {maxIdle longer : Rat} (h : maxIdle ≤ longer) (now : Rat) :
    (store.evictIdle longer now).1.Sublist (store.evictIdle maxIdle now).1 := by
  refine List.Sublist.map _ (List.monotone_filter_right _ ?_)
  intro s hidle
  rw [Slot.isIdle, Bool.and_eq_true, Sequence.isIdle, decide_eq_true_eq] at hidle ⊢
  exact ⟨hidle.1, Std.lt_of_le_of_lt h hidle.2⟩

/-- The evictions of some deployments, one after the other, take away their sequences and no others. -/
theorem Sound.slots_run_evict (hs : store.Sound) (ids : List String) :
    (store.run (ids.map .evict)).slots = store.slots.map fun s =>
      if s.registered && ids.contains s.deployment then s.detach.markEvicted else s := by
  induction ids generalizing store with
  | nil =>
    show store.slots = _
    conv_lhs => rw [← List.map_id store.slots]
    refine List.map_congr_left ?_
    intro s _
    rw [List.contains_nil, Bool.and_false]
    rfl
  | cons id rest ih =>
    have hnext : store.run ((id :: rest).map .evict) =
        (store.evict id).2.run (rest.map .evict) := rfl
    rw [hnext, ih (hs.evict_spec id).1, hs.slots_evict, List.map_map]
    refine List.map_congr_left ?_
    intro s _
    rw [Function.comp_apply]
    cases hserves : s.serves id with
    | true =>
      -- its sequence is gone by the first eviction, and the later ones leave it alone
      have hfirst : (s.registered && (id :: rest).contains s.deployment) = true := by
        rw [(Slot.serves_iff.1 hserves).1, (Slot.serves_iff.1 hserves).2, List.contains_cons,
          beq_self_eq_true]
        rfl
      rw [if_pos rfl, hfirst]
      rfl
    | false =>
      have hother : (s.registered && (id :: rest).contains s.deployment) =
          (s.registered && rest.contains s.deployment) := by
        rw [Slot.serves, Bool.and_eq_false_iff] at hserves
        rcases hserves with hregistered | hdeployment
        · rw [hregistered, Bool.false_and, Bool.false_and]
        · rw [List.contains_cons, hdeployment, Bool.false_or]
      rw [if_neg Bool.false_ne_true, hother]

theorem Sound.isIdle_iff (hs : store.Sound) {k : Nat} {s : Slot} (hk : store.slots[k]? = some s)
    (maxIdle now : Rat) :
    s.isIdle maxIdle now = true ↔
      s.registered = true ∧ s.deployment ∈ (store.evictIdle maxIdle now).1 := by
  rw [Slot.isIdle, Bool.and_eq_true]
  refine and_congr_right ?_
  intro hregistered
  have hfind : store.find? s.deployment = some s.sequence :=
    hs.unique.find?_eq_some_iff.2 ⟨k, s, hk, Slot.serves_iff.2 ⟨hregistered, rfl⟩, rfl⟩
  rw [hs.mem_evictIdle_iff, hfind]
  constructor
  · intro hidle
    exact ⟨s.sequence, rfl, hidle⟩
  · rintro ⟨q, hq, hidle⟩
    rwa [Option.some.inj hq]

/-- The sweep evicts the deployments that it names, in whatever order. -/
theorem Sound.run_evict_of_perm (hs : store.Sound) {maxIdle now : Rat} {order : List String}
    (h : order.Perm (store.evictIdle maxIdle now).1) :
    store.run (order.map .evict) = (store.evictIdle maxIdle now).2 := by
  have hslots : (store.run (order.map .evict)).slots = (store.evictIdle maxIdle now).2.slots := by
    rw [hs.slots_run_evict]
    refine List.map_congr_left ?_
    intro s hmem
    obtain ⟨k, hk⟩ := List.mem_iff_getElem?.1 hmem
    have hidle : (s.registered && order.contains s.deployment) = s.isIdle maxIdle now := by
      rw [Bool.eq_iff_iff, hs.isIdle_iff hk, Bool.and_eq_true, List.contains_iff_mem, h.mem_iff]
    rw [hidle]
  exact congrArg Store.mk hslots

theorem Told.mem_evictIdle_iff (h : Told actions) {maxIdle now : Rat} :
    id ∈ ((({} : Store).run actions).evictIdle maxIdle now).1 ↔
      ∃ t, tenure? id actions = some t ∧ maxIdle < now - t.lastNew := by
  rw [(run_sound actions).mem_evictIdle_iff]
  constructor
  · rintro ⟨s, hfind, hidle⟩
    obtain ⟨t, htenure, hof⟩ := h.exists_tenure hfind
    rw [Sequence.isIdle, decide_eq_true_eq, hof.lastWrite] at hidle
    exact ⟨t, htenure, hidle⟩
  · rintro ⟨t, htenure, hlong⟩
    obtain ⟨s, hfind, hof⟩ := h.exists_sequence htenure
    refine ⟨s, hfind, ?_⟩
    rw [Sequence.isIdle, decide_eq_true_eq, hof.lastWrite]
    exact hlong

theorem Told.pairwise_evictIdle (h : Told actions) (maxIdle now : Rat) :
    ((({} : Store).run actions).evictIdle maxIdle now).1.Pairwise fun a b =>
      ∃ s t, tenure? a actions = some s ∧ tenure? b actions = some t ∧ s.opened < t.opened := by
  rw [evictIdle, List.pairwise_map, List.pairwise_filter, List.pairwise_iff_getElem]
  intro i j hi hj hlt hfirst hsecond
  have hslot := List.getElem?_eq_getElem hi
  have hslot' := List.getElem?_eq_getElem hj
  have hregistered := (Bool.and_eq_true_iff.1 hfirst).1
  have hregistered' := (Bool.and_eq_true_iff.1 hsecond).1
  obtain ⟨s, hs, -⟩ := h.tenure_of_slot hslot hregistered
  obtain ⟨t, ht, -⟩ := h.tenure_of_slot hslot' hregistered'
  exact ⟨s, t, hs, ht, h.ordered i j _ _ hlt hslot hslot' hregistered hregistered' s t hs ht⟩

theorem Sound.find?_evictIdle_of_mem (hs : store.Sound) {maxIdle now : Rat}
    (h : id ∈ (store.evictIdle maxIdle now).1) : (store.evictIdle maxIdle now).2.find? id = none := by
  obtain ⟨s, hfind, hidle⟩ := hs.mem_evictIdle_iff.1 h
  rw [(hs.evictIdle_spec maxIdle now).2, hfind, Option.filter_some, hidle]
  rfl

/-! ### Main result -/

/-- A sweep drops exactly the deployments without a new event for too long, oldest sequence first,
and does nothing else. -/
theorem idle_sweep_is_exact (actions : List Action) (maxIdle now : Rat) :
    let store := ({} : Store).run actions
    let idle := (store.evictIdle maxIdle now).1
    let swept := (store.evictIdle maxIdle now).2
    (∀ id, Option.Rel Tenure.Of (tenure? id actions) (store.find? id)) ∧
      (∀ id, id ∈ idle ↔ ∃ t, tenure? id actions = some t ∧ maxIdle < now - t.lastNew) ∧
      (idle.Pairwise fun a b =>
        ∃ s t, tenure? a actions = some s ∧ tenure? b actions = some t ∧ s.opened < t.opened) ∧
      (∀ id ∈ idle, swept.Unknown id) ∧
      (∀ (k : Nat) (s : Slot), store.slots[k]? = some s → s.registered = true →
        s.deployment ∈ idle → ∀ later time index event,
          (swept.run later).write time k index event = none) ∧
      (∀ (k : Nat) (s : Slot), store.slots[k]? = some s →
        (s.registered = true → s.deployment ∉ idle) → swept.slots[k]? = some s) ∧
      (∀ id, id ∉ idle → swept.find? id = store.find? id) ∧
      swept.evictIdle maxIdle now = ([], swept) ∧
      (∀ longer, maxIdle ≤ longer → (store.evictIdle longer now).1.Sublist idle) ∧
      ∀ order : List String, order.Perm idle → store.run (order.map .evict) = swept := by
  intro store idle swept
  have hs : store.Sound := run_sound actions
  have hswept : swept.Sound := (hs.evictIdle_spec maxIdle now).1
  have htold := told actions
  refine ⟨htold.sequences, fun id => htold.mem_evictIdle_iff,
    htold.pairwise_evictIdle maxIdle now,
    fun id hid => hswept.unknown_of_find? (hs.find?_evictIdle_of_mem hid), ?_, ?_,
    fun id hid => hs.find?_evictIdle_of_not_mem hid, evictIdle_evictIdle store maxIdle now,
    fun longer h => evictIdle_sublist store h now, fun order h => hs.run_evict_of_perm h⟩
  · intro k s hk hregistered hmem later time index event
    have hidle := (hs.isIdle_iff hk maxIdle now).2 ⟨hregistered, hmem⟩
    have hmarked : swept.slots[k]? = some s.detach.markEvicted := by
      rw [slots_evictIdle, hk, Option.map_some, if_pos hidle]
    exact write_of_evicted (hswept.slots_run_of_evicted hmarked rfl later) rfl time index event
  · intro k s hk hspared
    have hbusy : ¬ s.isIdle maxIdle now = true := by
      rw [hs.isIdle_iff hk]
      exact fun h => hspared h.1 h.2
    rw [slots_evictIdle, hk, Option.map_some, if_neg hbusy]

/-- Two deployments, one of which was evicted and came back, and a put that comes too late. -/
def returned : List Action :=
  [.put 0 "d" 0 ⟨0, "a", .zero false⟩, .put 1 "e" 0 ⟨0, "a", .zero false⟩, .evict "d",
    .put 2 "d" 0 ⟨0, "b", .zero false⟩, .put 9 "e" 0 ⟨0, "z", .zero false⟩]

theorem returned_deployment_is_swept_last :
    let store := ({} : Store).run returned
    let swept := (store.evictIdle 3 10).2
    (store.evictIdle 3 10).1 = ["e", "d"] ∧ swept.Unknown "d" ∧
      (∀ later time index event, (swept.run later).write time 1 index event = none) ∧
      store.run [.evict "d", .evict "e"] = swept ∧
      (store.evictIdle 8 10).1.Sublist (store.evictIdle 3 10).1 := by
  intro store swept
  have hidle : (store.evictIdle 3 10).1 = ["e", "d"] := by decide +kernel
  obtain ⟨-, -, -, hunknown, hheld, -, -, -, hlonger, horder⟩ := idle_sweep_is_exact returned 3 10
  have hslot : ∃ s, store.slots[1]? = some s ∧ s.registered = true ∧ s.deployment = "e" :=
    ⟨_, rfl, rfl, rfl⟩
  obtain ⟨s, hs, hregistered, hdeployment⟩ := hslot
  refine ⟨hidle, hunknown "d" (by rw [hidle]; decide), ?_,
    horder ["d", "e"] (hidle ▸ List.Perm.swap "e" "d" []), hlonger 8 (by decide)⟩
  intro later time index event
  refine hheld 1 s hs hregistered ?_ later time index event
  rw [hdeployment, hidle]
  exact List.mem_cons_self

end Lifecycle.Store
