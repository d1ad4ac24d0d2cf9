import Lifecycle.Proofs.Sequence.Mark
import Lifecycle.Store

/-! # The registry of sequences

A store keeps sequences that no longer serve anyone beside those that do. In a sound store a
deployment has at most one registered sequence, a registered sequence is never marked as evicted,
and the mark of every sequence is right. Then the registered sequence of a deployment is all that
reads and puts see of it, and each operation is described by what it does to that sequence: a put
inserts into it and opens it if need be, an eviction takes it away, and what belongs to other
deployments stays as it is. -/

namespace Lifecycle

theorem Slot.serves_iff {s : Slot} {id : String} :
    s.serves id = true ↔ s.registered = true ∧ s.deployment = id := by
  simp [Slot.serves]

namespace Store

/-- No two sequences serve one deployment. -/
def Unique (store : Store) : Prop :=
  ∀ (i j : Nat) (a b : Slot) (id : String), store.slots[i]? = some a → store.slots[j]? = some b →
    a.serves id = true → b.serves id = true → i = j

/-- What holds of a store between any two steps of its users. -/
structure Sound (store : Store) : Prop where
  sequences : ∀ (k : Nat) (s : Slot), store.slots[k]? = some s → s.sequence.Sound
  live : ∀ (k : Nat) (s : Slot), store.slots[k]? = some s → s.registered = true →
    s.sequence.evicted = false
  unique : store.Unique

theorem sound_empty : ({} : Store).Sound where
  sequences := by intro k s hk; simp at hk
  live := by intro k s hk; simp at hk
  unique := by intro i j a b id hi; simp at hi

/-- The sequence of a deployment that was never written to. -/
def sequenceAt (store : Store) (now : Rat) (id : String) : Sequence :=
  (store.find? id).getD { lastWrite := now }

/-! ### Which sequence serves a deployment -/

theorem current?_eq_none_iff {store : Store} {id : String} :
    store.current? id = none ↔
      ∀ (k : Nat) (s : Slot), store.slots[k]? = some s → s.serves id = false := by
  simp only [current?, List.findIdx?_eq_none_iff, List.mem_iff_getElem?]
  constructor
  · intro h k s hk
    exact h s ⟨k, hk⟩
  · rintro h s ⟨k, hk⟩
    exact h k s hk

theorem serves_of_current? {store : Store} {id : String} {k : Nat}
    (h : store.current? id = some k) : ∃ s, store.slots[k]? = some s ∧ s.serves id = true := by
  obtain ⟨hk, hserves, -⟩ := List.findIdx?_eq_some_iff_getElem.1 h
  exact ⟨store.slots[k], List.getElem?_eq_getElem hk, hserves⟩

theorem Unique.current?_eq_some {store : Store} (hu : store.Unique) {id : String} {k : Nat}
    {s : Slot} (hk : store.slots[k]? = some s) (hserves : s.serves id = true) :
    store.current? id = some k := by
  cases hc : store.current? id with
  | none =>
    rw [current?_eq_none_iff.1 hc k s hk] at hserves
    exact absurd hserves (by simp)
  | some j =>
    obtain ⟨t, hj, ht⟩ := serves_of_current? hc
    rw [hu k j s t id hk hj hserves ht]

theorem find?_eq_none_iff {store : Store} {id : String} :
    store.find? id = none ↔
      ∀ (k : Nat) (s : Slot), store.slots[k]? = some s → s.serves id = false := by
  rw [← current?_eq_none_iff, find?, current?, Option.map_eq_none_iff, List.find?_eq_none,
    List.findIdx?_eq_none_iff]
  simp

theorem find?_eq_none_iff_current? {store : Store} {id : String} :
    store.find? id = none ↔ store.current? id = none := by
  rw [find?_eq_none_iff, current?_eq_none_iff]

theorem Unique.find?_eq_some_iff {store : Store} (hu : store.Unique) {id : String}
    {q : Sequence} :
    store.find? id = some q ↔
      ∃ (k : Nat) (s : Slot), store.slots[k]? = some s ∧ s.serves id = true ∧ s.sequence = q := by
  constructor
  · intro h
    obtain ⟨s, hs, rfl⟩ := Option.map_eq_some_iff.1 h
    obtain ⟨k, hk⟩ := List.mem_iff_getElem?.1 (List.mem_of_find?_eq_some hs)
    exact ⟨k, s, hk, List.find?_some (p := fun s : Slot => s.serves id) hs, rfl⟩
  · rintro ⟨k, s, hk, hserves, rfl⟩
    cases hf : store.find? id with
    | none =>
      rw [find?_eq_none_iff.1 hf k s hk] at hserves
      exact absurd hserves (by simp)
    | some q =>
      obtain ⟨t, ht, rfl⟩ := Option.map_eq_some_iff.1 hf
      obtain ⟨j, hj⟩ := List.mem_iff_getElem?.1 (List.mem_of_find?_eq_some ht)
      have hserves' : t.serves id = true := List.find?_some (p := fun s : Slot => s.serves id) ht
      have hkj := hu k j s t id hk hj hserves hserves'
      rw [hkj, hj] at hk
      rw [Option.some.inj hk]

/-- Two stores give a deployment the same sequence if the same sequences serve it. -/
theorem Unique.find?_congr {store other : Store} (hu : store.Unique) (ho : other.Unique)
    {id : String}
    (h : ∀ (k : Nat) (s : Slot), s.serves id = true →
      (store.slots[k]? = some s ↔ other.slots[k]? = some s)) :
    store.find? id = other.find? id := by
  apply Option.ext
  intro q
  rw [hu.find?_eq_some_iff, ho.find?_eq_some_iff]
  constructor
  · rintro ⟨k, s, hk, hs, hq⟩
    exact ⟨k, s, (h k s hs).1 hk, hs, hq⟩
  · rintro ⟨k, s, hk, hs, hq⟩
    exact ⟨k, s, (h k s hs).2 hk, hs, hq⟩

theorem Sound.find?_sound {store : Store} (hs : store.Sound) {id : String} {q : Sequence}
    (h : store.find? id = some q) : q.Sound ∧ q.evicted = false := by
  obtain ⟨k, s, hk, hserves, rfl⟩ := hs.unique.find?_eq_some_iff.1 h
  exact ⟨hs.sequences k s hk, hs.live k s hk (Slot.serves_iff.1 hserves).1⟩

/-! ### Changes of one sequence -/

/-- A store whose registered sequences were registered for the same deployments before is sound if
each of its sequences is. -/
theorem Sound.of_registered {store next : Store} (hs : store.Sound)
    (h : ∀ (k : Nat) (s : Slot), next.slots[k]? = some s → s.sequence.Sound ∧
      (s.registered = true → s.sequence.evicted = false ∧
        ∃ t, store.slots[k]? = some t ∧ t.registered = true ∧ t.deployment = s.deployment)) :
    next.Sound where
  sequences := fun k s hk => (h k s hk).1
  live := fun k s hk hreg => ((h k s hk).2 hreg).1
  unique := by
    intro i j a b id hi hj ha hb
    rw [Slot.serves_iff] at ha hb
    obtain ⟨-, a', hi', hreg, hdep⟩ := (h i a hi).2 ha.1
    obtain ⟨-, b', hj', hreg', hdep'⟩ := (h j b hj).2 hb.1
    exact hs.unique i j a' b' id hi' hj' (Slot.serves_iff.2 ⟨hreg, hdep.trans ha.2⟩)
      (Slot.serves_iff.2 ⟨hreg', hdep'.trans hb.2⟩)

theorem slots_setSequence (store : Store) (k : Nat) (q : Sequence) (j : Nat) :
    (store.setSequence k q).slots[j]? =
      if k = j then store.slots[j]?.map fun s => { s with sequence := q }
      else store.slots[j]? := by
  rw [setSequence, List.getElem?_modify]
  split
  · rfl
  · simp

theorem Sound.setSequence {store : Store} (hs : store.Sound) (k : Nat) {q : Sequence}
    (hq : q.Sound) (hlive : q.evicted = false) : (store.setSequence k q).Sound := by
  refine hs.of_registered ?_
  intro j s hj
  rw [slots_setSequence] at hj
  split at hj
  · obtain ⟨t, ht, rfl⟩ := Option.map_eq_some_iff.1 hj
    exact ⟨hq, fun hreg => ⟨hlive, t, ht, hreg, rfl⟩⟩
  · exact ⟨hs.sequences j s hj, fun hreg => ⟨hs.live j s hj hreg, s, hj, hreg, rfl⟩⟩

/-- Changing the sequence that serves a deployment changes what is found for that deployment and
nothing else. -/
theorem Sound.find?_setSequence {store : Store} (hs : store.Sound) {k : Nat} {s : Slot}
    {id : String} (hk : store.slots[k]? = some s) (hserves : s.serves id = true) {q : Sequence}
    (hq : q.Sound) (hlive : q.evicted = false) (other : String) :
    (store.setSequence k q).find? other = if other = id then some q else store.find? other := by
  have hnext := (hs.setSequence k hq hlive).unique
  split
  · rename_i ho
    rw [hnext.find?_eq_some_iff, ho]
    refine ⟨k, { s with sequence := q }, ?_, hserves, rfl⟩
    rw [slots_setSequence, if_pos rfl, hk, Option.map_some]
  · rename_i ho
    refine hnext.find?_congr hs.unique ?_
    intro j t ht
    rw [slots_setSequence]
    split
    · rename_i hkj
      subst hkj
      have hdep : s.deployment ≠ t.deployment := by
        rw [(Slot.serves_iff.1 hserves).2, (Slot.serves_iff.1 ht).2]
        exact Ne.symm ho
      rw [hk, Option.map_some]
      constructor
      · intro h
        rw [← Option.some.inj h] at hdep
        exact absurd rfl hdep
      · intro h
        rw [Option.some.inj h] at hdep
        exact absurd rfl hdep
    · exact Iff.rfl

/-! ### Lookups and puts -/

theorem write_of_live {store : Store} {k : Nat} {s : Slot} (hk : store.slots[k]? = some s)
    (hlive : s.sequence.evicted = false) (now : Rat) (index : Int) (event : Event) :
    store.write now k index event =
      some ((s.sequence.insert now index event).1,
        store.setSequence k (s.sequence.insert now index event).2) := by
  rw [write, hk]
  simp only [Sequence.put, hlive, Bool.false_eq_true, if_false, Option.map_some]

theorem write_of_evicted {store : Store} {k : Nat} {s : Slot} (hk : store.slots[k]? = some s)
    (hevicted : s.sequence.evicted = true) (now : Rat) (index : Int) (event : Event) :
    store.write now k index event = none := by
  rw [write, hk]
  simp only [Sequence.put, hevicted, if_true, Option.map_none]

theorem lookup_of_current? {store : Store} {id : String} {k : Nat}
    (h : store.current? id = some k) (now : Rat) : store.lookup now id = (k, store) := by
  simp only [lookup, h]

theorem lookup_of_none {store : Store} {id : String} (h : store.current? id = none) (now : Rat) :
    store.lookup now id =
      (store.slots.length, ⟨store.slots ++ [⟨id, true, { lastWrite := now }⟩]⟩) := by
  simp only [lookup, h]

theorem getElem?_lookup {store : Store} {k : Nat} {s : Slot} (hk : store.slots[k]? = some s)
    (now : Rat) (id : String) : (store.lookup now id).2.slots[k]? = some s := by
  cases hc : store.current? id with
  | some j => rw [lookup_of_current? hc, hk]
  | none =>
    rw [lookup_of_none hc, List.getElem?_append_left, hk]
    exact (List.getElem?_eq_some_iff.1 hk).1

theorem getElem?_of_lookup {store : Store} {id : String} {now : Rat} {k : Nat} {s : Slot}
    (h : (store.lookup now id).2.slots[k]? = some s) :
    store.slots[k]? = some s ∨
      (store.current? id = none ∧ k = store.slots.length ∧ s = ⟨id, true, { lastWrite := now }⟩) := by
  cases hc : store.current? id with
  | some j =>
    rw [lookup_of_current? hc] at h
    exact Or.inl h
  | none =>
    rw [lookup_of_none hc, List.getElem?_append] at h
    split at h
    · exact Or.inl h
    · right
      rw [List.getElem?_singleton] at h
      split at h
      · exact ⟨rfl, by omega, (Option.some.inj h).symm⟩
      · exact absurd h (by simp)

theorem Sound.lookup {store : Store} (hs : store.Sound) (now : Rat) (id : String) :
    (store.lookup now id).2.Sound where
  sequences := by
    intro k s hk
    rcases getElem?_of_lookup hk with hk | ⟨-, -, rfl⟩
    · exact hs.sequences k s hk
    · exact Sequence.sound_empty now
  live := by
    intro k s hk hreg
    rcases getElem?_of_lookup hk with hk | ⟨-, -, rfl⟩
    · exact hs.live k s hk hreg
    · rfl
  unique := by
    intro i j a b other hi hj ha hb
    rcases getElem?_of_lookup hi with hi | ⟨hnone, hi, rfl⟩
    · rcases getElem?_of_lookup hj with hj | ⟨hnone, -, rfl⟩
      · exact hs.unique i j a b other hi hj ha hb
      · have hid : id = other := (Slot.serves_iff.1 hb).2
        rw [← hid, current?_eq_none_iff.1 hnone i a hi] at ha
        exact absurd ha (by simp)
    · rcases getElem?_of_lookup hj with hj | ⟨-, hj, -⟩
      · have hid : id = other := (Slot.serves_iff.1 ha).2
        rw [← hid, current?_eq_none_iff.1 hnone j b hj] at hb
        exact absurd hb (by simp)
      · omega

theorem Sound.lookup_serves {store : Store} (hs : store.Sound) (now : Rat) (id : String) :
    ∃ s, (store.lookup now id).2.slots[(store.lookup now id).1]? = some s ∧
      s.serves id = true ∧ s.sequence = store.sequenceAt now id := by
  cases hc : store.current? id with
  | some k =>
    obtain ⟨s, hk, hserves⟩ := serves_of_current? hc
    rw [lookup_of_current? hc]
    refine ⟨s, hk, hserves, ?_⟩
    rw [sequenceAt, hs.unique.find?_eq_some_iff.2 ⟨k, s, hk, hserves, rfl⟩, Option.getD_some]
  | none =>
    rw [lookup_of_none hc]
    refine ⟨⟨id, true, { lastWrite := now }⟩, ?_, ?_, ?_⟩
    · simp
    · simp [Slot.serves]
    · rw [sequenceAt, find?_eq_none_iff_current?.2 hc, Option.getD_none]

theorem Sound.find?_lookup_of_ne {store : Store} (hs : store.Sound) (now : Rat) {id other : String}
    (ho : other ≠ id) : (store.lookup now id).2.find? other = store.find? other := by
  refine (hs.lookup now id).unique.find?_congr hs.unique ?_
  intro k s hserves
  constructor
  · intro h
    rcases getElem?_of_lookup h with hk | ⟨-, -, rfl⟩
    · exact hk
    · exact absurd (Slot.serves_iff.1 hserves).2.symm ho
  · intro h
    exact getElem?_lookup h now id

theorem sequenceAt_sound {store : Store} (hs : store.Sound) (now : Rat) (id : String) :
    (store.sequenceAt now id).Sound ∧ (store.sequenceAt now id).evicted = false := by
  unfold sequenceAt
  cases hf : store.find? id with
  | none => exact ⟨Sequence.sound_empty now, rfl⟩
  | some q => exact hs.find?_sound hf

/-- A put is a lookup and an insertion into the sequence found. -/
theorem Sound.put_eq {store : Store} (hs : store.Sound) {index : Int} {event : Event}
    (ok : check index event = .ok ()) (now : Rat) (id : String) :
    store.put now id index event =
      .ok (⟨((store.sequenceAt now id).insert now index event).1, (store.lookup now id).1,
          (store.current? id).isNone, 1⟩,
        (store.lookup now id).2.setSequence (store.lookup now id).1
          ((store.sequenceAt now id).insert now index event).2) := by
  obtain ⟨s, hk, -, hseq⟩ := hs.lookup_serves now id
  have hget : (store.lookup now id).2.slots.get
      ⟨(store.lookup now id).1, store.lookup_slot_lt now id⟩ = s := by
    rw [List.get_eq_getElem]
    exact (List.getElem?_eq_some_iff.1 hk).2
  simp only [put, putFound, ok, Except.map, putVia, hget, hseq]

/-- What a put does: the sequence of its deployment takes the event, or keeps the one it has. -/
theorem Sound.put_spec {store : Store} (hs : store.Sound) {index : Int} {event : Event}
    (ok : check index event = .ok ()) (now : Rat) (id : String) :
    ∃ report next, store.put now id index event = .ok (report, next) ∧ next.Sound ∧
      report.put = ((store.sequenceAt now id).insert now index event).1 ∧
      ∀ other, next.find? other =
        if other = id then some ((store.sequenceAt now id).insert now index event).2
        else store.find? other := by
  obtain ⟨s, hk, hserves, hseq⟩ := hs.lookup_serves now id
  obtain ⟨hq, hlive⟩ := sequenceAt_sound hs now id
  have hq' := hq.insert now index event
  have hlive' := (Sequence.insert_evicted _ now index event).trans hlive
  refine ⟨_, _, hs.put_eq ok now id, (hs.lookup now id).setSequence _ hq' hlive', rfl, ?_⟩
  intro other
  rw [(hs.lookup now id).find?_setSequence hk hserves hq' hlive']
  split
  · rfl
  · rename_i ho
    exact hs.find?_lookup_of_ne now ho

/-! ### Evictions -/

theorem slots_detach (store : Store) (k j : Nat) :
    (store.detach k).slots[j]? =
      if k = j then store.slots[j]?.map Slot.detach else store.slots[j]? := by
  rw [detach, List.getElem?_modify]
  split
  · rfl
  · simp

theorem slots_markEvicted (store : Store) (k j : Nat) :
    (store.markEvicted k).slots[j]? =
      if k = j then store.slots[j]?.map Slot.markEvicted else store.slots[j]? := by
  rw [markEvicted, List.getElem?_modify]
  split
  · rfl
  · simp

theorem sound_markEvicted {s : Slot} (h : s.sequence.Sound) : s.markEvicted.sequence.Sound :=
  ⟨h.1, h.2, h.3⟩

theorem Sound.detach {store : Store} (hs : store.Sound) (k : Nat) : (store.detach k).Sound := by
  refine hs.of_registered ?_
  intro j s hj
  rw [slots_detach] at hj
  split at hj
  · obtain ⟨t, ht, rfl⟩ := Option.map_eq_some_iff.1 hj
    exact ⟨hs.sequences j t ht, fun hreg => absurd hreg (by simp [Slot.detach])⟩
  · exact ⟨hs.sequences j s hj, fun hreg => ⟨hs.live j s hj hreg, s, hj, hreg, rfl⟩⟩

/-- A sequence may be marked once nobody is sent to it any more. -/
theorem Sound.markEvicted {store : Store} (hs : store.Sound) {k : Nat}
    (hk : ∀ s, store.slots[k]? = some s → s.registered = false) : (store.markEvicted k).Sound := by
  refine hs.of_registered ?_
  intro j s hj
  rw [slots_markEvicted] at hj
  split at hj
  · rename_i hkj
    obtain ⟨t, ht, rfl⟩ := Option.map_eq_some_iff.1 hj
    refine ⟨sound_markEvicted (hs.sequences j t ht), fun hreg => ?_⟩
    rw [hkj] at hk
    exact absurd ((hk t ht).symm.trans hreg) (by simp)
  · exact ⟨hs.sequences j s hj, fun hreg => ⟨hs.live j s hj hreg, s, hj, hreg, rfl⟩⟩

theorem Sound.find?_markEvicted {store : Store} (hs : store.Sound) {k : Nat}
    (hk : ∀ s, store.slots[k]? = some s → s.registered = false) (id : String) :
    (store.markEvicted k).find? id = store.find? id := by
  refine (hs.markEvicted hk).unique.find?_congr hs.unique ?_
  intro j s hserves
  rw [slots_markEvicted]
  split
  · rename_i hkj
    subst hkj
    have hreg := (Slot.serves_iff.1 hserves).1
    constructor
    · intro h
      obtain ⟨t, ht, rfl⟩ := Option.map_eq_some_iff.1 h
      exact absurd ((hk t ht).symm.trans hreg) (by simp)
    · intro h
      exact absurd ((hk s h).symm.trans hreg) (by simp)
  · exact Iff.rfl

theorem Sound.find?_detach {store : Store} (hs : store.Sound) {id : String} {k : Nat}
    (hk : store.current? id = some k) (other : String) :
    (store.detach k).find? other = if other = id then none else store.find? other := by
  obtain ⟨s, hs', hserves⟩ := serves_of_current? hk
  split
  · rename_i ho
    rw [find?_eq_none_iff, ho]
    intro j t hj
    rw [slots_detach] at hj
    split at hj
    · obtain ⟨u, -, rfl⟩ := Option.map_eq_some_iff.1 hj
      simp [Slot.serves, Slot.detach]
    · rename_i hkj
      by_contra ht
      exact hkj (hs.unique k j s t id hs' hj hserves (by simpa using ht))
  · rename_i ho
    refine (hs.detach k).unique.find?_congr hs.unique ?_
    intro j t ht
    rw [slots_detach]
    split
    · rename_i hkj
      subst hkj
      constructor
      · intro h
        obtain ⟨u, -, rfl⟩ := Option.map_eq_some_iff.1 h
        simp [Slot.serves, Slot.detach] at ht
      · intro h
        rw [hs'] at h
        rw [Option.some.inj h] at hserves
        exact absurd ((Slot.serves_iff.1 ht).2.symm.trans (Slot.serves_iff.1 hserves).2) ho
    · exact Iff.rfl

theorem evict_of_none {store : Store} {id : String} (h : store.current? id = none) :
    store.evict id = (false, store) := by
  simp only [evict, h]

theorem evict_of_current? {store : Store} {id : String} {k : Nat}
    (h : store.current? id = some k) :
    store.evict id = (true, (store.detach k).markEvicted k) := by
  simp only [evict, h]

theorem Sound.evict_spec {store : Store} (hs : store.Sound) (id : String) :
    (store.evict id).2.Sound ∧
      ∀ other, (store.evict id).2.find? other = if other = id then none else store.find? other := by
  cases hc : store.current? id with
  | none =>
    rw [evict_of_none hc]
    refine ⟨hs, ?_⟩
    intro other
    split
    · rename_i ho
      rw [ho]
      exact find?_eq_none_iff_current?.2 hc
    · rfl
  | some k =>
    have hk : ∀ s, (store.detach k).slots[k]? = some s → s.registered = false := by
      intro s h
      rw [slots_detach, if_pos rfl] at h
      obtain ⟨t, -, rfl⟩ := Option.map_eq_some_iff.1 h
      rfl
    rw [evict_of_current? hc]
    refine ⟨(hs.detach k).markEvicted hk, ?_⟩
    intro other
    rw [(hs.detach k).find?_markEvicted hk, hs.find?_detach hc]

theorem slots_evictIdle (store : Store) (maxIdle now : Rat) (k : Nat) :
    (store.evictIdle maxIdle now).2.slots[k]? =
      store.slots[k]?.map fun s => if s.isIdle maxIdle now then s.detach.markEvicted else s := by
  rw [evictIdle, List.getElem?_map]

theorem Sound.evictIdle_spec {store : Store} (hs : store.Sound) (maxIdle now : Rat) :
    (store.evictIdle maxIdle now).2.Sound ∧
      ∀ id, (store.evictIdle maxIdle now).2.find? id =
        (store.find? id).filter fun s => !s.isIdle maxIdle now := by
  have hsound : (store.evictIdle maxIdle now).2.Sound := by
    refine hs.of_registered ?_
    intro k s hk
    rw [slots_evictIdle] at hk
    obtain ⟨t, ht, rfl⟩ := Option.map_eq_some_iff.1 hk
    split
    · exact ⟨sound_markEvicted (hs.sequences k t ht),
        fun hreg => absurd hreg (by simp [Slot.detach, Slot.markEvicted])⟩
    · exact ⟨hs.sequences k t ht, fun hreg => ⟨hs.live k t ht hreg, t, ht, hreg, rfl⟩⟩
  refine ⟨hsound, ?_⟩
  intro id
  apply Option.ext
  intro q
  rw [hsound.unique.find?_eq_some_iff, Option.filter_eq_some_iff, hs.unique.find?_eq_some_iff]
  constructor
  · rintro ⟨k, s, hk, hserves, rfl⟩
    rw [slots_evictIdle] at hk
    obtain ⟨t, ht, rfl⟩ := Option.map_eq_some_iff.1 hk
    split at hserves
    · simp [Slot.serves, Slot.detach, Slot.markEvicted] at hserves
    · rename_i hidle
      rw [if_neg hidle]
      refine ⟨⟨k, t, ht, hserves, rfl⟩, ?_⟩
      simpa [Slot.isIdle, (Slot.serves_iff.1 hserves).1] using hidle
  · rintro ⟨⟨k, s, hk, hserves, rfl⟩, hidle⟩
    have hactive : ¬ s.isIdle maxIdle now = true := by
      simpa [Slot.isIdle, (Slot.serves_iff.1 hserves).1] using hidle
    refine ⟨k, s, ?_, hserves, rfl⟩
    rw [slots_evictIdle, hk, Option.map_some, if_neg hactive]

theorem Sound.mem_evictIdle_iff {store : Store} (hs : store.Sound) {maxIdle now : Rat}
    {id : String} :
    id ∈ (store.evictIdle maxIdle now).1 ↔
      ∃ s, store.find? id = some s ∧ s.isIdle maxIdle now = true := by
  simp only [evictIdle, List.mem_map, List.mem_filter, hs.unique.find?_eq_some_iff]
  constructor
  · rintro ⟨t, ⟨ht, hidle⟩, hdep⟩
    obtain ⟨k, hk⟩ := List.mem_iff_getElem?.1 ht
    rw [Slot.isIdle, Bool.and_eq_true] at hidle
    exact ⟨t.sequence, ⟨k, t, hk, Slot.serves_iff.2 ⟨hidle.1, hdep⟩, rfl⟩, hidle.2⟩
  · rintro ⟨s, ⟨k, t, hk, hserves, rfl⟩, hidle⟩
    rw [Slot.serves_iff] at hserves
    refine ⟨t, ⟨List.mem_of_getElem? hk, ?_⟩, hserves.2⟩
    rw [Slot.isIdle, hserves.1, hidle, Bool.and_self]

theorem Sound.find?_evictIdle_of_not_mem {store : Store} (hs : store.Sound) {maxIdle now : Rat}
    {id : String} (h : id ∉ (store.evictIdle maxIdle now).1) :
    (store.evictIdle maxIdle now).2.find? id = store.find? id := by
  rw [(hs.evictIdle_spec maxIdle now).2]
  cases hfind : store.find? id with
  | none => rfl
  | some s =>
    have hbusy : s.isIdle maxIdle now = false := by
      rw [← Bool.not_eq_true]
      exact fun hidle => h (hs.mem_evictIdle_iff.2 ⟨s, hfind, hidle⟩)
    rw [Option.filter_some, hbusy]
    rfl

/-! ### Registered deployments -/

theorem Sound.mem_registered_iff {store : Store} (hs : store.Sound) {id : String} :
    id ∈ store.registered ↔ (store.find? id).isSome = true := by
  rw [Option.isSome_iff_exists, registered, List.mem_map]
  constructor
  · rintro ⟨s, hmem, hdeployment⟩
    obtain ⟨hslot, hregistered⟩ := List.mem_filter.1 hmem
    obtain ⟨k, hk⟩ := List.mem_iff_getElem?.1 hslot
    exact ⟨s.sequence, hs.unique.find?_eq_some_iff.2
      ⟨k, s, hk, Slot.serves_iff.2 ⟨hregistered, hdeployment⟩, rfl⟩⟩
  · rintro ⟨q, hq⟩
    obtain ⟨k, s, hk, hserves, -⟩ := hs.unique.find?_eq_some_iff.1 hq
    obtain ⟨hregistered, hdeployment⟩ := Slot.serves_iff.1 hserves
    exact ⟨s, List.mem_filter.2 ⟨List.mem_of_getElem? hk, hregistered⟩, hdeployment⟩

/-- Every deployment with a sequence is counted once. -/
theorem Sound.nodup_registered {store : Store} (hs : store.Sound) : store.registered.Nodup := by
  rw [registered, List.Nodup, List.pairwise_map, List.pairwise_filter, List.pairwise_iff_getElem]
  intro i j hi hj hlt hfirst hsecond heq
  have hij := hs.unique i j store.slots[i] store.slots[j] store.slots[i].deployment
    (List.getElem?_eq_getElem hi) (List.getElem?_eq_getElem hj)
    (Slot.serves_iff.2 ⟨hfirst, rfl⟩) (Slot.serves_iff.2 ⟨hsecond, heq.symm⟩)
  omega

end Store

end Lifecycle
