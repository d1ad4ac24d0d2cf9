import Lifecycle.Proofs.Store.Registry
import Mathlib.Data.List.Infix

/-! # Puts that race with evictions

A put looks for the sequence of its deployment and then writes to it, and an eviction takes a
sequence out of the registry and then marks it. Other puts and evictions may come between the two
steps of each. A put that finds its sequence marked looks again, so it is never lost: its event is
in the sequence that serves its deployment, or that sequence was taken away after the put last
looked. Each time a put has to look again, one more eviction of its deployment has taken place from
beginning to end since the put first looked. -/

namespace Lifecycle

/-- Where a put is. -/
inductive PutStage
  /-- It is about to look for the sequence of its deployment. -/
  | looking
  /-- It has found a sequence and is about to write to it. -/
  | found (slot : Nat)
  /-- A sequence took its event, or had one at the index. -/
  | done (slot : Nat) (put : Put)
  deriving DecidableEq, Repr

/-- A put that others run beside. -/
structure RunningPut where
  id : String
  index : Int
  event : Event
  stage : PutStage := .looking
  lookups : Nat := 0
  /-- How many sequences had been taken out of the registry when it first looked. -/
  began : Nat := 0
  /-- How many there had been when it last looked. -/
  looked : Nat := 0
  deriving Repr

/-- Puts and evictions under way on one store. -/
structure Race where
  store : Store := {}
  puts : List RunningPut := []
  /-- The sequences taken out of the registry, in order. -/
  removed : List Nat := []

namespace RunningPut

/-- The sequence it found last, unless that one refused the event. -/
def slot? (p : RunningPut) : Option Nat :=
  match p.stage with
  | .looking => none
  | .found slot => some slot
  | .done slot _ => some slot

/-- It has found a sequence after `removals` removals. -/
def find (p : RunningPut) (slot removals : Nat) : RunningPut :=
  { p with
    stage := .found slot
    lookups := p.lookups + 1
    began := if p.lookups = 0 then removals else p.began
    looked := removals }

end RunningPut

namespace Race

/-- One step of a put or of an eviction. -/
inductive Step
  /-- A put begins, if its index and event are in order. -/
  | begin (id : String) (index : Int) (event : Event)
  /-- A put looks for its sequence. -/
  | lookup (k : Nat) (now : Rat)
  /-- A put writes to the sequence it found. -/
  | write (k : Nat) (now : Rat)
  /-- An eviction takes the sequence of a deployment out of the registry. -/
  | remove (id : String)
  /-- An idle sweep takes a sequence out of the registry if it is idle. -/
  | removeIdle (slot : Nat) (maxIdle now : Rat)
  /-- An eviction or a sweep marks a sequence that it took out of the registry. -/
  | mark (slot : Nat)

/-- Takes a sequence out of the registry. -/
def takeOut (r : Race) (slot : Nat) : Race :=
  { r with store := r.store.detach slot, removed := r.removed ++ [slot] }

/-- The second half of a put: its event is taken, or it has to look again. -/
def writeTo (r : Race) (k : Nat) (p : RunningPut) (slot : Nat) (now : Rat) : Race :=
  match r.store.write now slot p.index p.event with
  | none => { r with puts := r.puts.set k { p with stage := .looking } }
  | some (put, store) =>
    { r with store, puts := r.puts.set k { p with stage := .done slot put } }

/-- What a step leaves. A step that is not due changes nothing. -/
def step (r : Race) : Step → Race
  | .begin id index event =>
    match Store.check index event with
    | .error _ => r
    | .ok () => { r with puts := r.puts ++ [{ id, index, event }] }
  | .lookup k now =>
    match r.puts[k]? with
    | some p =>
      if p.stage = .looking then
        let found := r.store.lookup now p.id
        { r with store := found.2, puts := r.puts.set k (p.find found.1 r.removed.length) }
      else r
    | none => r
  | .write k now =>
    match r.puts[k]? with
    | some p =>
      match p.stage with
      | .found slot => r.writeTo k p slot now
      | _ => r
    | none => r
  | .remove id =>
    match r.store.current? id with
    | some slot => r.takeOut slot
    | none => r
  | .removeIdle slot maxIdle now =>
    match r.store.slots[slot]? with
    | some s => if s.isIdle maxIdle now then r.takeOut slot else r
    | none => r
  | .mark slot =>
    if slot ∈ r.removed then { r with store := r.store.markEvicted slot } else r

/-- What a schedule of steps leaves. -/
def run (r : Race) (steps : List Step) : Race := steps.foldl step r

/-- The evictions of a put's deployment that have taken place, from the removal of a sequence to
its mark, since the put first looked. -/
def evictionsDuring (r : Race) (p : RunningPut) : List Nat :=
  (r.removed.drop p.began).filter fun k =>
    r.store.slots[k]?.any fun s => s.deployment == p.id && s.sequence.evicted

/-! ### What never goes back

A sequence may leave the registry, and then it is noted as removed; it never loses an event, and
nothing changes it once it is marked. A put that is done stays as it is. -/

/-- The second state may come after the first. -/
structure Grows (r next : Race) : Prop where
  removed : r.removed <+: next.removed
  slots : ∀ (k : Nat) (s : Slot), r.store.slots[k]? = some s →
    ∃ t, next.store.slots[k]? = some t ∧ t.deployment = s.deployment ∧
      (s.registered = true → t.registered = true ∨ k ∈ next.removed.drop r.removed.length) ∧
      (∀ (i : Int) (e : Event), s.sequence.events[i]? = some e →
        t.sequence.events[i]? = some e) ∧
      (s.sequence.evicted = true → t = s)
  done : ∀ (k : Nat) (p : RunningPut) (slot : Nat) (put : Put), r.puts[k]? = some p →
    p.stage = .done slot put → next.puts[k]? = some p

theorem Grows.of_slots_eq {r next : Race} (hstore : next.store = r.store)
    (hremoved : next.removed = r.removed)
    (hdone : ∀ (k : Nat) (p : RunningPut) (slot : Nat) (put : Put), r.puts[k]? = some p →
      p.stage = .done slot put → next.puts[k]? = some p) : Grows r next where
  removed := by rw [hremoved]
  slots := by
    intro k s hk
    rw [hstore]
    exact ⟨s, hk, rfl, Or.inl, fun _ _ h => h, fun _ => rfl⟩
  done := hdone

theorem Grows.refl (r : Race) : Grows r r :=
  Grows.of_slots_eq rfl rfl fun _ _ _ _ h _ => h

theorem Grows.trans {a b c : Race} (hab : Grows a b) (hbc : Grows b c) : Grows a c where
  removed := hab.removed.trans hbc.removed
  slots := by
    intro k s hk
    obtain ⟨t, ht, hdep, hreg, hevents, hmarked⟩ := hab.slots k s hk
    obtain ⟨u, hu, hdep', hreg', hevents', hmarked'⟩ := hbc.slots k t ht
    refine ⟨u, hu, hdep'.trans hdep, ?_, fun i e h => hevents' i e (hevents i e h), ?_⟩
    · intro h
      rcases hreg h with ht' | ht'
      · rcases hreg' ht' with hu' | hu'
        · exact Or.inl hu'
        · exact Or.inr (List.drop_subset_drop_left _ hab.removed.length_le hu')
      · exact Or.inr ((hbc.removed.drop _).subset ht')
    · intro h
      have hts := hmarked h
      rw [hts] at hmarked'
      exact hmarked' h
  done := fun k p slot put hk hp => hbc.done k p slot put (hab.done k p slot put hk hp) hp

/-! ### Soundness -/

end Race

/-- What holds of a put in a race. Its sequences that refused it bound how often it looked. -/
structure RunningPut.Sound (p : RunningPut) (r : Race) : Prop where
  check : Store.check p.index p.event = .ok ()
  began_le_looked : p.began ≤ p.looked
  looked_le : p.looked ≤ r.removed.length
  held : ∀ slot, p.slot? = some slot → ∃ s, r.store.slots[slot]? = some s ∧
    s.deployment = p.id ∧ (s.registered = true ∨ slot ∈ r.removed.drop p.looked)
  stored : ∀ slot event, p.stage = .done slot (.stored event) → event = p.event ∧
    ∃ s, r.store.slots[slot]? = some s ∧ s.sequence.events[p.index]? = some p.event
  refused : ∃ refused : List Nat, refused.Nodup ∧
    (∀ k ∈ refused, k ∈ r.removed.drop p.began ∧ ∃ s, r.store.slots[k]? = some s ∧
      s.deployment = p.id ∧ s.sequence.evicted = true) ∧
    (∀ slot, p.slot? = some slot → slot ∉ refused) ∧
    p.lookups = refused.length + p.slot?.toList.length

theorem RunningPut.Sound.grow {p : RunningPut} {r next : Race} (hp : p.Sound r)
    (h : r.Grows next) : p.Sound next where
  check := hp.check
  began_le_looked := hp.began_le_looked
  looked_le := hp.looked_le.trans h.removed.length_le
  held := by
    intro slot hslot
    obtain ⟨s, hs, hdep, hreg⟩ := hp.held slot hslot
    obtain ⟨t, ht, hdep', hreg', -, -⟩ := h.slots slot s hs
    refine ⟨t, ht, hdep'.trans hdep, ?_⟩
    rcases hreg with hreg | hgone
    · rcases hreg' hreg with hreg | hgone
      · exact Or.inl hreg
      · exact Or.inr (List.drop_subset_drop_left _ hp.looked_le hgone)
    · exact Or.inr ((h.removed.drop _).subset hgone)
  stored := by
    intro slot event hstage
    obtain ⟨hevent, s, hs, hstored⟩ := hp.stored slot event hstage
    obtain ⟨t, ht, -, -, hevents, -⟩ := h.slots slot s hs
    exact ⟨hevent, t, ht, hevents _ _ hstored⟩
  refused := by
    obtain ⟨refused, distinct, hrefused, hfound, hlookups⟩ := hp.refused
    refine ⟨refused, distinct, ?_, hfound, hlookups⟩
    intro k hk
    obtain ⟨hgone, s, hs, hdep, hmarked⟩ := hrefused k hk
    obtain ⟨t, ht, -, -, -, hsame⟩ := h.slots k s hs
    rw [hsame hmarked] at ht
    exact ⟨(h.removed.drop _).subset hgone, s, ht, hdep, hmarked⟩

namespace Race

/-- What holds of every state of a race. -/
structure Sound (r : Race) : Prop where
  store : r.store.Sound
  distinct : r.removed.Nodup
  mem_removed_iff : ∀ k, k ∈ r.removed ↔ ∃ s, r.store.slots[k]? = some s ∧ s.registered = false
  puts : ∀ p ∈ r.puts, p.Sound r

theorem sound_empty : ({} : Race).Sound where
  store := Store.sound_empty
  distinct := List.nodup_nil
  mem_removed_iff := by intro k; simp
  puts := by intro p hp; simp at hp

theorem Sound.puts_of_grows {r next : Race} (hr : r.Sound) (h : r.Grows next) {k : Nat}
    {p : RunningPut} (hp : p.Sound next) (hputs : next.puts = r.puts.set k p) :
    ∀ q ∈ next.puts, q.Sound next := by
  intro q hq
  rw [hputs] at hq
  rcases List.mem_or_eq_of_mem_set hq with hq | hq
  · exact (hr.puts q hq).grow h
  · rw [hq]
    exact hp

/-- A put that is not done may be replaced. -/
theorem done_set {puts : List RunningPut} {k : Nat} {p q : RunningPut} (hk : puts[k]? = some p)
    (hp : ∀ slot put, p.stage ≠ .done slot put) (j : Nat) (d : RunningPut) (slot : Nat)
    (put : Put) (hj : puts[j]? = some d) (hd : d.stage = .done slot put) :
    (puts.set k q)[j]? = some d := by
  by_cases hkj : k = j
  · subst hkj
    rw [hk] at hj
    rw [← Option.some.inj hj] at hd
    exact absurd hd (hp slot put)
  · rw [List.getElem?_set_ne hkj, hj]

/-! ### The steps -/

theorem begin_sound {r : Race} (hr : r.Sound) (id : String) (index : Int) (event : Event) :
    r.Grows (r.step (.begin id index event)) ∧ (r.step (.begin id index event)).Sound := by
  cases hcheck : Store.check index event with
  | error fault =>
    simp only [step, hcheck]
    exact ⟨Grows.refl r, hr⟩
  | ok _ =>
    have h : r.Grows { r with puts := r.puts ++ [{ id, index, event }] } := by
      refine Grows.of_slots_eq rfl rfl ?_
      intro k p slot put hk _
      rw [List.getElem?_append_left (List.getElem?_eq_some_iff.1 hk).1, hk]
    simp only [step, hcheck]
    refine ⟨h, hr.store, hr.distinct, hr.mem_removed_iff, ?_⟩
    intro p hp
    rcases List.mem_append.1 hp with hp | hp
    · exact (hr.puts p hp).grow h
    · rw [List.mem_singleton.1 hp]
      exact
        { check := hcheck
          began_le_looked := Nat.le_refl 0
          looked_le := Nat.zero_le _
          held := by intro slot hslot; simp [RunningPut.slot?] at hslot
          stored := by intro slot e hstage; simp at hstage
          refused := ⟨[], by simp [RunningPut.slot?]⟩ }

/-- A put that finds a live sequence of its deployment has not been refused by it before. -/
theorem find_sound {r next : Race} {p : RunningPut} (hp : p.Sound r) (hstage : p.stage = .looking)
    (h : r.Grows next) (hremoved : next.removed = r.removed) {k : Nat} {s : Slot}
    (hs : next.store.slots[k]? = some s) (hdep : s.deployment = p.id)
    (hreg : s.registered = true) (hlive : s.sequence.evicted = false) :
    (p.find k r.removed.length).Sound next := by
  obtain ⟨refused, distinct, hrefused, -, hlookups⟩ := (hp.grow h).refused
  have hnew : k ∉ refused := by
    intro hmem
    obtain ⟨-, t, ht, -, hmarked⟩ := hrefused k hmem
    rw [hs] at ht
    rw [← Option.some.inj ht, hlive] at hmarked
    exact absurd hmarked (by simp)
  have hcount : p.lookups = refused.length := by
    simpa [RunningPut.slot?, hstage] using hlookups
  exact
    { check := hp.check
      began_le_looked := by
        have := hp.began_le_looked
        have := hp.looked_le
        simp only [RunningPut.find]
        split <;> omega
      looked_le := by
        rw [hremoved]
        exact Nat.le_refl _
      held := by
        intro slot hslot
        obtain rfl : k = slot := Option.some.inj hslot
        exact ⟨s, hs, hdep, Or.inl hreg⟩
      stored := by intro slot e hdone; simp [RunningPut.find] at hdone
      refused := by
        refine ⟨refused, distinct, ?_, ?_, ?_⟩
        · intro j hj
          have hpos : p.lookups ≠ 0 := by
            rw [hcount]
            exact fun h0 => absurd hj (by rw [List.length_eq_zero_iff.1 h0]; simp)
          simp only [RunningPut.find, if_neg hpos]
          exact hrefused j hj
        · intro slot hslot
          obtain rfl : k = slot := Option.some.inj hslot
          exact hnew
        · simp [RunningPut.find, RunningPut.slot?, hcount] }

theorem lookup_sound {r : Race} (hr : r.Sound) (k : Nat) (now : Rat) :
    r.Grows (r.step (.lookup k now)) ∧ (r.step (.lookup k now)).Sound := by
  cases hk : r.puts[k]? with
  | none =>
    simp only [step, hk]
    exact ⟨Grows.refl r, hr⟩
  | some p =>
    by_cases hstage : p.stage = .looking
    · simp only [step, hk, if_pos hstage]
      have hp := hr.puts p (List.mem_of_getElem? hk)
      obtain ⟨s, hs, hserves, -⟩ := hr.store.lookup_serves now p.id
      obtain ⟨hreg, hdep⟩ := Slot.serves_iff.1 hserves
      have hsound := hr.store.lookup now p.id
      have hslots : ∀ (j : Nat) (t : Slot), r.store.slots[j]? = some t →
          (r.store.lookup now p.id).2.slots[j]? = some t :=
        fun j t hj => Store.getElem?_lookup hj now p.id
      have h : r.Grows { r with
          store := (r.store.lookup now p.id).2
          puts := r.puts.set k (p.find (r.store.lookup now p.id).1 r.removed.length) } :=
        { removed := List.prefix_refl _
          slots := fun j t hj => ⟨t, hslots j t hj, rfl, Or.inl, fun _ _ h => h, fun _ => rfl⟩
          done := done_set hk (by intro slot put; rw [hstage]; simp) }
      have hp' := find_sound hp hstage h rfl hs hdep hreg (hsound.live _ s hs hreg)
      refine ⟨h, hsound, hr.distinct, ?_, hr.puts_of_grows h hp' rfl⟩
      intro j
      rw [hr.mem_removed_iff]
      constructor
      · rintro ⟨t, hj, ht⟩
        exact ⟨t, hslots j t hj, ht⟩
      · rintro ⟨t, hj, ht⟩
        rcases Store.getElem?_of_lookup hj with hj | ⟨-, -, rfl⟩
        · exact ⟨t, hj, ht⟩
        · exact absurd ht (by simp)
    · simp only [step, hk, if_neg hstage]
      exact ⟨Grows.refl r, hr⟩

/-- A refused put looks again, and the eviction that made it do so has taken place. -/
theorem refused_sound {r : Race} (hr : r.Sound) {k slot : Nat} {p : RunningPut} {s : Slot}
    (hk : r.puts[k]? = some p) (hstage : p.stage = .found slot)
    (hs : r.store.slots[slot]? = some s) (hmarked : s.sequence.evicted = true) :
    let next := { r with puts := r.puts.set k { p with stage := .looking } }
    r.Grows next ∧ next.Sound := by
  intro next
  have hp := hr.puts p (List.mem_of_getElem? hk)
  have h : r.Grows next :=
    Grows.of_slots_eq rfl rfl (done_set hk (by intro j put; rw [hstage]; simp))
  have hslot : p.slot? = some slot := by simp [RunningPut.slot?, hstage]
  obtain ⟨t, ht, hdep, hgone⟩ := hp.held slot hslot
  rw [hs] at ht
  obtain rfl := Option.some.inj ht
  have hgone : slot ∈ r.removed.drop p.looked := by
    rcases hgone with hreg | hgone
    · rw [hr.store.live slot s hs hreg] at hmarked
      exact absurd hmarked (by simp)
    · exact hgone
  obtain ⟨refused, distinct, hrefused, hfound, hlookups⟩ := hp.refused
  have hp' : ({ p with stage := .looking } : RunningPut).Sound next :=
    { check := hp.check
      began_le_looked := hp.began_le_looked
      looked_le := hp.looked_le
      held := by intro j hj; simp [RunningPut.slot?] at hj
      stored := by intro j e hj; simp at hj
      refused := by
        refine ⟨slot :: refused, List.nodup_cons.2 ⟨hfound slot hslot, distinct⟩, ?_, ?_, ?_⟩
        · intro j hj
          rcases List.mem_cons.1 hj with rfl | hj
          · exact ⟨List.drop_subset_drop_left _ hp.began_le_looked hgone, s, hs, hdep, hmarked⟩
          · exact hrefused j hj
        · intro j hj
          simp [RunningPut.slot?] at hj
        · rw [hslot] at hlookups
          simpa [RunningPut.slot?] using hlookups }
  exact ⟨h, hr.store, hr.distinct, hr.mem_removed_iff, hr.puts_of_grows h hp' rfl⟩

/-- A put that is taken, or finds its index taken, is done. -/
theorem taken_sound {r : Race} (hr : r.Sound) {k slot : Nat} {p : RunningPut} {s : Slot}
    (hk : r.puts[k]? = some p) (hstage : p.stage = .found slot)
    (hs : r.store.slots[slot]? = some s) (hlive : s.sequence.evicted = false) (now : Rat) :
    let inserted := s.sequence.insert now p.index p.event
    let next := { r with
      store := r.store.setSequence slot inserted.2
      puts := r.puts.set k { p with stage := .done slot inserted.1 } }
    r.Grows next ∧ next.Sound := by
  intro inserted next
  have hp := hr.puts p (List.mem_of_getElem? hk)
  have hslot : p.slot? = some slot := by simp [RunningPut.slot?, hstage]
  have hslots : next.store.slots[slot]? = some { s with sequence := inserted.2 } := by
    simp only [next, Store.slots_setSequence, if_pos, hs, Option.map_some]
  have hother : ∀ j, slot ≠ j → next.store.slots[j]? = r.store.slots[j]? := by
    intro j hj
    simp only [next, Store.slots_setSequence, if_neg hj]
  have h : r.Grows next :=
    { removed := List.prefix_refl _
      slots := by
        intro j t hj
        by_cases hslot : slot = j
        · subst hslot
          rw [hs] at hj
          obtain rfl := Option.some.inj hj
          refine ⟨_, hslots, rfl, Or.inl, ?_, ?_⟩
          · intro i e he
            exact Sequence.getElem?_insert_of_some he now p.index p.event
          · intro hmarked
            exact absurd (hlive.symm.trans hmarked) (by simp)
        · exact ⟨t, (hother j hslot).trans hj, rfl, Or.inl, fun _ _ he => he, fun _ => rfl⟩
      done := done_set hk (by intro j put; rw [hstage]; simp) }
  have hg := hp.grow h
  have hp' : ({ p with stage := .done slot inserted.1 } : RunningPut).Sound next :=
    { check := hp.check
      began_le_looked := hp.began_le_looked
      looked_le := hp.looked_le
      held := by
        intro j hj
        obtain rfl : slot = j := Option.some.inj hj
        exact hg.held slot hslot
      stored := by
        intro j e hj
        simp only [PutStage.done.injEq] at hj
        obtain ⟨rfl, hj⟩ := hj
        have hevent : inserted.2.events[p.index]? = some e := by
          have hself := Sequence.getElem?_insert_self s.sequence now p.index p.event
          rw [hself]
          simp only [inserted] at hj
          rw [hj, Put.event]
        have he : e = p.event := Sequence.eq_of_insert_stored hj
        exact ⟨he, _, hslots, he ▸ hevent⟩
      refused := by
        obtain ⟨refused, distinct, hrefused, hfound, hlookups⟩ := hg.refused
        refine ⟨refused, distinct, hrefused, ?_, ?_⟩
        · intro j hj
          obtain rfl : slot = j := Option.some.inj hj
          exact hfound slot hslot
        · rw [hslot] at hlookups
          exact hlookups }
  have hseq := (hr.store.sequences slot s hs).insert now p.index p.event
  have hlive' := (Sequence.insert_evicted s.sequence now p.index p.event).trans hlive
  refine ⟨h, hr.store.setSequence slot hseq hlive', hr.distinct, ?_, hr.puts_of_grows h hp' rfl⟩
  intro j
  rw [hr.mem_removed_iff]
  by_cases hj : slot = j
  · subst hj
    rw [hslots, hs]
    simp
  · rw [hother j hj]

theorem write_sound {r : Race} (hr : r.Sound) (k : Nat) (now : Rat) :
    r.Grows (r.step (.write k now)) ∧ (r.step (.write k now)).Sound := by
  cases hk : r.puts[k]? with
  | none =>
    simp only [step, hk]
    exact ⟨Grows.refl r, hr⟩
  | some p =>
    cases hstage : p.stage with
    | looking =>
      simp only [step, hk, hstage]
      exact ⟨Grows.refl r, hr⟩
    | done slot put =>
      simp only [step, hk, hstage]
      exact ⟨Grows.refl r, hr⟩
    | found slot =>
      have hslot : p.slot? = some slot := by simp [RunningPut.slot?, hstage]
      obtain ⟨s, hs, -⟩ := (hr.puts p (List.mem_of_getElem? hk)).held slot hslot
      simp only [step, hk, hstage, writeTo]
      cases hmarked : s.sequence.evicted with
      | true =>
        rw [Store.write_of_evicted hs hmarked]
        exact refused_sound hr hk hstage hs hmarked
      | false =>
        rw [Store.write_of_live hs hmarked]
        exact taken_sound hr hk hstage hs hmarked now

theorem takeOut_sound {r : Race} (hr : r.Sound) {slot : Nat} {s : Slot}
    (hs : r.store.slots[slot]? = some s) (hreg : s.registered = true) :
    r.Grows (r.takeOut slot) ∧ (r.takeOut slot).Sound := by
  have hnew : slot ∉ r.removed := by
    intro hmem
    obtain ⟨t, ht, hgone⟩ := (hr.mem_removed_iff slot).1 hmem
    rw [hs] at ht
    rw [← Option.some.inj ht, hreg] at hgone
    exact absurd hgone (by simp)
  have h : r.Grows (r.takeOut slot) :=
    { removed := List.prefix_append _ _
      slots := by
        intro j t hj
        by_cases hslot : slot = j
        · subst hslot
          rw [hs] at hj
          obtain rfl := Option.some.inj hj
          refine ⟨s.detach, ?_, rfl, ?_, fun _ _ he => he, ?_⟩
          · simp only [takeOut, Store.slots_detach, if_pos, hs, Option.map_some]
          · intro _
            right
            simp [takeOut]
          · intro hmarked
            rw [hr.store.live slot s hs hreg] at hmarked
            exact absurd hmarked (by simp)
        · refine ⟨t, ?_, rfl, Or.inl, fun _ _ he => he, fun _ => rfl⟩
          simp only [takeOut, Store.slots_detach, if_neg hslot, hj]
      done := fun _ _ _ _ hj _ => hj }
  refine ⟨h, hr.store.detach slot, ?_, ?_, fun p hp => (hr.puts p hp).grow h⟩
  · exact hr.distinct.append (List.nodup_singleton slot) (by simpa using hnew)
  · intro j
    simp only [takeOut, List.mem_append, List.mem_singleton, Store.slots_detach]
    by_cases hj : slot = j
    · subst hj
      simp [hs, Slot.detach]
    · rw [if_neg hj, hr.mem_removed_iff]
      simp [Ne.symm hj]

theorem mark_sound {r : Race} (hr : r.Sound) (slot : Nat) :
    r.Grows (r.step (.mark slot)) ∧ (r.step (.mark slot)).Sound := by
  by_cases hmem : slot ∈ r.removed
  · simp only [step, if_pos hmem]
    obtain ⟨s, hs, hgone⟩ := (hr.mem_removed_iff slot).1 hmem
    have hslots (j : Nat) (t : Slot) (hj : r.store.slots[j]? = some t) :
        ∃ u, (r.store.markEvicted slot).slots[j]? = some u ∧ u.deployment = t.deployment ∧
          u.registered = t.registered ∧ u.sequence.events = t.sequence.events ∧
          (t.sequence.evicted = true → u = t) := by
      rw [Store.slots_markEvicted, hj]
      split
      · refine ⟨t.markEvicted, rfl, rfl, rfl, rfl, ?_⟩
        intro hmarked
        rw [Slot.markEvicted, ← hmarked]
      · exact ⟨t, rfl, rfl, rfl, rfl, fun _ => rfl⟩
    have h : r.Grows { r with store := r.store.markEvicted slot } :=
      { removed := List.prefix_refl _
        slots := by
          intro j t hj
          obtain ⟨u, hu, hdep, hreg, hevents, hsame⟩ := hslots j t hj
          refine ⟨u, hu, hdep, fun ht => Or.inl (hreg.trans ht), ?_, hsame⟩
          intro i e he
          rw [hevents, he]
        done := fun _ _ _ _ hj _ => hj }
    have hunregistered : ∀ t, r.store.slots[slot]? = some t → t.registered = false := by
      intro t ht
      rw [hs] at ht
      rw [← Option.some.inj ht, hgone]
    refine ⟨h, hr.store.markEvicted hunregistered, hr.distinct, ?_,
      fun p hp => (hr.puts p hp).grow h⟩
    intro j
    rw [hr.mem_removed_iff]
    constructor
    · rintro ⟨t, hj, ht⟩
      obtain ⟨u, hu, -, hreg, -⟩ := hslots j t hj
      exact ⟨u, hu, hreg.trans ht⟩
    · rintro ⟨u, hu, hgone'⟩
      rw [Store.slots_markEvicted] at hu
      split at hu
      · obtain ⟨t, ht, rfl⟩ := Option.map_eq_some_iff.1 hu
        exact ⟨t, ht, hgone'⟩
      · exact ⟨u, hu, hgone'⟩
  · simp only [step, if_neg hmem]
    exact ⟨Grows.refl r, hr⟩

theorem step_sound {r : Race} (hr : r.Sound) (s : Step) :
    r.Grows (r.step s) ∧ (r.step s).Sound := by
  cases s with
  | begin id index event => exact begin_sound hr id index event
  | lookup k now => exact lookup_sound hr k now
  | write k now => exact write_sound hr k now
  | remove id =>
    cases hc : r.store.current? id with
    | none =>
      simp only [step, hc]
      exact ⟨Grows.refl r, hr⟩
    | some slot =>
      simp only [step, hc]
      obtain ⟨s, hs, hserves⟩ := Store.serves_of_current? hc
      exact takeOut_sound hr hs (Slot.serves_iff.1 hserves).1
  | removeIdle slot maxIdle now =>
    cases hs : r.store.slots[slot]? with
    | none =>
      simp only [step, hs]
      exact ⟨Grows.refl r, hr⟩
    | some s =>
      simp only [step, hs]
      split
      · rename_i hidle
        rw [Slot.isIdle, Bool.and_eq_true] at hidle
        exact takeOut_sound hr hs hidle.1
      · exact ⟨Grows.refl r, hr⟩
  | mark slot => exact mark_sound hr slot

theorem run_sound {r : Race} (hr : r.Sound) (steps : List Step) :
    r.Grows (r.run steps) ∧ (r.run steps).Sound := by
  induction steps generalizing r with
  | nil => exact ⟨Grows.refl r, hr⟩
  | cons s rest ih =>
    obtain ⟨hgrows, hsound⟩ := step_sound hr s
    obtain ⟨hgrows', hsound'⟩ := ih hsound
    exact ⟨hgrows.trans hgrows', hsound'⟩

/-! ### Steps that nothing comes between

Without others a put and an eviction are the operations of the store. -/

theorem run_put {r : Race} (hr : r.Sound) {index : Int} {event : Event}
    (ok : Store.check index event = .ok ()) (now : Rat) (id : String) :
    let alone := r.run [.begin id index event, .lookup r.puts.length now,
      .write r.puts.length now]
    ∃ report next p, r.store.put now id index event = .ok (report, next) ∧
      alone.store = next ∧ alone.puts[r.puts.length]? = some p ∧
        p.stage = .done report.slot report.put ∧ p.lookups = report.lookups := by
  intro alone
  obtain ⟨s, hs, hserves, hseq⟩ := hr.store.lookup_serves now id
  have hlive := (hr.store.lookup now id).live _ s hs (Slot.serves_iff.1 hserves).1
  have hwrite := Store.write_of_live hs hlive now index event
  rw [hseq] at hwrite
  have halone : alone = { r with
      store := (r.store.lookup now id).2.setSequence (r.store.lookup now id).1
        ((r.store.sequenceAt now id).insert now index event).2
      puts := r.puts ++ [⟨id, index, event, .done (r.store.lookup now id).1
        ((r.store.sequenceAt now id).insert now index event).1, 1, r.removed.length,
        r.removed.length⟩] } := by
    simp [alone, run, step, ok, RunningPut.find, writeTo, hwrite]
  rw [halone]
  exact ⟨_, _, _, hr.store.put_eq ok now id, rfl, List.getElem?_concat_length, rfl, rfl⟩

theorem run_evict {r : Race} {id : String} {slot : Nat} (hc : r.store.current? id = some slot) :
    (r.run [.remove id, .mark slot]).store = (r.store.evict id).2 := by
  simp [run, step, hc, takeOut, Store.evict_of_current? hc]

/-- The numbers of the sequences that are idle. -/
def idleSlots (store : Store) (maxIdle now : Rat) : List Nat :=
  (List.range store.slots.length).filter fun k =>
    store.slots[k]?.any fun s => s.isIdle maxIdle now

theorem mem_idleSlots_iff {store : Store} {maxIdle now : Rat} {k : Nat} :
    k ∈ idleSlots store maxIdle now ↔
      ∃ s, store.slots[k]? = some s ∧ s.isIdle maxIdle now = true := by
  rw [idleSlots, List.mem_filter, List.mem_range, Option.any_eq_true]
  constructor
  · exact fun h => h.2
  · rintro ⟨s, hs, hidle⟩
    exact ⟨(List.getElem?_eq_some_iff.1 hs).1, s, hs, hidle⟩

theorem run_removeIdle {r : Race} {ks : List Nat} (distinct : ks.Nodup) {maxIdle now : Rat}
    (idle : ∀ k ∈ ks, ∃ s, r.store.slots[k]? = some s ∧ s.isIdle maxIdle now = true) :
    (r.run (ks.map fun k => .removeIdle k maxIdle now)).removed = r.removed ++ ks ∧
      ∀ j, (r.run (ks.map fun k => .removeIdle k maxIdle now)).store.slots[j]? =
        if j ∈ ks then r.store.slots[j]?.map Slot.detach else r.store.slots[j]? := by
  induction ks generalizing r with
  | nil => simp [run]
  | cons k rest ih =>
    obtain ⟨hk, hrest⟩ := List.nodup_cons.1 distinct
    obtain ⟨s, hs, hidle⟩ := idle k List.mem_cons_self
    have hstep : r.step (.removeIdle k maxIdle now) = r.takeOut k := by
      simp only [step, hs, hidle, if_true]
    have hslots : ∀ j, (r.takeOut k).store.slots[j]? =
        if k = j then r.store.slots[j]?.map Slot.detach else r.store.slots[j]? :=
      fun j => Store.slots_detach r.store k j
    obtain ⟨hremoved, hafter⟩ := ih (r := r.takeOut k) hrest (by
      intro j hj
      have hne : k ≠ j := fun heq => hk (heq ▸ hj)
      rw [hslots, if_neg hne]
      exact idle j (List.mem_cons_of_mem k hj))
    simp only [run, List.map_cons, List.foldl_cons, hstep] at hremoved hafter ⊢
    refine ⟨?_, ?_⟩
    · rw [hremoved, takeOut, List.append_assoc, List.singleton_append]
    · intro j
      rw [hafter, hslots]
      by_cases hj : k = j
      · subst hj
        simp [hk]
      · simp [hj, Ne.symm hj]

theorem run_mark {r : Race} {ks : List Nat} (distinct : ks.Nodup) (gone : ∀ k ∈ ks, k ∈ r.removed)
    (j : Nat) :
    (r.run (ks.map .mark)).store.slots[j]? =
      if j ∈ ks then r.store.slots[j]?.map Slot.markEvicted else r.store.slots[j]? := by
  induction ks generalizing r with
  | nil => simp [run]
  | cons k rest ih =>
    obtain ⟨hk, hrest⟩ := List.nodup_cons.1 distinct
    have hstep : r.step (.mark k) = { r with store := r.store.markEvicted k } := by
      simp only [step, if_pos (gone k List.mem_cons_self)]
    have hafter := ih (r := { r with store := r.store.markEvicted k }) hrest
      fun j hj => gone j (List.mem_cons_of_mem k hj)
    simp only [run, List.map_cons, List.foldl_cons, hstep] at hafter ⊢
    rw [hafter, Store.slots_markEvicted]
    by_cases hj : k = j
    · subst hj
      simp [hk]
    · simp [hj, Ne.symm hj]

theorem run_evictIdle (r : Race) (maxIdle now : Rat) :
    let idle := idleSlots r.store maxIdle now
    (r.run ((idle.map fun k => .removeIdle k maxIdle now) ++ idle.map .mark)).store =
      (r.store.evictIdle maxIdle now).2 := by
  intro idle
  have distinct : idle.Nodup := List.nodup_range.filter _
  obtain ⟨hremoved, hdetached⟩ :=
    run_removeIdle (r := r) distinct fun k hk => mem_idleSlots_iff.1 hk
  have hmarked := run_mark (r := r.run (idle.map fun k => .removeIdle k maxIdle now)) distinct
    fun k hk => hremoved ▸ List.mem_append_right _ hk
  have hslots : (r.run ((idle.map fun k => .removeIdle k maxIdle now) ++
      idle.map .mark)).store.slots = (r.store.evictIdle maxIdle now).2.slots := by
    apply List.ext_getElem?
    intro j
    rw [run, List.foldl_append]
    refine (hmarked j).trans ?_
    rw [hdetached, Store.slots_evictIdle]
    by_cases hj : j ∈ idle
    · obtain ⟨s, hs, hidle⟩ := mem_idleSlots_iff.1 hj
      simp [hj, hs, hidle]
    · rw [if_neg hj, if_neg hj]
      cases hs : r.store.slots[j]? with
      | none => rfl
      | some s =>
        have hbusy : s.isIdle maxIdle now = false := by
          rw [← Bool.not_eq_true]
          exact fun hidle => hj (mem_idleSlots_iff.2 ⟨s, hs, hidle⟩)
        simp [hbusy]
  exact congrArg Store.mk hslots

/-! ### Main result -/

theorem lookups_le {r : Race} {p : RunningPut} (hp : p.Sound r) :
    p.lookups ≤ 1 + (r.evictionsDuring p).length := by
  obtain ⟨refused, distinct, hrefused, -, hlookups⟩ := hp.refused
  have hsub : refused ⊆ r.evictionsDuring p := by
    intro k hk
    obtain ⟨hgone, s, hs, hdep, hmarked⟩ := hrefused k hk
    refine List.mem_filter.2 ⟨hgone, ?_⟩
    simp [hs, hdep, hmarked]
  have hle := (distinct.subperm hsub).length_le
  have hone : p.slot?.toList.length ≤ 1 := by cases p.slot? <;> simp
  omega

/-- A put that first tries a sequence that serves its deployment, or that was evicted, does what any
put does, and looks twice if that sequence was evicted. -/
theorem putFound_eq {store : Store} (hs : store.Sound) {index : Int} {event : Event}
    (ok : Store.check index event = .ok ()) (now : Rat) {k : Nat} {s : Slot}
    (hk : store.slots[k]? = some s)
    (held : s.registered = true ∨ s.sequence.evicted = true) :
    ∃ report next, store.put now s.deployment index event = .ok (report, next) ∧
      report.lookups = 1 ∧
      store.putFound now s.deployment index event [k] =
        .ok ({ report with lookups := if s.sequence.evicted then 2 else 1 }, next) := by
  have hput := hs.put_eq ok now s.deployment
  have hvia := hput
  simp only [Store.put, Store.putFound, ok, Except.map, Except.ok.injEq] at hvia
  refine ⟨_, _, hput, rfl, ?_⟩
  cases hmarked : s.sequence.evicted with
  | true =>
    rw [Store.putFound, ok, Except.map, Store.putVia,
      Store.write_of_evicted hk hmarked]
    simp only [hvia, if_pos]
  | false =>
    have hreg : s.registered = true := by
      rcases held with hreg | hevicted
      · exact hreg
      · exact absurd (hmarked.symm.trans hevicted) (by simp)
    have hserves := Slot.serves_iff.2 ⟨hreg, rfl⟩
    have hcurrent := hs.unique.current?_eq_some hk hserves
    have hseq : store.sequenceAt now s.deployment = s.sequence := by
      rw [Store.sequenceAt, hs.unique.find?_eq_some_iff.2 ⟨k, s, hk, hserves, rfl⟩,
        Option.getD_some]
    rw [Store.putFound, ok, Except.map, Store.putVia, Store.write_of_live hk hmarked]
    simp [hseq, hcurrent, Store.lookup_of_current? hcurrent]

/-- A put that races with evictions is never lost. -/
theorem put_survives_evictions (steps later : List Step) :
    let r := ({} : Race).run steps
    let after := r.run later
    (∀ (k : Nat) (s : Slot), r.store.slots[k]? = some s → s.registered = true →
      s.sequence.evicted = false) ∧
    (∀ (k : Nat) (s : Slot), r.store.slots[k]? = some s → s.sequence.evicted = true →
      after.store.slots[k]? = some s) ∧
    (∀ (k : Nat) (p : RunningPut) (slot : Nat) (event : Event), r.puts[k]? = some p →
      p.stage = .done slot (.stored event) →
      after.puts[k]? = some p ∧ event = p.event ∧
        (slot ∈ after.removed.drop p.looked ∨
          (after.store.current? p.id = some slot ∧
            ∃ s, after.store.find? p.id = some s ∧ s.events[p.index]? = some p.event))) ∧
    (∀ p ∈ r.puts, p.lookups ≤ 1 + (r.evictionsDuring p).length) ∧
    (∀ (now : Rat) (index : Int) (event : Event) (k : Nat) (s : Slot),
      Store.check index event = .ok () → r.store.slots[k]? = some s →
      (s.registered = true ∨ s.sequence.evicted = true) →
      ∃ report next, r.store.put now s.deployment index event = .ok (report, next) ∧
        report.lookups = 1 ∧
        r.store.putFound now s.deployment index event [k] =
          .ok ({ report with lookups := if s.sequence.evicted then 2 else 1 }, next)) := by
  intro r after
  have hr : r.Sound := (run_sound sound_empty steps).2
  obtain ⟨hgrows, hafter⟩ : r.Grows after ∧ after.Sound := run_sound hr later
  refine ⟨hr.store.live, ?_, ?_, fun p hp => lookups_le (hr.puts p hp), ?_⟩
  · intro k s hk hmarked
    obtain ⟨t, ht, -, -, -, hsame⟩ := hgrows.slots k s hk
    rw [ht, hsame hmarked]
  · intro k p slot event hk hstage
    have hk' := hgrows.done k p slot _ hk hstage
    have hp := hafter.puts p (List.mem_of_getElem? hk')
    obtain ⟨hevent, s, hs, hstored⟩ := hp.stored slot event hstage
    refine ⟨hk', hevent, ?_⟩
    obtain ⟨t, ht, hdep, hreg | hgone⟩ := hp.held slot (by simp [RunningPut.slot?, hstage])
    · rw [hs] at ht
      obtain rfl := Option.some.inj ht
      have hserves := Slot.serves_iff.2 ⟨hreg, hdep⟩
      exact Or.inr ⟨hafter.store.unique.current?_eq_some hs hserves, s.sequence,
        hafter.store.unique.find?_eq_some_iff.2 ⟨slot, s, hs, hserves, rfl⟩, hstored⟩
    · exact Or.inl hgone
  · intro now index event k s ok hk held
    exact putFound_eq hr.store ok now hk held

/-- A put whose sequence is evicted between its two steps. -/
def evictedMeanwhile : List Step :=
  [.begin "d" 0 ⟨0, "up", .zero false⟩, .lookup 0 1, .remove "d", .mark 0, .write 0 2,
    .lookup 0 3, .write 0 4]

theorem put_survives_one_eviction :
    let r := ({} : Race).run evictedMeanwhile
    let p : RunningPut := ⟨"d", 0, ⟨0, "up", .zero false⟩,
      .done 1 (.stored ⟨0, "up", .zero false⟩), 2, 0, 1⟩
    ∃ gone current : Slot, r.store.slots = [gone, current] ∧ r.puts = [p] ∧ r.removed = [0] ∧
      current.sequence.evicted = false ∧
      (r.run [.remove "d"]).store.slots[0]? = some gone ∧
      (1 ∈ (r.run [.remove "d"]).removed.drop p.looked ∨
        (r.run [.remove "d"]).store.current? p.id = some 1 ∧
          ∃ s, (r.run [.remove "d"]).store.find? p.id = some s ∧
            s.events[p.index]? = some p.event) ∧
      p.lookups ≤ 1 + (r.evictionsDuring p).length ∧
      ∃ report next, r.store.put 5 gone.deployment 1 ⟨1, "on", .zero false⟩ = .ok (report, next) ∧
        report.lookups = 1 ∧
        r.store.putFound 5 gone.deployment 1 ⟨1, "on", .zero false⟩ [0] =
          .ok ({ report with lookups := 2 }, next) := by
  intro r p
  obtain ⟨live, marked, taken, bound, racing⟩ :=
    put_survives_evictions evictedMeanwhile [.remove "d"]
  exact ⟨_, _, rfl, rfl, rfl, live 1 _ rfl rfl, marked 0 _ rfl rfl, (taken 0 p 1 _ rfl rfl).2.2,
    bound p (List.mem_singleton.2 rfl), racing 5 1 _ 0 _ rfl rfl (Or.inr rfl)⟩

end Race
end Lifecycle
