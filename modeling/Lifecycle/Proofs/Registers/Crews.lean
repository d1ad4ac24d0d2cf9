import Lifecycle.Proofs.Registers.Matching
import Lifecycle.Proofs.Watcher.Alike

/-! # Crews at work, seen from the registers

The watchers of a table act one after the other, and so do those of the crew. Each of them leaves
registers that match the crew so far, so the next one finds the same allocator and the same store in
both. This goes for the passes of a crew, for starting loops and for stopping them, and for taking
on new watchers. -/

namespace Lifecycle

namespace Watcher

variable (w : Watcher) (source : Source) (clock : Clock) (desk : Desk)

theorem wake_loop {rank : Nat} (h : (w.wake source clock desk).state.1.loop = some rank) :
    w.loop = some rank := by
  have hloop := (w.catchUp_loop source clock desk).1
  simp only [wake] at h
  split at h
  · exact hloop.symm.trans h
  · exact absurd h (by simp)
  · exact hloop.symm.trans h

theorem start_loop {rank other : Nat}
    (h : (w.start rank source clock desk).state.1.loop = some other) :
    w.loop = some other ∨ other = rank := by
  simp only [start] at h
  split at h
  · exact Or.inl h
  · exact Or.inr (Option.some.inj (wake_loop { w with loop := some rank } source clock desk h)).symm

end Watcher

namespace Collector

theorem update_update (c : Collector) (operation : String) (crew next : Crew)
    (store store' : Store) :
    (c.update operation crew store).update operation next store' =
      c.update operation next store' := by
  simp only [update, Keyed.set_set]

theorem update_of_crew? {c : Collector} {operation : String} {crew : Crew}
    (h : c.crew? operation = some crew) : c.update operation crew c.store = c := by
  rw [update, Keyed.set_get? h]

end Collector

namespace Registers

variable {r : Registers} {c : Collector} {operation : String} {allocator : Allocator}
  {before rest : List Watcher} {places : List Nat}

/-- The registers match a collector. In the crew of an operation the watchers of `before` have had
their turn, and those of `rest`, who are at `places`, have not. -/
structure Midway (r : Registers) (c : Collector) (operation : String) (allocator : Allocator)
    (before rest : List Watcher) (places : List Nat) : Prop where
  isMatch : r.Matches c
  crew : c.crew? operation = some ⟨allocator, before ++ rest⟩
  table : ∃ earlier later, Keyed.get? r.watchersOf operation = some (earlier ++ later) ∧
    earlier.length = before.length ∧ places = later.map Prod.snd

theorem Matches.midway {crew : Crew} (h : r.Matches c) (hcrew : c.crew? operation = some crew) :
    Midway r c operation crew.allocator [] crew.watchers (r.places operation) := by
  obtain ⟨_, table, -, htable, -⟩ := h.crews operation crew hcrew
  exact ⟨h, hcrew, [], table, htable, rfl, by rw [places, htable, Option.getD_some]⟩

namespace Midway

theorem length_places (h : Midway r c operation allocator before rest places) :
    places.length = rest.length := by
  obtain ⟨earlier, later, htable, hlength, rfl⟩ := h.table
  have hall := h.isMatch.length_table h.crew htable
  rw [List.length_append, List.length_append, hlength] at hall
  rw [List.length_map]
  exact Nat.add_left_cancel hall

/-- A crew whose last watcher has had his turn. -/
theorem done (h : Midway r c operation allocator before [] places) :
    places = [] ∧ r.Matches (c.update operation ⟨allocator, before ++ []⟩ c.store) := by
  refine ⟨List.length_eq_zero_iff.1 h.length_places, ?_⟩
  rw [Collector.update_of_crew? h.crew]
  exact h.isMatch

/-- The next watcher has his turn. -/
theorem next {α : Type} [Inhabited α] {w : Watcher}
    (h : Midway r c operation allocator before (w :: rest) places)
    {f : Watcher → Desk → Outcome (Watcher × Desk) α}
    (hduty : (f w ⟨allocator, c.store⟩).state.1.duty = w.duty)
    (hloop : ∀ rank, (f w ⟨allocator, c.store⟩).state.1.loop = some rank →
      w.loop = some rank ∨ ∀ other, (rank, other) ∉ r.loops) :
    let outcome := f w ⟨allocator, c.store⟩
    ∃ place behind, places = place :: behind ∧
      Acts r c operation ⟨allocator, before ++ w :: rest⟩ before.length w
        outcome (r.actAt place f) ∧
      ∃ d : Collector, d.store = outcome.state.2.store ∧
        (∀ crew store, d.update operation crew store = c.update operation crew store) ∧
        Midway (r.actAt place f).state d operation outcome.state.2.allocator
          (before ++ [outcome.state.1]) rest behind := by
  intro outcome
  have hlength' := h.length_places
  obtain ⟨earlier, later, htable, hlength, rfl⟩ := h.table
  cases later with
  | nil => exact absurd hlength' (by simp)
  | cons e behind =>
    have hentry : (earlier ++ e :: behind)[before.length]? = some e := by
      rw [← hlength, List.getElem?_append_right (Nat.le_refl _), Nat.sub_self,
        List.getElem?_cons_zero]
    have hw : (before ++ w :: rest)[before.length]? = some w := by
      rw [List.getElem?_append_right (Nat.le_refl _), Nat.sub_self, List.getElem?_cons_zero]
    have hacts := h.isMatch.actAt h.crew htable hentry hw hduty hloop
    refine ⟨e.2, behind.map Prod.snd, rfl, hacts, _, rfl, ?_, hacts.isMatch, ?_, ?_⟩
    · exact fun crew store => c.update_update operation _ crew _ store
    · rw [Collector.crew?_update, if_pos rfl, List.set_append_right _ _ (Nat.le_refl _),
        Nat.sub_self, List.set_cons_zero, List.append_assoc, List.singleton_append]
    · refine ⟨earlier ++ [e], behind, ?_, ?_, rfl⟩
      · rw [hacts.watchersOf, htable, List.append_assoc, List.singleton_append]
      · rw [List.length_append, List.length_append, hlength, List.length_singleton,
          List.length_singleton]

theorem pollAll (h : Midway r c operation allocator before rest places) (source : Source)
    (clock : Clock) :
    let polled := Registers.pollAll source clock places r
    let outcome := Crew.pollAll source clock rest ⟨allocator, c.store⟩
    polled.value = outcome.value ∧ polled.effects = outcome.effects ∧
      polled.state.Matches (c.update operation
        ⟨outcome.state.2.allocator, before ++ outcome.state.1⟩ outcome.state.2.store) := by
  induction rest generalizing r c allocator before places with
  | nil =>
    obtain ⟨rfl, hmatch⟩ := h.done
    exact ⟨rfl, rfl, hmatch⟩
  | cons w rest ih =>
    obtain ⟨place, behind, rfl, hacts, d, hstore, hupdate, hnext⟩ :=
      h.next (f := fun w desk => w.catchUp source clock desk) (w.catchUp_duty source clock _)
        fun rank hrank => Or.inl ((w.catchUp_loop source clock _).1.symm.trans hrank)
    simp only [Registers.pollAll, Crew.pollAll, hacts.value]
    cases hvalue : (w.catchUp source clock ⟨allocator, c.store⟩).value with
    | error fault =>
      have hmatch := hacts.isMatch
      rw [List.set_append_right _ _ (Nat.le_refl _), Nat.sub_self, List.set_cons_zero] at hmatch
      exact ⟨rfl, hacts.effects, hmatch⟩
    | ok stored =>
      obtain ⟨hothers, heffects, hmatch⟩ := ih hnext
      rw [hstore] at hothers heffects hmatch
      rw [hupdate, List.append_assoc, List.singleton_append] at hmatch
      exact ⟨by rw [hothers], by rw [hacts.effects, heffects], hmatch⟩

/-- The ranks of the new loops are behind those of all running ones. -/
theorem startAll (h : Midway r c operation allocator before rest places) (source : Source)
    (clock : Clock) {rank : Nat} (hrank : ∀ e ∈ r.loops, e.1 < rank) :
    let started := Registers.startAll source clock rank places r
    let outcome := Crew.startFrom source clock rank rest ⟨allocator, c.store⟩
    started.2 = outcome.2 ∧
      started.1.Matches (c.update operation ⟨outcome.1.2.allocator, before ++ outcome.1.1⟩
        outcome.1.2.store) := by
  induction rest generalizing r c allocator before places rank with
  | nil =>
    obtain ⟨rfl, hmatch⟩ := h.done
    exact ⟨rfl, hmatch⟩
  | cons w rest ih =>
    have hloop : ∀ other, (w.start rank source clock ⟨allocator, c.store⟩).state.1.loop =
        some other → w.loop = some other ∨ ∀ place, (other, place) ∉ r.loops := by
      intro other hother
      refine (w.start_loop source clock _ hother).imp_right ?_
      rintro rfl place hplace
      exact Nat.lt_irrefl _ (hrank _ hplace)
    obtain ⟨place, behind, rfl, hacts, d, hstore, hupdate, hnext⟩ :=
      h.next (f := fun w desk => w.start rank source clock desk) (w.start_duty source clock _ rank)
        hloop
    have hbehind : ∀ e ∈ (r.actAt place fun w desk => w.start rank source clock desk).state.loops,
        e.1 < rank + 1 := by
      rintro ⟨other, q⟩ hq
      rcases hacts.loops other q hq with hold | ⟨hnew, hother⟩
      · exact Nat.lt_succ_of_lt (hrank _ hold)
      · rw [(w.start_loop source clock _ hnew).resolve_left hother]
        exact Nat.lt_succ_self rank
    obtain ⟨heffects, hmatch⟩ := ih hnext hbehind
    rw [hstore] at heffects hmatch
    rw [hupdate, List.append_assoc, List.singleton_append] at hmatch
    exact ⟨by simp only [Registers.startAll, Crew.startFrom, hacts.effects, heffects], hmatch⟩

theorem stopAll (h : Midway r c operation allocator before rest places) :
    let stopped := Registers.stopAll places r
    stopped.2 = rest.flatMap (fun w => w.stop.2) ∧
      stopped.1.Matches (c.update operation
        ⟨allocator, before ++ rest.map fun w => w.stop.1⟩ c.store) := by
  induction rest generalizing r c allocator before places with
  | nil =>
    obtain ⟨rfl, hmatch⟩ := h.done
    exact ⟨rfl, hmatch⟩
  | cons w rest ih =>
    obtain ⟨place, behind, rfl, hacts, d, hstore, hupdate, hnext⟩ :=
      h.next (f := fun w desk => (⟨(w.stop.1, desk), .ok (), w.stop.2⟩ : Outcome _ Unit))
        w.stop_duty fun rank hrank => absurd hrank (by simp [w.loop_stop])
    obtain ⟨heffects, hmatch⟩ := ih hnext
    rw [hstore] at hmatch
    rw [hupdate, List.append_assoc, List.singleton_append] at hmatch
    exact ⟨by simp only [Registers.stopAll, List.flatMap_cons, hacts.effects, heffects], hmatch⟩

end Midway

/-! ### New watchers -/

variable {crew : Crew} {table : Keyed String Nat} {address : Nat}

theorem Holds.watches (h : r.Holds operation address table crew) (name : String) :
    (Keyed.get? table name).isSome = crew.watches name := by
  rw [Bool.eq_iff_iff, Crew.watches, List.any_eq_true, ← Option.ne_none_iff_isSome, ne_eq,
    Keyed.get?_eq_none_iff, not_not, List.mem_map]
  constructor
  · rintro ⟨⟨name, place⟩, he, rfl⟩
    obtain ⟨k, hentry⟩ := List.mem_iff_getElem?.1 he
    obtain ⟨w, hw⟩ := h.exists_watcher hentry
    exact ⟨w, List.mem_of_getElem? hw, beq_iff_eq.2 (h.posts k name place w hentry hw).2.1⟩
  · rintro ⟨w, hw, hname⟩
    obtain ⟨k, hw⟩ := List.mem_iff_getElem?.1 hw
    obtain ⟨name', place, hentry⟩ := h.exists_entry hw
    have hsame := (h.posts k name' place w hentry hw).2.1
    exact ⟨(name', place), List.mem_of_getElem? hentry, hsame.symm.trans (beq_iff_eq.1 hname)⟩

/-- A crew that has taken on a watcher of a new name. -/
theorem Holds.enter (h : r.Holds operation address table crew) {worker : Worker}
    (hnew : Keyed.get? table worker.name = none) :
    (r.enter operation address worker).Holds operation address
      (table ++ [(worker.name, r.posts.length)])
      (crew.join [{ deployment := operation, worker, halting := r.halting }]) where
  allocator := h.allocator
  length := by
    rw [Crew.join, List.length_append, List.length_append, h.length, List.length_singleton,
      List.length_singleton]
  posts := by
    intro k name place w hentry hw
    rw [Crew.join] at hw
    by_cases hk : k < table.length
    · rw [List.getElem?_append_left hk] at hentry
      rw [List.getElem?_append_left (h.length ▸ hk)] at hw
      obtain ⟨hpost, hsame⟩ := h.posts k name place w hentry hw
      obtain ⟨hlt, -⟩ := List.getElem?_eq_some_iff.1 hpost
      exact ⟨(List.getElem?_append_left hlt).trans hpost, hsame⟩
    · have hlast : k = table.length := by
        obtain ⟨hlt, -⟩ := List.getElem?_eq_some_iff.1 hentry
        rw [List.length_append, List.length_singleton] at hlt
        omega
      subst hlast
      rw [List.getElem?_concat_length] at hentry
      rw [h.length, List.getElem?_concat_length] at hw
      obtain ⟨rfl, rfl⟩ := Prod.mk.inj (Option.some.inj hentry)
      rw [← Option.some.inj hw]
      exact ⟨List.getElem?_concat_length, rfl, rfl⟩
  names := by
    rw [← Keyed.set_of_get?_eq_none hnew]
    exact h.names.set _ _

theorem enter_posts {worker : Worker} {q : Nat} {post : Post}
    (h : (r.enter operation address worker).posts[q]? = some post) :
    r.posts[q]? = some post ∨ q = r.posts.length ∧
      post = ⟨{ deployment := operation, worker, halting := r.halting }, address⟩ := by
  rw [Registers.enter] at h
  by_cases hq : q < r.posts.length
  · rw [List.getElem?_append_left hq] at h
    exact Or.inl h
  · have hlast : q = r.posts.length := by
      obtain ⟨hlt, -⟩ := List.getElem?_eq_some_iff.1 h
      rw [List.length_append, List.length_singleton] at hlt
      omega
    subst hlast
    rw [List.getElem?_concat_length] at h
    exact Or.inr ⟨rfl, (Option.some.inj h).symm⟩

/-- A watcher that was taken on has no loop yet. -/
theorem mem_loops_enter {worker : Worker} {loop : Nat × Nat}
    (h : loop ∈ (r.enter operation address worker).loops) : loop ∈ r.loops := by
  obtain ⟨post, hq, hrank⟩ := mem_loops_iff.1 h
  rcases enter_posts hq with hold | ⟨-, rfl⟩
  · exact mem_loops_iff.2 ⟨post, hold, hrank⟩
  · exact absurd hrank (by simp)

theorem Matches.enter (h : r.Matches c) (hcrew : c.crew? operation = some crew)
    (haddress : Keyed.get? r.allocatorOf operation = some address)
    (htable : Keyed.get? r.watchersOf operation = some table) {worker : Worker}
    (hnew : Keyed.get? table worker.name = none) :
    (r.enter operation address worker).Matches
      (c.update operation
        (crew.join [{ deployment := operation, worker, halting := c.halting }]) c.store) := by
  obtain ⟨address', haddress', hholds⟩ := h.holds hcrew htable
  obtain rfl := Option.some.inj (haddress.symm.trans haddress')
  have hwatchersOf : (r.enter operation address worker).watchersOf =
      Keyed.set r.watchersOf operation (table ++ [(worker.name, r.posts.length)]) := by
    simp only [Registers.enter, htable, Option.getD_some, Keyed.set_of_get?_eq_none hnew]
  have hget : ∀ other, Keyed.get? (r.enter operation address worker).watchersOf other =
      if operation = other then some (table ++ [(worker.name, r.posts.length)])
      else Keyed.get? r.watchersOf other := by
    intro other
    rw [hwatchersOf, Keyed.get?_set]
    simp only [beq_iff_eq]
  have hkeys := Keyed.map_fst_set_of_get? hcrew
    (crew.join [{ deployment := operation, worker, halting := c.halting }])
  constructor
  · exact h.store
  · exact h.halting
  · exact h.distinct.set _ _
  · exact h.allocatorKeys.trans hkeys.symm
  · rw [hwatchersOf, Keyed.map_fst_set_of_get? htable]
    exact h.watcherKeys.trans hkeys.symm
  · intro other crew' hcrew'
    rw [Collector.crew?_update] at hcrew'
    rw [hget]
    by_cases heq : operation = other
    · rw [if_pos heq] at hcrew' ⊢
      have hentered := hholds.enter hnew
      rw [h.halting] at hentered
      rw [← Option.some.inj hcrew', ← heq]
      exact ⟨address, _, haddress, rfl, hentered⟩
    · rw [if_neg heq] at hcrew' ⊢
      obtain ⟨address', table', haddress', htable', hholds'⟩ := h.crews other crew' hcrew'
      refine ⟨address', table', haddress', htable', hholds'.frame rfl ?_⟩
      intro q post hq _
      obtain ⟨hlt, -⟩ := List.getElem?_eq_some_iff.1 hq
      exact (List.getElem?_append_left hlt).trans hq
  · exact h.apart
  · intro q post hq hrunning
    rcases enter_posts hq with hold | ⟨-, rfl⟩
    · obtain ⟨table', htable', hmem⟩ := h.listed q post hold hrunning
      rw [hget]
      by_cases heq : operation = post.watcher.deployment
      · rw [if_pos heq]
        rw [← heq, htable] at htable'
        rw [Option.some.inj htable']
        exact ⟨_, rfl, List.mem_append_left _ hmem⟩
      · rw [if_neg heq]
        exact ⟨table', htable', hmem⟩
    · exact absurd hrunning (by simp [Watcher.isRunning])
  · intro rank q q' hq hq'
    exact h.ranks rank q q' (mem_loops_enter hq) (mem_loops_enter hq')

/-- The workers of new names are taken on, in the registers and in the crew. -/
theorem Matches.hire (h : r.Matches c) (hcrew : c.crew? operation = some crew)
    (haddress : Keyed.get? r.allocatorOf operation = some address)
    (htable : Keyed.get? r.watchersOf operation = some table) (workers : List Worker) :
    let hired := r.hire operation address workers
    let fresh := c.newcomers operation crew workers
    hired.2.map Prod.snd = fresh.map Watcher.worker ∧ (∀ loop ∈ hired.1.loops, loop ∈ r.loops) ∧
      hired.1.Matches (c.update operation (crew.join fresh) c.store) ∧
      ∃ later, Keyed.get? hired.1.watchersOf operation = some (table ++ later) ∧
        hired.2.map Prod.fst = later.map Prod.snd := by
  induction workers generalizing r c crew table with
  | nil =>
    have hself : crew.join [] = crew := by rw [Crew.join, List.append_nil]
    refine ⟨rfl, fun _ hloop => hloop, ?_, [], ?_, rfl⟩
    · rw [Collector.newcomers, hself, Collector.update_of_crew? hcrew]
      exact h
    · rw [List.append_nil]
      exact htable
  | cons worker rest ih =>
    obtain ⟨_, -, hholds⟩ := h.holds hcrew htable
    simp only [Registers.hire, Collector.newcomers, htable, Option.getD_some, ← hholds.watches]
    cases hnew : Keyed.get? table worker.name with
    | some place => exact ih h hcrew haddress htable
    | none =>
      have hentered := h.enter hcrew haddress htable hnew
      have hjoined := (c.crew?_update operation (crew.join
        [{ deployment := operation, worker, halting := c.halting }]) c.store operation).trans
          (if_pos rfl)
      have htable' : Keyed.get? (r.enter operation address worker).watchersOf operation =
          some (table ++ [(worker.name, r.posts.length)]) := by
        simp only [Registers.enter, htable, Option.getD_some, Keyed.set_of_get?_eq_none hnew,
          Keyed.get?_set, beq_self_eq_true, if_pos]
      obtain ⟨hworkers, hloops, hmatch, later, hlater, hplaces⟩ :=
        ih hentered hjoined haddress htable'
      have hfresh : ∀ crew' : Crew, ∀ store, (c.update operation crew' store).newcomers operation
          crew' rest = c.newcomers operation crew' rest := fun crew' store =>
        Collector.newcomers_congr (c := c.update operation crew' store) (d := c) rfl
          (fun _ => rfl) operation rest
      rw [hfresh] at hworkers
      simp only [Option.isSome_none, Bool.false_eq_true, if_false]
      refine ⟨congrArg (worker :: ·) hworkers,
        fun loop hloop => mem_loops_enter (hloops loop hloop), ?_,
        (worker.name, r.posts.length) :: later, ?_, congrArg (r.posts.length :: ·) hplaces⟩
      · rw [c.update_update, hfresh] at hmatch
        simp only [Crew.join, List.append_assoc, List.singleton_append] at hmatch ⊢
        exact hmatch
      · rw [hlater, List.append_assoc, List.singleton_append]

end Registers

end Lifecycle
