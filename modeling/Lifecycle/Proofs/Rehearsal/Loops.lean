import Lifecycle.Proofs.Rehearsal.Polling

/-! # Loops are polls

A loop makes its passes when it is started and when it is woken, so a schedule with loops comes to
the same as its telling with polls.

The proof plays a schedule in both ways, side by side. The ranks of the loops tell the live watchers
in the order of their starts, which is the order in which a tick polls them. -/

namespace Lifecycle

/-! ### The loops of a rehearsal -/

namespace Rehearsal

variable {r : Rehearsal}

theorem loops_eq (h : r.collector.tracked = []) :
    r.loops = (Keyed.loops r.crews).map fun e => (e.1, false, e.2) := by
  have hcollector : r.collector.loops = [] := by rw [Collector.loops, h, List.flatMap_nil]
  rw [loops, hcollector, List.map_nil, List.nil_append, Keyed.loops, List.map_flatMap]
  simp only [List.map_map]
  rfl

theorem mem_loops_iff (h : r.crews.Distinct) {rank : Nat} {place : Place} :
    (rank, place) ∈ Keyed.loops r.crews ↔
      ∃ w, r.watcherAt place = some w ∧ w.loop = some rank := by
  obtain ⟨allocator, k⟩ := place
  rw [h.mem_loops_iff]
  simp only [watcherAt, crew]
  cases Keyed.get? r.crews allocator with
  | none => simp
  | some team => simp

theorem tick_fst (r : Rehearsal) :
    r.tick.1 =
      ((Collector.byRank r.loops).map Prod.snd).foldl (fun r place => (r.wake place).1) r := by
  rw [List.foldl_map]
  exact (List.foldl_hom Prod.fst fun _ _ => rfl).symm

end Rehearsal

/-! ### The two tellings side by side -/

/-- The rehearsals are the same apart from loops, and `ranked` tells the loops of one of them in the
order of the live places of the other. -/
structure Mirrors (s : Rehearsal) (p : Polling) (ranked : List (Nat × Place)) : Prop where
  bare : s.bare = p.rehearsal.bare
  untracked : s.collector.tracked = []
  distinct : s.crews.Distinct
  known : ∀ e ∈ p.history, (s.watcherAt e.1).isSome = true
  live : ranked.map Prod.snd = live p.history
  ascending : ranked.Pairwise fun a b => a.1 < b.1
  loops : ∀ rank place, (rank, place) ∈ ranked ↔
    ∃ w, s.watcherAt place = some w ∧ w.loop = some rank
  error : ∀ place w, s.watcherAt place = some w → w.error = lastHalt p.history place

namespace Mirrors

variable {s : Rehearsal} {p : Polling} {ranked : List (Nat × Place)} {place : Place} {w : Watcher}

theorem source (h : Mirrors s p ranked) : s.source = p.rehearsal.source := by
  have hsource := congrArg Rehearsal.source h.bare
  exact hsource

theorem clock (h : Mirrors s p ranked) : s.clock = p.rehearsal.clock := by
  have hclock := congrArg Rehearsal.clock h.bare
  exact hclock

theorem deskOf (h : Mirrors s p ranked) (place : Place) :
    s.deskOf place = p.rehearsal.deskOf place := by
  rw [← s.deskOf_bare, h.bare, p.rehearsal.deskOf_bare]

theorem watcherAt (h : Mirrors s p ranked) (place : Place) :
    (s.watcherAt place).map Watcher.bare = (p.rehearsal.watcherAt place).map Watcher.bare := by
  rw [← s.watcherAt_bare, h.bare, p.rehearsal.watcherAt_bare]

theorem exists_watcherAt (h : Mirrors s p ranked) (hw : s.watcherAt place = some w) :
    ∃ v, p.rehearsal.watcherAt place = some v ∧ v.bare = w.bare := by
  have hsame := h.watcherAt place
  rw [hw, Option.map_some, eq_comm, Option.map_eq_some_iff] at hsame
  exact hsame

theorem placeOf? (h : Mirrors s p ranked) (name : String) :
    s.placeOf? name = p.rehearsal.placeOf? name := by
  have hnamed := congrArg Rehearsal.named h.bare
  change s.named = p.rehearsal.named at hnamed
  have hsome : ∀ place, (s.watcherAt place).isSome = (p.rehearsal.watcherAt place).isSome := by
    intro place
    rw [← Option.isSome_map (f := Watcher.bare), h.watcherAt, Option.isSome_map]
  simp only [Rehearsal.placeOf?, hnamed, hsome]

/-- A loop is running as long as its place is live. -/
theorem isRunning_iff (h : Mirrors s p ranked) (hw : s.watcherAt place = some w) :
    w.isRunning = true ↔ place ∈ Lifecycle.live p.history := by
  rw [← h.live, List.mem_map, Watcher.isRunning, Option.isSome_iff_exists]
  constructor
  · rintro ⟨rank, hrank⟩
    exact ⟨(rank, place), (h.loops rank place).2 ⟨w, hw, hrank⟩, rfl⟩
  · rintro ⟨⟨rank, place⟩, hmem, rfl⟩
    obtain ⟨v, hv, hrank⟩ := (h.loops rank place).1 hmem
    rw [hv] at hw
    exact ⟨rank, Option.some.inj hw ▸ hrank⟩

/-- One watcher has acted in both tellings. -/
theorem putBack (h : Mirrors s p ranked) (hw : s.watcherAt place = some w) {after : Watcher}
    {desk : Desk} {next : Polling} {ranked' : List (Nat × Place)}
    (bare : (s.putBack place after desk).bare = next.rehearsal.bare)
    (known : ∀ e ∈ next.history, e ∈ p.history ∨ e.1 = place)
    (live : ranked'.map Prod.snd = Lifecycle.live next.history)
    (ascending : ranked'.Pairwise fun a b => a.1 < b.1)
    (loops : ∀ rank other, (rank, other) ∈ ranked' ↔
      if place = other then after.loop = some rank else (rank, other) ∈ ranked)
    (error : after.error = lastHalt next.history place)
    (others : ∀ other, place ≠ other → lastHalt next.history other = lastHalt p.history other) :
    Mirrors (s.putBack place after desk) next ranked' where
  bare := bare
  untracked := h.untracked
  distinct := h.distinct.set _ _
  known := by
    intro e he
    rw [Rehearsal.isSome_watcherAt_putBack hw]
    rcases known e he with hold | rfl
    · exact h.known e hold
    · rw [hw]
      rfl
  live := live
  ascending := ascending
  loops := by
    intro rank other
    rw [loops, Rehearsal.watcherAt_putBack hw]
    by_cases heq : place = other
    · simp [heq]
    · simp only [if_neg heq]
      exact h.loops rank other
  error := by
    intro other u hu
    rw [Rehearsal.watcherAt_putBack hw] at hu
    by_cases heq : place = other
    · rw [if_pos heq] at hu
      rw [← Option.some.inj hu, ← heq, error]
    · rw [if_neg heq] at hu
      rw [h.error other u hu, others other heq]

theorem live_filter (h : Mirrors s p ranked) {sign : Sign} (hsign : sign ≠ .started) :
    (ranked.filter fun e => e.2 ≠ place).map Prod.snd =
      Lifecycle.live (p.history ++ [(place, sign)]) := by
  rw [live_ended p.history place hsign, ← h.live, List.filter_map]
  rfl

theorem mem_filter_iff {rank : Nat} {other : Place} (after : Watcher) (hloop : after.loop = none) :
    (rank, other) ∈ ranked.filter (fun e => e.2 ≠ place) ↔
      if place = other then after.loop = some rank else (rank, other) ∈ ranked := by
  rw [List.mem_filter, decide_eq_true_iff]
  by_cases heq : place = other
  · simp [heq, hloop]
  · simp [heq, Ne.symm heq]

theorem mem_iff_of_loop (h : Mirrors s p ranked) (hw : s.watcherAt place = some w)
    {after : Watcher} (hloop : after.loop = w.loop) (rank : Nat) (other : Place) :
    (rank, other) ∈ ranked ↔
      if place = other then after.loop = some rank else (rank, other) ∈ ranked := by
  by_cases heq : place = other
  · rw [if_pos heq, ← heq, h.loops, hw, hloop]
    simp
  · rw [if_neg heq]

theorem mem_concat_iff (h : Mirrors s p ranked) (hdead : place ∉ Lifecycle.live p.history)
    {new rank : Nat} {other : Place} (after : Watcher) (hloop : after.loop = some new) :
    (rank, other) ∈ ranked ++ [(new, place)] ↔
      if place = other then after.loop = some rank else (rank, other) ∈ ranked := by
  have hold : (rank, place) ∉ ranked := by
    intro hmem
    rw [← h.live, List.mem_map] at hdead
    exact hdead ⟨(rank, place), hmem, rfl⟩
  rw [List.mem_append, List.mem_singleton, Prod.mk.injEq]
  by_cases heq : place = other
  · subst heq
    simp [hold, hloop, eq_comm]
  · simp [heq, Ne.symm heq]

theorem mem_history_concat {e : Place × Sign} {sign : Sign}
    (he : e ∈ p.history ++ [(place, sign)]) : e ∈ p.history ∨ e.1 = place := by
  rcases List.mem_append.1 he with he | he
  · exact Or.inl he
  · rw [List.mem_singleton.1 he]
    exact Or.inr rfl

theorem pollOf_eq (h : Mirrors s p ranked) (place : Place) (v : Watcher) :
    p.pollOf place v = v.catchUp s.source s.clock (s.deskOf place) := by
  rw [Polling.pollOf, ← h.source, ← h.clock, ← h.deskOf]

theorem bare_woken (h : Mirrors s p ranked) (place : Place) {v : Watcher}
    (hbare : w.bare = v.bare) :
    (s.putBack place (w.wake s.source s.clock (s.deskOf place)).state.1
        (w.wake s.source s.clock (s.deskOf place)).state.2).bare =
      (p.rehearsal.putBack place (p.pollOf place v).state.1 (p.pollOf place v).state.2).bare := by
  obtain ⟨-, hwatcher, hdesk⟩ := w.catchUp_of_bare s.source s.clock (s.deskOf place) hbare
  obtain ⟨hwoken, hleft⟩ := w.wake_bare s.source s.clock (s.deskOf place)
  rw [Rehearsal.bare_putBack, Rehearsal.bare_putBack, h.bare, hwoken, hleft, hwatcher, hdesk,
    h.pollOf_eq]

theorem wake (h : Mirrors s p ranked) (place : Place) :
    ∃ ranked', Mirrors (s.wake (false, place)).1 (p.poll place) ranked' := by
  cases hw : s.watcherAt place with
  | none =>
    have hv := h.watcherAt place
    rw [hw, Option.map_none, eq_comm, Option.map_eq_none_iff] at hv
    rw [Polling.poll_of_none hv, Rehearsal.wake_of_none hw]
    exact ⟨ranked, h⟩
  | some w =>
    obtain ⟨v, hv, hbare⟩ := h.exists_watcherAt hw
    have hvalue := (w.catchUp_of_bare s.source s.clock (s.deskOf place) hbare.symm).1
    have hsame := h.bare_woken place hbare.symm
    rw [Rehearsal.wake_of_watcherAt hw]
    by_cases hhalt : ∃ line, (p.pollOf place v).value = .error (.malformedLine line)
    · obtain ⟨line, hline⟩ := hhalt
      rw [Polling.poll_of_halt hv hline]
      rw [h.pollOf_eq, ← hvalue] at hline
      have hstate := w.wake_of_halt s.source s.clock (s.deskOf place) hline
      refine ⟨ranked.filter fun e => e.2 ≠ place, h.putBack hw hsame ?_ ?_ ?_ ?_ ?_ ?_⟩
      · exact fun e he => mem_history_concat he
      · exact h.live_filter (by simp)
      · exact h.ascending.filter _
      · intro rank other
        exact mem_filter_iff _ (by rw [hstate])
      · rw [hstate, lastHalt_halted, if_pos rfl]
      · intro other hne
        rw [lastHalt_halted, if_neg hne]
    · have hgoes : ∀ line, (p.pollOf place v).value ≠ .error (.malformedLine line) :=
        fun line hline => hhalt ⟨line, hline⟩
      rw [Polling.poll_of_not_halt hv hgoes]
      rw [h.pollOf_eq, ← hvalue] at hgoes
      have hstate := w.wake_of_not_halt s.source s.clock (s.deskOf place) hgoes
      obtain ⟨hloop, herror⟩ := w.catchUp_loop s.source s.clock (s.deskOf place)
      refine ⟨ranked, h.putBack hw hsame (fun e he => Or.inl he) h.live h.ascending ?_ ?_
        fun other _ => rfl⟩
      · rw [hstate]
        exact h.mem_iff_of_loop hw hloop
      · rw [hstate, herror]
        exact h.error place w hw

/-! ### Ticks -/

theorem mem_loops (h : Mirrors s p ranked) (e : Nat × Place) :
    (e.1, false, e.2) ∈ s.loops ↔ e ∈ ranked := by
  rw [Rehearsal.loops_eq h.untracked]
  constructor
  · intro he
    obtain ⟨loop, hloop, heq⟩ := List.mem_map.1 he
    obtain ⟨hrank, hplace⟩ := Prod.mk.inj heq
    have hsame : loop = e := Prod.ext hrank (Prod.mk.inj hplace).2
    rw [hsame] at hloop
    exact (h.loops e.1 e.2).2 ((Rehearsal.mem_loops_iff h.distinct).1 hloop)
  · intro he
    exact List.mem_map.2 ⟨e, (Rehearsal.mem_loops_iff h.distinct).2 ((h.loops e.1 e.2).1 he), rfl⟩

/-- The loops in the order of their ranks are the live places in the order of their starts. -/
theorem byRank (h : Mirrors s p ranked) :
    (Collector.byRank s.loops).map Prod.snd =
      (Lifecycle.live p.history).map fun place => (false, place) := by
  have hnodup : s.loops.Nodup := by
    rw [Rehearsal.loops_eq h.untracked]
    refine List.Nodup.map ?_ h.distinct.nodup_loops
    intro a b hab
    obtain ⟨hrank, hplace⟩ := Prod.mk.inj hab
    exact Prod.ext hrank (Prod.mk.inj hplace).2
  have hranked : Collector.byRank s.loops = ranked.map fun e => (e.1, false, e.2) := by
    refine Collector.byRank_eq hnodup ?_ ?_
    · rw [List.pairwise_map]
      exact h.ascending
    · intro e
      rw [List.mem_map]
      constructor
      · intro he
        have hplace := he
        rw [Rehearsal.loops_eq h.untracked, List.mem_map] at hplace
        obtain ⟨loop, -, rfl⟩ := hplace
        exact ⟨loop, (h.mem_loops loop).1 he, rfl⟩
      · rintro ⟨loop, hloop, rfl⟩
        exact (h.mem_loops loop).2 hloop
  rw [hranked, ← h.live, List.map_map, List.map_map]
  rfl

theorem wakeAll (h : Mirrors s p ranked) (places : List Place) :
    ∃ ranked', Mirrors (places.foldl (fun r place => (r.wake (false, place)).1) s)
      (places.foldl Polling.poll p) ranked' := by
  induction places generalizing s p ranked with
  | nil => exact ⟨ranked, h⟩
  | cons place rest ih =>
    obtain ⟨_, hfirst⟩ := h.wake place
    exact ih hfirst

theorem tick (h : Mirrors s p ranked) :
    ∃ ranked', Mirrors s.tick.1 (p.turn .tick) ranked' := by
  rw [Rehearsal.tick_fst, h.byRank, List.foldl_map]
  exact h.wakeAll _

/-! ### Starts and stops -/

theorem lt_nextRank (h : Mirrors s p ranked) {e : Nat × Place} (he : e ∈ ranked) :
    e.1 < s.nextRank :=
  Collector.lt_nextRank ((h.mem_loops e).2 he)

/-- A start of a running loop is noted and changes nothing. -/
theorem noteStarted (h : Mirrors s p ranked) (hw : s.watcherAt place = some w)
    (hrunning : place ∈ Lifecycle.live p.history) : Mirrors s (p.note place .started) ranked where
  bare := h.bare
  untracked := h.untracked
  distinct := h.distinct
  known := by
    intro e he
    rcases mem_history_concat he with hold | heq
    · exact h.known e hold
    · rw [heq, hw]
      rfl
  live := by
    rw [Polling.note, live_started, if_pos hrunning]
    exact h.live
  ascending := h.ascending
  loops := h.loops
  error := by
    intro other u hu
    rw [Polling.note, lastHalt_kept p.history place other (by simp [Sign.IsHalt])]
    exact h.error other u hu

/-- A dead loop that is started is live, and has yet to make its first pass. -/
theorem begin (h : Mirrors s p ranked) (hw : s.watcherAt place = some w)
    (hdead : place ∉ Lifecycle.live p.history) :
    Mirrors (s.putBack place { w with loop := some s.nextRank } (s.deskOf place))
      (p.note place .started) (ranked ++ [(s.nextRank, place)]) := by
  refine h.putBack hw ?_ (fun e he => mem_history_concat he) ?_ ?_ ?_ ?_ ?_
  · have hbare : ({ w with loop := some s.nextRank } : Watcher).bare = w.bare := rfl
    rw [Rehearsal.bare_putBack, hbare, ← Rehearsal.bare_putBack, Rehearsal.putBack_self hw]
    exact h.bare
  · rw [Polling.note, live_started, if_neg hdead, List.map_append, h.live]
    rfl
  · rw [List.pairwise_append]
    refine ⟨h.ascending, List.pairwise_singleton _ _, ?_⟩
    intro e he last hlast
    rw [List.mem_singleton.1 hlast]
    exact h.lt_nextRank he
  · exact fun rank other => h.mem_concat_iff hdead _ rfl
  · rw [Polling.note, lastHalt_kept p.history place place (by simp [Sign.IsHalt])]
    exact h.error place w hw
  · intro other _
    rw [Polling.note, lastHalt_kept p.history place other (by simp [Sign.IsHalt])]

theorem start_of_running (h : w.isRunning = true) (rank : Nat) (source : Source) (clock : Clock)
    (desk : Desk) : w.start rank source clock desk = ⟨(w, desk), .ok (), []⟩ := by
  rw [Watcher.start, if_pos h]

theorem start_of_dead (h : w.isRunning = false) (rank : Nat) (source : Source) (clock : Clock)
    (desk : Desk) :
    (w.start rank source clock desk).state =
      (Watcher.wake { w with loop := some rank } source clock desk).state := by
  rw [Watcher.start, h, if_neg Bool.false_ne_true]

theorem start (h : Mirrors s p ranked) (name : String) :
    ∃ ranked', Mirrors (s.act? (.start name)).state (p.turn (.start name)) ranked' := by
  have hplace := h.placeOf? name
  cases hnamed : s.placeOf? name with
  | none =>
    rw [hnamed] at hplace
    have hturn : p.turn (.start name) = p := by rw [Polling.turn, ← hplace]
    rw [Rehearsal.act?, Rehearsal.actNamed_of_none hnamed, hturn]
    exact ⟨ranked, h⟩
  | some place =>
    rw [hnamed] at hplace
    obtain ⟨-, w, hw⟩ := Rehearsal.placeOf?_eq_some hnamed
    have hstate : (s.act? (.start name)).state = s.putBack place
        (w.start s.nextRank s.source s.clock (s.deskOf place)).state.1
        (w.start s.nextRank s.source s.clock (s.deskOf place)).state.2 := by
      rw [Rehearsal.act?, Rehearsal.actNamed_of_placeOf? hnamed hw]
      rfl
    have hturn : p.turn (.start name) = if place ∈ Lifecycle.live p.history then
        p.note place .started else (p.note place .started).poll place := by
      rw [Polling.turn, ← hplace]
    rw [hstate, hturn]
    by_cases hlive : place ∈ Lifecycle.live p.history
    · rw [if_pos hlive, start_of_running ((h.isRunning_iff hw).2 hlive), Rehearsal.putBack_self hw]
      exact ⟨ranked, h.noteStarted hw hlive⟩
    · have hdead : w.isRunning = false := by
        rw [← Bool.not_eq_true, h.isRunning_iff hw]
        exact hlive
      have hbegun := h.begin hw hlive
      have hplaced := Rehearsal.watcherAt_putBack hw { w with loop := some s.nextRank }
        (s.deskOf place) place
      rw [if_pos rfl] at hplaced
      obtain ⟨ranked', hwoken⟩ := hbegun.wake place
      rw [Rehearsal.wake_of_watcherAt hplaced, Rehearsal.deskOf_putBack,
        Rehearsal.putBack_putBack] at hwoken
      rw [if_neg hlive, start_of_dead hdead]
      exact ⟨ranked', hwoken⟩

theorem stop (h : Mirrors s p ranked) (name : String) :
    ∃ ranked', Mirrors (s.act? (.stop name)).state (p.turn (.stop name)) ranked' := by
  have hplace := h.placeOf? name
  cases hnamed : s.placeOf? name with
  | none =>
    rw [hnamed] at hplace
    have hturn : p.turn (.stop name) = p := by rw [Polling.turn, ← hplace]
    rw [Rehearsal.act?, Rehearsal.actNamed_of_none hnamed, hturn]
    exact ⟨ranked, h⟩
  | some place =>
    rw [hnamed] at hplace
    obtain ⟨-, w, hw⟩ := Rehearsal.placeOf?_eq_some hnamed
    have hstate : (s.act? (.stop name)).state = s.putBack place w.stop.1 (s.deskOf place) := by
      rw [Rehearsal.act?, Rehearsal.actNamed_of_placeOf? hnamed hw]
      rfl
    have hturn : p.turn (.stop name) = p.note place .stopped := by
      rw [Polling.turn, ← hplace]
    obtain ⟨hloop, hbare, herror⟩ : w.stop.1.loop = none ∧ w.stop.1.bare = w.bare ∧
        w.stop.1.error = w.error := by
      rw [Watcher.stop]
      split
      · exact ⟨rfl, rfl, rfl⟩
      · rename_i hdead
        rw [Watcher.isRunning, Option.not_isSome_iff_eq_none] at hdead
        exact ⟨hdead, rfl, rfl⟩
    rw [hstate, hturn]
    refine ⟨ranked.filter fun e => e.2 ≠ place, h.putBack hw ?_ ?_ ?_ ?_ ?_ ?_ ?_⟩
    · rw [Rehearsal.bare_putBack, hbare, ← Rehearsal.bare_putBack, Rehearsal.putBack_self hw]
      exact h.bare
    · exact fun e he => mem_history_concat he
    · exact h.live_filter (by simp)
    · exact h.ascending.filter _
    · exact fun rank other => mem_filter_iff _ hloop
    · rw [herror, Polling.note, lastHalt_kept p.history place place (by simp [Sign.IsHalt])]
      exact h.error place w hw
    · intro other _
      rw [Polling.note, lastHalt_kept p.history place other (by simp [Sign.IsHalt])]

/-! ### All turns -/

theorem lastHalt_of_watcherAt (h : Mirrors s p ranked) (hw : s.watcherAt place = none) :
    lastHalt p.history place = none := by
  rw [Option.eq_none_iff_forall_ne_some]
  intro line hline
  obtain ⟨before, after, hhistory, -⟩ := lastHalt_eq_some_iff.1 hline
  have hmem : (place, Sign.halted line) ∈ p.history := by
    rw [hhistory]
    exact List.mem_append_right _ List.mem_cons_self
  have hknown := h.known _ hmem
  rw [hw] at hknown
  exact absurd hknown (by simp)

theorem watcherAt_create (r : Rehearsal) (name allocator deployment : String) (worker : Worker)
    (halting : Bool) (place : Place) :
    (r.act? (Turn.create name allocator deployment worker halting).step).state.watcherAt place =
      if place = (allocator, (r.crew allocator).watchers.length) then
        some { deployment, worker, halting }
      else r.watcherAt place := by
  obtain ⟨other, k⟩ := place
  show ((r.setCrew allocator _).crew other).watchers[k]? = _
  simp only [Rehearsal.crew_setCrew, Prod.mk.injEq]
  by_cases hother : allocator = other
  · subst hother
    rw [if_pos rfl, Crew.join, List.getElem?_append, Rehearsal.watcherAt]
    by_cases hlt : k < (r.crew allocator).watchers.length
    · rw [if_pos hlt, if_neg (by omega)]
    · rw [if_neg hlt]
      by_cases heq : k = (r.crew allocator).watchers.length
      · rw [if_pos ⟨rfl, heq⟩, heq, Nat.sub_self]
        rfl
      · have hbehind : (r.crew allocator).watchers.length < k := by omega
        have hnew : 1 ≤ k - (r.crew allocator).watchers.length := by omega
        rw [if_neg (fun h => heq h.2), List.getElem?_eq_none hnew]
        exact (List.getElem?_eq_none (Nat.le_of_lt hbehind)).symm
  · rw [if_neg hother, if_neg (fun h => hother h.1.symm)]
    rfl

theorem bare_create (r : Rehearsal) (name allocator deployment : String) (worker : Worker)
    (halting : Bool) :
    (r.act? (Turn.create name allocator deployment worker halting).step).state.bare =
      { r.bare.setCrew allocator
          ((r.bare.crew allocator).join [{ deployment, worker, halting }]) with
        named := Keyed.set r.bare.named name
          (allocator, (r.bare.crew allocator).watchers.length) } := by
  have hcrew := r.bare_setCrew allocator
    ((r.crew allocator).join [{ deployment, worker, halting }])
  have hjoin : ((r.crew allocator).join [{ deployment, worker, halting }]).bare =
      (r.crew allocator).bare.join [{ deployment, worker, halting }] := by
    rw [Crew.bare, Crew.join, List.map_append]
    rfl
  have hlength : (r.crew allocator).bare.watchers.length =
      (r.crew allocator).watchers.length := List.length_map _
  rw [r.crew_bare, ← hjoin, ← hcrew, hlength]
  rfl

theorem create (h : Mirrors s p ranked) (name allocator deployment : String) (worker : Worker)
    (halting : Bool) :
    Mirrors (s.act? (Turn.create name allocator deployment worker halting).step).state
      (p.turn (.create name allocator deployment worker halting)) ranked := by
  have hplaces := watcherAt_create s name allocator deployment worker halting
  have hnew : s.watcherAt (allocator, (s.crew allocator).watchers.length) = none :=
    List.getElem?_eq_none (Nat.le_refl _)
  constructor
  · refine (bare_create s name allocator deployment worker halting).trans ?_
    rw [h.bare]
    exact (bare_create p.rehearsal name allocator deployment worker halting).symm
  · exact h.untracked
  · exact h.distinct.set _ _
  · intro e he
    rw [hplaces]
    split
    · rfl
    · exact h.known e he
  · exact h.live
  · exact h.ascending
  · intro rank place
    rw [h.loops, hplaces]
    split
    · rename_i heq
      simp [heq, hnew]
    · rfl
  · intro place u hu
    rw [hplaces] at hu
    split at hu
    · rename_i heq
      rw [← Option.some.inj hu, heq]
      exact (h.lastHalt_of_watcherAt hnew).symm
    · exact h.error place u hu

theorem change (h : Mirrors s p ranked) {step : Rehearsal.Step}
    (bare : ∀ r : Rehearsal, (r.act? step).state.bare = (r.bare.act? step).state)
    (crews : (s.act? step).state.crews = s.crews)
    (tracked : (s.act? step).state.collector.tracked = s.collector.tracked) :
    Mirrors (s.act? step).state { p with rehearsal := (p.rehearsal.play step).state } ranked := by
  have hplaces : ∀ place, (s.act? step).state.watcherAt place = s.watcherAt place := by
    intro place
    rw [Rehearsal.watcherAt, Rehearsal.crew, crews]
    rfl
  constructor
  · refine (bare s).trans ?_
    rw [h.bare]
    exact (bare p.rehearsal).symm
  · exact tracked.trans h.untracked
  · rw [crews]
    exact h.distinct
  · intro e he
    rw [hplaces]
    exact h.known e he
  · exact h.live
  · exact h.ascending
  · intro rank place
    rw [h.loops, hplaces]
  · intro place u hu
    rw [hplaces] at hu
    exact h.error place u hu

/-- Calls and counts make no difference to watchers. -/
theorem play {step : Rehearsal.Step} (h : Mirrors (s.act? step).state p ranked) :
    Mirrors (s.play step).state p ranked :=
  ⟨h.bare, h.untracked, h.distinct, h.known, h.live, h.ascending, h.loops, h.error⟩

theorem turn (h : Mirrors s p ranked) (turn : Turn) :
    ∃ ranked', Mirrors (s.play turn.step).state (p.turn turn) ranked' := by
  cases turn with
  | create name allocator deployment worker halting =>
    exact ⟨ranked, (h.create name allocator deployment worker halting).play⟩
  | start name =>
    obtain ⟨ranked', hstart⟩ := h.start name
    exact ⟨ranked', hstart.play⟩
  | stop name =>
    obtain ⟨ranked', hstop⟩ := h.stop name
    exact ⟨ranked', hstop.play⟩
  | tick =>
    obtain ⟨ranked', htick⟩ := h.tick
    have hact : (s.act? .tick).state = s.tick.1 := rfl
    rw [← hact] at htick
    exact ⟨ranked', htick.play⟩
  | advance seconds => exact ⟨ranked, (h.change (fun _ => rfl) rfl rfl).play⟩
  | setLines worker lines => exact ⟨ranked, (h.change (fun _ => rfl) rfl rfl).play⟩
  | append worker line => exact ⟨ranked, (h.change (fun _ => rfl) rfl rfl).play⟩
  | fail worker message => exact ⟨ranked, (h.change (fun _ => rfl) rfl rfl).play⟩
  | setCluster change => exact ⟨ranked, (h.change (fun _ => rfl) rfl rfl).play⟩

theorem run (h : Mirrors s p ranked) (turns : List Turn) :
    ∃ ranked', Mirrors (s.playAll turns) (turns.foldl Polling.turn p) ranked' := by
  induction turns generalizing s p ranked with
  | nil => exact ⟨ranked, h⟩
  | cons turn rest ih =>
    obtain ⟨_, hturn⟩ := h.turn turn
    exact ih hturn

theorem unmanned (r : Rehearsal) : Mirrors r.unmanned ⟨r.unmanned, []⟩ [] := by
  have hnone : ∀ place, r.unmanned.watcherAt place = none := fun _ => rfl
  constructor
  · rfl
  · rfl
  · exact Keyed.distinct_nil
  · exact fun e he => absurd he List.not_mem_nil
  · rfl
  · exact List.Pairwise.nil
  · intro rank place
    rw [hnone]
    simp
  · intro place w hw
    rw [hnone] at hw
    exact absurd hw (by simp)

end Mirrors

/-! ### The schedule with loops -/

/-- A line that leaves no effects and no change is as if it had not been played. -/
theorem Rehearsal.play_of_unchanged {r : Rehearsal} {step : Step} (state : (r.act? step).state = r)
    (effects : (r.act? step).effects = []) : (r.play step).state = r := by
  have hcounters : (r.counters.map fun c => c.noteAll []) = r.counters := by
    cases r.counters <;> rfl
  rw [play, state, effects]
  show ({ r with
    calls := r.calls ++ []
    counters := r.counters.map fun c => c.noteAll [] } : Rehearsal) = r
  rw [List.append_nil, hcounters]

theorem Rehearsal.start_of_isRunning {r : Rehearsal} {name : String} {w : Watcher}
    (h : r.watcher? name = some w) (running : w.isRunning = true) :
    (r.act? (.start name)).state = r ∧ (r.act? (.start name)).effects = [] := by
  rw [r.watcher?_eq, Option.bind_eq_some_iff] at h
  obtain ⟨place, hplace, hw⟩ := h
  rw [act?, actNamed_of_placeOf? hplace hw, Mirrors.start_of_running running]
  exact ⟨putBack_self hw, rfl⟩

theorem Rehearsal.isRunning_of_wake {r : Rehearsal} {place : Place} {w : Watcher}
    (h : r.watcherAt place = some w) (running : w.isRunning = true)
    (fault : ∀ line, (w.catchUp r.source r.clock (r.deskOf place)).value ≠
      .error (.malformedLine line)) :
    ∃ after, (r.wake (false, place)).1.watcherAt place = some after ∧ after.isRunning = true := by
  rw [wake_of_watcherAt h, watcherAt_putBack h, if_pos rfl,
    w.wake_of_not_halt r.source r.clock (r.deskOf place) fault]
  refine ⟨_, rfl, ?_⟩
  rw [Watcher.isRunning, (w.catchUp_loop r.source r.clock (r.deskOf place)).1]
  exact running

/-- A schedule with loops leaves the store, the allocators and the watchers as polling leaves them:
one poll at each start of a dead loop, one at each tick for each live one, and none at a stop. A loop
is live as long as its last sign is a start, its error is the line that last halted it, a start of a
running loop changes nothing, and a fault that is no malformed line ends no loop. -/
theorem loops_refine_polls (r : Rehearsal) (turns : List Turn) :
    let s := r.unmanned.playAll turns
    let p := Polling.after r.unmanned turns
    s.store = p.rehearsal.store ∧
      (∀ allocator,
        (s.crew allocator).allocator = (p.rehearsal.crew allocator).allocator) ∧
      (∀ place,
        (s.watcherAt place).map Watcher.bare = (p.rehearsal.watcherAt place).map Watcher.bare) ∧
      (live p.history).Nodup ∧
      (∀ place, place ∈ live p.history ↔ Stands p.history place .started (· ≠ .started)) ∧
      (∀ place w, s.watcherAt place = some w →
        (w.isRunning = true ↔ place ∈ live p.history) ∧
          ∀ line, w.error = some line ↔ Stands p.history place (.halted line) Sign.IsHalt) ∧
      (∀ name w, s.watcher? name = some w → w.isRunning = true →
        (s.play (.start name)).state = s ∧ (s.play (.start name)).effects = []) ∧
      ∀ place w fault, s.watcherAt place = some w → w.isRunning = true →
        (w.catchUp s.source s.clock (s.deskOf place)).value = .error fault →
        (∀ line, fault ≠ .malformedLine line) →
          ∃ after, (s.wake (false, place)).1.watcherAt place = some after ∧
            after.isRunning = true := by
  intro s p
  obtain ⟨ranked, h⟩ := (Mirrors.unmanned r).run turns
  have hstore := congrArg Rehearsal.store h.bare
  refine ⟨hstore, ?_, h.watcherAt, nodup_live _, fun _ => mem_live_iff, ?_, ?_, ?_⟩
  · intro allocator
    exact congrArg Desk.allocator (h.deskOf (allocator, 0))
  · intro place w hw
    refine ⟨h.isRunning_iff hw, ?_⟩
    intro line
    rw [h.error place w hw]
    exact lastHalt_eq_some_iff
  · intro name w hw hrunning
    obtain ⟨hstate, heffects⟩ := Rehearsal.start_of_isRunning hw hrunning
    exact ⟨Rehearsal.play_of_unchanged hstate heffects, heffects⟩
  · intro place w fault hw hrunning hfault hother
    refine Rehearsal.isRunning_of_wake hw hrunning ?_
    intro line hline
    rw [hfault] at hline
    exact hother line (Except.error.inj hline)

/-- A loop whose first read fails, which is then halted by a malformed line, started again and
stopped before the last line is written. -/
def oneLoop : List Turn :=
  [.create "w" "a" "blue" ⟨"pod-0", ⟨"node-1", "10.0.0.1"⟩⟩ true,
    .setLines "pod-0" ["1 - USMEventLogger.up", "2 USMEventLogger"], .fail "pod-0" (some "busy"),
    .start "w", .fail "pod-0" none, .tick, .tick,
    .setLines "pod-0" ["1 - USMEventLogger.up", "2 - USMEventLogger.down"], .start "w", .stop "w",
    .append "pod-0" "3 - USMEventLogger.over", .tick]

theorem stopped_loop_makes_no_pass :
    let s := ({} : Rehearsal).unmanned.playAll oneLoop
    s.store.undated "blue" =
        [(0, ⟨0, "[node-1/10.0.0.1] - up", .zero false⟩),
          (1, ⟨1, "[node-1/10.0.0.1] - down", .zero false⟩)] ∧
      ∃ w, s.watcherAt ("a", 0) = some w ∧ w.isRunning = false ∧
        w.error = some ⟨"2 USMEventLogger"⟩ := by
  intro s
  obtain ⟨hstore, -, hwatchers, -, -, hloops, -, -⟩ := loops_refine_polls {} oneLoop
  have hhistory : (Polling.after ({} : Rehearsal).unmanned oneLoop).history =
      [(("a", 0), .started), (("a", 0), .halted ⟨"2 USMEventLogger"⟩), (("a", 0), .started),
        (("a", 0), .stopped)] := rfl
  have hwatcher := hwatchers ("a", 0)
  have hpolled : ((Polling.after ({} : Rehearsal).unmanned oneLoop).rehearsal.watcherAt
      ("a", 0)).isSome = true := rfl
  obtain ⟨w, hw⟩ : ∃ w, s.watcherAt ("a", 0) = some w := by
    rw [← Option.isSome_iff_exists, ← Option.isSome_map (f := Watcher.bare)]
    rw [hwatcher, Option.isSome_map, hpolled]
  obtain ⟨hrunning, herror⟩ := hloops ("a", 0) w hw
  refine ⟨(congrArg (Store.undated · "blue") hstore).trans rfl, w, hw, ?_, ?_⟩
  · rw [← Bool.not_eq_true, hrunning, hhistory]
    decide
  · rw [herror, hhistory]
    exact ⟨[_], [_, _], rfl, by simp [Sign.IsHalt]⟩

end Lifecycle
