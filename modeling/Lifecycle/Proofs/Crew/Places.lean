import Lifecycle.Collector
import Lifecycle.Proofs.Keyed

/-! # Places of running loops

A watcher has its place in a crew, and the crews have names. A running loop is told by its rank and
by the place of its watcher. If each crew has a name of its own, each place is told at most once. The
loops are woken in the order of their ranks, a new loop has the greatest rank, and none is left when
the crews are stopped. -/

namespace Lifecycle

/-! ### Ranks of a list -/

section

variable {α : Type} (l : List α) (rankOf : α → Option Nat)

/-- Those entries of a list that have a rank are told by their ranks and places. -/
theorem mem_ranked_iff {rank k : Nat} :
    (rank, k) ∈ l.zipIdx.filterMap (fun (a, k) => (rankOf a).map (·, k)) ↔
      ∃ a, l[k]? = some a ∧ rankOf a = some rank := by
  simp only [List.mem_filterMap, Option.map_eq_some_iff, Prod.mk.injEq]
  constructor
  · rintro ⟨⟨a, j⟩, ha, r, hr, rfl, rfl⟩
    exact ⟨a, List.mem_zipIdx_iff_getElem?.1 ha, hr⟩
  · rintro ⟨a, ha, hr⟩
    exact ⟨(a, k), List.mem_zipIdx_iff_getElem?.2 ha, rank, hr, rfl, rfl⟩

theorem nodup_ranked : (l.zipIdx.filterMap fun (a, k) => (rankOf a).map (·, k)).Nodup := by
  have hplaces : (l.zipIdx.map Prod.snd).Nodup := by
    rw [List.zipIdx_map_snd]
    exact List.nodup_range'
  rw [List.Nodup, List.pairwise_map] at hplaces
  rw [List.Nodup, List.pairwise_filterMap]
  refine hplaces.imp ?_
  intro a b hab loop hloop other hother heq
  obtain ⟨_, -, rfl⟩ := Option.map_eq_some_iff.1 hloop
  obtain ⟨_, -, rfl⟩ := Option.map_eq_some_iff.1 hother
  exact hab (Prod.mk.inj heq).2

end

/-! ### Loops of crews -/

namespace Crew

theorem mem_loops_iff {crew : Crew} {rank k : Nat} :
    (rank, k) ∈ crew.loops ↔ ∃ w, crew.watchers[k]? = some w ∧ w.loop = some rank :=
  mem_ranked_iff crew.watchers Watcher.loop

theorem nodup_loops (crew : Crew) : crew.loops.Nodup :=
  nodup_ranked crew.watchers Watcher.loop

end Crew

/-- The running loops of named crews: rank, name of the crew and place in it. -/
def Keyed.loops (crews : Keyed String Crew) : List (Nat × String × Nat) :=
  crews.flatMap fun (name, crew) => crew.loops.map fun (rank, k) => (rank, name, k)

namespace Keyed

variable {crews : Keyed String Crew}

theorem Distinct.mem_loops_iff (h : crews.Distinct) {rank k : Nat} {name : String} :
    (rank, name, k) ∈ loops crews ↔
      ∃ crew w, get? crews name = some crew ∧ crew.watchers[k]? = some w ∧ w.loop = some rank := by
  simp only [loops, List.mem_flatMap, List.mem_map, Prod.mk.injEq]
  constructor
  · rintro ⟨⟨other, crew⟩, hmem, ⟨r, j⟩, hloop, rfl, rfl, rfl⟩
    obtain ⟨w, hw, hr⟩ := Crew.mem_loops_iff.1 hloop
    exact ⟨crew, w, h.get?_of_mem hmem, hw, hr⟩
  · rintro ⟨crew, w, hcrew, hw, hr⟩
    exact ⟨(name, crew), mem_of_get? hcrew, (rank, k), Crew.mem_loops_iff.2 ⟨w, hw, hr⟩, rfl, rfl,
      rfl⟩

theorem Distinct.nodup_loops (h : crews.Distinct) : (loops crews).Nodup := by
  rw [loops, List.nodup_flatMap]
  constructor
  · rintro ⟨name, crew⟩ -
    refine List.Nodup.map ?_ crew.nodup_loops
    rintro ⟨rank, k⟩ ⟨rank', k'⟩ heq
    obtain ⟨rfl, -, rfl⟩ := Prod.mk.inj heq |>.imp_right Prod.mk.inj
    rfl
  · rw [Distinct, List.Nodup, List.pairwise_map] at h
    refine h.imp ?_
    intro a b hab loop hloop hother
    obtain ⟨_, -, rfl⟩ := List.mem_map.1 hloop
    obtain ⟨_, -, heq⟩ := List.mem_map.1 hother
    exact hab (congrArg (fun loop => loop.2.1) heq).symm

/-- Without some crews, their loops are missing. -/
theorem loops_filter (crews : Keyed String Crew) (keep : String → Bool) :
    loops (crews.filter fun e => keep e.1) = (loops crews).filter fun loop => keep loop.2.1 := by
  induction crews with
  | nil => rfl
  | cons e rest ih =>
    obtain ⟨name, crew⟩ := e
    have hown : (crew.loops.map fun (rank, k) => (rank, name, k)).filter
        (fun loop => keep loop.2.1) =
          if keep name then crew.loops.map fun (rank, k) => (rank, name, k) else [] := by
      cases hkeep : keep name with
      | true =>
        rw [if_pos rfl, List.filter_eq_self]
        intro loop hloop
        obtain ⟨_, -, rfl⟩ := List.mem_map.1 hloop
        exact hkeep
      | false =>
        rw [if_neg Bool.false_ne_true, List.filter_eq_nil_iff]
        intro loop hloop
        obtain ⟨_, -, rfl⟩ := List.mem_map.1 hloop
        exact fun h => Bool.false_ne_true (hkeep.symm.trans h)
    rw [loops, loops, List.flatMap_cons, List.filter_append, hown, List.filter_cons]
    simp only
    cases keep name with
    | true => exact congrArg _ ih
    | false => exact ih

end Keyed

/-! ### In order of their start -/

namespace Collector

variable {α : Type}

theorem pairwise_byRank (loops : List (Nat × α)) :
    (byRank loops).Pairwise fun a b => a.1 ≤ b.1 := by
  have hsorted : (byRank loops).Pairwise fun a b => decide (a.1 ≤ b.1) = true := by
    refine List.pairwise_mergeSort ?_ ?_ loops
    · intro a b c hab hbc
      exact decide_eq_true (Nat.le_trans (of_decide_eq_true hab) (of_decide_eq_true hbc))
    · intro a b
      rw [Bool.or_eq_true, decide_eq_true_iff, decide_eq_true_iff]
      exact Nat.le_total _ _
  exact hsorted.imp of_decide_eq_true

/-- The loops are put in the order of their ranks. -/
theorem byRank_eq {loops ranked : List (Nat × α)} (distinct : loops.Nodup)
    (ascending : ranked.Pairwise fun a b => a.1 < b.1) (h : ∀ e, e ∈ loops ↔ e ∈ ranked) :
    byRank loops = ranked := by
  have hnodup : ranked.Nodup := by
    refine ascending.imp ?_
    intro a b hab heq
    rw [heq] at hab
    exact Nat.lt_irrefl _ hab
  have hperm : (byRank loops).Perm ranked :=
    (List.mergeSort_perm loops _).trans ((List.perm_ext_iff_of_nodup distinct hnodup).2 h)
  have hranked : ranked.Pairwise fun a b => a.1 ≤ b.1 := ascending.imp Nat.le_of_lt
  -- no two of the ranked loops have the same rank
  have hranks : (ranked.map Prod.fst).Nodup := by
    rw [List.Nodup, List.pairwise_map]
    exact ascending.imp Nat.ne_of_lt
  refine List.Perm.eq_of_pairwise ?_ (pairwise_byRank loops) hranked hperm
  intro a b ha hb hab hba
  exact List.inj_on_of_nodup_map hranks (hperm.mem_iff.1 ha) hb (Nat.le_antisymm hab hba)

theorem nextRank_spec (loops : List (Nat × α)) (first : Nat) :
    first ≤ loops.foldl (fun rank e => max rank (e.1 + 1)) first ∧
      ∀ e ∈ loops, e.1 < loops.foldl (fun rank e => max rank (e.1 + 1)) first := by
  induction loops generalizing first with
  | nil => exact ⟨Nat.le_refl _, fun e he => absurd he List.not_mem_nil⟩
  | cons loop rest ih =>
    obtain ⟨hfirst, hrest⟩ := ih (max first (loop.1 + 1))
    rw [List.foldl_cons]
    refine ⟨by omega, ?_⟩
    intro e he
    rcases List.mem_cons.1 he with rfl | he
    · omega
    · exact hrest e he

theorem lt_nextRank {loops : List (Nat × α)} {e : Nat × α} (he : e ∈ loops) :
    e.1 < nextRank loops :=
  (nextRank_spec loops 0).2 e he

end Collector

/-! ### No loop runs when all were stopped -/

theorem Watcher.loop_stop (w : Watcher) : w.stop.1.loop = none := by
  rw [stop]
  split
  · rfl
  · rename_i h
    exact Option.not_isSome_iff_eq_none.1 h

theorem Crew.loops_stop (crew : Crew) : crew.stop.1.loops = [] := by
  rw [loops, List.filterMap_eq_nil_iff]
  rintro ⟨w, k⟩ hw
  obtain ⟨stopped, -, rfl⟩ := List.mem_map.1 (List.fst_mem_of_mem_zipIdx hw)
  show stopped.stop.1.loop.map (·, k) = none
  rw [Watcher.loop_stop, Option.map_none]

theorem Collector.loops_stop (c : Collector) : c.stop.1.loops = [] := by
  rw [loops, List.flatMap_eq_nil_iff]
  rintro ⟨operation, crew⟩ hcrew
  obtain ⟨⟨before, stopped⟩, -, heq⟩ := List.mem_map.1 hcrew
  obtain ⟨-, rfl⟩ := Prod.mk.inj heq
  show stopped.stop.1.loops.map _ = []
  rw [Crew.loops_stop, List.map_nil]

end Lifecycle
