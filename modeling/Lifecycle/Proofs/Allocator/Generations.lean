import Lifecycle.Proofs.Allocator.Indices
import Mathlib.Data.List.Chain

/-! # Generations of logs

What an allocator remembers of a worker's log sums up all snapshots of it: the generation, and of the
last snapshot with lines its first line and its length, for no earlier one of the generation was
longer or began with another line. So a log moves on to the next generation exactly at a snapshot
that shows that it has started anew. Snapshots without lines and the logs of other workers do not
matter, and neither do the lines that are asked for in between. -/

namespace Lifecycle

/-- The first of the later snapshots shows that the log has started anew: it is shorter than the
log once was, or begins with another line. -/
def StartsAnew (earlier later : List (List String)) : Prop :=
  ∃ lines ∈ later.head?, (∃ s ∈ earlier, lines.length < s.length) ∨
    lines.head? ≠ earlier.head?.bind List.head?

instance (earlier later : List (List String)) : Decidable (StartsAnew earlier later) :=
  inferInstanceAs (Decidable (∃ lines ∈ later.head?, (∃ s ∈ earlier, lines.length < s.length) ∨
    lines.head? ≠ earlier.head?.bind List.head?))

/-! ### What is remembered of a log -/

namespace LogMemory

/-- What is remembered of a log whose fullest snapshot had these event lines. -/
def ofLines (generation : Nat) (lines : List String) : LogMemory :=
  ⟨generation, lines.head?, lines.length⟩

theorem observe_no_lines (m : LogMemory) : m.observe [] = m := by
  simp [observe, restartedBy]

theorem generation_le_observe (m : LogMemory) (lines : List String) :
    m.generation ≤ (m.observe lines).generation := by
  rw [observe]
  split
  · exact Nat.le_succ _
  · exact Nat.le_refl _

/-- A log that is no shorter than it was and begins with the same line is in the same generation. -/
theorem observe_of_not_anew {current lines : List String} (hlength : current.length ≤ lines.length)
    (hhead : current ≠ [] → lines.head? = current.head?) (generation : Nat) :
    (ofLines generation current).observe lines = ofLines generation lines := by
  have hsame : (ofLines generation current).restartedBy lines = false := by
    have hlt : ¬lines.length < current.length := Nat.not_lt.2 hlength
    cases current with
    | nil => rfl
    | cons line rest =>
      have hfirst : lines.head? = some line := hhead (List.cons_ne_nil _ _)
      simp only [restartedBy, ofLines, hfirst, List.head?_cons, hlt, decide_false,
        bne_self_eq_false, Bool.or_self, Bool.and_false]
  rw [observe, hsame, if_neg Bool.false_ne_true, ofLines, ofLines, Nat.max_eq_right hlength]
  cases current with
  | nil => rfl
  | cons line rest => rw [hhead (List.cons_ne_nil _ _)]; rfl

/-- A log that has only grown is in the same generation. -/
theorem observe_of_prefix {current lines : List String} (h : current <+: lines)
    (generation : Nat) : (ofLines generation current).observe lines = ofLines generation lines := by
  refine observe_of_not_anew h.length_le (fun hne => ?_) generation
  obtain ⟨more, rfl⟩ := h
  exact List.head?_append_of_ne_nil current hne

/-- A log that is shorter than it was, or begins with another line, has started anew. -/
theorem observe_of_anew {current lines : List String} (hc : current ≠ []) (hl : lines ≠ [])
    (h : lines.length < current.length ∨ lines.head? ≠ current.head?) (generation : Nat) :
    (ofLines generation current).observe lines = ofLines (generation + 1) lines := by
  have hrestarted : (ofLines generation current).restartedBy lines = true := by
    simp only [restartedBy, ofLines, List.isSome_head?, Bool.and_eq_true, Bool.or_eq_true,
      Bool.not_eq_true', List.isEmpty_eq_false_iff, bne_iff_ne]
    exact ⟨⟨hc, hl⟩, h.imp_left fun hlt => decide_eq_true hlt⟩
  rw [observe, if_pos hrestarted]
  rfl

end LogMemory

namespace Allocator

variable {worker : String} {calls : List Call}

/-! ### The snapshots of one worker -/

/-- The snapshot with lines that a call shows of a worker's log. -/
def Call.snapshot? (worker : String) : Call → Option (List String)
  | .observe name lines => if name = worker ∧ lines ≠ [] then some lines else none
  | .assign _ => none

/-- The snapshots with lines of a worker's log. -/
def snapshots (worker : String) (calls : List Call) : List (List String) :=
  calls.filterMap (Call.snapshot? worker)

/-- The snapshot of a worker's log that a call shows, with the generation it is given. -/
def reading? (worker : String) : Call × Nat → Option (List String × Nat)
  | (.observe name lines, generation) => if name = worker then some (lines, generation) else none
  | (.assign _, _) => none

/-- All snapshots of a worker's log with the generations they are given. -/
def readings (worker : String) (told : List (Call × Nat)) : List (List String × Nat) :=
  told.filterMap (reading? worker)

/-- The generation that the last snapshot was given. Before there is one it is the first. -/
def latest (seen : List (List String × Nat)) : Nat := (seen.getLast?.map Prod.snd).getD 0

/-- The snapshots with lines since the log last moved on to another generation, with the one at
which it did. -/
def stretch (seen : List (List String × Nat)) : List (List String) :=
  (seen.filter fun r => !r.1.isEmpty && r.2 == latest seen).map Prod.fst

theorem snapshots_append (worker : String) (calls more : List Call) :
    snapshots worker (calls ++ more) = snapshots worker calls ++ snapshots worker more :=
  List.filterMap_append

theorem readings_append (worker : String) (told more : List (Call × Nat)) :
    readings worker (told ++ more) = readings worker told ++ readings worker more :=
  List.filterMap_append

theorem snapshots_concat (worker : String) (calls : List Call) (call : Call) :
    snapshots worker (calls ++ [call]) =
      snapshots worker calls ++ (call.snapshot? worker).toList := by
  rw [snapshots_append, snapshots, snapshots, List.filterMap_cons]
  cases call.snapshot? worker <;> rfl

theorem readings_transcript_concat (worker : String) (a : Allocator) (calls : List Call)
    (call : Call) :
    readings worker (a.transcript (calls ++ [call])) =
      readings worker (a.transcript calls) ++
        (reading? worker (call, ((a.run calls).answer call).1)).toList := by
  rw [transcript_append, readings_append]
  refine congrArg (_ ++ ·) ?_
  rw [transcript, transcript, readings, List.filterMap_cons]
  cases reading? worker (call, ((a.run calls).answer call).1) <;> rfl

theorem memory_assign (a : Allocator) (key : LineKey) (worker : String) :
    (a.assign key).2.memory worker = a.memory worker := by
  by_cases h : key ∈ a.keys
  · obtain ⟨_, -, hassign⟩ := assign_of_mem h
    rw [hassign]
  · rw [assign_of_not_mem h]
    rfl

/-- What is remembered of a worker's log comes from its own snapshots with lines and from nothing
else. -/
theorem memory_run (a : Allocator) (calls : List Call) (worker : String) :
    (a.run calls).memory worker = (snapshots worker calls).foldl LogMemory.observe (a.memory worker)
    := by
  induction calls generalizing a with
  | nil => rfl
  | cons call rest ih =>
    rw [run_cons, ih, snapshots, snapshots, List.filterMap_cons]
    cases call with
    | assign key => rw [answer, memory_assign]; rfl
    | observe name lines =>
      rw [answer, memory_observe, Call.snapshot?]
      by_cases hname : name = worker
      · by_cases hlines : lines = []
        · simp only [hname, hlines, beq_self_eq_true, if_true, LogMemory.observe_no_lines, ne_eq,
            not_true_eq_false, and_false, if_false]
        · simp only [hname, hlines, beq_self_eq_true, if_true, ne_eq, not_false_eq_true, and_self,
            List.foldl_cons]
      · simp only [hname, beq_false_of_ne hname, Bool.false_eq_true, if_false, false_and]

theorem latest_concat (seen : List (List String × Nat)) (r : List String × Nat) :
    latest (seen ++ [r]) = r.2 := by
  rw [latest, List.getLast?_concat]
  rfl

theorem stretch_concat_same {seen : List (List String × Nat)} {lines : List String}
    (h : lines ≠ []) : stretch (seen ++ [(lines, latest seen)]) = stretch seen ++ [lines] := by
  rw [stretch, latest_concat, List.filter_append, List.map_append, ← stretch]
  simp [h]

theorem stretch_concat_empty (seen : List (List String × Nat)) :
    stretch (seen ++ [([], latest seen)]) = stretch seen := by
  rw [stretch, latest_concat, List.filter_append, List.map_append, ← stretch]
  simp

theorem stretch_concat_next {seen : List (List String × Nat)} {lines : List String}
    (hlines : lines ≠ []) (h : ∀ r ∈ seen, r.2 ≤ latest seen) :
    stretch (seen ++ [(lines, latest seen + 1)]) = [lines] := by
  have hold : seen.filter (fun r => !r.1.isEmpty && r.2 == latest seen + 1) = [] := by
    rw [List.filter_eq_nil_iff]
    intro r hr
    have := h r hr
    simp only [Bool.and_eq_true, beq_iff_eq, not_and]
    omega
  rw [stretch, latest_concat, List.filter_append, hold]
  simp [hlines]

/-! ### Memory and snapshots -/

/-- The last of the snapshots with lines, or no lines before there is one. -/
def lastLines (past : List (List String)) : List String := past.getLast?.getD []

/-- What is remembered sums up the snapshots with lines and the generations given. -/
structure SumsUp (past : List (List String)) (seen : List (List String × Nat)) (m : LogMemory) :
    Prop where
  memory : m = LogMemory.ofLines (latest seen) (lastLines past)
  last : (stretch seen).getLast? = past.getLast?
  longest : ∀ s ∈ stretch seen, s.length ≤ (lastLines past).length
  first : (stretch seen).head?.bind List.head? = (lastLines past).head?
  below : ∀ r ∈ seen, r.2 ≤ latest seen

section

variable {past : List (List String)} {seen : List (List String × Nat)} {m : LogMemory}
  {lines : List String}

theorem sumsUp_nil : SumsUp [] [] {} where
  memory := rfl
  last := rfl
  longest := fun _ hs => absurd hs List.not_mem_nil
  first := rfl
  below := fun _ hr => absurd hr List.not_mem_nil

theorem lastLines_concat (past : List (List String)) (lines : List String) :
    lastLines (past ++ [lines]) = lines := by
  rw [lastLines, List.getLast?_concat, Option.getD_some]

theorem below_concat {generation : Nat} (h : ∀ r ∈ seen, r.2 ≤ generation) (lines : List String) :
    ∀ r ∈ seen ++ [(lines, generation)], r.2 ≤ latest (seen ++ [(lines, generation)]) := by
  intro r hr
  rw [latest_concat]
  rcases List.mem_append.1 hr with hr | hr
  · exact h r hr
  · exact Nat.le_of_eq (congrArg Prod.snd (List.mem_singleton.1 hr))

/-- A snapshot sums up its generation if no earlier one of the generation was longer or began with
another line. -/
theorem sumsUp_concat (past kept : List (List String)) {generation : Nat}
    (hstretch : stretch (seen ++ [(lines, generation)]) = kept ++ [lines])
    (longest : ∀ s ∈ kept, s.length ≤ lines.length)
    (first : ∀ s ∈ kept.head?, s.head? = lines.head?) (below : ∀ r ∈ seen, r.2 ≤ generation) :
    SumsUp (past ++ [lines]) (seen ++ [(lines, generation)])
      (LogMemory.ofLines generation lines) where
  memory := by rw [latest_concat, lastLines_concat]
  last := by rw [hstretch, List.getLast?_concat, List.getLast?_concat]
  longest := by
    intro s hs
    rw [hstretch, List.mem_append, List.mem_singleton] at hs
    rw [lastLines_concat]
    rcases hs with hs | rfl
    · exact longest s hs
    · exact Nat.le_refl _
  first := by
    rw [hstretch, lastLines_concat]
    cases kept with
    | nil => rfl
    | cons s rest => exact first s rfl
  below := below_concat below lines

/-- Among the snapshots of a generation the last one shows whether the log has started anew. -/
theorem SumsUp.startsAnew_iff (h : SumsUp past seen m) (hpast : past ≠ []) :
    StartsAnew (stretch seen) [lines] ↔
      lines.length < (lastLines past).length ∨ lines.head? ≠ (lastLines past).head? := by
  have hlast : lastLines past ∈ stretch seen := by
    refine List.mem_of_getLast? (h.last.trans ?_)
    rw [lastLines, List.getLast?_eq_some_getLast hpast, Option.getD_some]
  have hlength : (∃ s ∈ stretch seen, lines.length < s.length) ↔
      lines.length < (lastLines past).length :=
    ⟨fun ⟨s, hs, hlt⟩ => Nat.lt_of_lt_of_le hlt (h.longest s hs), fun hlt => ⟨_, hlast, hlt⟩⟩
  simp only [StartsAnew, List.head?_cons, Option.mem_some_iff, exists_eq_left', hlength, h.first]

/-- A snapshot that shows that the log has started anew is alone in its generation. -/
theorem SumsUp.next (h : SumsUp past seen m) (hlines : lines ≠ []) (hpast : past ≠ [])
    (ne_nil : lastLines past ≠ []) (hanew : StartsAnew (stretch seen) [lines]) :
    (m.observe lines).generation = latest seen + 1 ∧
      SumsUp (past ++ [lines]) (seen ++ [(lines, latest seen + 1)]) (m.observe lines) := by
  have hmemory := LogMemory.observe_of_anew ne_nil hlines ((h.startsAnew_iff hpast).1 hanew)
    (latest seen)
  rw [h.memory, hmemory]
  refine ⟨rfl, sumsUp_concat past [] (stretch_concat_next hlines h.below) ?_ ?_ ?_⟩
  · exact fun s hs => absurd hs List.not_mem_nil
  · exact fun s hs => absurd hs (by simp)
  · exact fun r hr => Nat.le_succ_of_le (h.below r hr)

/-- Any other snapshot with lines belongs to the generation of the one before it. -/
theorem SumsUp.same (h : SumsUp past seen m) (hlines : lines ≠ [])
    (hlength : (lastLines past).length ≤ lines.length)
    (hhead : past ≠ [] → lines.head? = (lastLines past).head?) :
    (m.observe lines).generation = latest seen ∧
      SumsUp (past ++ [lines]) (seen ++ [(lines, latest seen)]) (m.observe lines) := by
  have hpast : lastLines past ≠ [] → past ≠ [] := fun hne hnil => hne (by rw [hnil]; rfl)
  have hmemory := LogMemory.observe_of_not_anew hlength (fun hne => hhead (hpast hne)) (latest seen)
  rw [h.memory, hmemory]
  refine ⟨rfl, sumsUp_concat past _ (stretch_concat_same hlines) ?_ ?_ h.below⟩
  · exact fun s hs => Nat.le_trans (h.longest s hs) hlength
  · intro s hs
    have hfirst := h.first
    rw [hs, Option.bind_some] at hfirst
    have hne : past ≠ [] := by
      rintro rfl
      have hnil : stretch seen = [] := List.getLast?_eq_none_iff.1 h.last
      rw [hnil] at hs
      exact absurd hs (by simp)
    rw [hfirst, hhead hne]

/-- A snapshot without lines changes nothing. -/
theorem SumsUp.empty (h : SumsUp past seen m) :
    (m.observe []).generation = latest seen ∧
      SumsUp past (seen ++ [([], latest seen)]) (m.observe []) := by
  have hstretch := stretch_concat_empty seen
  rw [LogMemory.observe_no_lines]
  refine ⟨congrArg LogMemory.generation h.memory, ?_, ?_, ?_, ?_, ?_⟩
  · rw [latest_concat]
    exact h.memory
  · rw [hstretch, h.last]
  · rw [hstretch]
    exact h.longest
  · rw [hstretch, h.first]
  · exact below_concat h.below []

/-- One snapshot: the generation it is given, and what is remembered afterwards. -/
theorem SumsUp.observe (h : SumsUp past seen m) (filled : past ≠ [] → lastLines past ≠ [])
    (lines : List String) :
    (m.observe lines).generation =
        (if lines ≠ [] ∧ past ≠ [] ∧ StartsAnew (stretch seen) [lines] then latest seen + 1
        else latest seen) ∧
      SumsUp (past ++ if lines = [] then [] else [lines])
        (seen ++ [(lines, (m.observe lines).generation)]) (m.observe lines) := by
  by_cases hlines : lines = []
  · obtain ⟨hgeneration, hsums⟩ := h.empty
    rw [hlines, if_neg fun hanew => hanew.1 rfl, if_pos rfl, List.append_nil, hgeneration]
    exact ⟨rfl, hsums⟩
  rw [if_neg hlines]
  by_cases hanew : past ≠ [] ∧ StartsAnew (stretch seen) [lines]
  · obtain ⟨hgeneration, hsums⟩ := h.next hlines hanew.1 (filled hanew.1) hanew.2
    rw [if_pos ⟨hlines, hanew⟩, hgeneration]
    exact ⟨rfl, hsums⟩
  · have hsame (hpast : past ≠ []) := mt (h.startsAnew_iff hpast).2 fun hs => hanew ⟨hpast, hs⟩
    have hlength : (lastLines past).length ≤ lines.length := by
      by_cases hpast : past = []
      · rw [hpast]
        exact Nat.zero_le _
      · exact Nat.le_of_not_lt fun hlt => hsame hpast (Or.inl hlt)
    have hhead (hpast : past ≠ []) : lines.head? = (lastLines past).head? :=
      Decidable.byContradiction fun hne => hsame hpast (Or.inr hne)
    obtain ⟨hgeneration, hsums⟩ := h.same hlines hlength hhead
    rw [if_neg fun h => hanew h.2, hgeneration]
    exact ⟨rfl, hsums⟩

/-- A snapshot that begins with the last one is of the same generation. -/
theorem SumsUp.of_grown (h : SumsUp past seen m) (hgrown : lastLines past <+: lines) :
    (m.observe lines).generation = latest seen := by
  rw [h.memory, LogMemory.observe_of_prefix hgrown]
  rfl

end

/-! ### Runs -/

theorem lastLines_snapshots_ne_nil (h : snapshots worker calls ≠ []) :
    lastLines (snapshots worker calls) ≠ [] := by
  rw [lastLines, List.getLast?_eq_some_getLast h, Option.getD_some]
  obtain ⟨call, -, hcall⟩ := List.mem_filterMap.1 (List.getLast_mem h)
  cases call with
  | assign key => exact absurd hcall (by simp [Call.snapshot?])
  | observe name lines =>
    rw [Call.snapshot?, Option.ite_none_right_eq_some] at hcall
    rw [← Option.some.inj hcall.2]
    exact hcall.1.2

/-- Whatever was asked before, what is remembered sums up the snapshots of the worker's log. -/
theorem sumsUp_run (worker : String) (calls : List Call) :
    SumsUp (snapshots worker calls) (readings worker (transcript {} calls))
      ((({} : Allocator).run calls).memory worker) := by
  induction calls using List.reverseRecOn with
  | nil => exact sumsUp_nil
  | append_singleton calls call ih =>
    rw [snapshots_concat, readings_transcript_concat, run_append, run_cons, run_nil]
    cases call with
    | assign key =>
      rw [answer, memory_assign]
      simpa [Call.snapshot?, reading?] using ih
    | observe name lines =>
      rw [answer, memory_observe, Call.snapshot?, reading?]
      by_cases hname : name = worker
      · have hobserve := (ih.observe lastLines_snapshots_ne_nil lines).2
        have hpast : (if name = worker ∧ lines ≠ [] then some lines else none).toList =
            if lines = [] then [] else [lines] := by
          by_cases hlines : lines = [] <;> simp [hname, hlines]
        rw [hpast, if_pos hname, hname, beq_self_eq_true, if_pos rfl]
        exact hobserve
      · simpa [hname] using ih

theorem observe_run (worker : String) (calls : List Call) (lines : List String) :
    ((({} : Allocator).run calls).observe worker lines).1 =
      if lines ≠ [] ∧ snapshots worker calls ≠ [] ∧
          StartsAnew (stretch (readings worker (transcript {} calls))) [lines] then
        latest (readings worker (transcript {} calls)) + 1
      else latest (readings worker (transcript {} calls)) :=
  ((sumsUp_run worker calls).observe lastLines_snapshots_ne_nil lines).1

theorem eq_of_reading? {a : Allocator} {call : Call} {r : List String × Nat}
    (h : reading? worker (call, (a.answer call).1) = some r) :
    call = .observe worker r.1 ∧ r.2 = (a.observe worker r.1).1 := by
  cases call with
  | assign key => exact absurd h (by simp [reading?])
  | observe name lines =>
    rw [reading?, Option.ite_none_right_eq_some, Option.some_inj] at h
    obtain ⟨rfl, rfl⟩ := h
    exact ⟨rfl, rfl⟩

theorem generations_run (worker : String) (calls : List Call) :
    let generations := (readings worker (transcript {} calls)).map Prod.snd
    (∀ g ∈ generations.head?, g = 0) ∧
      generations.IsChain fun g next => g ≤ next ∧ next ≤ g + 1 := by
  intro generations
  induction calls using List.reverseRecOn with
  | nil => exact ⟨fun _ hg => absurd hg (by simp [generations, transcript, readings]), .nil⟩
  | append_singleton calls call ih =>
    have hsums := sumsUp_run worker calls
    unfold generations at ih ⊢
    rw [readings_transcript_concat]
    cases hreading : reading? worker (call, ((({} : Allocator).run calls).answer call).1) with
    | none => simpa using ih
    | some r =>
      obtain ⟨-, hr⟩ := eq_of_reading? hreading
      rw [observe_run] at hr
      rw [Option.toList_some, List.map_append, List.isChain_append, List.head?_append]
      refine ⟨fun g hg => ?_, ih.2, .singleton _, fun g hg next hnext => ?_⟩
      · cases hseen : readings worker (transcript {} calls) with
        | nil =>
          -- No snapshot came before, so this one cannot show that the log has started anew.
          have hlast := hsums.last
          rw [hseen] at hlast hr hg
          have hpast : snapshots worker calls = [] := List.getLast?_eq_none_iff.1 hlast.symm
          rw [if_neg fun hanew => hanew.2.1 hpast] at hr
          obtain rfl : r.2 = g := by simpa using hg
          exact hr
        | cons first rest =>
          rw [hseen] at hg ih
          exact ih.1 g (by simpa using hg)
      · have hlatest : latest (readings worker (transcript {} calls)) = g := by
          rw [List.getLast?_map] at hg
          rw [latest, hg, Option.getD_some]
        obtain rfl : r.2 = next := by simpa using hnext
        rw [hr, hlatest]
        split <;> omega

/-- As long as each snapshot with lines begins with the one before it, the log stays in its
generation. -/
theorem generation_of_growing {more : List Call}
    (grown : ((snapshots worker calls).getLast?.toList ++ snapshots worker more).IsChain
      (· <+: ·)) :
    ∀ r ∈ readings worker ((({} : Allocator).run calls).transcript more),
      r.2 = latest (readings worker (transcript {} calls)) := by
  induction more using List.reverseRecOn with
  | nil => exact fun _ hr => absurd hr List.not_mem_nil
  | append_singleton more call ih =>
    rw [snapshots_concat, ← List.append_assoc] at grown
    have hbefore := ih grown.left_of_append
    intro r hr
    rw [readings_transcript_concat, List.mem_append, Option.mem_toList] at hr
    rcases hr with hr | hr
    · exact hbefore r hr
    · have hsums := sumsUp_run worker (calls ++ more)
      have hlatest : latest (readings worker (transcript {} (calls ++ more))) =
          latest (readings worker (transcript {} calls)) := by
        rw [transcript_append, readings_append]
        cases hlast : (readings worker ((({} : Allocator).run calls).transcript more)).getLast? with
        | none => rw [List.getLast?_eq_none_iff.1 hlast, List.append_nil]
        | some last =>
          have hmem := hbefore last (List.mem_of_getLast? hlast)
          rw [latest, List.getLast?_append, hlast]
          exact hmem
      obtain ⟨hcall, hgeneration⟩ := eq_of_reading? (Option.mem_def.1 hr)
      rw [← run_append] at hgeneration
      rw [hgeneration, ← hlatest]
      by_cases hlines : r.1 = []
      · rw [hlines]
        exact hsums.empty.1
      · refine hsums.of_grown ?_
        have hsnapshot : call.snapshot? worker = some r.1 := by
          rw [hcall, Call.snapshot?, if_pos ⟨rfl, hlines⟩]
        rw [hsnapshot, Option.toList_some, List.isChain_append] at grown
        have hlast : ((snapshots worker calls).getLast?.toList ++ snapshots worker more).getLast? =
            (snapshots worker (calls ++ more)).getLast? := by
          rw [snapshots_append, List.getLast?_append, List.getLast?_append]
          cases (snapshots worker calls).getLast? <;> rfl
        rw [lastLines, ← hlast]
        cases hbefore : ((snapshots worker calls).getLast?.toList ++
            snapshots worker more).getLast? with
        | none => exact List.nil_prefix
        | some lines => exact grown.2.2 lines hbefore r.1 rfl

/-- The generation of a log is decided by the snapshots of that log with lines: it begins at zero
and moves on by one exactly at a snapshot that is shorter than one since it last moved on, or begins
with another line than the first of these. So a log that only grows stays in its generation. -/
theorem generations_follow_the_snapshots (worker : String) (calls : List Call) :
    let a := ({} : Allocator).run calls
    let seen := readings worker (transcript {} calls)
    (∀ g ∈ (seen.map Prod.snd).head?, g = 0) ∧
      ((seen.map Prod.snd).IsChain fun g next => g ≤ next ∧ next ≤ g + 1) ∧
      (∀ lines, (a.observe worker lines).1 =
        if lines ≠ [] ∧ snapshots worker calls ≠ [] ∧ StartsAnew (stretch seen) [lines] then
          latest seen + 1
        else latest seen) ∧
      (∀ others, snapshots worker others = snapshots worker calls →
        ∀ lines, ((({} : Allocator).run others).observe worker lines).1 =
          (a.observe worker lines).1) ∧
      (∀ more, ((snapshots worker calls).getLast?.toList ++ snapshots worker more).IsChain
          (· <+: ·) →
        ∀ r ∈ readings worker (a.transcript more), r.2 = latest seen) ∧
      ∀ lines, (snapshots worker calls).getLast? = some lines →
        (a.observe worker lines).1 = latest seen := by
  intro a seen
  obtain ⟨hfirst, hchain⟩ := generations_run worker calls
  refine ⟨hfirst, hchain, observe_run worker calls, fun others h lines => ?_,
    fun more => generation_of_growing, fun lines h => ?_⟩
  · have hmemory : (({} : Allocator).run others).memory worker = a.memory worker := by
      rw [memory_run, memory_run, h]
    rw [observe, observe, hmemory]
  · refine (sumsUp_run worker calls).of_grown ?_
    rw [lastLines, h]
    exact List.prefix_rfl

theorem shorter_log_moves_on_and_grown_log_stays :
    let calls : List Call := [.observe "a" ["x", "y"], .observe "b" ["z"], .assign ⟨"a", 0, 0⟩,
      .observe "a" []]
    let a := ({} : Allocator).run calls
    (readings "a" (transcript {} calls)).map Prod.snd = [0, 0] ∧
      (a.observe "a" ["x"]).1 = 1 ∧ (a.observe "a" ["x", "y"]).1 = 0 ∧
      snapshots "a" [.observe "a" ["x", "y"]] = snapshots "a" calls ∧
      (∀ lines, ((({} : Allocator).run [.observe "a" ["x", "y"]]).observe "a" lines).1 =
        (a.observe "a" lines).1) ∧
      ((snapshots "a" calls).getLast?.toList ++
        snapshots "a" [.observe "a" ["x", "y", "z"]]).IsChain (· <+: ·) ∧
      ∀ r ∈ readings "a" (a.transcript [.observe "a" ["x", "y", "z"]]), r.2 = 0 := by
  intro calls a
  obtain ⟨-, -, hobserve, hothers, hgrown, hagain⟩ := generations_follow_the_snapshots "a" calls
  have hchain : ((snapshots "a" calls).getLast?.toList ++
      snapshots "a" [.observe "a" ["x", "y", "z"]]).IsChain (· <+: ·) := by decide
  exact ⟨by decide, hobserve ["x"], hagain ["x", "y"] rfl, rfl,
    hothers [.observe "a" ["x", "y"]] rfl, hchain, hgrown _ hchain⟩

end Allocator

end Lifecycle
