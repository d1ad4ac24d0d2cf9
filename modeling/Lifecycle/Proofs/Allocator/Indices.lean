import Lifecycle.Allocator
import Mathlib.Data.Finset.Card

/-! # Indices of lines

A line that is asked for the first time gets the number of lines before it, and it keeps that index
whatever is asked later. So the indices given out are the numbers from zero on, without a gap, and
two lines never share one. The same answers come from a table of indices with a counter beside it,
as long as every call moves both. -/

namespace Lifecycle.Allocator

variable {a : Allocator} {key other : LineKey} {index : Nat}

/-! ### One line -/

theorem assign_of_mem (h : key ∈ a.keys) :
    ∃ index, a.keys[index]? = some key ∧ a.assign key = (index, a) := by
  have hsome : (a.keys.idxOf? key).isSome = true := by
    rwa [List.isSome_idxOf?]
  obtain ⟨index, hindex⟩ := Option.isSome_iff_exists.1 hsome
  refine ⟨index, ?_, ?_⟩
  · obtain ⟨hlt, hkey, -⟩ := List.idxOf?_eq_some_iff.1 hindex
    rw [List.getElem?_eq_getElem hlt, hkey]
  · rw [assign, hindex]

theorem size_append_key (a : Allocator) (key : LineKey) :
    ({ a with keys := a.keys ++ [key] } : Allocator).size = a.size + 1 := by
  simp only [size, List.length_append, List.length_singleton]

theorem assign_of_not_mem (h : key ∉ a.keys) :
    a.assign key = (a.size, { a with keys := a.keys ++ [key] }) := by
  rw [assign, List.idxOf?_eq_none_iff.2 h, size]

/-- The index of a line that has one. -/
def indexOf? (a : Allocator) (key : LineKey) : Option Nat := a.keys.idxOf? key

theorem eq_of_indexOf? (h : a.indexOf? key = some index) (ho : a.indexOf? other = some index) :
    key = other := by
  obtain ⟨_, hkey, -⟩ := List.idxOf?_eq_some_iff.1 h
  obtain ⟨_, hother, -⟩ := List.idxOf?_eq_some_iff.1 ho
  rw [← hkey, hother]

theorem assign_of_indexOf? (h : a.indexOf? key = some index) : a.assign key = (index, a) := by
  rw [indexOf?] at h
  rw [assign, h]

theorem mem_keys_assign : key ∈ (a.assign other).2.keys ↔ key ∈ a.keys ∨ key = other := by
  by_cases h : other ∈ a.keys
  · obtain ⟨index, -, hassign⟩ := assign_of_mem h
    rw [hassign, iff_self_or]
    intro hkey
    rwa [hkey]
  · rw [assign_of_not_mem h, List.mem_append, List.mem_singleton]

/-- Keys come behind those that have an index, so the others keep theirs. -/
theorem indexOf?_assign (h : a.indexOf? key = some index) (other : LineKey) :
    (a.assign other).2.indexOf? key = some index := by
  by_cases ho : other ∈ a.keys
  · obtain ⟨_, -, hassign⟩ := assign_of_mem ho
    rw [hassign, h]
  · rw [indexOf?, List.idxOf?_eq_some_iff] at h
    obtain ⟨hlt, hkey, hfirst⟩ := h
    rw [assign_of_not_mem ho, indexOf?, List.idxOf?_eq_some_iff]
    refine ⟨by rw [List.length_append]; omega, ?_, ?_⟩
    · rw [List.getElem_append_left hlt, hkey]
    · intro j hj
      rw [List.getElem_append_left (by omega)]
      exact hfirst j hj

theorem indexOf?_assign_self (a : Allocator) (key : LineKey) :
    (a.assign key).2.indexOf? key = some (a.assign key).1 := by
  cases h : a.indexOf? key with
  | some index => rw [assign_of_indexOf? h, h]
  | none =>
    have hnew : key ∉ a.keys := List.idxOf?_eq_none_iff.1 h
    rw [assign_of_not_mem hnew, indexOf?, List.idxOf?_eq_some_iff]
    refine ⟨by rw [List.length_append, size, List.length_singleton]; omega, ?_, ?_⟩
    · exact List.getElem_concat_length rfl _
    · intro j hj hsame
      rw [List.getElem_append_left hj] at hsame
      exact hnew (hsame ▸ List.getElem_mem hj)

theorem indexOf?_eq_none_iff : a.indexOf? key = none ↔ key ∉ a.keys := List.idxOf?_eq_none_iff

/-- A call gives no other line an index. -/
theorem indexOf?_assign_of_ne (h : key ≠ other) :
    (a.assign other).2.indexOf? key = a.indexOf? key := by
  cases hindex : a.indexOf? key with
  | some index => exact indexOf?_assign hindex other
  | none =>
    rw [indexOf?_eq_none_iff, mem_keys_assign, not_or]
    exact ⟨indexOf?_eq_none_iff.1 hindex, h⟩

theorem nodup_keys_assign (h : a.keys.Nodup) (key : LineKey) : (a.assign key).2.keys.Nodup := by
  by_cases hkey : key ∈ a.keys
  · obtain ⟨_, -, hassign⟩ := assign_of_mem hkey
    rwa [hassign]
  · rw [assign_of_not_mem hkey, ← List.concat_eq_append]
    exact h.concat hkey

theorem lt_size_of_indexOf? (h : a.indexOf? key = some index) : index < a.size :=
  (List.idxOf?_eq_some_iff.1 h).1

/-! ### Calls one after the other -/

/-- What an allocator is asked: the index of a line, or the generation of a log. -/
inductive Call
  | assign (key : LineKey)
  | observe (worker : String) (lines : List String)
  deriving DecidableEq

/-- The answer to a call, and the allocator after it. -/
def answer (a : Allocator) : Call → Nat × Allocator
  | .assign key => a.assign key
  | .observe worker lines => a.observe worker lines

/-- The allocator after calls. -/
def run (a : Allocator) (calls : List Call) : Allocator :=
  calls.foldl (fun a call => (a.answer call).2) a

/-- Calls with their answers. -/
def transcript : Allocator → List Call → List (Call × Nat)
  | _, [] => []
  | a, call :: rest => (call, (a.answer call).1) :: (a.answer call).2.transcript rest

theorem run_nil (a : Allocator) : a.run [] = a := rfl

theorem run_cons (a : Allocator) (call : Call) (rest : List Call) :
    a.run (call :: rest) = (a.answer call).2.run rest := rfl

theorem run_append (a : Allocator) (calls more : List Call) :
    a.run (calls ++ more) = (a.run calls).run more := List.foldl_append

theorem transcript_append (a : Allocator) (calls more : List Call) :
    a.transcript (calls ++ more) = a.transcript calls ++ (a.run calls).transcript more := by
  induction calls generalizing a with
  | nil => rfl
  | cons call rest ih => rw [List.cons_append, transcript, ih, transcript, run_cons]; rfl

/-- The line that a call asks for, with its index. -/
def assigned? : Call × Nat → Option (LineKey × Nat)
  | (.assign key, index) => some (key, index)
  | (.observe _ _, _) => none

/-- The lines asked for, with their indices, in the order of the calls. -/
def assigned (told : List (Call × Nat)) : List (LineKey × Nat) := told.filterMap assigned?

theorem assigned_transcript_assign (a : Allocator) (key : LineKey) (rest : List Call) :
    assigned (a.transcript (.assign key :: rest)) =
      (key, (a.assign key).1) :: assigned ((a.assign key).2.transcript rest) := rfl

theorem assigned_transcript_observe (a : Allocator) (worker : String) (lines : List String)
    (rest : List Call) :
    assigned (a.transcript (.observe worker lines :: rest)) =
      assigned ((a.observe worker lines).2.transcript rest) := rfl

theorem keys_observe (a : Allocator) (worker : String) (lines : List String) :
    (a.observe worker lines).2.keys = a.keys := rfl

/-- An index once given stays, whatever is asked. -/
theorem indexOf?_run (h : a.indexOf? key = some index) (calls : List Call) :
    (a.run calls).indexOf? key = some index := by
  induction calls generalizing a with
  | nil => exact h
  | cons call rest ih =>
    rw [run_cons]
    cases call with
    | assign other => exact ih (indexOf?_assign h other)
    | observe worker lines => exact ih h

theorem nodup_keys_run (h : a.keys.Nodup) (calls : List Call) : (a.run calls).keys.Nodup := by
  induction calls generalizing a with
  | nil => exact h
  | cons call rest ih =>
    cases call with
    | assign key => exact ih (nodup_keys_assign h key)
    | observe worker lines => exact ih h

/-- Each line that was asked for still has the index it was given. -/
theorem indexOf?_of_mem_assigned {calls : List Call} {e : LineKey × Nat}
    (h : e ∈ assigned (a.transcript calls)) : (a.run calls).indexOf? e.1 = some e.2 := by
  induction calls generalizing a with
  | nil => exact absurd h List.not_mem_nil
  | cons call rest ih =>
    cases call with
    | assign key =>
      rw [assigned_transcript_assign, List.mem_cons] at h
      rcases h with rfl | h
      · exact indexOf?_run (a.indexOf?_assign_self key) rest
      · exact ih h
    | observe worker lines => exact ih h

theorem mem_keys_run_iff {calls : List Call} :
    key ∈ (a.run calls).keys ↔ key ∈ a.keys ∨ ∃ index, (key, index) ∈ assigned (a.transcript calls)
    := by
  induction calls generalizing a with
  | nil => simp [run, transcript, assigned]
  | cons call rest ih =>
    rw [run_cons, ih]
    cases call with
    | assign other =>
      rw [assigned_transcript_assign, answer, mem_keys_assign, or_assoc]
      simp only [List.mem_cons, Prod.mk.injEq, exists_or, exists_and_left, exists_eq, and_true]
    | observe worker lines => rw [assigned_transcript_observe, answer, keys_observe]

/-- A line that is asked for the first time gets the number of lines that had an index before. -/
theorem index_of_first_call (nodup : a.keys.Nodup) {calls : List Call}
    {before after : List (LineKey × Nat)}
    (h : assigned (a.transcript calls) = before ++ (key, index) :: after)
    (hkeys : key ∉ a.keys) (hbefore : ∀ e ∈ before, e.1 ≠ key) :
    index = (a.keys ++ before.map Prod.fst).toFinset.card := by
  induction calls generalizing a before with
  | nil => exact absurd h (by simp [transcript, assigned])
  | cons call rest ih =>
    cases call with
    | observe worker lines =>
      rw [assigned_transcript_observe] at h
      exact ih (a := (a.observe worker lines).2) nodup h hkeys hbefore
    | assign asked =>
      rw [assigned_transcript_assign] at h
      cases before with
      | nil =>
        obtain ⟨hfirst, -⟩ := List.cons.inj h
        obtain ⟨rfl, rfl⟩ := Prod.mk.inj hfirst
        rw [assign_of_not_mem hkeys, List.map_nil, List.append_nil,
          List.toFinset_card_of_nodup nodup]
        rfl
      | cons e before =>
        obtain ⟨rfl, hrest⟩ := List.cons.inj h
        have hne : asked ≠ key := hbefore _ List.mem_cons_self
        have hnew : key ∉ (a.assign asked).2.keys := by
          rw [mem_keys_assign, not_or]
          exact ⟨hkeys, hne.symm⟩
        have hsame : ((a.assign asked).2.keys ++ before.map Prod.fst).toFinset =
            (a.keys ++ asked :: before.map Prod.fst).toFinset := by
          ext k
          simp only [List.mem_toFinset, List.mem_append, mem_keys_assign, List.mem_cons, or_assoc]
        rw [ih (nodup_keys_assign nodup asked) hrest hnew
          fun e he => hbefore e (List.mem_cons_of_mem _ he), hsame]
        rfl

/-! ### A table and a counter -/

/-- The indices of lines in a table, and beside it the next free index. -/
structure Register where
  indices : Keyed LineKey Nat := []
  next : Nat := 0

namespace Register

/-- The index of a line. One that has none is entered in the table, and the counter moves on. -/
def assign (r : Register) (key : LineKey) : Nat × Register :=
  match Keyed.get? r.indices key with
  | some index => (index, r)
  | none => (r.next, ⟨Keyed.set r.indices key r.next, r.next + 1⟩)

/-- Lines with their indices. -/
def answers : Register → List LineKey → List (LineKey × Nat)
  | _, [] => []
  | r, key :: rest => (key, (r.assign key).1) :: (r.assign key).2.answers rest

/-- The register after lines were asked for. -/
def run (r : Register) (keys : List LineKey) : Register :=
  keys.foldl (fun r key => (r.assign key).2) r

/-- The table holds the indices that were given, and the counter is their number. -/
structure Keeps (r : Register) (a : Allocator) : Prop where
  indices : ∀ key, Keyed.get? r.indices key = a.indexOf? key
  next : r.next = a.size

variable {r : Register}

theorem Keeps.assign (h : r.Keeps a) (key : LineKey) :
    (r.assign key).1 = (a.assign key).1 ∧ (r.assign key).2.Keeps (a.assign key).2 := by
  rw [Register.assign, h.indices]
  cases hindex : a.indexOf? key with
  | some index =>
    rw [assign_of_indexOf? hindex]
    exact ⟨rfl, h⟩
  | none =>
    have hnew : key ∉ a.keys := indexOf?_eq_none_iff.1 hindex
    have hself := a.indexOf?_assign_self key
    have hsize : (a.assign key).2.size = a.size + 1 := by
      rw [assign_of_not_mem hnew, size_append_key]
    have hfirst : (a.assign key).1 = r.next := by rw [assign_of_not_mem hnew, h.next]
    refine ⟨hfirst.symm, ⟨fun k => ?_, ?_⟩⟩
    · rw [Keyed.get?_set]
      by_cases hsame : key = k
      · rw [if_pos (beq_iff_eq.2 hsame), ← hsame, hself, hfirst]
      · rw [beq_false_of_ne hsame, if_neg Bool.false_ne_true, h.indices,
          indexOf?_assign_of_ne (Ne.symm hsame)]
    · rw [hsize, h.next]

theorem Keeps.run (h : r.Keeps a) (calls : List Call) :
    r.answers ((assigned (a.transcript calls)).map Prod.fst) = assigned (a.transcript calls) ∧
      (r.run ((assigned (a.transcript calls)).map Prod.fst)).Keeps (a.run calls) := by
  induction calls generalizing a r with
  | nil => exact ⟨rfl, h⟩
  | cons call rest ih =>
    cases call with
    | observe worker lines => exact ih (a := (a.observe worker lines).2) ⟨h.indices, h.next⟩
    | assign key =>
      obtain ⟨hindex, hkeeps⟩ := h.assign key
      obtain ⟨hanswers, hrun⟩ := ih hkeeps
      rw [assigned_transcript_assign, List.map_cons, answers, hanswers, hindex]
      exact ⟨rfl, hrun⟩

end Register

/-! ### From a new allocator -/

theorem mem_assigned_iff {calls : List Call} :
    (key, index) ∈ assigned (transcript {} calls) ↔
      (({} : Allocator).run calls).indexOf? key = some index := by
  refine ⟨indexOf?_of_mem_assigned, fun h => ?_⟩
  have hkey : key ∈ (({} : Allocator).run calls).keys := by
    rw [← List.isSome_idxOf?, ← indexOf?, h]
    rfl
  obtain ⟨given, hgiven⟩ := (mem_keys_run_iff.1 hkey).resolve_left List.not_mem_nil
  have hsame : some given = some index := (indexOf?_of_mem_assigned hgiven).symm.trans h
  rwa [← Option.some.inj hsame]

theorem exists_mem_assigned_iff {calls : List Call} :
    (∃ key, (key, index) ∈ assigned (transcript {} calls)) ↔
      index < (({} : Allocator).run calls).size := by
  constructor
  · rintro ⟨key, hkey⟩
    exact lt_size_of_indexOf? (mem_assigned_iff.1 hkey)
  · intro hlt
    have nodup : (({} : Allocator).run calls).keys.Nodup := nodup_keys_run List.nodup_nil calls
    refine ⟨(({} : Allocator).run calls).keys[index], mem_assigned_iff.2 ?_⟩
    rw [indexOf?, List.idxOf?_eq_some_iff]
    exact ⟨hlt, rfl, fun j hj hsame => absurd (nodup.getElem_inj_iff.1 hsame) (by omega)⟩

/-- Whatever is asked of a new allocator, the indices given out are the numbers below its size, one
for each line. A line keeps its index for good, and it gets as its index the number of lines that
were asked for before it. A table with a counter gives the same answers, and the two stay in step. -/
theorem lines_keep_the_index_of_their_first_call (calls : List Call) :
    let a := ({} : Allocator).run calls
    let given := assigned (transcript {} calls)
    let r := ({} : Register).run (given.map Prod.fst)
    (∀ index, (∃ key, (key, index) ∈ given) ↔ index < a.size) ∧
      (∀ e ∈ given, ∀ e' ∈ given, e.2 = e'.2 ↔ e.1 = e'.1) ∧
      (∀ e ∈ given, ∀ more, (a.run more).assign e.1 = (e.2, a.run more)) ∧
      (∀ before key index after, given = before ++ (key, index) :: after →
        (∀ e ∈ before, e.1 ≠ key) → index = (before.map Prod.fst).toFinset.card) ∧
      Register.answers {} (given.map Prod.fst) = given ∧ r.next = a.size ∧
      ∀ key index, Keyed.get? r.indices key = some index ↔ (key, index) ∈ given := by
  intro a given r
  have hgiven (e : LineKey × Nat) (he : e ∈ given) : a.indexOf? e.1 = some e.2 :=
    indexOf?_of_mem_assigned he
  obtain ⟨hanswers, hkeeps⟩ :=
    Register.Keeps.run (r := {}) (a := {}) ⟨fun _ => rfl, rfl⟩ calls
  refine ⟨fun index => exists_mem_assigned_iff, fun e he e' he' => ⟨fun h => ?_, fun h => ?_⟩,
    fun e he more => assign_of_indexOf? (indexOf?_run (hgiven e he) more),
    fun before key index after h hbefore =>
      index_of_first_call List.nodup_nil h List.not_mem_nil hbefore,
    hanswers, hkeeps.next, fun key index => ?_⟩
  · exact eq_of_indexOf? (hgiven e he) (h ▸ hgiven e' he')
  · exact Option.some.inj ((hgiven e he).symm.trans (h ▸ hgiven e' he'))
  · rw [hkeeps.indices key, mem_assigned_iff]

theorem line_asked_for_again_keeps_its_index :
    let calls : List Call := [.assign ⟨"a", 0, 0⟩, .assign ⟨"b", 0, 0⟩, .observe "a" ["x"],
      .assign ⟨"a", 0, 0⟩, .assign ⟨"a", 0, 1⟩]
    let a := ({} : Allocator).run calls
    let given := assigned (transcript {} calls)
    given = [(⟨"a", 0, 0⟩, 0), (⟨"b", 0, 0⟩, 1), (⟨"a", 0, 0⟩, 0), (⟨"a", 0, 1⟩, 2)] ∧
      (∃ key, (key, 2) ∈ given) ∧
      given = given.take 3 ++ (⟨"a", 0, 1⟩, 2) :: [] ∧
      2 = ((given.take 3).map Prod.fst).toFinset.card ∧
      ∀ more, (a.run more).assign ⟨"b", 0, 0⟩ = (1, a.run more) := by
  intro calls a given
  obtain ⟨hbelow, -, hstays, hfirst, -⟩ := lines_keep_the_index_of_their_first_call calls
  have hcut : given = given.take 3 ++ (⟨"a", 0, 1⟩, 2) :: [] := by decide
  exact ⟨by decide, (hbelow 2).2 (by decide), hcut,
    hfirst (given.take 3) ⟨"a", 0, 1⟩ 2 [] hcut (by decide),
    hstays (⟨"b", 0, 0⟩, 1) (by decide)⟩

end Lifecycle.Allocator
