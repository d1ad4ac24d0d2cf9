import Lifecycle.Counters
import Lifecycle.Proofs.Collector.Totals
import Lifecycle.Proofs.Watcher.Alike
import Lifecycle.Proofs.Watcher.Generations
import Mathlib.Data.List.ReduceOption

/-! # What polls put and what they count

A poll meets the event lines from its watcher's position on, up to the line at which it halts if it
does. A line that is malformed is counted as such. Any other line is put, and the put is counted by
what it answered. So what a poll has counted can be told from its lines and its puts, however it
ends, and a poll that ends well answers with the number of puts that stored an event. -/

namespace Lifecycle

/-! ### Lines -/

/-- How a line is counted: by the answer to its put, or as malformed if it was not put. -/
def Tally.ofAnswer : Option Put → Tally
  | none => .malformed
  | some put => if put.isStored then .stored else .duplicate

theorem countP_reduceOption_cons (answer : Option Put) (answers : List (Option Put)) :
    (answer :: answers).reduceOption.countP Put.isStored =
      answers.reduceOption.countP Put.isStored + if answer.any Put.isStored then 1 else 0 := by
  cases answer with
  | none => rw [List.reduceOption_cons_of_none]; rfl
  | some put => rw [List.reduceOption_cons_of_some, List.countP_cons]; rfl

namespace Watcher

variable (w : Watcher) (clock : Clock) (generation position : Nat) (line : String)
  (lines rest : List String) (desk : Desk)

/-- What the store answers to the put of an event line, if the line can be translated. -/
def putAnswer? : Option Put :=
  match Line.translate line w.worker.host with
  | .error _ => none
  | .ok description =>
    let (index, _) := desk.allocator.assign ⟨w.worker.name, generation, position⟩
    match desk.store.put clock.monotonic w.deployment index ⟨index, description, clock.stamp⟩ with
    | .error _ => none
    | .ok (report, _) => some report.put

/-- The answers to event lines that are dealt with one after the other. -/
def putAnswers (clock : Clock) (generation : Nat) : Nat → List String → Desk → List (Option Put)
  | _, [], _ => []
  | position, line :: rest, desk =>
    w.putAnswer? clock generation position line desk ::
      putAnswers clock generation (position + 1) rest
        (w.takeLine clock generation position line desk).desk

/-- The event lines that the watcher meets: those it gets past, and the one at which it halts. -/
def met : List String := lines.take ((w.reach lines).length + 1)

theorem met_nil : w.met [] = [] := List.take_nil

theorem takeLine_answer :
    let step := w.takeLine clock generation position line desk
    let answer := w.putAnswer? clock generation position line desk
    answer.isSome = Line.hasSeparator line ∧
      Effect.tallies step.effects = [.ofAnswer answer] ∧
      step.stored = answer.any Put.isStored ∧
      (step.fault = none ↔ w.halting = false ∨ Line.hasSeparator line = true) ∧
      (desk.store.Sound → step.desk.store.liveSizes =
        desk.store.liveSizes + if answer.any Put.isStored then 1 else 0) := by
  cases hs : Line.hasSeparator line with
  | false =>
    simp only [takeLine, putAnswer?, Line.translate_of_not_hasSeparator hs]
    cases w.halting <;> simp [Effect.tallies, Tally.ofAnswer]
  | true =>
    obtain ⟨description, hline⟩ := Line.translate_of_hasSeparator hs w.worker.host
    simp only [takeLine, putAnswer?, hline]
    generalize desk.allocator.assign ⟨w.worker.name, generation, position⟩ = assigned
    have ok : Store.check (assigned.1 : Int) ⟨assigned.1, description, clock.stamp⟩ = .ok () :=
      Store.check_eq_ok_iff.2 ⟨Int.natCast_nonneg assigned.1, rfl⟩
    -- the index is that of the event, so the put is not refused
    obtain ⟨report, next, hput⟩ : ∃ report next, desk.store.put clock.monotonic w.deployment
        assigned.1 ⟨assigned.1, description, clock.stamp⟩ = .ok (report, next) := by
      rw [Store.put, Store.putFound, ok]
      exact ⟨_, _, rfl⟩
    simp only [hput]
    refine ⟨rfl, ?_, rfl, by simp, fun hd => hd.liveSizes_put ok hput⟩
    simp [Effect.tallies, Tally.ofAnswer]

variable {w clock generation position line desk}

theorem met_cons_of_past (h : w.halting = false ∨ Line.hasSeparator line = true) :
    w.met (line :: rest) = line :: w.met rest := by
  rcases h with h | h
  · rw [met, met, reach_of_not_halting h, reach_of_not_halting h, List.length_cons,
      List.take_succ_cons]
  · rw [met, met, reach_cons_of_hasSeparator h, List.length_cons, List.take_succ_cons]

theorem met_cons_of_halt (h : ¬ (w.halting = false ∨ Line.hasSeparator line = true)) :
    w.met (line :: rest) = [line] := by
  rw [not_or, Bool.not_eq_false, Bool.not_eq_true] at h
  rw [met, reach_cons_of_halting h.1 h.2]
  rfl

/-- What a run over event lines counts, stores and reports. A run that ends early reports nothing of
what it has stored. -/
theorem takeLines_answers (w : Watcher) (clock : Clock) (generation position : Nat)
    (lines : List String) (desk : Desk) :
    let run := w.takeLines clock generation position lines desk
    let answers := w.putAnswers clock generation position (w.met lines) desk
    answers.map Option.isSome = (w.met lines).map Line.hasSeparator ∧
      Effect.tallies run.effects = answers.map .ofAnswer ∧
      (run.ended = none → run.stored = answers.reduceOption.countP Put.isStored) ∧
      (desk.store.Sound → run.desk.store.liveSizes =
        desk.store.liveSizes + answers.reduceOption.countP Put.isStored) := by
  induction lines generalizing position desk with
  | nil =>
    rw [met_nil]
    exact ⟨rfl, rfl, fun _ => rfl, fun _ => rfl⟩
  | cons line rest ih =>
    obtain ⟨hsome, htallies, hstored, hfault, hlive⟩ :=
      w.takeLine_answer clock generation position line desk
    by_cases hpast : w.halting = false ∨ Line.hasSeparator line = true
    · obtain ⟨hsomes, hothers, hcount, hrest⟩ := ih (position + 1)
        (w.takeLine clock generation position line desk).desk
      simp only [takeLines_cons_of_none (hfault.2 hpast), met_cons_of_past rest hpast, putAnswers,
        countP_reduceOption_cons]
      refine ⟨?_, ?_, ?_, ?_⟩
      · rw [List.map_cons, List.map_cons, hsome, hsomes]
      · rw [List.map_cons, Effect.tallies_append, htallies, hothers, List.singleton_append]
      · intro hended
        rw [hcount hended, hstored]
      · intro hd
        rw [hrest (w.takeLine_grows clock generation position line desk hd).sound, hlive hd]
        omega
    · obtain ⟨fault, hstop⟩ := Option.ne_none_iff_exists'.1 (fun hnone => hpast (hfault.1 hnone))
      simp only [takeLines_cons_of_fault hstop, met_cons_of_halt rest hpast, putAnswers,
        countP_reduceOption_cons, List.reduceOption_nil, List.countP_nil, Nat.zero_add]
      refine ⟨?_, htallies, ?_, hlive⟩
      · exact congrArg (fun b => [b]) hsome
      · intro hended
        exact absurd hended (by simp)

theorem tallies_pass (w : Watcher) (clock : Clock) (lines : List String) (desk : Desk) :
    Effect.tallies (w.pass clock lines desk).effects =
      Effect.tallies (w.passRun clock lines desk).effects := by
  have hnotice {p : Prop} [Decidable p] (record : Record) :
      Effect.tallies (if p then [.record record] else []) = [] := by
    split <;> rfl
  have hreport {p : Prop} [Decidable p] (record : Record) :
      Effect.tallies (if p then [] else [.record record]) = [] := by
    split <;> rfl
  simp only [pass]
  split
  · rw [Effect.tallies_append, hnotice, List.nil_append]
    rfl
  · rw [Effect.tallies_append, Effect.tallies_append, hnotice, hreport, List.nil_append,
      List.append_nil]
    rfl

end Watcher

/-! ### Polls -/

/-- A poll: who polls, when, and what is on the desk. -/
structure PollCall where
  watcher : Watcher
  moment : Moment
  desk : Desk

namespace PollCall

/-- What the poll leaves. -/
def outcome (p : PollCall) : Outcome (Watcher × Desk) Nat :=
  p.watcher.catchUp p.moment.source p.moment.clock p.desk

/-- The event lines that the poll finds, none if the read fails. -/
def snapshot (p : PollCall) : List String := (p.moment.snapshot? p.watcher.worker).getD []

/-- The generation of the log that the poll finds. -/
def generation (p : PollCall) : Nat := p.watcher.readAs p.snapshot p.desk

/-- The event lines that the poll meets. -/
def met (p : PollCall) : List String :=
  p.watcher.met (p.snapshot.drop (p.watcher.startAt p.generation))

/-- The malformed lines that the poll meets. -/
def malformed (p : PollCall) : List String := p.met.filter fun line => !Line.hasSeparator line

/-- The answers to the lines that the poll meets. -/
def putAnswers (p : PollCall) : List (Option Put) :=
  p.watcher.putAnswers p.moment.clock p.generation (p.watcher.startAt p.generation) p.met
    (p.desk.note p.watcher.worker.name p.snapshot)

/-- What the puts of the poll returned. -/
def puts (p : PollCall) : List Put := p.putAnswers.reduceOption

/-- How the lines of the poll are counted. -/
def tallies (p : PollCall) : List Tally := p.putAnswers.map .ofAnswer

/-- Just the malformed lines are not put. -/
theorem length_malformed (p : PollCall) : p.malformed.length = p.putAnswers.countP Option.isNone := by
  obtain ⟨hsomes, -⟩ := p.watcher.takeLines_answers p.moment.clock p.generation
    (p.watcher.startAt p.generation) (p.snapshot.drop (p.watcher.startAt p.generation))
    (p.desk.note p.watcher.worker.name p.snapshot)
  have hcount := congrArg (List.countP fun b => !b) hsomes
  simp only [List.countP_map, Function.comp_def, Option.not_isSome] at hcount
  rw [malformed, ← List.countP_eq_length_filter]
  exact hcount.symm

/-- What a poll counts, answers and stores, whatever its outcome. -/
theorem spec (p : PollCall)
    (silent : Effect.tallies (p.moment.source.read p.watcher.worker).effects = []) :
    Effect.tallies p.outcome.effects = p.tallies ∧
      (∀ n, p.outcome.value = .ok n → n = p.puts.countP Put.isStored) ∧
      (p.desk.store.Sound → p.outcome.state.2.store.liveSizes =
        p.desk.store.liveSizes + p.puts.countP Put.isStored) := by
  obtain ⟨-, htallies, hstored, hlive⟩ := p.watcher.takeLines_answers p.moment.clock
    p.generation (p.watcher.startAt p.generation)
    (p.snapshot.drop (p.watcher.startAt p.generation))
    (p.desk.note p.watcher.worker.name p.snapshot)
  cases hread : (p.moment.source.read p.watcher.worker).value with
  | error fault =>
    have hsnapshot : p.snapshot = [] := by
      rw [snapshot, Moment.snapshot?, hread]
      rfl
    have hanswers : p.putAnswers = [] := by
      rw [putAnswers, met, hsnapshot, List.drop_nil, Watcher.met_nil]
      rfl
    have heffects : p.outcome.effects = (p.moment.source.read p.watcher.worker).effects := by
      simp only [outcome, Watcher.catchUp, hread]
    obtain ⟨hstate, hvalue⟩ := Watcher.catchUp_of_error hread p.moment.clock p.desk
    refine ⟨?_, ?_, ?_⟩
    · rw [heffects, silent, tallies, hanswers]
      rfl
    · intro n hn
      exact absurd (hvalue.symm.trans hn) (by simp)
    · intro _
      rw [puts, hanswers, outcome, hstate]
      rfl
  | ok lines =>
    have hsnapshot : p.snapshot = lines.filter Line.isEvent := by
      rw [snapshot, Moment.snapshot?, hread]
      simp only
      split
      · rename_i hempty
        rw [Option.getD_none, List.isEmpty_iff.1 hempty]
      · rfl
    have heffects : p.outcome.effects = (p.moment.source.read p.watcher.worker).effects ++
        (p.watcher.pass p.moment.clock p.snapshot p.desk).effects := by
      rw [hsnapshot]
      simp only [outcome, Watcher.catchUp, hread]
    obtain ⟨hstate, hvalue⟩ := Watcher.catchUp_of_ok hread p.moment.clock p.desk
    rw [← hsnapshot] at hstate hvalue
    refine ⟨?_, ?_, ?_⟩
    · rw [heffects, Effect.tallies_append, silent, List.nil_append, Watcher.tallies_pass]
      exact htallies
    · intro n hn
      rw [outcome, hvalue, Watcher.pass_value] at hn
      cases hended : (p.watcher.passRun p.moment.clock p.snapshot p.desk).ended with
      | some stop => exact absurd hn (by simp [hended])
      | none =>
        simp only [hended] at hn
        exact (Except.ok.inj hn).symm.trans (hstored hended)
    · intro hd
      rw [outcome, hstate, Watcher.pass_desk]
      exact hlive hd

end PollCall

/-! ### Counters -/

namespace Counters

/-- From one state of the counters to the next, these polls and a number of pages were counted. -/
structure Counted (polls : List PollCall) (pages : Nat) (c next : Counters) : Prop where
  stored : next.stored = c.stored + (polls.flatMap PollCall.puts).countP Put.isStored
  duplicate : next.duplicate =
    c.duplicate + (polls.flatMap PollCall.puts).countP fun put => !put.isStored
  malformed : next.malformed = c.malformed + (polls.flatMap PollCall.malformed).length
  pages : next.complete.getD 0 + next.incomplete.getD 0 =
    c.complete.getD 0 + c.incomplete.getD 0 + pages

theorem Counted.refl (c : Counters) : Counted [] 0 c c := ⟨rfl, rfl, rfl, rfl⟩

theorem Counted.trans {polls more : List PollCall} {pages further : Nat} {c next last : Counters}
    (first : Counted polls pages c next) (second : Counted more further next last) :
    Counted (polls ++ more) (pages + further) c last where
  stored := by
    rw [second.stored, first.stored, List.flatMap_append, List.countP_append, Nat.add_assoc]
  duplicate := by
    rw [second.duplicate, first.duplicate, List.flatMap_append, List.countP_append, Nat.add_assoc]
  malformed := by
    rw [second.malformed, first.malformed, List.flatMap_append, List.length_append, Nat.add_assoc]
  pages := by
    rw [second.pages, first.pages, Nat.add_assoc]

theorem noteAll_answers (c : Counters) (answers : List (Option Put)) :
    let next := c.noteAll (answers.map .ofAnswer)
    next.stored = c.stored + answers.reduceOption.countP Put.isStored ∧
      next.duplicate = c.duplicate + answers.reduceOption.countP (fun put => !put.isStored) ∧
      next.malformed = c.malformed + answers.countP Option.isNone ∧
      next.complete = c.complete ∧ next.incomplete = c.incomplete := by
  induction answers generalizing c with
  | nil => exact ⟨rfl, rfl, rfl, rfl, rfl⟩
  | cons answer rest ih =>
    obtain ⟨hstored, hduplicate, hmalformed, hcomplete, hincomplete⟩ := ih (c.note (.ofAnswer answer))
    have hnote : c.noteAll ((answer :: rest).map .ofAnswer) =
        (c.note (.ofAnswer answer)).noteAll (rest.map .ofAnswer) := rfl
    simp only [hnote, hstored, hduplicate, hmalformed, hcomplete, hincomplete]
    cases answer with
    | none =>
      simp [Tally.ofAnswer, note, List.reduceOption_cons_of_none, Nat.add_assoc, Nat.add_comm 1]
    | some put =>
      cases hput : put.isStored <;>
        simp [Tally.ofAnswer, note, hput, List.reduceOption_cons_of_some, Nat.add_assoc,
          Nat.add_comm 1]

theorem counted_polls (c : Counters) (polls : List PollCall) :
    Counted polls 0 c (c.noteAll (polls.flatMap PollCall.tallies)) := by
  induction polls generalizing c with
  | nil => exact Counted.refl c
  | cons p rest ih =>
    obtain ⟨hstored, hduplicate, hmalformed, hcomplete, hincomplete⟩ := c.noteAll_answers p.putAnswers
    have hfirst : Counted [p] 0 c (c.noteAll p.tallies) := by
      refine ⟨?_, ?_, ?_, ?_⟩
      · rw [List.flatMap_singleton]
        exact hstored
      · rw [List.flatMap_singleton]
        exact hduplicate
      · rw [List.flatMap_singleton, p.length_malformed]
        exact hmalformed
      · exact congrArg₂ (fun a b : Option Nat => a.getD 0 + b.getD 0) hcomplete hincomplete
    rw [List.flatMap_cons, noteAll_append]
    exact hfirst.trans (ih _)

/-- Numbers of sequences are set and not counted up. -/
theorem counted_numbers (c : Counters) {tallies : List Tally}
    (h : ∀ t ∈ tallies, ∃ count, t = .tracked count) : Counted [] 0 c (c.noteAll tallies) := by
  induction tallies generalizing c with
  | nil => exact Counted.refl c
  | cons t rest ih =>
    obtain ⟨count, rfl⟩ := h t List.mem_cons_self
    have hfirst : Counted [] 0 c (c.note (.tracked count)) := ⟨rfl, rfl, rfl, rfl⟩
    exact hfirst.trans (ih _ fun other hother => h other (List.mem_cons_of_mem _ hother))

theorem counted_page (c : Counters) (complete : Bool) :
    Counted [] 1 c (c.note (.page complete)) := by
  cases complete with
  | true => exact ⟨rfl, rfl, rfl, by simp only [note, Option.getD_some]; omega⟩
  | false => exact ⟨rfl, rfl, rfl, by simp only [note, Option.getD_some]; omega⟩

end Counters

end Lifecycle
