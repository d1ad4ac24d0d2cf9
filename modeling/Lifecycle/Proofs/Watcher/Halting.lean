import Lifecycle.Proofs.Watcher.Blanks
import Lifecycle.Proofs.Watcher.Rereading
import Mathlib.Data.List.Chain
import Mathlib.Data.List.TakeWhile

/-! # Watchers that halt

A watcher that halts on malformed lines gets as far as the first of them. Each later pass begins with
that line, reports it again and does nothing else, so no line behind it is ever stored and it takes
no index. Only a log that starts anew lets the watcher go on: it reads the new log from the top, up
to the first malformed line of that one. -/

namespace Lifecycle

/-! ### The lines before the first malformed one -/

/-- The event lines before the first one that is malformed. -/
def beforeMalformed (lines : List String) : List String := lines.takeWhile Line.hasSeparator

section

variable {lines current log : List String} {k : Nat}

theorem beforeMalformed_isPrefix (lines : List String) : beforeMalformed lines <+: lines :=
  List.takeWhile_prefix _

theorem hasSeparator_of_mem_beforeMalformed {line : String} (h : line ∈ beforeMalformed lines) :
    Line.hasSeparator line = true :=
  List.mem_takeWhile_imp h

theorem hasSeparator_at_length {bad : String}
    (h : lines[(beforeMalformed lines).length]? = some bad) : Line.hasSeparator bad = false := by
  induction lines with
  | nil => exact absurd h (by simp)
  | cons line rest ih =>
    cases hline : Line.hasSeparator line with
    | true =>
      rw [beforeMalformed, List.takeWhile_cons_of_pos hline] at h
      exact ih h
    | false =>
      have hnot : ¬Line.hasSeparator line = true := by
        rw [hline]
        exact Bool.false_ne_true
      rw [beforeMalformed, List.takeWhile_cons_of_neg hnot] at h
      rwa [← Option.some.inj h]

theorem beforeMalformed_drop (h : k ≤ (beforeMalformed lines).length) :
    beforeMalformed (lines.drop k) = (beforeMalformed lines).drop k := by
  have hlength : k ≤ lines.length := Nat.le_trans h (beforeMalformed_isPrefix lines).length_le
  have hsame : lines.take k = (beforeMalformed lines).take k :=
    ((List.prefix_iff_eq_take.1 ((List.take_prefix k _).trans (beforeMalformed_isPrefix lines))).trans
      (by rw [List.length_take, Nat.min_eq_left h])).symm
  have hsound : ∀ line ∈ lines.take k, Line.hasSeparator line = true := by
    intro line hline
    rw [hsame] at hline
    exact hasSeparator_of_mem_beforeMalformed (List.mem_of_mem_take hline)
  have hsplit : beforeMalformed lines = lines.take k ++ beforeMalformed (lines.drop k) := by
    rw [beforeMalformed, beforeMalformed, ← List.takeWhile_append_of_pos hsound,
      List.take_append_drop]
  rw [hsplit, List.drop_left' (by rw [List.length_take, Nat.min_eq_left hlength])]

/-- As the log grows, the lines before the first malformed one stay. -/
theorem beforeMalformed_mono (h : current <+: log) : beforeMalformed current <+: beforeMalformed log := by
  obtain ⟨more, rfl⟩ := h
  rw [beforeMalformed, beforeMalformed, List.takeWhile_append]
  split
  · exact (List.takeWhile_prefix _).trans (List.prefix_append _ _)
  · exact List.prefix_rfl

/-- Once the first malformed line has come, nothing is added. -/
theorem beforeMalformed_eq (h : current <+: log)
    (hlt : (beforeMalformed log).length < current.length) :
    beforeMalformed current = beforeMalformed log := by
  have hle := (beforeMalformed_mono h).length_le
  obtain ⟨more, rfl⟩ := h
  rw [beforeMalformed, beforeMalformed, List.takeWhile_append, if_neg]
  intro hfull
  rw [beforeMalformed, hfull] at hle
  omega

/-- A log that has not got beyond the first malformed line has none. -/
theorem beforeMalformed_eq_self (h : current <+: log)
    (hle : current.length ≤ (beforeMalformed log).length) : beforeMalformed current = current := by
  have hsound := List.prefix_of_prefix_length_le h (beforeMalformed_isPrefix log) hle
  exact List.takeWhile_eq_self_iff.2 fun line hline =>
    hasSeparator_of_mem_beforeMalformed (hsound.subset hline)

theorem beforeMalformed_eq_take (h : current <+: log) :
    beforeMalformed current = log.take (min (beforeMalformed log).length current.length) := by
  rcases Nat.lt_or_ge (beforeMalformed log).length current.length with hlt | hle
  · rw [beforeMalformed_eq h hlt, Nat.min_eq_left (Nat.le_of_lt hlt)]
    exact List.prefix_iff_eq_take.1 (beforeMalformed_isPrefix log)
  · rw [beforeMalformed_eq_self h hle, Nat.min_eq_right hle]
    exact List.prefix_iff_eq_take.1 h

theorem map_ok_descriptions_beforeMalformed (host : Host) (lines : List String) :
    (Line.descriptions host (beforeMalformed lines)).map Except.ok =
      (beforeMalformed lines).map fun line => Line.translate line host := by
  rw [Line.map_ok_descriptions, List.filter_eq_self.2]
  exact fun line hline => hasSeparator_of_mem_beforeMalformed hline

end

namespace Watcher

/-! ### One pass -/

variable {w : Watcher} {desk : Desk} {lines : List String}

theorem reach_of_halting (h : w.halting = true) (lines : List String) :
    w.reach lines = beforeMalformed lines := by
  rw [reach, if_pos h, beforeMalformed]

/-- A pass that begins before the first malformed line ends there, or at the end of the log. -/
theorem pass_of_halting (hd : desk.InStep w.deployment) (hw : w.halting = true) (clock : Clock)
    (lines : List String)
    (hstart : w.startAt (w.readAs lines desk) ≤ (beforeMalformed lines).length) :
    let generation := w.readAs lines desk
    let start := w.startAt generation
    let gains := desk.news
      (w.worker.entries generation start ((beforeMalformed lines).drop start))
    Desk.Advance w.deployment gains (desk.note w.worker.name lines)
        (w.pass clock lines desk).state.2 ∧
      (w.pass clock lines desk).state.1 = w.moveTo generation (beforeMalformed lines).length ∧
      (w.pass clock lines desk).value =
        match lines[(beforeMalformed lines).length]? with
        | some bad => .error (.malformedLine ⟨bad⟩)
        | none => .ok gains.length := by
  intro generation start gains
  have hreach : w.reach (lines.drop start) = (beforeMalformed lines).drop start := by
    rw [reach_of_halting hw, beforeMalformed_drop hstart]
  have hgains : w.gains desk lines = gains := by
    show desk.news (w.worker.entries generation start (w.reach (lines.drop start))) = gains
    rw [hreach]
  have hended := passRun_ended hd clock lines
  have hstored := (passRun_spec hd clock lines).2.1
  have hadvance := pass_advance hd clock lines
  have hend : start + (w.reach (lines.drop start)).length = (beforeMalformed lines).length := by
    rw [hreach, List.length_drop]
    exact Nat.add_sub_cancel' hstart
  simp only at hended
  rw [List.getElem?_drop, show w.startAt (w.readAs lines desk) = start from rfl, hend] at hended
  rw [hgains] at hadvance hstored
  refine ⟨hadvance, ?_, ?_⟩
  · rw [pass_watcher, hended]
    cases hbad : lines[(beforeMalformed lines).length]? with
    | some bad => rfl
    | none =>
      have hle := (beforeMalformed_isPrefix lines).length_le
      rw [List.getElem?_eq_none_iff] at hbad
      have hmax : max start lines.length = (beforeMalformed lines).length := by omega
      exact congrArg (w.moveTo generation) hmax
  · rw [pass_value, hended, hstored]
    cases lines[(beforeMalformed lines).length]? <;> rfl

/-- A pass that begins with the malformed line only takes note of the snapshot. -/
theorem pass_of_halted (hw : w.halting = true) (clock : Clock) (lines : List String) (desk : Desk)
    (hstart : w.startAt (w.readAs lines desk) = (beforeMalformed lines).length)
    (hlt : (beforeMalformed lines).length < lines.length) :
    (w.pass clock lines desk).state.2 = desk.note w.worker.name lines := by
  have hbad := List.getElem?_eq_getElem hlt
  obtain ⟨hdesk, -, hfault⟩ := takeLine_malformed (hasSeparator_at_length hbad) w clock
    (w.readAs lines desk) (beforeMalformed lines).length (desk.note w.worker.name lines)
  rw [hw, if_pos rfl] at hfault
  have hrun : w.passRun clock lines desk = w.takeLines clock (w.readAs lines desk)
      (beforeMalformed lines).length (lines.drop (beforeMalformed lines).length)
      (desk.note w.worker.name lines) := by
    rw [← hstart]
    rfl
  rw [pass_desk, hrun, List.drop_eq_getElem_cons hlt, takeLines_cons_of_fault hfault, hdesk]

/-- What a pass answers shows where it has left the watcher. -/
theorem pass_value_of_position (hd : desk.InStep w.deployment) (clock : Clock)
    (hposition : (w.pass clock lines desk).state.1.position = (beforeMalformed lines).length) :
    (w.pass clock lines desk).value =
      match lines[(beforeMalformed lines).length]? with
      | some bad => .error (.malformedLine ⟨bad⟩)
      | none => .ok (w.gains desk lines).length := by
  have hended := passRun_ended hd clock lines
  simp only [List.getElem?_drop] at hended
  rw [pass_watcher, hended] at hposition
  rw [pass_value, hended, (passRun_spec hd clock lines).2.1]
  cases hline : lines[w.startAt (w.readAs lines desk) +
      (w.reach (lines.drop (w.startAt (w.readAs lines desk)))).length]? with
  | some line =>
    rw [hline] at hposition
    simp only [Option.map_some, positionAfter, moveTo] at hposition
    rw [← hposition, hline]
    rfl
  | none =>
    rw [hline] at hposition
    have hle : lines.length ≤ (beforeMalformed lines).length := by
      rw [← hposition]
      exact Nat.le_max_right _ _
    rw [List.getElem?_eq_none hle]
    rfl

end Watcher

/-! ### Many passes -/

/-- What is remembered of logs has no part in the ledger. -/
theorem Desk.InStep.congr {desk next : Desk} {id : String} (h : desk.InStep id)
    (hstore : next.store = desk.store) (hkeys : next.allocator.keys = desk.allocator.keys) :
    next.InStep id ∧ next.ledger id = desk.ledger id := by
  obtain ⟨⟨keys, logs⟩, store⟩ := next
  subst hstore hkeys
  exact ⟨⟨h.sound, h.distinct, h.indices, h.labelled⟩, rfl⟩

/-- The entries of the lines before the first malformed one in each of the logs of a worker, which
are numbered by their generations. -/
def Worker.logEntries (worker : Worker) (logs : List (List String)) : List (LineKey × String) :=
  logs.zipIdx.flatMap fun (lines, generation) =>
    worker.entries generation 0 (beforeMalformed lines)

namespace Worker

variable (worker : Worker)

theorem logEntries_concat (logs : List (List String)) (lines : List String) :
    worker.logEntries (logs ++ [lines]) =
      worker.logEntries logs ++ worker.entries logs.length 0 (beforeMalformed lines) := by
  rw [logEntries, List.zipIdx_append, List.flatMap_append, Nat.zero_add, List.zipIdx_singleton,
    List.flatMap_singleton]
  rfl

/-- If no line is malformed, each has a key. -/
theorem map_fst_entries {lines : List String} (h : ∀ line ∈ lines, Line.hasSeparator line = true)
    (generation position : Nat) :
    (worker.entries generation position lines).map Prod.fst =
      (List.range lines.length).map fun (p : Nat) =>
        ⟨worker.name, generation, (position + p : Nat)⟩ := by
  induction lines generalizing position with
  | nil => rfl
  | cons line rest ih =>
    obtain ⟨description, hline⟩ :=
      Line.translate_of_hasSeparator (h line List.mem_cons_self) worker.host
    rw [entries_cons_of_ok hline, List.map_cons, List.length_cons, List.range_succ_eq_map,
      List.map_cons, List.map_map, ih fun other hother => h other (List.mem_cons_of_mem line hother)]
    congr 1
    refine List.map_congr_left ?_
    intro p _
    simp only [Function.comp, Nat.succ_eq_add_one, Nat.add_assoc, Nat.add_comm 1]

theorem map_fst_logEntries (logs : List (List String)) :
    (worker.logEntries logs).map Prod.fst = logs.zipIdx.flatMap fun (lines, generation) =>
      (List.range (beforeMalformed lines).length).map fun (p : Nat) =>
        ⟨worker.name, generation, p⟩ := by
  rw [logEntries, List.map_flatMap]
  refine List.flatMap_congr ?_
  rintro ⟨lines, generation⟩ -
  simp only [worker.map_fst_entries fun _ hline => hasSeparator_of_mem_beforeMalformed hline,
    Nat.zero_add]

theorem map_snd_logEntries (logs : List (List String)) :
    (worker.logEntries logs).map Prod.snd =
      logs.flatMap fun lines => Line.descriptions worker.host (beforeMalformed lines) := by
  induction logs using List.reverseRecOn with
  | nil => rfl
  | append_singleton logs lines ih =>
    rw [logEntries_concat, List.map_append, ih, map_snd_entries, List.flatMap_append,
      List.flatMap_singleton]

theorem generation_of_mem_logEntries {logs : List (List String)} {e : LineKey × String}
    (h : e ∈ worker.logEntries logs) : e.1.generation < logs.length := by
  induction logs using List.reverseRecOn with
  | nil => exact absurd h List.not_mem_nil
  | append_singleton logs lines ih =>
    rw [logEntries_concat, List.mem_append] at h
    rw [List.length_append, List.length_singleton]
    rcases h with h | h
    · have := ih h
      omega
    · obtain ⟨k, line, -, -, hkey⟩ := mem_entries_iff.1 h
      rw [hkey]
      simp only
      omega

end Worker

namespace Polls

/-- The watcher halts. It has dealt with `logs` in the earlier generations of the log and with the
event lines `current` in this one, each up to the first malformed line. -/
structure Halting (worker : Worker) (id : String) (logs : List (List String))
    (current : List String) (p : Polls) : Prop where
  watches : p.watcher.worker = worker
  writes : p.watcher.deployment = id
  halting : p.watcher.halting = true
  inStep : p.desk.InStep id
  ledger : p.desk.ledger id =
    worker.logEntries logs ++ worker.entries logs.length 0 (beforeMalformed current)
  memory : p.desk.allocator.memory worker.name = LogMemory.ofLines logs.length current
  position : p.watcher.position = (beforeMalformed current).length
  seen : p.watcher.generation = some logs.length ∨
    (p.watcher.generation = none ∧ current = [])

section

variable {worker : Worker} {id : String} {logs : List (List String)} {current : List String}
  {p : Polls} {m : Moment}

theorem halting_start (worker : Worker) (id : String) :
    Halting worker id [] [] { watcher := { deployment := id, worker, halting := true } } where
  watches := rfl
  writes := rfl
  halting := rfl
  inStep := Desk.inStep_empty id
  ledger := rfl
  memory := rfl
  position := rfl
  seen := Or.inr ⟨rfl, rfl⟩

/-- The keys are of earlier generations, or of lines before the first malformed one in this. -/
theorem Halting.mem_keys (h : Halting worker id logs current p) {key : LineKey}
    (hkey : key ∈ p.desk.allocator.keys) :
    key.generation < logs.length ∨
      (key.generation = logs.length ∧ key.position < (beforeMalformed current).length) := by
  rw [← h.inStep.map_fst_ledger, h.ledger, List.map_append, List.mem_append, List.mem_map,
    List.mem_map] at hkey
  rcases hkey with ⟨e, he, rfl⟩ | ⟨e, he, rfl⟩
  · exact Or.inl (worker.generation_of_mem_logEntries he)
  · obtain ⟨k, line, hline, -, hkey⟩ := Worker.mem_entries_iff.1 he
    have hlt : k < (beforeMalformed current).length := (List.getElem?_eq_some_iff.1 hline).1
    right
    rw [hkey]
    refine ⟨rfl, ?_⟩
    simp only
    omega

theorem Halting.startAt (h : Halting worker id logs current p) :
    p.watcher.startAt logs.length = (beforeMalformed current).length := by
  have hsame : p.watcher.seesRestart logs.length = false := by
    rcases h.seen with hs | ⟨hs, -⟩ <;> simp [Watcher.seesRestart, hs]
  rw [Watcher.startAt, hsame, if_neg Bool.false_ne_true, h.position]

theorem Halting.poll_unseen (h : Halting worker id logs current p)
    (hm : m.snapshot? worker = none) : Halting worker id logs current (p.poll m) := by
  rw [← h.watches] at hm
  obtain ⟨hstore, hkeys, hmemory, hplace⟩ := Watcher.catchUp_of_snapshot?_none hm p.desk
  have hgeneration : (p.desk.allocator.memory p.watcher.worker.name).generation = logs.length := by
    rw [h.watches, h.memory]
    rfl
  have hduty : (p.poll m).watcher.duty = p.watcher.duty := p.watcher.catchUp_duty _ _ _
  obtain ⟨hdeployment, hworker, hhalting⟩ := Duty.mk.inj hduty
  obtain ⟨hinStep, hledger⟩ : (p.poll m).desk.InStep id ∧
      (p.poll m).desk.ledger id = p.desk.ledger id := h.inStep.congr hstore hkeys
  rw [hgeneration, h.startAt] at hplace
  exact
    { watches := hworker.trans h.watches
      writes := hdeployment.trans h.writes
      halting := hhalting.trans h.halting
      inStep := hinStep
      ledger := hledger.trans h.ledger
      memory := (hmemory worker.name).trans h.memory
      position := by
        rcases hplace with ⟨hsame, -⟩ | ⟨hmoved, -⟩
        · exact (congrArg Watcher.position hsame).trans h.position
        · exact congrArg Watcher.position hmoved
      seen := by
        rcases hplace with ⟨hsame, -⟩ | ⟨hmoved, -⟩
        · rw [show (p.poll m).watcher = p.watcher from hsame]
          exact h.seen
        · exact Or.inl (congrArg Watcher.generation hmoved) }

/-- A poll that finds event lines, from a position on that is not behind the first malformed one. -/
theorem Halting.poll_found (h : Halting worker id logs current p) {lines : List String}
    (hm : m.snapshot? worker = some lines) {logs' : List (List String)}
    (memory : (LogMemory.ofLines logs.length current).observe lines =
      LogMemory.ofLines logs'.length lines)
    (begin : p.watcher.startAt logs'.length ≤ (beforeMalformed lines).length)
    (ledger : worker.logEntries logs ++ worker.entries logs.length 0 (beforeMalformed current) =
      worker.logEntries logs' ++ worker.entries logs'.length 0
        ((beforeMalformed lines).take (p.watcher.startAt logs'.length)))
    (unknown : ∀ key ∈ p.desk.allocator.keys, key.generation = logs'.length →
      key.position < p.watcher.startAt logs'.length) :
    Halting worker id logs' lines (p.poll m) := by
  obtain ⟨-, read, hread, rfl⟩ := Moment.exists_of_snapshot? hm
  have hd := h.inStep
  rw [← h.writes] at hd
  rw [← h.watches] at hread
  have hstate := (Watcher.catchUp_of_ok hread m.clock p.desk).1
  have hgeneration : p.watcher.readAs (read.filter Line.isEvent) p.desk = logs'.length := by
    rw [Watcher.readAs, h.watches, Allocator.observe, h.memory, memory]
    rfl
  obtain ⟨hadvance, hwatcher, -⟩ := Watcher.pass_of_halting hd h.halting m.clock
    (read.filter Line.isEvent) (by rw [hgeneration]; exact begin)
  rw [hgeneration, h.watches, p.desk.news_of_behind fun key hkey _ => unknown key hkey] at hadvance
  rw [hgeneration] at hwatcher
  rw [← hstate] at hadvance hwatcher
  have hfirst : (p.poll m).watcher =
    p.watcher.moveTo logs'.length (beforeMalformed (read.filter Line.isEvent)).length := hwatcher
  have hdesk : (p.poll m).desk = (p.watcher.catchUp m.source m.clock p.desk).state.2 := rfl
  rw [← hdesk] at hadvance
  exact
    { watches := by rw [hfirst]; exact h.watches
      writes := by rw [hfirst]; exact h.writes
      halting := by rw [hfirst]; exact h.halting
      inStep := h.writes ▸ hadvance.inStep
      ledger := by
        have hcut := worker.entries_append logs'.length 0
          ((beforeMalformed (read.filter Line.isEvent)).take (p.watcher.startAt logs'.length))
          ((beforeMalformed (read.filter Line.isEvent)).drop (p.watcher.startAt logs'.length))
        rw [List.take_append_drop, List.length_take, Nat.min_eq_left begin, Nat.zero_add] at hcut
        rw [hcut, ← List.append_assoc, ← ledger, ← h.ledger, ← h.writes]
        exact hadvance.ledger
      memory := by
        rw [Allocator.memory, hadvance.logs, Desk.note, ← Allocator.memory,
          Allocator.memory_observe, beq_self_eq_true, if_pos rfl, h.memory, memory]
      position := by rw [hfirst]; rfl
      seen := by rw [hfirst]; exact Or.inl rfl }

/-- A poll that finds the log of this generation again, perhaps with further lines. -/
theorem Halting.poll_grown (h : Halting worker id logs current p) {lines : List String}
    (hm : m.snapshot? worker = some lines) (hgrown : current <+: lines) :
    Halting worker id logs lines (p.poll m) := by
  have hmono := beforeMalformed_mono hgrown
  refine h.poll_found hm (LogMemory.observe_of_prefix hgrown logs.length) ?_ ?_ ?_
  · rw [h.startAt]
    exact hmono.length_le
  · rw [h.startAt, ← List.prefix_iff_eq_take.1 hmono]
  · intro key hkey hgeneration
    rw [h.startAt]
    rcases h.mem_keys hkey with hlt | ⟨-, hlt⟩ <;> omega

/-- A poll that finds a log that has started anew. -/
theorem Halting.poll_anew (h : Halting worker id logs current p) {lines : List String}
    (hm : m.snapshot? worker = some lines) (hcurrent : current ≠ [])
    (hanew : lines.length < current.length ∨ lines.head? ≠ current.head?) :
    Halting worker id (logs ++ [current]) lines (p.poll m) := by
  have hlines := (Moment.exists_of_snapshot? hm).1
  have hlength : (logs ++ [current]).length = logs.length + 1 := by
    rw [List.length_append, List.length_singleton]
  have hstart : p.watcher.startAt (logs ++ [current]).length = 0 := by
    have hrestart : p.watcher.seesRestart (logs ++ [current]).length = true := by
      rw [hlength]
      rcases h.seen with hs | ⟨-, hnil⟩
      · simp [Watcher.seesRestart, hs]
      · exact absurd hnil hcurrent
    rw [Watcher.startAt, hrestart, if_pos rfl]
  refine h.poll_found hm ?_ ?_ ?_ ?_
  · rw [hlength]
    exact LogMemory.observe_of_anew hcurrent hlines hanew logs.length
  · rw [hstart]
    exact Nat.zero_le _
  · rw [hstart, List.take_zero, Worker.entries_nil, List.append_nil, worker.logEntries_concat]
  · intro key hkey hgeneration
    rw [hlength] at hgeneration
    rcases h.mem_keys hkey with hlt | ⟨heq, -⟩ <;> omega

/-! ### Polls of one generation and of many -/

theorem Halting.run_grown (h : Halting worker id logs current p) (moments : List Moment)
    (grown : (current :: snapshots worker moments).IsChain (· <+: ·)) :
    Halting worker id logs ((snapshots worker moments).getLast?.getD current)
      (p.run moments) := by
  induction moments generalizing p current with
  | nil => exact h
  | cons m rest ih =>
    cases hm : m.snapshot? worker with
    | none =>
      rw [snapshots_cons_none hm] at grown ⊢
      exact ih (h.poll_unseen hm) grown
    | some lines =>
      rw [snapshots_cons_some hm] at grown ⊢
      rw [List.isChain_cons_cons] at grown
      rw [List.getLast?_cons, Option.getD_some]
      exact ih (h.poll_grown hm grown.1) grown.2

/-- From a restart on the watcher deals with the new log. -/
theorem Halting.run_anew (h : Halting worker id logs current p) (hcurrent : current ≠ [])
    (moments : List Moment) (grown : (snapshots worker moments).IsChain (· <+: ·))
    {first : List String} (hfirst : (snapshots worker moments).head? = some first)
    (hanew : first.length < current.length ∨ first.head? ≠ current.head?) :
    Halting worker id (logs ++ [current]) (lastLog worker moments) (p.run moments) := by
  induction moments generalizing p with
  | nil => exact absurd hfirst (by simp [snapshots])
  | cons m rest ih =>
    rw [lastLog]
    cases hm : m.snapshot? worker with
    | none =>
      rw [snapshots_cons_none hm] at grown hfirst ⊢
      exact ih (h.poll_unseen hm) grown hfirst
    | some lines =>
      rw [snapshots_cons_some hm] at grown hfirst ⊢
      rw [List.head?_cons, Option.some.injEq] at hfirst
      rw [← hfirst] at hanew
      rw [List.getLast?_cons, Option.getD_some]
      exact (h.poll_anew hm hcurrent hanew).run_grown rest grown

/-- The logs of a worker as they were last seen, in the generations in which lines were seen. -/
def seenLogs (worker : Worker) (generations : List (List Moment)) : List (List String) :=
  (generations.map (lastLog worker)).filter fun lines => !lines.isEmpty

theorem seenLogs_concat (worker : Worker) (generations : List (List Moment))
    (moments : List Moment) :
    seenLogs worker (generations ++ [moments]) = seenLogs worker generations ++
      if lastLog worker moments = [] then [] else [lastLog worker moments] := by
  rw [seenLogs, List.map_append, List.filter_append, ← seenLogs, List.map_singleton,
    List.filter_singleton]
  cases lastLog worker moments <;> rfl

/-- The watcher has dealt with the logs of the earlier generations, as they were last seen, and is
level with the last one. -/
theorem halting_run (worker : Worker) (id : String) (earlier : List (List Moment))
    (last : List Moment)
    (grown : ∀ moments ∈ earlier ++ [last], (snapshots worker moments).IsChain (· <+: ·))
    (anew : ((earlier ++ [last]).map (snapshots worker)).IsChain StartsAnew) :
    Halting worker id (seenLogs worker earlier) (lastLog worker last)
      (run { watcher := { deployment := id, worker, halting := true } }
        (earlier.flatten ++ last)) := by
  induction earlier using List.reverseRecOn generalizing last with
  | nil =>
    have hlast := grown last List.mem_cons_self
    exact (halting_start worker id).run_grown last (grown_from_nil hlast)
  | append_singleton earlier before ih =>
    have hbefore := grown before (by simp)
    have hlast := grown last (by simp)
    rw [List.map_append, List.map_singleton, List.isChain_append] at anew
    have hanew : StartsAnew (snapshots worker before) (snapshots worker last) :=
      anew.2.2 _ (by simp) _ (by simp)
    have h := ih before (fun moments hmoments => grown moments (List.mem_append_left _ hmoments))
      anew.1
    rw [List.flatten_append, List.flatten_singleton, run_append, seenLogs_concat]
    split
    · -- no line was seen before, so the log is still in its first generation
      rename_i hnone
      rw [hnone] at h
      rw [List.append_nil]
      exact h.run_grown last (grown_from_nil hlast)
    · rename_i hsome
      obtain ⟨first, hfirst, hdiffers⟩ := hanew.lastLog hbefore hsome
      exact h.run_anew hsome last hlast hfirst hdiffers

/-- The ledger is that of the logs, as they were last seen. -/
theorem Halting.ledger_seenLogs {earlier : List (List Moment)} {last : List Moment}
    (h : Halting worker id (seenLogs worker earlier) (lastLog worker last) p) :
    p.desk.ledger id = worker.logEntries (seenLogs worker (earlier ++ [last])) := by
  rw [h.ledger, seenLogs_concat]
  split
  · rename_i hnone
    rw [hnone, List.append_nil, beforeMalformed, List.takeWhile_nil, Worker.entries_nil,
      List.append_nil]
  · rw [worker.logEntries_concat]

/-- A run of polls stays in step, and the watcher keeps its duty. -/
theorem run_keeps (hd : p.desk.InStep p.watcher.deployment) (moments : List Moment) :
    (p.run moments).desk.InStep p.watcher.deployment ∧
      (p.run moments).watcher.duty = p.watcher.duty := by
  induction moments generalizing p with
  | nil => exact ⟨hd, rfl⟩
  | cons m rest ih =>
    have hduty : (p.poll m).watcher.duty = p.watcher.duty := p.watcher.catchUp_duty _ _ _
    have hdeployment := congrArg Duty.deployment hduty
    simp only [Watcher.duty] at hdeployment
    have hnext : (p.poll m).desk.InStep (p.poll m).watcher.deployment := by
      rw [hdeployment]
      exact (Watcher.catchUp_keeps rfl hd m.source m.clock).1.inStep
    obtain ⟨hlast, hsame⟩ := ih hnext
    rw [hdeployment] at hlast
    exact ⟨hlast, hsame.trans hduty⟩

theorem lastLog_concat {lines : List String} (hm : m.snapshot? worker = some lines)
    (moments : List Moment) : lastLog worker (moments ++ [m]) = lines := by
  rw [lastLog, snapshots_concat, hm, Option.toList_some, List.getLast?_append,
    List.getLast?_singleton, Option.some_or, Option.getD_some]

theorem lastLog_mem {moments : List Moment} (h : snapshots worker moments ≠ []) :
    lastLog worker moments ∈ snapshots worker moments := by
  rw [lastLog, List.getLast?_eq_some_getLast h, Option.getD_some]
  exact List.getLast_mem h

theorem lastLog_prefix_of_growing {moments : List Moment} {log : List String}
    (growing : ∀ lines ∈ snapshots worker moments, lines <+: log) :
    lastLog worker moments <+: log := by
  by_cases h : snapshots worker moments = []
  · rw [lastLog, h]
    exact List.nil_prefix
  · exact growing _ (lastLog_mem h)

/-- Where a poll that finds lines leaves the watcher, and what it answers. -/
theorem Halting.answer {last : List Moment} {before : Polls} {lines log : List String}
    (h : Halting worker id logs (lastLog worker (last ++ [m])) (before.poll m))
    (hd : before.desk.InStep before.watcher.deployment) (hworker : before.watcher.worker = worker)
    (hm : m.snapshot? worker = some lines) (growing : lines <+: log) :
    let value := (before.watcher.catchUp m.source m.clock before.desk).value
    let first := (beforeMalformed log).length
    (first < lines.length → ∃ bad, log[first]? = some bad ∧ Line.hasSeparator bad = false ∧
        value = .error (.malformedLine ⟨bad⟩) ∧ (before.poll m).watcher.position = first) ∧
      (lines.length ≤ first →
        (∃ n, value = .ok n) ∧ (before.poll m).watcher.position = lines.length) := by
  intro value first
  rw [lastLog_concat hm] at h
  obtain ⟨-, read, hread, rfl⟩ := Moment.exists_of_snapshot? hm
  rw [← hworker] at hread
  obtain ⟨hstate, hvalue⟩ := Watcher.catchUp_of_ok hread m.clock before.desk
  have hposition : (before.watcher.pass m.clock (read.filter Line.isEvent)
      before.desk).state.1.position = (beforeMalformed (read.filter Line.isEvent)).length := by
    rw [← hstate]
    exact h.position
  have hanswer : value = _ := hvalue.trans (Watcher.pass_value_of_position hd m.clock hposition)
  refine ⟨?_, ?_⟩
  · intro hlt
    have hsame := beforeMalformed_eq growing hlt
    have hbad := List.getElem?_eq_getElem hlt
    have hmalformed : Line.hasSeparator (read.filter Line.isEvent)[first] = false := by
      have hline : (read.filter Line.isEvent)[(beforeMalformed (read.filter Line.isEvent)).length]? =
          some (read.filter Line.isEvent)[first] := by
        rw [hsame]
        exact hbad
      exact hasSeparator_at_length hline
    rw [hsame, show (beforeMalformed log).length = first from rfl, hbad] at hanswer
    refine ⟨_, List.prefix_iff_getElem?.1 growing first hlt, hmalformed, hanswer, ?_⟩
    rw [h.position, hsame]
  · intro hle
    have hself := beforeMalformed_eq_self growing hle
    rw [hself, List.getElem?_eq_none (Nat.le_refl _)] at hanswer
    refine ⟨⟨_, hanswer⟩, ?_⟩
    rw [h.position, hself]

/-- What the generations are like if the last poll is left out, and lines were seen before it. -/
theorem generations_before {earlier : List (List Moment)} {current : List Moment}
    (grown : ∀ moments ∈ earlier ++ [current ++ [m]],
      (snapshots worker moments).IsChain (· <+: ·))
    (anew : ((earlier ++ [current ++ [m]]).map (snapshots worker)).IsChain StartsAnew)
    (hseen : snapshots worker current ≠ []) :
    (∀ moments ∈ earlier ++ [current], (snapshots worker moments).IsChain (· <+: ·)) ∧
      ((earlier ++ [current]).map (snapshots worker)).IsChain StartsAnew := by
  constructor
  · intro moments hmoments
    rcases List.mem_append.1 hmoments with hearlier | hcurrent
    · exact grown moments (List.mem_append_left _ hearlier)
    · have hlast := grown (current ++ [m]) (by simp)
      rw [snapshots_concat, List.isChain_append] at hlast
      rw [List.mem_singleton.1 hcurrent]
      exact hlast.1
  · rw [List.map_append, List.isChain_append] at anew ⊢
    refine ⟨anew.1, List.IsChain.singleton _, ?_⟩
    intro before hbefore later hlater
    obtain ⟨first, hfirst, hdiffers⟩ := anew.2.2 before hbefore _ rfl
    obtain rfl : snapshots worker current = later := Option.some.inj hlater
    rw [snapshots_concat, List.head?_append_of_ne_nil _ hseen] at hfirst
    exact ⟨first, hfirst, hdiffers⟩

/-- Once the first malformed line has been read, a poll of the same log changes nothing. -/
theorem Halting.poll_again (h : Halting worker id logs current p) {lines log : List String}
    (hm : m.snapshot? worker = some lines) (hgrown : current <+: lines) (growing : lines <+: log)
    (hlt : (beforeMalformed log).length < current.length) :
    (p.poll m).desk.store = p.desk.store ∧
      (p.poll m).desk.allocator.keys = p.desk.allocator.keys := by
  obtain ⟨-, read, hread, rfl⟩ := Moment.exists_of_snapshot? hm
  rw [← h.watches] at hread
  have hlonger := Nat.lt_of_lt_of_le hlt hgrown.length_le
  have hcurrent := beforeMalformed_eq (hgrown.trans growing) hlt
  have hlines := beforeMalformed_eq growing hlonger
  have hgeneration : p.watcher.readAs (read.filter Line.isEvent) p.desk = logs.length := by
    rw [Watcher.readAs, h.watches, Allocator.observe, h.memory,
      LogMemory.observe_of_prefix hgrown]
    rfl
  have hpass := Watcher.pass_of_halted h.halting m.clock (read.filter Line.isEvent) p.desk
    (by rw [hgeneration, h.startAt, hcurrent, hlines]) (by rwa [hlines])
  have hdesk : (p.poll m).desk = p.desk.note p.watcher.worker.name (read.filter Line.isEvent) :=
    (congrArg Prod.snd (Watcher.catchUp_of_ok hread m.clock p.desk).1).trans hpass
  rw [hdesk]
  exact ⟨rfl, rfl⟩

end

/-! ### Main result -/

/-- What a halting watcher has stored, and what a poll answers, if the snapshots it saw fall into
generations of the log, and the log of the last generation grows towards `log`. Of each generation's
log it has stored the lines before the first malformed one, as far as they were seen, and no other
line has an index. A poll of a log that goes beyond the first malformed line fails with that line,
however often it is made, and leaves the watcher there. -/
theorem first_malformed_line_is_never_passed (worker : Worker) (id : String)
    (earlier : List (List Moment)) (current : List Moment) (m : Moment) (log : List String)
    (grown : ∀ moments ∈ earlier ++ [current ++ [m]],
      (snapshots worker moments).IsChain (· <+: ·))
    (anew : ((earlier ++ [current ++ [m]]).map (snapshots worker)).IsChain StartsAnew)
    (growing : ∀ lines ∈ snapshots worker (current ++ [m]), lines <+: log) :
    let before := run { watcher := { deployment := id, worker, halting := true } }
      (earlier.flatten ++ current)
    let after := before.poll m
    let value := (before.watcher.catchUp m.source m.clock before.desk).value
    let events := after.desk.store.contents id
    let logs := seenLogs worker (earlier ++ [current ++ [m]])
    let longest := (lastLog worker (current ++ [m])).length
    let first := (beforeMalformed log).length
    (events.map fun e => (.ok e.2.description : Except MalformedLine String)) =
        (logs.flatMap fun lines => (beforeMalformed lines).map fun line =>
          Line.translate line worker.host) ∧
      events.map Prod.fst = (List.range events.length).map Int.ofNat ∧
      after.desk.allocator.keys = (logs.zipIdx.flatMap fun (lines, generation) =>
        (List.range (beforeMalformed lines).length).map fun (p : Nat) =>
          ⟨worker.name, generation, p⟩) ∧
      beforeMalformed (lastLog worker (current ++ [m])) = log.take (min first longest) ∧
      (∀ lines, m.snapshot? worker = some lines →
        (first < lines.length → ∃ bad, log[first]? = some bad ∧ Line.hasSeparator bad = false ∧
          value = .error (.malformedLine ⟨bad⟩) ∧ after.watcher.position = first) ∧
        (lines.length ≤ first → (∃ n, value = .ok n) ∧ after.watcher.position = lines.length) ∧
        ((∃ s ∈ snapshots worker current, first < s.length) →
          after.desk.store = before.desk.store ∧
            after.desk.allocator.keys = before.desk.allocator.keys)) ∧
      (m.snapshot? worker = none → after.desk.store = before.desk.store ∧
        after.desk.allocator.keys = before.desk.allocator.keys ∧
        (value = .ok 0 ∨ ∃ fault, (m.source.read worker).value = .error fault ∧
          value = .error fault)) := by
  intro before after value events logs longest first
  have hrun := halting_run worker id earlier (current ++ [m]) grown anew
  have hafter : run { watcher := { deployment := id, worker, halting := true } }
      (earlier.flatten ++ (current ++ [m])) = after := by
    rw [← List.append_assoc, run_append]
    rfl
  rw [hafter] at hrun
  obtain ⟨hd, hduty⟩ : before.desk.InStep id ∧ before.watcher.duty = ⟨id, worker, true⟩ :=
    run_keeps (Desk.inStep_empty id) (earlier.flatten ++ current)
  obtain ⟨hdeployment, hworker, -⟩ := Duty.mk.inj hduty
  have hledger := hrun.ledger_seenLogs
  have hlength : after.desk.allocator.size = events.length := hrun.inStep.length_contents.symm
  have hlast : lastLog worker (current ++ [m]) <+: log := lastLog_prefix_of_growing growing
  refine ⟨?_, ?_, ?_, beforeMalformed_eq_take hlast, ?_, ?_⟩
  · have hstored := hrun.inStep.map_snd_ledger
    rw [hledger, worker.map_snd_logEntries] at hstored
    calc (events.map fun e => (.ok e.2.description : Except MalformedLine String))
        = (events.map fun e => e.2.description).map Except.ok := by rw [List.map_map]; rfl
      _ = (logs.flatMap fun lines =>
            Line.descriptions worker.host (beforeMalformed lines)).map Except.ok := by rw [hstored]
      _ = logs.flatMap fun lines => (beforeMalformed lines).map fun line =>
            Line.translate line worker.host := by
          rw [List.map_flatMap]
          simp only [map_ok_descriptions_beforeMalformed]
  · rw [← hlength]
    exact hrun.inStep.indices
  · rw [← worker.map_fst_logEntries, ← hledger, hrun.inStep.map_fst_ledger]
  · intro lines hm
    have hlines : lines ∈ snapshots worker (current ++ [m]) := by
      rw [snapshots_concat, hm]
      exact List.mem_append_right _ List.mem_cons_self
    have hanswer := hrun.answer (by rw [hdeployment]; exact hd) hworker hm (growing lines hlines)
    refine ⟨hanswer.1, hanswer.2, ?_⟩
    rintro ⟨s, hs, hlt⟩
    have hseen := List.ne_nil_of_mem hs
    obtain ⟨hgrown, hanew⟩ := generations_before grown anew hseen
    have hbefore := halting_run worker id earlier current hgrown hanew
    have hlonger : first < (lastLog worker current).length :=
      Nat.lt_of_lt_of_le hlt (prefix_lastLog (hgrown current (by simp)) hs).length_le
    have hprefix : lastLog worker current <+: lines := by
      rw [← lastLog_concat hm current]
      refine prefix_lastLog (grown (current ++ [m]) (by simp)) ?_
      rw [snapshots_concat]
      exact List.mem_append_left _ (lastLog_mem hseen)
    exact hbefore.poll_again hm hprefix (growing lines hlines) hlonger
  · intro hm
    rw [← hworker] at hm
    obtain ⟨hstore, hkeys, -, hplace⟩ := Watcher.catchUp_of_snapshot?_none hm before.desk
    refine ⟨hstore, hkeys, ?_⟩
    rcases hplace with ⟨-, fault, hread, hfault⟩ | ⟨-, hvalue⟩
    · rw [hworker] at hread
      exact Or.inr ⟨fault, hread, hfault⟩
    · exact Or.inl hvalue

/-- A log in which the second line is malformed; it is polled beyond that line twice. -/
def haltedLog : List Moment :=
  [finding ["1 - USMEventLogger.starting"],
    finding ["1 - USMEventLogger.starting", "2 USMEventLogger"],
    finding ["1 - USMEventLogger.starting", "2 USMEventLogger", "3 - USMEventLogger.started"]]

/-- The log has started anew, again with a malformed second line. -/
def restartedLog : List String :=
  ["4 - USMEventLogger.starting", "5 USMEventLogger", "6 - USMEventLogger.started"]

theorem halted_watcher_goes_on_after_a_restart :
    let worker : Worker := ⟨"pod-0", ⟨"node-1", "10.0.0.1"⟩⟩
    let current := [finding (restartedLog.take 2), finding []]
    let last := finding restartedLog
    let before := run { watcher := { deployment := "blue", worker, halting := true } }
      ([haltedLog].flatten ++ current)
    let after := before.poll last
    (∀ moments ∈ [haltedLog] ++ [current ++ [last]],
        (snapshots worker moments).IsChain (· <+: ·)) ∧
      (([haltedLog] ++ [current ++ [last]]).map (snapshots worker)).IsChain StartsAnew ∧
      (∀ lines ∈ snapshots worker (current ++ [last]), lines <+: restartedLog) ∧
      ((after.desk.store.contents "blue").map
          fun e => (.ok e.2.description : Except MalformedLine String)) =
        [.ok "[node-1/10.0.0.1] - starting", .ok "[node-1/10.0.0.1] - starting"] ∧
      after.desk.allocator.keys = [⟨"pod-0", 0, 0⟩, ⟨"pod-0", 1, 0⟩] ∧
      (before.watcher.catchUp last.source last.clock before.desk).value =
        .error (.malformedLine ⟨"5 USMEventLogger"⟩) ∧
      after.watcher.position = 1 ∧ after.desk.store = before.desk.store := by
  intro worker current last before after
  have grown : ∀ moments ∈ [haltedLog] ++ [current ++ [last]],
      (snapshots worker moments).IsChain (· <+: ·) := by
    decide
  have anew : (([haltedLog] ++ [current ++ [last]]).map (snapshots worker)).IsChain StartsAnew := by
    decide
  have growing : ∀ lines ∈ snapshots worker (current ++ [last]), lines <+: restartedLog := by
    decide
  obtain ⟨hevents, -, hkeys, -, hfound, -⟩ := first_malformed_line_is_never_passed worker "blue"
    [haltedLog] current last restartedLog grown anew growing
  have hfirst : (beforeMalformed restartedLog).length = 1 := by decide
  rw [hfirst] at hfound
  obtain ⟨hmalformed, -, hagain⟩ := hfound restartedLog (by decide)
  obtain ⟨bad, hbad, -, hvalue, hposition⟩ := hmalformed (by decide)
  obtain rfl : "5 USMEventLogger" = bad := Option.some.inj hbad
  obtain ⟨hstore, -⟩ := hagain ⟨restartedLog.take 2, by decide, by decide⟩
  refine ⟨grown, anew, growing, ?_, ?_, hvalue, ?_, ?_⟩
  · rw [hevents]
    decide
  · rw [hkeys]
    decide
  · simp only [after, before, hposition]
  · simp only [after, before, hstore]

end Polls

end Lifecycle
