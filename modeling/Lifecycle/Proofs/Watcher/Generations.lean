import Lifecycle.Proofs.Watcher.Passes

/-! # Collection across restarts

A log grows until its worker starts anew; then it is another log, shorter than the old one was or
with another first line. The snapshots that a watcher sees therefore fall into generations. In the
end the store holds each generation's log as it was last seen, one after the other: no line is lost
and none is stored twice, whatever reads fail or find nothing on the way. -/

namespace Lifecycle

/-- What a poll finds outside. -/
structure Moment where
  source : Source
  clock : Clock

/-- The event lines that a poll finds, unless the read fails or finds none. -/
def Moment.snapshot? (m : Moment) (worker : Worker) : Option (List String) :=
  match (m.source.read worker).value with
  | .error _ => none
  | .ok lines =>
    if (lines.filter Line.isEvent).isEmpty then none else some (lines.filter Line.isEvent)

/-- The snapshots with event lines, in order. -/
def snapshots (worker : Worker) (moments : List Moment) : List (List String) :=
  moments.filterMap fun m => m.snapshot? worker

/-- The last snapshot with event lines. -/
def lastLog (worker : Worker) (moments : List Moment) : List String :=
  (snapshots worker moments).getLast?.getD []

theorem Moment.exists_of_snapshot? {m : Moment} {worker : Worker} {lines : List String}
    (h : m.snapshot? worker = some lines) :
    lines ≠ [] ∧
      ∃ read, (m.source.read worker).value = .ok read ∧ read.filter Line.isEvent = lines := by
  rw [snapshot?] at h
  cases hread : (m.source.read worker).value with
  | error fault => simp [hread] at h
  | ok read =>
    by_cases hempty : read.filter Line.isEvent = []
    · simp [hread, hempty] at h
    · simp only [hread, List.isEmpty_iff, if_neg hempty, Option.some.injEq] at h
      exact ⟨h ▸ hempty, read, rfl, h⟩

theorem Moment.of_snapshot?_none {m : Moment} {worker : Worker} (h : m.snapshot? worker = none) :
    (∃ fault, (m.source.read worker).value = .error fault) ∨
      ∃ read, (m.source.read worker).value = .ok read ∧ read.filter Line.isEvent = [] := by
  rw [snapshot?] at h
  cases hread : (m.source.read worker).value with
  | error fault => exact Or.inl ⟨fault, rfl⟩
  | ok read =>
    by_cases hempty : read.filter Line.isEvent = []
    · exact Or.inr ⟨read, rfl, hempty⟩
    · simp [hread, List.isEmpty_iff, hempty] at h

theorem snapshots_cons_none {m : Moment} {worker : Worker} (h : m.snapshot? worker = none)
    (moments : List Moment) : snapshots worker (m :: moments) = snapshots worker moments := by
  rw [snapshots, List.filterMap_cons, h, snapshots]

theorem snapshots_cons_some {m : Moment} {worker : Worker} {lines : List String}
    (h : m.snapshot? worker = some lines) (moments : List Moment) :
    snapshots worker (m :: moments) = lines :: snapshots worker moments := by
  rw [snapshots, List.filterMap_cons, h, snapshots]

theorem ne_nil_of_mem_snapshots {worker : Worker} {moments : List Moment} {lines : List String}
    (h : lines ∈ snapshots worker moments) : lines ≠ [] := by
  obtain ⟨m, -, hm⟩ := List.mem_filterMap.1 h
  exact (Moment.exists_of_snapshot? hm).1

/-- In a log that only grows each snapshot is the beginning of the last one. -/
theorem prefix_lastLog {worker : Worker} {moments : List Moment}
    (grown : (snapshots worker moments).IsChain (· <+: ·)) {lines : List String}
    (h : lines ∈ snapshots worker moments) : lines <+: lastLog worker moments := by
  rw [lastLog]
  generalize snapshots worker moments = seen at grown h
  have hpair := List.isChain_iff_pairwise.1 grown
  rcases List.eq_nil_or_concat seen with rfl | ⟨init, last, rfl⟩
  · exact absurd h List.not_mem_nil
  · rw [List.concat_eq_append, List.getLast?_append, List.getLast?_singleton, Option.some_or,
      Option.getD_some]
    rw [List.concat_eq_append, List.mem_append, List.mem_singleton] at h
    rcases h with h | rfl
    · rw [List.concat_eq_append, List.pairwise_append] at hpair
      exact hpair.2.2 lines h last (List.mem_singleton.2 rfl)
    · exact List.prefix_refl _

/-- A log that has started anew differs from the last snapshot of the generation before. -/
theorem StartsAnew.lastLog {worker : Worker} {before : List Moment} {later : List (List String)}
    (h : StartsAnew (snapshots worker before) later)
    (grown : (snapshots worker before).IsChain (· <+: ·)) (hlast : lastLog worker before ≠ []) :
    ∃ lines, later.head? = some lines ∧
      (lines.length < (lastLog worker before).length ∨
        lines.head? ≠ (lastLog worker before).head?) := by
  obtain ⟨lines, hlines, hanew⟩ := h
  refine ⟨lines, hlines, ?_⟩
  rcases hanew with ⟨s, hs, hlt⟩ | hhead
  · left
    exact Nat.lt_of_lt_of_le hlt (prefix_lastLog grown hs).length_le
  · right
    cases hseen : snapshots worker before with
    | nil =>
      rw [Lifecycle.lastLog, hseen] at hlast
      exact absurd rfl hlast
    | cons first rest =>
      have hfirst : first ∈ snapshots worker before := hseen ▸ List.mem_cons_self
      rw [hseen, List.head?_cons, Option.bind_some] at hhead
      obtain ⟨more, hmore⟩ := prefix_lastLog grown hfirst
      rw [← hmore, List.head?_append_of_ne_nil first (ne_nil_of_mem_snapshots hfirst)]
      exact hhead

/-- A watcher at its desk and the results of its polls. -/
structure Polls where
  watcher : Watcher
  desk : Desk := ⟨{}, {}⟩
  results : List (Except Fault Nat) := []

namespace Polls

/-- One poll. -/
def poll (p : Polls) (m : Moment) : Polls :=
  let outcome := p.watcher.catchUp m.source m.clock p.desk
  ⟨outcome.state.1, outcome.state.2, p.results ++ [outcome.value]⟩

/-- Polls one after the other. -/
def run (p : Polls) (moments : List Moment) : Polls := moments.foldl poll p

/-- The results of the polls that did not fail, added up. -/
def stored (p : Polls) : Nat := p.results.foldl (fun total r => total + r.toOption.getD 0) 0

theorem run_append (p : Polls) (moments later : List Moment) :
    p.run (moments ++ later) = (p.run moments).run later := by
  simp [run]

theorem stored_poll (p : Polls) (m : Moment) :
    (p.poll m).stored =
      p.stored + (p.watcher.catchUp m.source m.clock p.desk).value.toOption.getD 0 := by
  simp [stored, poll]

/-- The watcher has dealt with `past` in earlier generations of the log, and with the event lines
`current` in this one. -/
structure Tracking (worker : Worker) (id : String) (past : List (LineKey × String))
    (generation : Nat) (current : List String) (p : Polls) : Prop where
  watches : p.watcher.worker = worker
  writes : p.watcher.deployment = id
  halting : p.watcher.halting = false
  inStep : p.desk.InStep id
  ledger : p.desk.ledger id = past ++ worker.entries generation 0 current
  older : ∀ e ∈ past, e.1.generation < generation
  memory : p.desk.allocator.memory worker.name = LogMemory.ofLines generation current
  position : p.watcher.position = current.length
  seen : p.watcher.generation = some generation ∨
    (p.watcher.generation = none ∧ current = [])
  counted : p.stored = p.desk.allocator.size

section

variable {worker : Worker} {id : String} {past : List (LineKey × String)} {generation : Nat}
  {current : List String} {p : Polls}

theorem tracking_start (worker : Worker) (id : String) :
    Tracking worker id [] 0 [] { watcher := { deployment := id, worker } } where
  watches := rfl
  writes := rfl
  halting := rfl
  inStep := Desk.inStep_empty id
  ledger := rfl
  older := by
    intro e he
    exact absurd he List.not_mem_nil
  memory := rfl
  position := rfl
  seen := Or.inr ⟨rfl, rfl⟩
  counted := rfl

/-! ### One poll -/

theorem Tracking.poll_failed (h : Tracking worker id past generation current p) {m : Moment}
    {fault : Fault} (hread : (m.source.read worker).value = .error fault) :
    Tracking worker id past generation current (p.poll m) := by
  rw [← h.watches] at hread
  obtain ⟨hstate, hvalue⟩ := Watcher.catchUp_of_error hread m.clock p.desk
  have hstored := stored_poll p m
  have hpoll : p.poll m = { p with results := p.results ++ [.error fault] } := by
    rw [poll, hstate, hvalue]
  rw [hvalue, h.counted] at hstored
  rw [hpoll] at hstored ⊢
  exact { h with counted := hstored }

/-- A poll whose pass adds some entries, takes note of its snapshot and moves on. -/
theorem Tracking.poll_ok (h : Tracking worker id past generation current p) {m : Moment}
    {read : List String} (hread : (m.source.read worker).value = .ok read)
    {past' : List (LineKey × String)} {generation' : Nat} {current' : List String}
    (memory : (LogMemory.ofLines generation current).observe (read.filter Line.isEvent) =
      LogMemory.ofLines generation' current')
    (ledger : past ++ worker.entries generation 0 current ++
        p.desk.news (worker.entries generation' (p.watcher.startAt generation')
          ((read.filter Line.isEvent).drop (p.watcher.startAt generation'))) =
      past' ++ worker.entries generation' 0 current')
    (older : ∀ e ∈ past', e.1.generation < generation')
    (position : max (p.watcher.startAt generation') (read.filter Line.isEvent).length =
      current'.length) :
    Tracking worker id past' generation' current' (p.poll m) := by
  have hd := h.inStep
  rw [← h.writes] at hd
  rw [← h.watches] at hread
  obtain ⟨hstate, hvalue⟩ := Watcher.catchUp_of_ok hread m.clock p.desk
  obtain ⟨hstored, hwatcher⟩ :=
    Watcher.pass_of_not_halting hd h.halting m.clock (read.filter Line.isEvent)
  have hadvance := Watcher.pass_advance hd m.clock (read.filter Line.isEvent)
  have hgeneration : (p.desk.allocator.observe p.watcher.worker.name
      (read.filter Line.isEvent)).1 = generation' := by
    rw [h.watches, Allocator.observe, h.memory, memory]
    rfl
  have hgains : p.watcher.gains p.desk (read.filter Line.isEvent) =
      p.desk.news (worker.entries generation' (p.watcher.startAt generation')
        ((read.filter Line.isEvent).drop (p.watcher.startAt generation'))) := by
    rw [Watcher.gains, hgeneration, h.watches, Watcher.reach_of_not_halting h.halting]
  rw [hgeneration, position] at hwatcher
  rw [← hstate] at hadvance hwatcher
  have hfirst : (p.poll m).watcher = p.watcher.moveTo generation' current'.length := hwatcher
  have hdesk : (p.poll m).desk = (p.watcher.catchUp m.source m.clock p.desk).state.2 := rfl
  rw [← hdesk] at hadvance
  have hsize : (p.poll m).desk.allocator.size = p.desk.allocator.size +
      (p.watcher.gains p.desk (read.filter Line.isEvent)).length := by
    rw [Allocator.size, hadvance.keys (hd.note _ _), List.length_append, List.length_map]
    rfl
  exact
    { watches := by rw [hfirst]; exact h.watches
      writes := by rw [hfirst]; exact h.writes
      halting := by rw [hfirst]; exact h.halting
      inStep := h.writes ▸ hadvance.inStep
      ledger := by
        rw [← ledger, ← h.ledger, ← hgains, ← h.writes]
        exact hadvance.ledger
      older := older
      memory := by
        rw [Allocator.memory, hadvance.logs, Desk.note, ← Allocator.memory,
          Allocator.memory_observe, h.watches, beq_self_eq_true, if_pos rfl, h.memory, memory]
      position := by rw [hfirst]; rfl
      seen := by rw [hfirst]; exact Or.inl rfl
      counted := by
        rw [stored_poll, hvalue, hstored, h.counted, hsize]
        rfl }

/-- The keys are of earlier generations, or of lines in `current`. -/
theorem Tracking.mem_keys (h : Tracking worker id past generation current p) {key : LineKey}
    (hkey : key ∈ p.desk.allocator.keys) :
    key.generation < generation ∨
      (key.generation = generation ∧ key.position < current.length) := by
  rw [← h.inStep.map_fst_ledger, h.ledger, List.map_append, List.mem_append, List.mem_map,
    List.mem_map] at hkey
  rcases hkey with ⟨e, he, rfl⟩ | ⟨e, he, rfl⟩
  · exact Or.inl (h.older e he)
  · obtain ⟨k, line, hline, -, hkey⟩ := Worker.mem_entries_iff.1 he
    have hlt : k < current.length := (List.getElem?_eq_some_iff.1 hline).1
    right
    rw [hkey]
    refine ⟨rfl, ?_⟩
    simp only
    omega

theorem Tracking.startAt (h : Tracking worker id past generation current p) :
    p.watcher.startAt generation = current.length := by
  have hsame : p.watcher.seesRestart generation = false := by
    rcases h.seen with hs | ⟨hs, -⟩ <;> simp [Watcher.seesRestart, hs]
  rw [Watcher.startAt, hsame, if_neg Bool.false_ne_true, h.position]

theorem Tracking.poll_empty (h : Tracking worker id past generation current p) {m : Moment}
    {read : List String} (hread : (m.source.read worker).value = .ok read)
    (hempty : read.filter Line.isEvent = []) :
    Tracking worker id past generation current (p.poll m) := by
  refine h.poll_ok hread ?_ ?_ h.older ?_
  · rw [hempty, LogMemory.observe_no_lines]
  · rw [hempty, List.drop_nil, Worker.entries_nil, Desk.news, List.filter_nil, List.append_nil]
  · rw [hempty, h.startAt, List.length_nil, Nat.max_zero]

/-- A poll that finds the log of this generation again, perhaps with further lines. -/
theorem Tracking.poll_grown (h : Tracking worker id past generation current p) {m : Moment}
    {read : List String} (hread : (m.source.read worker).value = .ok read)
    (hgrown : current <+: read.filter Line.isEvent) :
    Tracking worker id past generation (read.filter Line.isEvent) (p.poll m) := by
  have hmemory := LogMemory.observe_of_prefix hgrown generation
  refine h.poll_ok hread hmemory ?_ h.older ?_
  · have htake : (read.filter Line.isEvent).take current.length = current :=
      (List.prefix_iff_eq_take.1 hgrown).symm
    have hnews := p.desk.news_of_frontier worker generation (read.filter Line.isEvent)
      (Nat.le_refl current.length) hgrown.length_le
      (by
        intro e he
        rw [htake] at he
        rw [← h.inStep.map_fst_ledger, h.ledger]
        exact List.mem_map_of_mem (List.mem_append_right _ he))
      (by
        intro key hkey _ hgeneration
        rcases h.mem_keys hkey with hlt | ⟨-, hlt⟩ <;> omega)
    have hcut := worker.entries_append generation 0 current
      ((read.filter Line.isEvent).drop current.length)
    rw [h.startAt, hnews, List.append_assoc]
    conv_rhs => rw [← List.take_append_drop current.length (read.filter Line.isEvent), htake]
    rw [hcut, Nat.zero_add]
  · rw [h.startAt]
    exact Nat.max_eq_right hgrown.length_le

/-- A poll that finds a log that has started anew. -/
theorem Tracking.poll_anew (h : Tracking worker id past generation current p) {m : Moment}
    {read : List String} (hread : (m.source.read worker).value = .ok read)
    (hcurrent : current ≠ []) (hlines : read.filter Line.isEvent ≠ [])
    (hanew : (read.filter Line.isEvent).length < current.length ∨
      (read.filter Line.isEvent).head? ≠ current.head?) :
    Tracking worker id (past ++ worker.entries generation 0 current) (generation + 1)
      (read.filter Line.isEvent) (p.poll m) := by
  have hmemory := LogMemory.observe_of_anew hcurrent hlines hanew generation
  have hstart : p.watcher.startAt (generation + 1) = 0 := by
    have hrestart : p.watcher.seesRestart (generation + 1) = true := by
      rcases h.seen with hs | ⟨-, hnil⟩
      · simp [Watcher.seesRestart, hs]
      · exact absurd hnil hcurrent
    rw [Watcher.startAt, hrestart, if_pos rfl]
  have hold : ∀ key ∈ p.desk.allocator.keys, key.generation < (generation + 1 : Nat) := by
    intro key hkey
    rcases h.mem_keys hkey with hlt | ⟨heq, -⟩ <;> omega
  refine h.poll_ok hread hmemory ?_ ?_ ?_
  · have hnews := p.desk.news_of_frontier worker (generation + 1) (read.filter Line.isEvent)
      (Nat.le_refl 0) (Nat.zero_le _)
      (by
        intro e he
        rw [List.take_zero, Worker.entries_nil] at he
        exact absurd he List.not_mem_nil)
      (by
        intro key hkey _ hgeneration
        have hlt := hold key hkey
        omega)
    rw [hstart, hnews, List.drop_zero]
  · intro e he
    refine hold e.1 ?_
    rw [← h.inStep.map_fst_ledger, h.ledger]
    exact List.mem_map_of_mem he
  · rw [hstart, Nat.zero_max]

theorem Tracking.poll_unseen (h : Tracking worker id past generation current p) {m : Moment}
    (hm : m.snapshot? worker = none) : Tracking worker id past generation current (p.poll m) := by
  rcases Moment.of_snapshot?_none hm with ⟨fault, hread⟩ | ⟨read, hread, hempty⟩
  · exact h.poll_failed hread
  · exact h.poll_empty hread hempty

/-- What is stored is what the watcher has dealt with, at indices without a gap. -/
theorem Tracking.collected (h : Tracking worker id past generation current p) :
    (p.desk.store.contents id).map (fun e => e.2.description) =
        past.map Prod.snd ++ Line.descriptions worker.host current ∧
      (p.desk.store.contents id).map Prod.fst =
        (List.range (p.desk.store.contents id).length).map Int.ofNat ∧
      p.desk.allocator.size = (p.desk.store.contents id).length ∧
      p.stored = (p.desk.store.contents id).length := by
  have hlength := h.inStep.length_contents
  refine ⟨?_, ?_, hlength.symm, h.counted.trans hlength.symm⟩
  · rw [← h.inStep.map_snd_ledger, h.ledger, List.map_append, Worker.map_snd_entries]
  · rw [hlength]
    exact h.inStep.indices

/-- In the first generation they are the translations of the lines that become events. -/
theorem Tracking.translated {lines : List String}
    (h : Tracking worker id [] generation (lines.filter Line.isEvent) p) :
    (p.desk.store.contents id).map
        (fun e => (.ok e.2.description : Except MalformedLine String)) =
      (lines.filter Line.makesEvent).map fun line => Line.translate line worker.host := by
  obtain ⟨hdescriptions, -, -, -⟩ := h.collected
  rw [List.map_nil, List.nil_append] at hdescriptions
  rw [← Line.filter_hasSeparator_filter_isEvent, ← Line.map_ok_descriptions, ← hdescriptions,
    List.map_map]
  rfl

/-! ### Polls of one generation -/

/-- While the log only grows, the watcher stays level with its fullest snapshot. -/
theorem Tracking.run_grown (h : Tracking worker id past generation current p)
    (moments : List Moment)
    (grown : (current :: snapshots worker moments).IsChain (· <+: ·)) :
    Tracking worker id past generation ((snapshots worker moments).getLast?.getD current)
      (p.run moments) := by
  induction moments generalizing p current with
  | nil => exact h
  | cons m rest ih =>
    cases hm : m.snapshot? worker with
    | none =>
      rw [snapshots_cons_none hm] at grown ⊢
      exact ih (h.poll_unseen hm) grown
    | some lines =>
      obtain ⟨-, read, hread, rfl⟩ := Moment.exists_of_snapshot? hm
      rw [snapshots_cons_some hm] at grown ⊢
      rw [List.isChain_cons_cons] at grown
      rw [List.getLast?_cons, Option.getD_some]
      exact ih (h.poll_grown hread grown.1) grown.2

/-- From a restart on the watcher collects the new log, behind what it had of the old one. -/
theorem Tracking.run_anew (h : Tracking worker id past generation current p)
    (hcurrent : current ≠ []) (moments : List Moment)
    (grown : (snapshots worker moments).IsChain (· <+: ·)) {first : List String}
    (hfirst : (snapshots worker moments).head? = some first)
    (hanew : first.length < current.length ∨ first.head? ≠ current.head?) :
    Tracking worker id (past ++ worker.entries generation 0 current) (generation + 1)
      (lastLog worker moments) (p.run moments) := by
  induction moments generalizing p with
  | nil => exact absurd hfirst (by simp [snapshots])
  | cons m rest ih =>
    cases hm : m.snapshot? worker with
    | none =>
      rw [lastLog]
      rw [snapshots_cons_none hm] at grown hfirst ⊢
      exact ih (h.poll_unseen hm) grown hfirst
    | some lines =>
      obtain ⟨hlines, read, hread, rfl⟩ := Moment.exists_of_snapshot? hm
      rw [lastLog]
      rw [snapshots_cons_some hm] at grown hfirst ⊢
      rw [List.head?_cons, Option.some.injEq] at hfirst
      rw [← hfirst] at hanew
      rw [List.getLast?_cons, Option.getD_some]
      exact (h.poll_anew hread hcurrent hlines hanew).run_grown rest grown

/-! ### Polls of many generations -/

theorem grown_from_nil {seen : List (List String)} (grown : seen.IsChain (· <+: ·)) :
    ([] :: seen).IsChain (· <+: ·) := by
  cases seen with
  | nil => exact List.IsChain.singleton _
  | cons first rest => exact List.isChain_cons_cons.2 ⟨List.nil_prefix, grown⟩

/-- Once the next generation is over, the watcher has the log of the last one behind it. -/
theorem Tracking.run_next {before : List Moment}
    (h : Tracking worker id past generation (lastLog worker before) p)
    (hbefore : (snapshots worker before).IsChain (· <+: ·)) (moments : List Moment)
    (hmoments : (snapshots worker moments).IsChain (· <+: ·))
    (anew : StartsAnew (snapshots worker before) (snapshots worker moments)) :
    ∃ next, Tracking worker id (past ++ worker.entries generation 0 (lastLog worker before)) next
      (lastLog worker moments) (p.run moments) := by
  by_cases hlast : lastLog worker before = []
  · -- no line was seen before, so the log is still in its first generation
    rw [hlast] at h ⊢
    rw [Worker.entries_nil, List.append_nil]
    exact ⟨generation, h.run_grown moments (grown_from_nil hmoments)⟩
  · obtain ⟨first, hfirst, hdiffers⟩ := anew.lastLog hbefore hlast
    exact ⟨generation + 1, h.run_anew hlast moments hmoments hfirst hdiffers⟩

theorem Tracking.run_generations {before : List Moment}
    (h : Tracking worker id past generation (lastLog worker before) p)
    (generations : List (List Moment))
    (grown : ∀ moments ∈ before :: generations, (snapshots worker moments).IsChain (· <+: ·))
    (anew : ((before :: generations).map (snapshots worker)).IsChain StartsAnew) :
    ∃ past' generation' current',
      Tracking worker id past' generation' current' (p.run generations.flatten) ∧
        (past' ++ worker.entries generation' 0 current').map Prod.snd =
          past.map Prod.snd ++ (before :: generations).flatMap fun moments =>
            Line.descriptions worker.host (lastLog worker moments) := by
  induction generations generalizing p past generation before with
  | nil =>
    refine ⟨past, generation, _, h, ?_⟩
    rw [List.map_append, Worker.map_snd_entries, List.flatMap_singleton]
  | cons moments rest ih =>
    have hbefore := grown before List.mem_cons_self
    have hmoments := grown moments (List.mem_cons_of_mem _ List.mem_cons_self)
    rw [List.map_cons, List.map_cons, List.isChain_cons_cons, ← List.map_cons] at anew
    obtain ⟨next, hnext⟩ := h.run_next hbefore moments hmoments anew.1
    obtain ⟨past', generation', current', hafter, hdescriptions⟩ :=
      ih hnext (fun ms hms => grown ms (List.mem_cons_of_mem _ hms)) anew.2
    rw [List.flatten_cons, run_append]
    refine ⟨past', generation', current', hafter, ?_⟩
    rw [hdescriptions, List.map_append, Worker.map_snd_entries, List.append_assoc]
    rfl

end

/-- What a watcher has stored in the end, if the snapshots it saw fall into generations of the log:
each generation's log as it was last seen, without the lines that cannot be translated. -/
theorem generations_collected_once (worker : Worker) (id : String)
    (generations : List (List Moment))
    (grown : ∀ moments ∈ generations, (snapshots worker moments).IsChain (· <+: ·))
    (anew : (generations.map (snapshots worker)).IsChain StartsAnew) :
    let after := run { watcher := { deployment := id, worker } } generations.flatten
    let events := after.desk.store.contents id
    (events.map fun e => (.ok e.2.description : Except MalformedLine String)) =
        (generations.flatMap fun moments =>
          ((lastLog worker moments).filter Line.hasSeparator).map fun line =>
            Line.translate line worker.host) ∧
      events.map Prod.fst = (List.range events.length).map Int.ofNat ∧
      after.desk.allocator.size = events.length ∧
      after.stored = events.length := by
  have hstart := tracking_start worker id
  intro after events
  obtain ⟨past, generation, current, hafter, hdescriptions⟩ :
      ∃ past generation current, Tracking worker id past generation current after ∧
        (past ++ worker.entries generation 0 current).map Prod.snd =
          generations.flatMap fun moments =>
            Line.descriptions worker.host (lastLog worker moments) := by
    cases generations with
    | nil => exact ⟨[], 0, [], hstart, rfl⟩
    | cons first rest =>
      have hfirst := hstart.run_grown first (grown_from_nil (grown first List.mem_cons_self))
      have hrest := hfirst.run_generations rest grown anew
      rwa [← run_append, ← List.flatten_cons] at hrest
  have hlength : after.desk.allocator.size = events.length := hafter.inStep.length_contents.symm
  refine ⟨?_, ?_, hlength, hafter.counted.trans hlength⟩
  · have hstored := hafter.inStep.map_snd_ledger
    rw [hafter.ledger, hdescriptions] at hstored
    calc (events.map fun e => (.ok e.2.description : Except MalformedLine String))
        = (events.map fun e => e.2.description).map Except.ok := by rw [List.map_map]; rfl
      _ = (generations.flatMap fun moments =>
            Line.descriptions worker.host (lastLog worker moments)).map Except.ok := by
          rw [hstored]
      _ = generations.flatMap fun moments =>
            ((lastLog worker moments).filter Line.hasSeparator).map fun line =>
              Line.translate line worker.host := by
          rw [List.map_flatMap]
          simp only [Line.map_ok_descriptions]
  · rw [← hlength]
    exact hafter.inStep.indices

/-- A poll that finds these lines. -/
def finding (lines : List String) : Moment :=
  ⟨Source.fixed [("pod-0", lines)], ⟨0, 0, none⟩⟩

/-- A log that grows by a malformed line, another logger's line and an event, and starts anew. One
read fails, and some find nothing. -/
def oneRestart : List (List Moment) :=
  [[⟨(Source.fixed []).failing [("pod-0", "gone")], ⟨0, 0, none⟩⟩,
      finding ["1 - USMEventLogger.starting"], finding [],
      finding ["1 - USMEventLogger.starting", "2 USMEventLogger", "3 - Kernel.idle",
        "4 - USMEventLogger.started"]],
    [finding [], finding ["1 - USMEventLogger.starting"], finding [],
      finding ["1 - USMEventLogger.starting", "2 - USMEventLogger.failed"]]]

theorem one_restart_collected_once :
    let worker : Worker := ⟨"pod-0", ⟨"node-1", "10.0.0.1"⟩⟩
    (∀ moments ∈ oneRestart, (snapshots worker moments).IsChain (· <+: ·)) ∧
      (oneRestart.map (snapshots worker)).IsChain StartsAnew ∧
      ((run { watcher := { deployment := "blue", worker } }
          oneRestart.flatten).desk.store.contents "blue").map
          (fun e => (.ok e.2.description : Except MalformedLine String)) =
        [.ok "[node-1/10.0.0.1] - starting", .ok "[node-1/10.0.0.1] - started",
          .ok "[node-1/10.0.0.1] - starting", .ok "[node-1/10.0.0.1] - failed"] := by
  intro worker
  have grown : ∀ moments ∈ oneRestart, (snapshots worker moments).IsChain (· <+: ·) := by
    decide
  have anew : (oneRestart.map (snapshots worker)).IsChain StartsAnew := by
    refine List.isChain_cons_cons.2 ⟨⟨_, rfl, Or.inl ?_⟩, List.IsChain.singleton _⟩
    decide
  refine ⟨grown, anew, ?_⟩
  rw [(generations_collected_once worker "blue" oneRestart grown anew).1]
  decide

end Polls

end Lifecycle
