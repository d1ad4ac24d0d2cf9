import Lifecycle.Proofs.Watcher.Passes

/-! # Many watchers on growing logs

Several watchers may watch one worker, and each is somewhere else in its log. They share an
allocator, and the allocator knows a line by its worker and its place, so a line that one watcher
has stored is a duplicate for the others. How far the fullest snapshot of a log reached is
remembered by the allocator: this is the frontier of the log. No watcher is ahead of the frontier,
and the ledger has each line below it once. So what is stored in the end does not depend on the
order of the polls. -/

namespace Lifecycle

/-- A poll that came to its end: the worker, and the event lines of its log at that time. -/
structure FinishedPoll where
  worker : Worker
  lines : List String
  deriving DecidableEq

/-- Growing logs, and watchers that share a desk. -/
structure Interleaving where
  logs : Keyed String (List String) := []
  watchers : List Watcher := []
  desk : Desk := ⟨{}, {}⟩
  polls : List FinishedPoll := []

namespace Interleaving

/-- What may happen next. -/
inductive Action
  /-- A worker writes a line. -/
  | append (worker line : String)
  /-- A watcher of a worker is created. -/
  | create (worker : Worker)
  /-- A watcher polls while the reads of some logs fail. -/
  | poll (k : Nat) (clock : Clock) (failures : Keyed String String)

/-- The log of a worker. -/
def log (y : Interleaving) (worker : Worker) : List String :=
  (Keyed.get? y.logs worker.name).getD []

/-- The event lines of a worker's log. -/
def events (y : Interleaving) (worker : Worker) : List String :=
  (y.log worker).filter Line.isEvent

/-- The state after one action. Only workers of `workers` get watchers, and a watcher that does not
exist does not poll. -/
def step (id : String) (workers : List Worker) (y : Interleaving) : Action → Interleaving
  | .append worker line =>
    { y with logs := Keyed.set y.logs worker ((Keyed.get? y.logs worker).getD [] ++ [line]) }
  | .create worker =>
    if worker ∈ workers then { y with watchers := y.watchers ++ [{ deployment := id, worker }] }
    else y
  | .poll k clock failures =>
    match y.watchers[k]? with
    | none => y
    | some w =>
      let outcome := w.catchUp ((Source.fixed y.logs).failing failures) clock y.desk
      { y with
        watchers := y.watchers.set k outcome.state.1
        desk := outcome.state.2
        polls := match outcome.value with
          | .ok _ => y.polls ++ [⟨w.worker, y.events w.worker⟩]
          | .error _ => y.polls }

/-- The state after some actions. -/
def run (id : String) (workers : List Worker) (actions : List Action) : Interleaving :=
  actions.foldl (step id workers) {}

/-- The number of event lines of a worker in the fullest snapshot of its log. -/
def frontier (y : Interleaving) (worker : Worker) : Nat :=
  (y.desk.allocator.memory worker.name).longest

/-- The event lines of a worker that some snapshot had. -/
def seen (y : Interleaving) (worker : Worker) : List String :=
  (y.events worker).take (y.frontier worker)

/-- The entries of a worker in the ledger. -/
def share (y : Interleaving) (id : String) (worker : Worker) : List (LineKey × String) :=
  (y.desk.ledger id).filter fun e => e.1.worker == worker.name

/-- A watcher of `id` that is not ahead of the frontier. -/
structure Level (id : String) (workers : List Worker) (y : Interleaving) (w : Watcher) : Prop where
  writes : w.deployment = id
  halting : w.halting = false
  watches : w.worker ∈ workers
  behind : w.position ≤ y.frontier w.worker
  seen : w.generation = some 0 ∨ w.generation = none

/-- What holds between any two actions. -/
structure Sound (id : String) (workers : List Worker) (y : Interleaving) : Prop where
  inStep : y.desk.InStep id
  others : ∀ other, other ≠ id → y.desk.store.find? other = none
  level : ∀ w ∈ y.watchers, y.Level id workers w
  frontier_le : ∀ worker ∈ workers, y.frontier worker ≤ (y.events worker).length
  memory : ∀ worker ∈ workers,
    y.desk.allocator.memory worker.name = LogMemory.ofLines 0 (y.seen worker)
  polls : ∀ poll ∈ y.polls, poll.worker ∈ workers ∧ poll.lines <+: y.seen poll.worker
  reached : ∀ worker ∈ workers, y.frontier worker = 0 ∨
    ∃ poll ∈ y.polls, poll.worker = worker ∧ poll.lines = y.seen worker
  share : ∀ worker ∈ workers, y.share id worker = worker.entries 0 0 (y.seen worker)
  known : ∀ e ∈ y.desk.ledger id, ∃ worker ∈ workers, e.1.worker = worker.name

section

variable {id : String} {workers : List Worker} {y : Interleaving}

theorem sound_empty (id : String) (workers : List Worker) : Sound id workers {} where
  inStep := Desk.inStep_empty id
  others := fun _ _ => rfl
  level := by
    intro w hw
    exact absurd hw List.not_mem_nil
  frontier_le := fun _ _ => Nat.zero_le _
  memory := fun _ _ => rfl
  polls := by
    intro poll hpoll
    exact absurd hpoll List.not_mem_nil
  reached := fun _ _ => Or.inl rfl
  share := fun _ _ => rfl
  known := by
    intro e he
    exact absurd he List.not_mem_nil

/-! ### Lines and watchers come -/

theorem Sound.of_grown (h : Sound id workers y) {next : Interleaving}
    (desk : next.desk = y.desk) (polls : next.polls = y.polls)
    (grown : ∀ worker, y.events worker <+: next.events worker)
    (level : ∀ w ∈ next.watchers, w ∈ y.watchers ∨
      ∃ worker ∈ workers, w = { deployment := id, worker }) : Sound id workers next := by
  have hfrontier : next.frontier = y.frontier := by
    funext worker
    rw [frontier, desk, frontier]
  have hseen : ∀ worker ∈ workers, next.seen worker = y.seen worker := by
    intro worker hworker
    obtain ⟨more, hmore⟩ := grown worker
    rw [seen, seen, hfrontier, ← hmore, List.take_append_of_le_length (h.frontier_le worker hworker)]
  refine
    { inStep := desk ▸ h.inStep
      others := desk ▸ h.others
      level := ?_
      frontier_le := ?_
      memory := ?_
      polls := ?_
      reached := ?_
      share := ?_
      known := desk ▸ h.known }
  · intro w hw
    rcases level w hw with hold | ⟨worker, hworker, rfl⟩
    · have hlevel := h.level w hold
      exact ⟨hlevel.writes, hlevel.halting, hlevel.watches, hfrontier ▸ hlevel.behind, hlevel.seen⟩
    · exact ⟨rfl, rfl, hworker, Nat.zero_le _, Or.inr rfl⟩
  · intro worker hworker
    rw [hfrontier]
    exact Nat.le_trans (h.frontier_le worker hworker) (grown worker).length_le
  · intro worker hworker
    rw [desk, hseen worker hworker, h.memory worker hworker]
  · intro poll hpoll
    rw [polls] at hpoll
    rw [hseen poll.worker (h.polls poll hpoll).1]
    exact h.polls poll hpoll
  · intro worker hworker
    rw [hfrontier, polls, hseen worker hworker]
    exact h.reached worker hworker
  · intro worker hworker
    rw [Interleaving.share, desk, hseen worker hworker]
    exact h.share worker hworker

theorem Sound.append (h : Sound id workers y) (name line : String) :
    Sound id workers (step id workers y (.append name line)) := by
  refine h.of_grown rfl rfl ?_ (fun w hw => Or.inl hw)
  intro worker
  simp only [step, events, log, Keyed.get?_set]
  by_cases hname : name = worker.name
  · rw [hname, beq_self_eq_true, if_pos rfl, Option.getD_some, List.filter_append]
    exact List.prefix_append _ _
  · rw [if_neg (by simpa using hname)]

theorem Sound.create (h : Sound id workers y) (worker : Worker) :
    Sound id workers (step id workers y (.create worker)) := by
  simp only [step]
  split
  · rename_i hworker
    refine h.of_grown rfl rfl (fun worker => List.prefix_refl _) ?_
    intro w hw
    rcases List.mem_append.1 hw with hold | hnew
    · exact Or.inl hold
    · exact Or.inr ⟨worker, hworker, List.mem_singleton.1 hnew⟩
  · exact h

/-! ### A watcher polls -/

/-- A watcher and the desk at the end of the log. -/
def afterPoll (y : Interleaving) (k : Nat) (w : Watcher) (desk : Desk) : Interleaving :=
  { y with
    watchers := y.watchers.set k (w.moveTo 0 (y.events w.worker).length)
    desk
    polls := y.polls ++ [⟨w.worker, y.events w.worker⟩] }

/-- The entries that a worker's log has beyond the frontier. -/
def unseen (y : Interleaving) (worker : Worker) : List (LineKey × String) :=
  worker.entries 0 (y.frontier worker) ((y.events worker).drop (y.frontier worker))

theorem isPrefix_seen (y : Interleaving) (worker : Worker) : y.seen worker <+: y.events worker :=
  List.take_prefix _ _

theorem Sound.length_seen (h : Sound id workers y) {worker : Worker} (hworker : worker ∈ workers) :
    (y.seen worker).length = y.frontier worker := by
  rw [seen, List.length_take]
  exact Nat.min_eq_left (h.frontier_le worker hworker)

theorem Sound.mem_keys (h : Sound id workers y) {worker : Worker} (hworker : worker ∈ workers)
    {key : LineKey} (hkey : key ∈ y.desk.allocator.keys) (hname : key.worker = worker.name) :
    key.generation = 0 ∧ key.position < y.frontier worker := by
  rw [← h.inStep.map_fst_ledger, List.mem_map] at hkey
  obtain ⟨e, he, rfl⟩ := hkey
  have hshare : e ∈ y.share id worker := List.mem_filter.2 ⟨he, by simpa using hname⟩
  rw [h.share worker hworker] at hshare
  obtain ⟨k, line, hline, -, hkey⟩ := Worker.mem_entries_iff.1 hshare
  have hlt : k < (y.seen worker).length := (List.getElem?_eq_some_iff.1 hline).1
  rw [h.length_seen hworker] at hlt
  rw [hkey]
  simp only
  omega

/-- The snapshot of a log that has only grown is of the first generation. -/
theorem Sound.generation_eq (h : Sound id workers y) {worker : Worker}
    (hworker : worker ∈ workers) :
    (y.desk.allocator.observe worker.name (y.events worker)).1 = 0 := by
  rw [Allocator.observe, h.memory worker hworker,
    LogMemory.observe_of_prefix (isPrefix_seen y worker)]
  rfl

theorem Level.startAt {w : Watcher} (hw : y.Level id workers w) : w.startAt 0 = w.position := by
  have hsame : w.seesRestart 0 = false := by
    rcases hw.seen with hs | hs <;> simp [Watcher.seesRestart, hs]
  rw [Watcher.startAt, hsame, if_neg Bool.false_ne_true]

/-- A watcher that is not ahead of the frontier adds the lines from the frontier on. -/
theorem Sound.gains (h : Sound id workers y) {w : Watcher} (hw : y.Level id workers w) :
    w.gains y.desk (y.events w.worker) = y.unseen w.worker := by
  rw [Watcher.gains, h.generation_eq hw.watches, hw.startAt,
    Watcher.reach_of_not_halting hw.halting]
  refine y.desk.news_of_frontier w.worker 0 (y.events w.worker) hw.behind
    (h.frontier_le w.worker hw.watches) ?_ ?_
  · intro e he
    have hshare := h.share w.worker hw.watches
    rw [seen] at hshare
    rw [← hshare] at he
    rw [← h.inStep.map_fst_ledger]
    exact List.mem_map_of_mem (List.mem_filter.1 he).1
  · intro key hkey hname _
    exact (h.mem_keys hw.watches hkey hname).2

theorem step_poll_failed {k : Nat} {w : Watcher} (hk : y.watchers[k]? = some w) {clock : Clock}
    {failures : Keyed String String} {message : String}
    (hfail : Keyed.get? failures w.worker.name = some message) :
    step id workers y (.poll k clock failures) = y := by
  have hread : (((Source.fixed y.logs).failing failures).read w.worker).value =
      .error (.unreadable message) := by
    simp only [Source.failing, hfail, Traced.fail]
  obtain ⟨hstate, hvalue⟩ := Watcher.catchUp_of_error hread clock y.desk
  have hset : y.watchers.set k w = y.watchers := by
    obtain ⟨hlt, rfl⟩ := List.getElem?_eq_some_iff.1 hk
    exact List.set_getElem_self hlt
  simp only [step, hk, hstate, hvalue, hset]

/-- A poll that comes to its end brings the ledger and the watcher to the end of the log. -/
theorem Sound.step_poll (h : Sound id workers y) {k : Nat} {w : Watcher}
    (hk : y.watchers[k]? = some w) (clock : Clock) {failures : Keyed String String}
    (hread : Keyed.get? failures w.worker.name = none) :
    ∃ desk, step id workers y (.poll k clock failures) = y.afterPoll k w desk ∧
      Desk.Advance id (y.unseen w.worker)
        (y.desk.note w.worker.name (y.events w.worker)) desk := by
  have hw := h.level w (List.mem_of_getElem? hk)
  have hd := h.inStep
  rw [← hw.writes] at hd
  have hvalue : (((Source.fixed y.logs).failing failures).read w.worker).value =
      .ok (y.log w.worker) := by
    simp only [Source.failing, hread]
    rfl
  obtain ⟨hstate, hresult⟩ := Watcher.catchUp_of_ok hvalue clock y.desk
  obtain ⟨hstored, hwatcher⟩ := Watcher.pass_of_not_halting hd hw.halting clock (y.events w.worker)
  have hadvance := Watcher.pass_advance hd clock (y.events w.worker)
  have hend : max w.position (y.events w.worker).length = (y.events w.worker).length :=
    Nat.max_eq_right (Nat.le_trans hw.behind (h.frontier_le w.worker hw.watches))
  rw [h.generation_eq hw.watches, hw.startAt, hend] at hwatcher
  rw [h.gains hw, hw.writes] at hadvance
  refine ⟨_, ?_, hadvance⟩
  simp only [step, hk, hstate, hresult]
  rw [← events, hwatcher, hstored]
  rfl

/-! ### After a poll -/

theorem eq_of_name_eq (distinct : (workers.map Worker.name).Nodup) {a b : Worker}
    (ha : a ∈ workers) (hb : b ∈ workers) (h : a.name = b.name) : a = b :=
  List.inj_on_of_nodup_map distinct ha hb h

section

variable {w : Watcher} {k : Nat} {desk : Desk}
  (advance : Desk.Advance id (y.unseen w.worker)
    (y.desk.note w.worker.name (y.events w.worker)) desk)

include advance

theorem Sound.memory_afterPoll (h : Sound id workers y) (hw : w.worker ∈ workers)
    (name : String) :
    desk.allocator.memory name =
      if w.worker.name = name then LogMemory.ofLines 0 (y.events w.worker)
      else y.desk.allocator.memory name := by
  rw [Allocator.memory, advance.logs, ← Allocator.memory, Desk.note, Allocator.memory_observe,
    h.memory w.worker hw, LogMemory.observe_of_prefix (isPrefix_seen y w.worker)]
  simp only [beq_iff_eq]

theorem Sound.frontier_afterPoll (h : Sound id workers y) (hw : w.worker ∈ workers)
    (worker : Worker) :
    (y.afterPoll k w desk).frontier worker =
      if w.worker.name = worker.name then (y.events w.worker).length else y.frontier worker := by
  rw [frontier, afterPoll, h.memory_afterPoll advance hw]
  split <;> rfl

theorem Sound.seen_afterPoll_self (h : Sound id workers y) (hw : w.worker ∈ workers) :
    (y.afterPoll k w desk).seen w.worker = y.events w.worker := by
  rw [seen, h.frontier_afterPoll advance hw, if_pos rfl]
  exact List.take_length

theorem Sound.seen_afterPoll_other (h : Sound id workers y) (hw : w.worker ∈ workers)
    {worker : Worker} (hother : w.worker.name ≠ worker.name) :
    (y.afterPoll k w desk).seen worker = y.seen worker := by
  rw [seen, h.frontier_afterPoll advance hw, if_neg hother]
  rfl

theorem share_afterPoll (worker : Worker) :
    (y.afterPoll k w desk).share id worker =
      y.share id worker ++
        if w.worker.name = worker.name then y.unseen w.worker else [] := by
  have hledger : desk.ledger id = y.desk.ledger id ++ y.unseen w.worker := advance.ledger
  have hname : ∀ e ∈ y.unseen w.worker, e.1.worker = w.worker.name := by
    intro e he
    obtain ⟨k, line, -, -, heq⟩ := Worker.mem_entries_iff.1 he
    rw [heq]
  rw [Interleaving.share, afterPoll, hledger, List.filter_append, ← Interleaving.share]
  split
  · rename_i hworker
    rw [List.filter_eq_self.2]
    intro e he
    rw [hname e he, hworker]
    exact beq_self_eq_true _
  · rename_i hworker
    rw [List.filter_eq_nil_iff.2]
    intro e he
    rw [hname e he]
    simpa using hworker

theorem Sound.frontier_le_afterPoll (h : Sound id workers y) (hw : w.worker ∈ workers)
    (distinct : (workers.map Worker.name).Nodup) {worker : Worker} (hworker : worker ∈ workers) :
    y.frontier worker ≤ (y.afterPoll k w desk).frontier worker := by
  rw [h.frontier_afterPoll advance hw]
  split
  · rename_i hname
    rw [eq_of_name_eq distinct hworker hw hname.symm]
    exact h.frontier_le w.worker hw
  · exact Nat.le_refl _

theorem Sound.isPrefix_afterPoll (h : Sound id workers y) (hw : w.worker ∈ workers)
    (distinct : (workers.map Worker.name).Nodup) {worker : Worker} (hworker : worker ∈ workers) :
    y.seen worker <+: (y.afterPoll k w desk).seen worker := by
  by_cases hname : w.worker.name = worker.name
  · rw [eq_of_name_eq distinct hworker hw hname.symm, h.seen_afterPoll_self advance hw]
    exact isPrefix_seen y w.worker
  · rw [h.seen_afterPoll_other advance hw hname]

theorem Sound.level_afterPoll (h : Sound id workers y) (hw : y.Level id workers w)
    (distinct : (workers.map Worker.name).Nodup) {v : Watcher}
    (hv : v ∈ (y.afterPoll k w desk).watchers) :
    (y.afterPoll k w desk).Level id workers v := by
  rcases List.mem_or_eq_of_mem_set hv with hold | rfl
  · have hlevel := h.level v hold
    have hup := h.frontier_le_afterPoll (k := k) advance hw.watches distinct hlevel.watches
    exact { hlevel with behind := Nat.le_trans hlevel.behind hup }
  · refine ⟨hw.writes, hw.halting, hw.watches, ?_, Or.inl rfl⟩
    rw [h.frontier_afterPoll advance hw.watches, Watcher.moveTo, if_pos rfl]

theorem Sound.entries_afterPoll (h : Sound id workers y) (hw : w.worker ∈ workers)
    (distinct : (workers.map Worker.name).Nodup) {worker : Worker} (hworker : worker ∈ workers) :
    (y.afterPoll k w desk).share id worker =
      worker.entries 0 0 ((y.afterPoll k w desk).seen worker) := by
  rw [share_afterPoll advance, h.share worker hworker]
  by_cases hname : w.worker.name = worker.name
  · have hcut := w.worker.entries_append 0 0 (y.seen w.worker)
      ((y.events w.worker).drop (y.frontier w.worker))
    rw [h.length_seen hw, Nat.zero_add] at hcut
    rw [if_pos hname, eq_of_name_eq distinct hworker hw hname.symm,
      h.seen_afterPoll_self advance hw, unseen, ← hcut, seen, List.take_append_drop]
  · rw [if_neg hname, h.seen_afterPoll_other advance hw hname, List.append_nil]

end

theorem Sound.poll_finished (distinct : (workers.map Worker.name).Nodup) (h : Sound id workers y)
    {k : Nat} {w : Watcher} (hk : y.watchers[k]? = some w) (clock : Clock)
    {failures : Keyed String String} (hread : Keyed.get? failures w.worker.name = none) :
    Sound id workers (step id workers y (.poll k clock failures)) := by
  have hw := h.level w (List.mem_of_getElem? hk)
  obtain ⟨desk, hstep, advance⟩ := h.step_poll hk clock hread
  rw [hstep]
  have hself := h.seen_afterPoll_self (k := k) advance hw.watches
  have heq : ∀ worker ∈ workers, w.worker.name = worker.name → worker = w.worker :=
    fun worker hworker hname => eq_of_name_eq distinct hworker hw.watches hname.symm
  refine
    { inStep := advance.inStep
      others := ?_
      level := fun v hv => h.level_afterPoll advance hw distinct hv
      frontier_le := ?_
      memory := ?_
      polls := ?_
      reached := ?_
      share := fun worker hworker => h.entries_afterPoll advance hw.watches distinct hworker
      known := ?_ }
  · intro other hne
    exact (advance.frame other hne).trans (h.others other hne)
  · intro worker hworker
    rw [h.frontier_afterPoll advance hw.watches]
    split
    · rename_i hname
      rw [heq worker hworker hname]
      exact Nat.le_refl _
    · exact h.frontier_le worker hworker
  · intro worker hworker
    rw [afterPoll, h.memory_afterPoll advance hw.watches, ← afterPoll]
    split
    · rename_i hname
      rw [heq worker hworker hname, hself]
    · rename_i hname
      rw [h.seen_afterPoll_other advance hw.watches hname, h.memory worker hworker]
  · intro poll hpoll
    rcases List.mem_append.1 hpoll with hold | hnew
    · obtain ⟨hworker, hlines⟩ := h.polls poll hold
      exact ⟨hworker, hlines.trans (h.isPrefix_afterPoll advance hw.watches distinct hworker)⟩
    · rw [List.mem_singleton.1 hnew]
      exact ⟨hw.watches, by rw [hself]⟩
  · intro worker hworker
    by_cases hname : w.worker.name = worker.name
    · right
      refine ⟨⟨w.worker, y.events w.worker⟩, ?_, (heq worker hworker hname).symm, ?_⟩
      · exact List.mem_append_right _ (List.mem_singleton.2 rfl)
      · rw [heq worker hworker hname, hself]
    · rw [h.frontier_afterPoll advance hw.watches, if_neg hname,
        h.seen_afterPoll_other advance hw.watches hname]
      rcases h.reached worker hworker with hzero | ⟨poll, hpoll, hreached⟩
      · exact Or.inl hzero
      · exact Or.inr ⟨poll, List.mem_append_left _ hpoll, hreached⟩
  · intro e he
    have hledger : desk.ledger id = y.desk.ledger id ++ y.unseen w.worker := advance.ledger
    rw [afterPoll, hledger, List.mem_append] at he
    rcases he with hold | hnew
    · exact h.known e hold
    · obtain ⟨j, line, -, -, hkey⟩ := Worker.mem_entries_iff.1 hnew
      exact ⟨w.worker, hw.watches, by rw [hkey]⟩

theorem Sound.poll (distinct : (workers.map Worker.name).Nodup) (h : Sound id workers y) (k : Nat)
    (clock : Clock) (failures : Keyed String String) :
    Sound id workers (step id workers y (.poll k clock failures)) := by
  cases hk : y.watchers[k]? with
  | none =>
    simp only [step, hk]
    exact h
  | some w =>
    cases hread : Keyed.get? failures w.worker.name with
    | some message =>
      rw [step_poll_failed hk hread]
      exact h
    | none => exact h.poll_finished distinct hk clock hread

/-! ### Every run -/

theorem Sound.step (distinct : (workers.map Worker.name).Nodup) (h : Sound id workers y)
    (action : Action) : Sound id workers (step id workers y action) := by
  cases action with
  | append name line => exact h.append name line
  | create worker => exact h.create worker
  | poll k clock failures => exact h.poll distinct k clock failures

theorem run_sound (distinct : (workers.map Worker.name).Nodup) (id : String)
    (actions : List Action) : Sound id workers (run id workers actions) := by
  refine List.foldlRecOn (motive := Sound id workers) actions _ (sound_empty id workers) ?_
  intro y hy action _
  exact hy.step distinct action

/-! ### What is stored -/

/-- The event line of a worker at a position has this description, and a finished poll saw it. -/
def Covered (y : Interleaving) (worker : Worker) (position : Nat) (description : String) : Prop :=
  ∃ poll ∈ y.polls, poll.worker = worker ∧
    ∃ line, poll.lines[position]? = some line ∧ Line.translate line worker.host = .ok description

/-- The event of a line is stored at an index. -/
def StoredAt (y : Interleaving) (id : String) (key : LineKey) (description : String)
    (index : Nat) : Prop :=
  y.desk.allocator.keys[index]? = some key ∧
    ∃ event, ((index : Int), event) ∈ y.desk.store.contents id ∧ event.description = description

/-- The store has what the finished polls saw, and nothing else. -/
structure Exact (id : String) (workers : List Worker) (y : Interleaving) : Prop where
  indices : (y.desk.store.contents id).map Prod.fst =
    (List.range (y.desk.store.contents id).length).map Int.ofNat
  others : ∀ other, other ≠ id → y.desk.store.find? other = none
  once : ∀ worker position description, y.Covered worker position description →
    ∃! index, y.StoredAt id ⟨worker.name, 0, position⟩ description index
  only : ∀ i event, (i, event) ∈ y.desk.store.contents id →
    ∃ worker ∈ workers, ∃ position index : Nat, i = index ∧
      y.Covered worker position event.description ∧
      y.StoredAt id ⟨worker.name, 0, position⟩ event.description index
  ordered : ∀ (worker : String) (p q i j : Nat),
    y.desk.allocator.keys[i]? = some ⟨worker, 0, p⟩ →
    y.desk.allocator.keys[j]? = some ⟨worker, 0, q⟩ → p < q → i < j

theorem Sound.mem_ledger_iff (h : Sound id workers y) {e : LineKey × String} :
    e ∈ y.desk.ledger id ↔ ∃ worker ∈ workers, e ∈ y.share id worker := by
  constructor
  · intro he
    obtain ⟨worker, hworker, hname⟩ := h.known e he
    exact ⟨worker, hworker, List.mem_filter.2 ⟨he, by simpa using hname⟩⟩
  · rintro ⟨worker, -, he⟩
    exact (List.mem_filter.1 he).1

theorem Sound.once (h : Sound id workers y) {worker : Worker} {position : Nat}
    {description : String} (hcovered : y.Covered worker position description) :
    ∃! index, y.StoredAt id ⟨worker.name, 0, position⟩ description index := by
  obtain ⟨poll, hpoll, rfl, line, hline, htranslate⟩ := hcovered
  obtain ⟨hworker, hprefix⟩ := h.polls poll hpoll
  have hmem : ((⟨poll.worker.name, 0, position⟩ : LineKey), description) ∈
      y.share id poll.worker := by
    rw [h.share poll.worker hworker]
    refine Worker.mem_entries_iff.2 ⟨position, line, ?_, htranslate, ?_⟩
    · obtain ⟨more, hmore⟩ := hprefix
      rw [← hmore, List.getElem?_append_left (List.getElem?_eq_some_iff.1 hline).1, hline]
    · rw [Nat.zero_add]
      rfl
  obtain ⟨index, hindex⟩ := List.mem_iff_getElem?.1 (List.mem_filter.1 hmem).1
  have hstored := h.inStep.getElem?_ledger_iff.1 hindex
  refine ⟨index, hstored, ?_⟩
  rintro other ⟨hother, -⟩
  have hlt : index < y.desk.allocator.keys.length := (List.getElem?_eq_some_iff.1 hstored.1).1
  exact ((List.getElem?_inj hlt h.inStep.distinct).1 (hstored.1.trans hother.symm)).symm

theorem Sound.only (h : Sound id workers y) {i : Int} {event : Event}
    (he : (i, event) ∈ y.desk.store.contents id) :
    ∃ worker ∈ workers, ∃ position index : Nat, i = index ∧
      y.Covered worker position event.description ∧
      y.StoredAt id ⟨worker.name, 0, position⟩ event.description index := by
  obtain ⟨h0, hlt⟩ := h.inStep.mem_contents_lt he
  obtain ⟨index, rfl⟩ := Int.eq_ofNat_of_zero_le h0
  have hkey := List.getElem?_eq_getElem (Int.ofNat_lt.1 hlt)
  have hledger := h.inStep.getElem?_ledger_iff.2 ⟨hkey, event, he, rfl⟩
  obtain ⟨worker, hworker, hmem⟩ := h.mem_ledger_iff.1 (List.mem_of_getElem? hledger)
  rw [h.share worker hworker] at hmem
  obtain ⟨position, line, hline, htranslate, heq⟩ := Worker.mem_entries_iff.1 hmem
  rw [Nat.zero_add] at heq
  refine ⟨worker, hworker, position, index, rfl, ?_, ?_⟩
  · rcases h.reached worker hworker with hzero | ⟨poll, hpoll, hown, hlines⟩
    · rw [seen, hzero, List.take_zero] at hline
      exact absurd hline (by simp)
    · exact ⟨poll, hpoll, hown, line, hlines ▸ hline, htranslate⟩
  · exact ⟨hkey.trans (congrArg some heq), event, he, rfl⟩

/-- The keys of one worker stand in the order of their positions. -/
theorem Sound.pairwise_keys (h : Sound id workers y) {worker : Worker}
    (hworker : worker ∈ workers) :
    y.desk.allocator.keys.Pairwise fun a b =>
      a.worker = worker.name → b.worker = worker.name → a.position < b.position := by
  have hpair := worker.pairwise_entries 0 0 (y.seen worker)
  rw [← h.share worker hworker, Interleaving.share, List.pairwise_filter] at hpair
  rw [← h.inStep.map_fst_ledger, List.pairwise_map]
  simpa only [beq_iff_eq] using hpair

theorem Sound.ordered (h : Sound id workers y) {name : String} {p q i j : Nat}
    (hi : y.desk.allocator.keys[i]? = some ⟨name, 0, p⟩)
    (hj : y.desk.allocator.keys[j]? = some ⟨name, 0, q⟩) (hpq : p < q) : i < j := by
  obtain ⟨hilt, hikey⟩ := List.getElem?_eq_some_iff.1 hi
  obtain ⟨hjlt, hjkey⟩ := List.getElem?_eq_some_iff.1 hj
  have hmem := List.getElem_mem hilt
  rw [hikey, ← h.inStep.map_fst_ledger, List.mem_map] at hmem
  obtain ⟨e, he, hkey⟩ := hmem
  obtain ⟨worker, hworker, hname⟩ := h.known e he
  rw [hkey] at hname
  have hpair := List.pairwise_iff_getElem.1 (h.pairwise_keys hworker)
  rcases Nat.lt_trichotomy i j with hlt | rfl | hgt
  · exact hlt
  · rw [hikey] at hjkey
    have hpos := Int.ofNat.inj (LineKey.mk.inj hjkey).2.2
    omega
  · have hpos := hpair j i hjlt hilt hgt (by rw [hjkey]; exact hname) (by rw [hikey]; exact hname)
    rw [hikey, hjkey] at hpos
    simp only at hpos
    omega

theorem Sound.exact (h : Sound id workers y) : Exact id workers y where
  indices := by rw [h.inStep.length_contents, h.inStep.indices]
  others := h.others
  once := fun _ _ _ hcovered => h.once hcovered
  only := fun _ _ he => h.only he
  ordered := fun _ _ _ _ _ hi hj hpq => h.ordered hi hj hpq

/-! ### Two runs -/

/-- A finished poll of each worker saw its log as it is now. -/
def UpToDate (workers : List Worker) (y : Interleaving) : Prop :=
  ∀ worker ∈ workers, ∃ poll ∈ y.polls, poll.worker = worker ∧ poll.lines = y.events worker

/-- The descriptions of all events in the order of the indices. -/
def descriptions (y : Interleaving) (id : String) : List String :=
  (y.desk.store.contents id).map fun e => e.2.description

theorem Sound.share_of_upToDate (h : Sound id workers y) (hup : y.UpToDate workers)
    {worker : Worker} (hworker : worker ∈ workers) :
    y.share id worker = worker.entries 0 0 (y.events worker) := by
  obtain ⟨poll, hpoll, hown, hlines⟩ := hup worker hworker
  have hprefix := (h.polls poll hpoll).2
  rw [hown, hlines] at hprefix
  rw [h.share worker hworker, hprefix.eq_of_length_le (isPrefix_seen y worker).length_le]

theorem Sound.perm_ledger {z : Interleaving} (h : Sound id workers y) (hz : Sound id workers z)
    (same : ∀ worker ∈ workers, y.share id worker = z.share id worker) :
    (y.desk.ledger id).Perm (z.desk.ledger id) := by
  have hnodup (v : Interleaving) (hv : Sound id workers v) : (v.desk.ledger id).Nodup := by
    refine List.Nodup.of_map Prod.fst ?_
    rw [hv.inStep.map_fst_ledger]
    exact hv.inStep.distinct
  rw [List.perm_ext_iff_of_nodup (hnodup y h) (hnodup z hz)]
  intro e
  rw [h.mem_ledger_iff, hz.mem_ledger_iff]
  constructor
  · rintro ⟨worker, hworker, he⟩
    exact ⟨worker, hworker, same worker hworker ▸ he⟩
  · rintro ⟨worker, hworker, he⟩
    exact ⟨worker, hworker, (same worker hworker).symm ▸ he⟩

end

/-- At every point of every run the store has exactly what the finished polls saw, each worker's
lines in their order. So two runs that have seen the whole of the same logs have stored the same
descriptions, and the same of each worker in the same order. -/
theorem stored_whatever_the_schedule (id : String) {workers : List Worker}
    (distinct : (workers.map Worker.name).Nodup) (actions : List Action) :
    let y := run id workers actions
    Exact id workers y ∧
      ∀ others : List Action,
        let z := run id workers others
        (∀ worker ∈ workers, y.log worker = z.log worker) →
        y.UpToDate workers → z.UpToDate workers →
        (y.descriptions id).Perm (z.descriptions id) ∧
          ∀ worker ∈ workers, y.share id worker = z.share id worker := by
  intro y
  have hy : Sound id workers y := run_sound distinct id actions
  refine ⟨hy.exact, ?_⟩
  intro others z sameLogs upY upZ
  have hz : Sound id workers z := run_sound distinct id others
  have same : ∀ worker ∈ workers, y.share id worker = z.share id worker := by
    intro worker hworker
    rw [hy.share_of_upToDate upY hworker, hz.share_of_upToDate upZ hworker, events, events,
      sameLogs worker hworker]
  refine ⟨?_, same⟩
  rw [descriptions, descriptions, ← hy.inStep.map_snd_ledger, ← hz.inStep.map_snd_ledger]
  exact (hy.perm_ledger hz same).map Prod.snd

/-- Two workers. -/
def pods : List Worker := [⟨"pod-0", ⟨"node-1", "10.0.0.1"⟩⟩, ⟨"pod-1", ⟨"node-2", "10.0.0.2"⟩⟩]

/-- Each worker writes, and then the logs are read from the top. -/
def readLate : List Action :=
  [.append "pod-0" "1 - USMEventLogger.up", .append "pod-0" "2 USMEventLogger",
    .append "pod-1" "3 - USMEventLogger.up", .append "pod-0" "4 - USMEventLogger.down",
    .create pods[0], .create pods[1], .poll 0 ⟨0, 0, none⟩ [], .poll 1 ⟨1, 1, none⟩ []]

/-- The same logs, read as they grow, one of them by two watchers. -/
def readEarly : List Action :=
  [.create pods[1], .create pods[0], .create pods[0], .append "pod-0" "1 - USMEventLogger.up",
    .poll 1 ⟨0, 0, none⟩ [("pod-0", "gone")], .poll 0 ⟨0, 0, none⟩ [],
    .append "pod-1" "3 - USMEventLogger.up", .poll 0 ⟨1, 1, none⟩ [], .poll 2 ⟨1, 1, none⟩ [],
    .append "pod-0" "2 USMEventLogger", .append "pod-0" "4 - USMEventLogger.down",
    .poll 1 ⟨2, 2, none⟩ [], .poll 2 ⟨2, 2, none⟩ []]

theorem two_schedules_agree :
    let y := run "blue" pods readLate
    let z := run "blue" pods readEarly
    (pods.map Worker.name).Nodup ∧ (∀ worker ∈ pods, y.log worker = z.log worker) ∧
      y.UpToDate pods ∧ z.UpToDate pods ∧
      y.descriptions "blue" =
        ["[node-1/10.0.0.1] - up", "[node-1/10.0.0.1] - down", "[node-2/10.0.0.2] - up"] ∧
      (y.descriptions "blue").Perm (z.descriptions "blue") := by
  intro y z
  have distinct : (pods.map Worker.name).Nodup := by decide
  have sameLogs : ∀ worker ∈ pods, y.log worker = z.log worker := by decide
  have upY : y.UpToDate pods := by
    unfold UpToDate
    decide
  have upZ : z.UpToDate pods := by
    unfold UpToDate
    decide
  refine ⟨distinct, sameLogs, upY, upZ, by decide, ?_⟩
  exact ((stored_whatever_the_schedule "blue" distinct readLate).2 readEarly sameLogs upY upZ).1

end Interleaving

end Lifecycle
