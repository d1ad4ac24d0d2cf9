import Lifecycle.Proofs.Allocator.Generations
import Lifecycle.Proofs.Desk.Ledger

/-! # Passes of a watcher

A pass deals with the event lines of a snapshot from the watcher's position on. Each line that can
be translated and whose key is new becomes an entry of the ledger, in the order of the lines. A
watcher that halts on malformed lines gets as far as the first of them. A pass never ends because
the store refused an event. -/

namespace Lifecycle

/-! ### Entries of lines -/

/-- The lines from a position on that can be translated, each as an entry of the ledger. -/
def Worker.entries (worker : Worker) (generation : Nat) : Nat → List String →
    List (LineKey × String)
  | _, [] => []
  | position, line :: rest =>
    match Line.translate line worker.host with
    | .error _ => worker.entries generation (position + 1) rest
    | .ok description =>
      (⟨worker.name, generation, position⟩, description) ::
        worker.entries generation (position + 1) rest

namespace Worker

theorem entries_nil (worker : Worker) (generation position : Nat) :
    worker.entries generation position [] = [] := rfl

theorem entries_cons_of_ok {worker : Worker} {line description : String}
    (h : Line.translate line worker.host = .ok description) (generation position : Nat)
    (rest : List String) :
    worker.entries generation position (line :: rest) =
      (⟨worker.name, generation, position⟩, description) ::
        worker.entries generation (position + 1) rest := by
  rw [entries, h]

theorem entries_cons_of_error {worker : Worker} {line : String} {bad : MalformedLine}
    (h : Line.translate line worker.host = .error bad) (generation position : Nat)
    (rest : List String) :
    worker.entries generation position (line :: rest) =
      worker.entries generation (position + 1) rest := by
  rw [entries, h]

theorem entries_append (worker : Worker) (generation position : Nat) (lines more : List String) :
    worker.entries generation position (lines ++ more) =
      worker.entries generation position lines ++
        worker.entries generation (position + lines.length) more := by
  induction lines generalizing position with
  | nil => rfl
  | cons line rest ih =>
    rw [List.cons_append, List.length_cons, Nat.add_comm rest.length 1, ← Nat.add_assoc]
    cases h : Line.translate line worker.host with
    | ok description =>
      rw [entries_cons_of_ok h, entries_cons_of_ok h, ih, List.cons_append]
    | error bad => rw [entries_cons_of_error h, entries_cons_of_error h, ih]

theorem map_snd_entries (worker : Worker) (generation position : Nat) (lines : List String) :
    (worker.entries generation position lines).map Prod.snd =
      Line.descriptions worker.host lines := by
  induction lines generalizing position with
  | nil => rfl
  | cons line rest ih =>
    rw [Line.descriptions, List.filterMap_cons]
    cases h : Line.translate line worker.host with
    | ok description =>
      rw [entries_cons_of_ok h, List.map_cons, ih]
      rfl
    | error bad =>
      rw [entries_cons_of_error h, ih]
      rfl

theorem mem_entries_iff {worker : Worker} {generation position : Nat} {lines : List String}
    {e : LineKey × String} :
    e ∈ worker.entries generation position lines ↔
      ∃ (k : Nat) (line : String), lines[k]? = some line ∧
        Line.translate line worker.host = .ok e.2 ∧
        e.1 = ⟨worker.name, generation, (position + k : Nat)⟩ := by
  induction lines generalizing position with
  | nil => simp [entries_nil]
  | cons line rest ih =>
    have later : e ∈ worker.entries generation (position + 1) rest ↔
        ∃ (k : Nat) (l : String), (line :: rest)[k + 1]? = some l ∧
          Line.translate l worker.host = .ok e.2 ∧
          e.1 = ⟨worker.name, generation, (position + (k + 1) : Nat)⟩ := by
      simp only [ih, List.getElem?_cons_succ, Nat.add_assoc, Nat.add_comm 1]
    rw [← Nat.or_exists_add_one, ← later]
    simp only [List.getElem?_cons_zero, Option.some.injEq, exists_eq_left', Nat.add_zero]
    cases h : Line.translate line worker.host with
    | ok description =>
      rw [entries_cons_of_ok h, List.mem_cons, Prod.ext_iff]
      simp only [Except.ok.injEq, and_comm, eq_comm]
    | error bad =>
      rw [entries_cons_of_error h]
      simp only [reduceCtorEq, false_and, false_or]

theorem pairwise_entries (worker : Worker) (generation position : Nat) (lines : List String) :
    (worker.entries generation position lines).Pairwise fun a b =>
      a.1.position < b.1.position := by
  induction lines generalizing position with
  | nil => exact List.Pairwise.nil
  | cons line rest ih =>
    cases h : Line.translate line worker.host with
    | ok description =>
      rw [entries_cons_of_ok h, List.pairwise_cons]
      refine ⟨?_, ih (position + 1)⟩
      intro e he
      obtain ⟨k, l, -, -, hkey⟩ := mem_entries_iff.1 he
      rw [hkey]
      simp only
      omega
    | error bad =>
      rw [entries_cons_of_error h]
      exact ih (position + 1)

end Worker

/-- The entries whose key has no index yet. -/
def Desk.news (desk : Desk) (entries : List (LineKey × String)) : List (LineKey × String) :=
  entries.filter fun e => e.1 ∉ desk.allocator.keys

/-- What was new stays new unless it is among what was added. -/
theorem Desk.Advance.news {id : String} {added entries : List (LineKey × String)}
    {desk next : Desk} (h : Advance id added desk next) (hd : desk.InStep id)
    (other : ∀ a ∈ added, ∀ e ∈ entries, e.1 ≠ a.1) : next.news entries = desk.news entries := by
  refine List.filter_congr ?_
  intro e he
  have hadded : e.1 ∉ added.map Prod.fst := by
    intro hmem
    obtain ⟨a, ha, hae⟩ := List.mem_map.1 hmem
    exact other a ha e he hae.symm
  simp only [h.keys hd, List.mem_append, hadded, or_false]

/-- The lines behind all that have an index in this generation are new. -/
theorem Desk.news_of_behind (desk : Desk) {worker : Worker} {generation frontier : Nat}
    {lines : List String}
    (unknown : ∀ key ∈ desk.allocator.keys, key.worker = worker.name →
      key.generation = generation → key.position < frontier) :
    desk.news (worker.entries generation frontier lines) =
      worker.entries generation frontier lines := by
  rw [Desk.news, List.filter_eq_self]
  intro e he
  obtain ⟨k, line, -, -, heq⟩ := Worker.mem_entries_iff.1 he
  have hnew : e.1 ∉ desk.allocator.keys := by
    intro hkey
    have hlt := unknown e.1 hkey (by rw [heq]) (by rw [heq])
    rw [heq] at hlt
    simp only at hlt
    omega
  simp only [hnew, not_false_eq_true, decide_true]

/-- If the known keys of this generation are those of the first `frontier` lines, the new entries
are those of the lines from there on. -/
theorem Desk.news_of_frontier (desk : Desk) (worker : Worker) (generation : Nat)
    (lines : List String) {start frontier : Nat} (begin : start ≤ frontier) (upTo : frontier ≤ lines.length)
    (known : ∀ e ∈ worker.entries generation 0 (lines.take frontier),
      e.1 ∈ desk.allocator.keys)
    (unknown : ∀ key ∈ desk.allocator.keys, key.worker = worker.name →
      key.generation = generation → key.position < frontier) :
    desk.news (worker.entries generation start (lines.drop start)) =
      worker.entries generation frontier (lines.drop frontier) := by
  have hsplit : worker.entries generation start (lines.drop start) =
      worker.entries generation start ((lines.take frontier).drop start) ++
        worker.entries generation frontier (lines.drop frontier) := by
    have hlength : start + ((lines.take frontier).drop start).length = frontier := by
      rw [List.length_drop, List.length_take]
      omega
    conv_lhs => rw [← List.take_append_drop frontier lines]
    rw [List.drop_append_of_le_length (by rw [List.length_take]; omega), Worker.entries_append,
      hlength]
  have hold : ∀ e ∈ worker.entries generation start ((lines.take frontier).drop start),
      e.1 ∈ desk.allocator.keys := by
    intro e he
    refine known e ?_
    have hcut := worker.entries_append generation 0 ((lines.take frontier).take start)
      ((lines.take frontier).drop start)
    have hlength : 0 + ((lines.take frontier).take start).length = start := by
      rw [List.length_take, List.length_take]
      omega
    rw [List.take_append_drop, hlength] at hcut
    rw [hcut]
    exact List.mem_append_right _ he
  rw [hsplit, Desk.news, List.filter_append, List.filter_eq_nil_iff.2, List.nil_append]
  · exact desk.news_of_behind unknown
  · intro e he
    simp only [hold e he, not_true_eq_false, decide_false, Bool.false_eq_true, not_false_eq_true]

namespace Watcher

variable {w : Watcher} {desk : Desk}

/-! ### One line -/

theorem takeLine_malformed {line : String} (h : Line.hasSeparator line = false) (w : Watcher)
    (clock : Clock) (generation position : Nat) (desk : Desk) :
    (w.takeLine clock generation position line desk).desk = desk ∧
      (w.takeLine clock generation position line desk).stored = false ∧
      (w.takeLine clock generation position line desk).fault =
        if w.halting then some (.malformedLine ⟨line⟩) else none := by
  simp only [takeLine, Line.translate_of_not_hasSeparator h]
  cases w.halting <;> exact ⟨rfl, rfl, rfl⟩

/-- A line whose key has an index is not stored again. -/
theorem takeLine_known (hd : desk.InStep w.deployment) {line description : String}
    (h : Line.translate line w.worker.host = .ok description) {generation position : Nat}
    (known : ⟨w.worker.name, generation, position⟩ ∈ desk.allocator.keys) (clock : Clock) :
    Desk.Advance w.deployment [] desk (w.takeLine clock generation position line desk).desk ∧
      (w.takeLine clock generation position line desk).stored = false ∧
      (w.takeLine clock generation position line desk).fault = none := by
  obtain ⟨index, hindex, hassign⟩ := Allocator.assign_of_mem known
  have hlt : index < desk.allocator.size := (List.getElem?_eq_some_iff.1 hindex).1
  obtain ⟨kept, hkept⟩ := hd.exists_mem_contents hlt
  obtain ⟨report, next, hput, hsound, hreport, hfind⟩ :=
    hd.sound.put_taken hkept ⟨index, description, clock.stamp⟩
      (Store.check_eq_ok_iff.2 ⟨Int.natCast_nonneg index, rfl⟩) clock.monotonic
  simp only [takeLine, h, hassign, hput, hreport, Put.isStored, and_true]
  have hcontents : next.contents w.deployment = desk.store.contents w.deployment :=
    Store.contents_congr (hfind w.deployment)
  exact
    { inStep :=
        { sound := hsound
          distinct := hd.distinct
          indices := by rw [hcontents, hd.indices]
          labelled := by rw [hcontents]; exact hd.labelled }
      ledger := by rw [Desk.ledger, hcontents, List.append_nil, Desk.ledger]
      frame := fun other _ => hfind other
      logs := rfl }

/-- A line whose key is new is stored at the next index. -/
theorem takeLine_new (hd : desk.InStep w.deployment) {line description : String}
    (h : Line.translate line w.worker.host = .ok description) {generation position : Nat}
    (new : ⟨w.worker.name, generation, position⟩ ∉ desk.allocator.keys) (clock : Clock) :
    Desk.Advance w.deployment [(⟨w.worker.name, generation, position⟩, description)] desk
        (w.takeLine clock generation position line desk).desk ∧
      (w.takeLine clock generation position line desk).stored = true ∧
      (w.takeLine clock generation position line desk).fault = none := by
  obtain ⟨report, next, hput, hsound, hreport, hcontents, hframe⟩ :=
    hd.sound.put_behind (fun e he => (hd.mem_contents_lt he).2)
      ⟨desk.allocator.size, description, clock.stamp⟩
      (Store.check_eq_ok_iff.2 ⟨Int.natCast_nonneg desk.allocator.size, rfl⟩) clock.monotonic
  simp only [takeLine, h, Allocator.assign_of_not_mem new, hput, hreport, Put.isStored, and_true]
  exact hd.extend new rfl hsound hcontents hframe

theorem takeLine_translated (hd : desk.InStep w.deployment) {line description : String}
    (h : Line.translate line w.worker.host = .ok description) (clock : Clock)
    (generation position : Nat) :
    Desk.Advance w.deployment
        (desk.news [(⟨w.worker.name, generation, position⟩, description)]) desk
        (w.takeLine clock generation position line desk).desk ∧
      (if (w.takeLine clock generation position line desk).stored then 1 else 0) =
        (desk.news [(⟨w.worker.name, generation, position⟩, description)]).length ∧
      (w.takeLine clock generation position line desk).fault = none := by
  by_cases hkey : ⟨w.worker.name, generation, position⟩ ∈ desk.allocator.keys
  · have hnews : desk.news [(⟨w.worker.name, generation, position⟩, description)] = [] := by
      simp [Desk.news, hkey]
    obtain ⟨hadvance, hstored, hfault⟩ := takeLine_known hd h hkey clock
    rw [hnews, hstored]
    exact ⟨hadvance, rfl, hfault⟩
  · have hnews : desk.news [(⟨w.worker.name, generation, position⟩, description)] =
        [(⟨w.worker.name, generation, position⟩, description)] := by
      simp [Desk.news, hkey]
    obtain ⟨hadvance, hstored, hfault⟩ := takeLine_new hd h hkey clock
    rw [hnews, hstored]
    exact ⟨hadvance, rfl, hfault⟩

/-! ### Many lines -/

theorem takeLines_cons_of_fault {clock : Clock} {generation position : Nat} {line : String}
    {fault : Fault} (h : (w.takeLine clock generation position line desk).fault = some fault)
    (rest : List String) :
    w.takeLines clock generation position (line :: rest) desk =
      ⟨(w.takeLine clock generation position line desk).desk, 0, some (position, fault),
        (w.takeLine clock generation position line desk).effects⟩ := by
  rw [takeLines, h]

theorem takeLines_cons_of_none {clock : Clock} {generation position : Nat} {line : String}
    (h : (w.takeLine clock generation position line desk).fault = none) (rest : List String) :
    w.takeLines clock generation position (line :: rest) desk =
      let step := w.takeLine clock generation position line desk
      let run := w.takeLines clock generation (position + 1) rest step.desk
      { run with
        stored := run.stored + (if step.stored then 1 else 0)
        effects := step.effects ++ run.effects } := by
  rw [takeLines, h]

/-- The lines that the watcher gets past. -/
def reach (w : Watcher) (lines : List String) : List String :=
  if w.halting then lines.takeWhile Line.hasSeparator else lines

theorem reach_of_not_halting (h : w.halting = false) (lines : List String) :
    w.reach lines = lines := by
  rw [reach, h, if_neg Bool.false_ne_true]

theorem reach_cons_of_hasSeparator {line : String} (h : Line.hasSeparator line = true)
    (rest : List String) : w.reach (line :: rest) = line :: w.reach rest := by
  rw [reach, reach, List.takeWhile_cons_of_pos h]
  split <;> rfl

theorem reach_cons_of_halting {line : String} (hw : w.halting = true)
    (h : Line.hasSeparator line = false) (rest : List String) : w.reach (line :: rest) = [] := by
  rw [reach, if_pos hw, List.takeWhile_cons_of_neg (by rw [h]; exact Bool.false_ne_true)]

/-- A run over event lines adds those that are new and can be translated, up to the line where the
watcher halts. -/
theorem takeLines_spec (hd : desk.InStep w.deployment) (clock : Clock) (generation position : Nat)
    (lines : List String) :
    Desk.Advance w.deployment
        (desk.news (w.worker.entries generation position (w.reach lines))) desk
        (w.takeLines clock generation position lines desk).desk ∧
      (w.takeLines clock generation position lines desk).stored =
        (desk.news (w.worker.entries generation position (w.reach lines))).length ∧
      (w.takeLines clock generation position lines desk).ended =
        lines[(w.reach lines).length]?.map fun line =>
          (position + (w.reach lines).length, .malformedLine ⟨line⟩) := by
  induction lines generalizing position desk with
  | nil =>
    have hnil : w.reach [] = [] := by
      rw [reach]
      split <;> rfl
    rw [hnil]
    exact ⟨Desk.Advance.refl hd, rfl, rfl⟩
  | cons line rest ih =>
    cases hs : Line.hasSeparator line with
    | true =>
      obtain ⟨description, h⟩ := Line.translate_of_hasSeparator hs w.worker.host
      obtain ⟨hadvance, hstored, hfault⟩ := takeLine_translated hd h clock generation position
      obtain ⟨hrest, hcount, hended⟩ := ih hadvance.inStep (position + 1)
      -- the keys of the later lines have later positions, so this line makes none of them known
      have hother : ∀ a ∈ desk.news [(⟨w.worker.name, generation, position⟩, description)],
          ∀ e ∈ w.worker.entries generation (position + 1) (w.reach rest), e.1 ≠ a.1 := by
        intro a ha e he heq
        have hpair := w.worker.pairwise_entries generation position (line :: w.reach rest)
        rw [Worker.entries_cons_of_ok h, List.pairwise_cons] at hpair
        have hlt := hpair.1 e he
        rw [List.mem_singleton.1 (List.mem_filter.1 ha).1] at heq
        rw [heq] at hlt
        exact absurd hlt (Int.lt_irrefl _)
      rw [hadvance.news hd hother] at hrest hcount
      have hnews : desk.news (w.worker.entries generation position (w.reach (line :: rest))) =
          desk.news [(⟨w.worker.name, generation, position⟩, description)] ++
            desk.news (w.worker.entries generation (position + 1) (w.reach rest)) := by
        rw [reach_cons_of_hasSeparator hs, Worker.entries_cons_of_ok h, ← List.singleton_append,
          Desk.news, List.filter_append, Desk.news, Desk.news]
      rw [takeLines_cons_of_none hfault, hnews]
      refine ⟨hadvance.trans hrest, ?_, ?_⟩
      · simp only
        rw [hstored, hcount, List.length_append, Nat.add_comm]
      · simp only
        rw [hended, reach_cons_of_hasSeparator hs, List.length_cons, List.getElem?_cons_succ,
          Nat.add_assoc, Nat.add_comm 1]
    | false =>
      obtain ⟨hdesk, hstored, hfault⟩ :=
        takeLine_malformed hs w clock generation position desk
      cases hw : w.halting with
      | true =>
        rw [hw, if_pos rfl] at hfault
        rw [takeLines_cons_of_fault hfault, reach_cons_of_halting hw hs, hdesk]
        exact ⟨Desk.Advance.refl hd, rfl, rfl⟩
      | false =>
        rw [hw, if_neg Bool.false_ne_true] at hfault
        obtain ⟨hrest, hcount, hended⟩ := ih hd (position + 1)
        rw [reach_of_not_halting hw] at hrest hcount hended ⊢
        rw [takeLines_cons_of_none hfault,
          Worker.entries_cons_of_error (Line.translate_of_not_hasSeparator hs _)]
        simp only [hdesk, hstored]
        refine ⟨hrest, hcount, ?_⟩
        rw [hended, List.length_cons, List.getElem?_cons_succ, Nat.add_assoc, Nat.add_comm 1]

end Watcher

/-! ### A pass -/

/-- The desk once a snapshot of a worker's event lines has been noted. -/
def Desk.note (desk : Desk) (worker : String) (lines : List String) : Desk :=
  { desk with allocator := (desk.allocator.observe worker lines).2 }

theorem Desk.InStep.note {desk : Desk} {id : String} (h : desk.InStep id) (worker : String)
    (lines : List String) : (desk.note worker lines).InStep id :=
  ⟨h.sound, h.distinct, h.indices, h.labelled⟩

namespace Watcher

variable {w : Watcher} {desk : Desk}

/-- The position that a pass over a generation of the log begins at. -/
def startAt (w : Watcher) (generation : Nat) : Nat :=
  if w.seesRestart generation then 0 else w.position

/-- What a pass over a snapshot adds to the ledger. -/
def gains (w : Watcher) (desk : Desk) (lines : List String) : List (LineKey × String) :=
  let generation := (desk.allocator.observe w.worker.name lines).1
  let start := w.startAt generation
  desk.news (w.worker.entries generation start (w.reach (lines.drop start)))

/-- The run over event lines that a pass makes. -/
def passRun (w : Watcher) (clock : Clock) (lines : List String) (desk : Desk) : LineRun :=
  let generation := (desk.allocator.observe w.worker.name lines).1
  let start := w.startAt generation
  w.takeLines clock generation start (lines.drop start) (desk.note w.worker.name lines)

theorem passRun_spec (hd : desk.InStep w.deployment) (clock : Clock) (lines : List String) :
    Desk.Advance w.deployment (w.gains desk lines) (desk.note w.worker.name lines)
        (w.passRun clock lines desk).desk ∧
      (w.passRun clock lines desk).stored = (w.gains desk lines).length ∧
      (∀ stop, (w.passRun clock lines desk).ended = some stop →
        w.halting = true ∧ ∃ line, stop.2 = .malformedLine line) := by
  obtain ⟨hadvance, hstored, hended⟩ := takeLines_spec (hd.note w.worker.name lines) clock
    (desk.allocator.observe w.worker.name lines).1
    (w.startAt (desk.allocator.observe w.worker.name lines).1)
    (lines.drop (w.startAt (desk.allocator.observe w.worker.name lines).1))
  refine ⟨hadvance, hstored, ?_⟩
  intro stop hstop
  rw [passRun, hended, Option.map_eq_some_iff] at hstop
  obtain ⟨line, hline, rfl⟩ := hstop
  refine ⟨?_, ⟨line⟩, rfl⟩
  cases hw : w.halting with
  | true => rfl
  | false =>
    rw [reach_of_not_halting hw, List.getElem?_eq_none (Nat.le_refl _)] at hline
    exact absurd hline (by simp)

theorem pass_advance (hd : desk.InStep w.deployment) (clock : Clock) (lines : List String) :
    Desk.Advance w.deployment (w.gains desk lines) (desk.note w.worker.name lines)
      (w.pass clock lines desk).state.2 := by
  have hrun := (passRun_spec hd clock lines).1
  simp only [pass]
  split <;> exact hrun

theorem pass_of_not_halting (hd : desk.InStep w.deployment) (hw : w.halting = false)
    (clock : Clock) (lines : List String) :
    (w.pass clock lines desk).value = .ok (w.gains desk lines).length ∧
      (w.pass clock lines desk).state.1 =
        w.moveTo (desk.allocator.observe w.worker.name lines).1
          (max (w.startAt (desk.allocator.observe w.worker.name lines).1) lines.length) := by
  obtain ⟨-, hstored, hended⟩ := passRun_spec hd clock lines
  have hnone : (w.passRun clock lines desk).ended = none := by
    rw [Option.eq_none_iff_forall_ne_some]
    intro stop hstop
    exact absurd (hended stop hstop).1 (by simp [hw])
  simp only [passRun, startAt, Desk.note] at hnone hstored
  simp only [pass, hnone, hstored, true_and]
  rfl

/-- The only fault of a pass is a malformed line that the watcher halts on. -/
theorem pass_fault (hd : desk.InStep w.deployment) {clock : Clock} {lines : List String}
    {fault : Fault} (h : (w.pass clock lines desk).value = .error fault) :
    w.halting = true ∧ ∃ line, fault = .malformedLine line := by
  have hended := (passRun_spec hd clock lines).2.2
  simp only [pass] at h
  split at h
  · rename_i stop hstop
    rw [← Except.error.inj h]
    exact hended stop hstop
  · exact absurd h (by simp)

theorem catchUp_of_error {source : Source} {fault : Fault}
    (h : (source.read w.worker).value = .error fault) (clock : Clock) (desk : Desk) :
    (w.catchUp source clock desk).state = (w, desk) ∧
      (w.catchUp source clock desk).value = .error fault := by
  simp only [catchUp, h, and_self]

theorem catchUp_of_ok {source : Source} {lines : List String}
    (h : (source.read w.worker).value = .ok lines) (clock : Clock) (desk : Desk) :
    (w.catchUp source clock desk).state =
        (w.pass clock (lines.filter Line.isEvent) desk).state ∧
      (w.catchUp source clock desk).value =
        (w.pass clock (lines.filter Line.isEvent) desk).value := by
  simp only [catchUp, h, and_self]

theorem pass_moveTo (clock : Clock) (lines : List String) (desk : Desk) :
    ∃ generation position, (w.pass clock lines desk).state.1 = w.moveTo generation position := by
  simp only [pass]
  split <;> exact ⟨_, _, rfl⟩

end Watcher

end Lifecycle
