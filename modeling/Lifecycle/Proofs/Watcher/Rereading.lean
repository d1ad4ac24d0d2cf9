import Lifecycle.Proofs.Watcher.Generations

/-! # Logs that are replaced

A log is taken to have started anew if it is shorter than it once was or begins with another line.
Any other replacement goes unnoticed: the watcher goes on where it was, and what it read before
stands. So the store shows each position of a log as it was read first since the log last started
anew, whatever the snapshots were. A log that is noticed to have started anew is read from the top.
A log that is replaced by one with the same first line and no fewer lines is not, and its other
lines are passed over up to the length of the old one. -/

namespace Lifecycle

/-- The snapshots since the log last started anew, with the one that showed it. -/
def sinceRestart (seen : List (List String)) : List (List String) :=
  seen.foldl (fun seen lines => if StartsAnew seen [lines] then [lines] else seen ++ [lines]) []

/-- The line that the first snapshot to reach the position had there. -/
def firstRead (seen : List (List String)) (p : Nat) : Option String :=
  seen.findSome? fun lines => lines[p]?

/-- The event of the line is stored at the index that its key has got. -/
def Desk.Records (desk : Desk) (id : String) (key : LineKey) (line : String) (host : Host) : Prop :=
  ∃ index event, desk.allocator.assign key = (index, desk.allocator) ∧
    desk.store.event? id index = some event ∧ Line.translate line host = .ok event.description

/-! ### The log as it was read -/

/-- What was read before stands, and further lines are added behind it. -/
def overlay (known lines : List String) : List String := known ++ lines.drop known.length

/-- The log as some snapshots have shown it, the first line seen at each position. -/
def asRead (seen : List (List String)) : List String := seen.foldl overlay []

theorem getElem?_overlay (known lines : List String) (p : Nat) :
    (overlay known lines)[p]? = known[p]?.or lines[p]? := by
  rw [overlay, List.getElem?_append]
  split
  · rename_i hp
    rw [List.getElem?_eq_getElem hp, Option.some_or]
  · rename_i hp
    rw [List.getElem?_eq_none (Nat.le_of_not_lt hp), Option.none_or, List.getElem?_drop,
      Nat.add_sub_cancel' (Nat.le_of_not_lt hp)]

theorem getElem?_foldl_overlay (seen : List (List String)) (known : List String) (p : Nat) :
    (seen.foldl overlay known)[p]? = known[p]?.or (firstRead seen p) := by
  induction seen generalizing known with
  | nil => rw [firstRead, List.findSome?_nil, Option.or_none, List.foldl_nil]
  | cons lines rest ih =>
    rw [List.foldl_cons, ih, getElem?_overlay, firstRead, firstRead, List.findSome?_cons,
      Option.or_assoc]
    cases lines[p]? <;> rfl

theorem getElem?_asRead (seen : List (List String)) (p : Nat) :
    (asRead seen)[p]? = firstRead seen p := by
  rw [asRead, getElem?_foldl_overlay, List.getElem?_nil, Option.none_or]

theorem asRead_append (seen : List (List String)) (lines : List String) :
    asRead (seen ++ [lines]) = overlay (asRead seen) lines := by
  rw [asRead, List.foldl_append]
  rfl

theorem length_overlay {known lines : List String} (h : known.length ≤ lines.length) :
    (overlay known lines).length = lines.length := by
  rw [overlay, List.length_append, List.length_drop]
  omega

theorem lt_length_asRead_iff {seen : List (List String)} {n : Nat} :
    n < (asRead seen).length ↔ ∃ s ∈ seen, n < s.length := by
  have reaches (l : List String) : n < l.length ↔ l[n]?.isSome = true := by rw [isSome_getElem?]
  rw [reaches, getElem?_asRead, firstRead, List.findSome?_isSome_iff]
  simp only [reaches]

theorem head?_asRead {seen : List (List String)} (h : ∀ s ∈ seen, s ≠ []) :
    (asRead seen).head? = seen.head?.bind List.head? := by
  rw [List.head?_eq_getElem?, getElem?_asRead]
  cases seen with
  | nil => rfl
  | cons first rest =>
    obtain ⟨line, more, rfl⟩ := List.exists_cons_of_ne_nil (h first List.mem_cons_self)
    rfl

/-- Whether a log has started anew shows on what was read of it. -/
theorem startsAnew_iff {seen : List (List String)} (h : ∀ s ∈ seen, s ≠ []) (lines : List String) :
    StartsAnew seen [lines] ↔
      lines.length < (asRead seen).length ∨ lines.head? ≠ (asRead seen).head? := by
  simp only [StartsAnew, List.head?_cons, Option.mem_some_iff, exists_eq_left',
    lt_length_asRead_iff, head?_asRead h]

theorem sinceRestart_append (seen : List (List String)) (lines : List String) :
    sinceRestart (seen ++ [lines]) =
      if StartsAnew (sinceRestart seen) [lines] then [lines] else sinceRestart seen ++ [lines] := by
  rw [sinceRestart, List.foldl_append]
  rfl

theorem mem_sinceRestart_append (seen : List (List String)) (lines : List String) :
    lines ∈ sinceRestart (seen ++ [lines]) := by
  rw [sinceRestart_append]
  split
  · exact List.mem_cons_self
  · exact List.mem_append_right _ List.mem_cons_self

theorem mem_of_mem_sinceRestart {seen : List (List String)} {s : List String}
    (h : s ∈ sinceRestart seen) : s ∈ seen := by
  induction seen using List.reverseRecOn with
  | nil => exact h
  | append_singleton seen lines ih =>
    rw [sinceRestart_append] at h
    split at h
    · exact List.mem_append_right _ h
    · rcases List.mem_append.1 h with h | h
      · exact List.mem_append_left _ (ih h)
      · exact List.mem_append_right _ h

theorem ne_nil_of_mem_sinceRestart (worker : Worker) (moments : List Moment) :
    ∀ s ∈ sinceRestart (snapshots worker moments), s ≠ [] :=
  fun _ hs => ne_nil_of_mem_snapshots (mem_of_mem_sinceRestart hs)

theorem snapshots_concat (worker : Worker) (moments : List Moment) (m : Moment) :
    snapshots worker (moments ++ [m]) =
      snapshots worker moments ++ (m.snapshot? worker).toList := by
  rw [snapshots, List.filterMap_append, List.filterMap_cons]
  cases m.snapshot? worker <;> rfl

theorem Moment.snapshot?_of_read {m : Moment} {worker : Worker} {read : List String}
    (hread : (m.source.read worker).value = .ok read) (hlines : read.filter Line.isEvent ≠ []) :
    m.snapshot? worker = some (read.filter Line.isEvent) := by
  simp only [snapshot?, hread, List.isEmpty_iff, if_neg hlines]

/-- Every line of a log that has started anew is read, and every line behind what was read. -/
theorem firstRead_of_new {seen : List (List String)} {lines : List String} {p : Nat}
    {line : String} (hline : lines[p]? = some line)
    (h : StartsAnew (sinceRestart seen) [lines] ∨ ∀ s ∈ sinceRestart seen, s.length ≤ p) :
    firstRead (sinceRestart (seen ++ [lines])) p = some line := by
  rw [sinceRestart_append]
  split
  · rw [firstRead, List.findSome?_singleton, hline]
  · rename_i hsame
    have hbeyond : (asRead (sinceRestart seen)).length ≤ p := by
      refine Nat.le_of_not_lt fun hlt => ?_
      obtain ⟨s, hs, hlt⟩ := lt_length_asRead_iff.1 hlt
      have := (h.resolve_left hsame) s hs
      omega
    rw [← getElem?_asRead, asRead_append, getElem?_overlay, List.getElem?_eq_none hbeyond,
      Option.none_or, hline]

/-- A log that is not noticed to have started anew is remembered as if it had only grown. -/
theorem LogMemory.observe_of_same {known lines : List String} (hlength : known.length ≤ lines.length)
    (hhead : lines.head? = known.head?) (generation : Nat) :
    (ofLines generation known).observe lines = ofLines generation (overlay known lines) := by
  rw [observe_of_not_anew hlength fun _ => hhead, ofLines, ofLines, length_overlay hlength, overlay,
    List.head?_append]
  cases known with
  | nil => rfl
  | cons line rest => rw [hhead]; rfl

theorem Desk.InStep.records_of_mem {desk : Desk} {id : String} (h : desk.InStep id)
    {key : LineKey} {description line : String} {host : Host}
    (he : (key, description) ∈ desk.ledger id) (hline : Line.translate line host = .ok description) :
    desk.Records id key line host := by
  obtain ⟨n, hn⟩ := List.mem_iff_getElem?.1 he
  obtain ⟨hkey, event, hevent, rfl⟩ := h.getElem?_ledger_iff.1 hn
  obtain ⟨index, hindex, hassign⟩ := Allocator.assign_of_mem (List.mem_of_getElem? hkey)
  have hlt : index < desk.allocator.keys.length := (List.getElem?_eq_some_iff.1 hindex).1
  have hsame : index = n := (List.getElem?_inj hlt h.distinct).1 (hindex.trans hkey.symm)
  exact ⟨index, event, hassign, hsame ▸ Store.mem_contents_iff.1 hevent, hline⟩

namespace Polls

section

variable {worker : Worker} {id : String} {past : List (LineKey × String)} {generation : Nat}
  {current : List String} {p : Polls}

/-- A poll that finds a log which is not noticed to have started anew. -/
theorem Tracking.poll_same (h : Tracking worker id past generation current p) {m : Moment}
    {read : List String} (hread : (m.source.read worker).value = .ok read)
    (hlength : current.length ≤ (read.filter Line.isEvent).length)
    (hhead : (read.filter Line.isEvent).head? = current.head?) :
    Tracking worker id past generation (overlay current (read.filter Line.isEvent)) (p.poll m) := by
  refine h.poll_ok hread (LogMemory.observe_of_same hlength hhead generation) ?_ h.older ?_
  · have hnews : p.desk.news (worker.entries generation current.length
        ((read.filter Line.isEvent).drop current.length)) =
        worker.entries generation current.length
          ((read.filter Line.isEvent).drop current.length) := by
      refine p.desk.news_of_behind fun key hkey _ hgeneration => ?_
      rcases h.mem_keys hkey with hlt | ⟨-, hlt⟩ <;> omega
    rw [h.startAt, hnews, List.append_assoc, overlay, Worker.entries_append, Nat.zero_add]
  · rw [h.startAt, length_overlay hlength]
    exact Nat.max_eq_right hlength

/-- Whatever a poll finds, the watcher has the log behind it as it was read since the log last
started anew. -/
theorem Tracking.poll_any {before : List Moment}
    (h : Tracking worker id past generation (asRead (sinceRestart (snapshots worker before))) p)
    (m : Moment) :
    ∃ past' generation', Tracking worker id past' generation'
      (asRead (sinceRestart (snapshots worker (before ++ [m])))) (p.poll m) := by
  rw [snapshots_concat]
  cases hm : m.snapshot? worker with
  | none =>
    rw [Option.toList_none, List.append_nil]
    exact ⟨past, generation, h.poll_unseen hm⟩
  | some lines =>
    obtain ⟨hlines, read, hread, rfl⟩ := Moment.exists_of_snapshot? hm
    have hnotice :=
      startsAnew_iff (ne_nil_of_mem_sinceRestart worker before) (read.filter Line.isEvent)
    rw [Option.toList_some, sinceRestart_append]
    by_cases hanew : StartsAnew (sinceRestart (snapshots worker before)) [read.filter Line.isEvent]
    · rw [if_pos hanew]
      rw [hnotice] at hanew
      by_cases hcurrent : asRead (sinceRestart (snapshots worker before)) = []
      · rw [hcurrent] at h
        exact ⟨past, generation, h.poll_grown hread List.nil_prefix⟩
      · exact ⟨_, _, h.poll_anew hread hcurrent hlines hanew⟩
    · rw [if_neg hanew, asRead_append]
      rw [hnotice, not_or, Nat.not_lt, not_not] at hanew
      exact ⟨past, generation, h.poll_same hread hanew.1 hanew.2⟩

theorem Tracking.run_any (before : List Moment)
    (h : Tracking worker id past generation (asRead (sinceRestart (snapshots worker before))) p)
    (moments : List Moment) :
    ∃ past' generation', Tracking worker id past' generation'
      (asRead (sinceRestart (snapshots worker (before ++ moments)))) (p.run moments) := by
  induction moments generalizing p past generation before with
  | nil =>
    rw [List.append_nil]
    exact ⟨past, generation, h⟩
  | cons m rest ih =>
    obtain ⟨past', generation', hnext⟩ := h.poll_any m
    rw [List.append_cons]
    exact ih (before ++ [m]) hnext

/-! ### What the store shows of a log -/

theorem Tracking.records (h : Tracking worker id past generation current p) {n : Nat}
    {line : String} (hline : current[n]? = some line) (hs : Line.hasSeparator line = true) :
    p.desk.Records id ⟨worker.name, generation, n⟩ line worker.host := by
  obtain ⟨description, hd⟩ := Line.translate_of_hasSeparator hs worker.host
  refine h.inStep.records_of_mem ?_ hd
  rw [h.ledger, List.mem_append]
  refine Or.inr (Worker.mem_entries_iff.2 ⟨n, line, hline, hd, ?_⟩)
  rw [Nat.zero_add]

theorem Tracking.not_mem_keys (h : Tracking worker id past generation current p) {n : Nat}
    {line : String} (hline : current[n]? = some line) (hs : Line.hasSeparator line = false) :
    ⟨worker.name, generation, n⟩ ∉ p.desk.allocator.keys := by
  intro hkey
  rw [← h.inStep.map_fst_ledger, h.ledger, List.map_append, List.mem_append, List.mem_map,
    List.mem_map] at hkey
  rcases hkey with ⟨e, he, heq⟩ | ⟨e, he, heq⟩
  · have hlt := h.older e he
    rw [heq] at hlt
    exact absurd hlt (Int.lt_irrefl _)
  · obtain ⟨k, l, hl, hd, hk⟩ := Worker.mem_entries_iff.1 he
    rw [hk, LineKey.mk.injEq] at heq
    have hkn : k = n := by omega
    rw [hkn, hline] at hl
    rw [← Option.some.inj hl, Line.translate_of_not_hasSeparator hs] at hd
    exact absurd hd (by simp)

/-- A poll whose read succeeds returns, and leaves the watcher in some generation of the log. -/
theorem Tracking.poll_returns (h : Tracking worker id past generation current p) {m : Moment}
    {read : List String} (hread : (m.source.read worker).value = .ok read) :
    (∃ stored, (p.poll m).results.getLast? = some (.ok stored)) ∧
      (p.poll m).watcher.generation ≠ none := by
  have hd := h.inStep
  rw [← h.writes] at hd
  rw [← h.watches] at hread
  obtain ⟨hstate, hvalue⟩ := Watcher.catchUp_of_ok hread m.clock p.desk
  obtain ⟨hstored, hwatcher⟩ :=
    Watcher.pass_of_not_halting hd h.halting m.clock (read.filter Line.isEvent)
  constructor
  · rw [poll, hvalue, hstored]
    exact ⟨_, List.getLast?_concat⟩
  · rw [poll, hstate, hwatcher, Watcher.moveTo]
    exact Option.some_ne_none _

end

/-- The watcher may share its store with those of other deployments. -/
theorem tracking_start_beside (worker : Worker) {id : String} {store : Store} (hs : store.Sound)
    (free : store.find? id = none) :
    Tracking worker id [] 0 [] { watcher := { deployment := id, worker }, desk := ⟨{}, store⟩ } := by
  have hnone := Store.contents_of_none free
  exact
    { tracking_start worker id with
      inStep :=
        { sound := hs
          distinct := List.nodup_nil
          indices := by rw [hnone]; rfl
          labelled := by rw [hnone]; exact fun e he => absurd he List.not_mem_nil }
      ledger := by rw [Desk.ledger, hnone]; rfl }

/-- After a poll the store shows each position of the log as it was read first since the log last
started anew. So a line is in the store if it has stood at its position since then, and in any case
if the log has just started anew or the line is behind all that was read before. -/
theorem lines_are_stored_as_first_read (worker : Worker) (id : String)
    (others : List Store.Action) (free : ∀ action ∈ others, action.putsTo id = false)
    (earlier : List Moment) (m : Moment) {read : List String}
    (returned : (m.source.read worker).value = .ok read) :
    let start : Polls :=
      { watcher := { deployment := id, worker }, desk := ⟨{}, ({} : Store).run others⟩ }
    let after := start.run (earlier ++ [m])
    let lines := read.filter Line.isEvent
    let before := sinceRestart (snapshots worker earlier)
    let seen := sinceRestart (snapshots worker (earlier ++ [m]))
    ∃ stored generation, after.results.getLast? = some (.ok stored) ∧
      after.watcher.generation = some generation ∧
      ∀ p line, lines[p]? = some line →
        (firstRead seen p = some line → Line.hasSeparator line = true →
          after.desk.Records id ⟨worker.name, generation, p⟩ line worker.host) ∧
        (StartsAnew before [lines] ∨ (∀ s ∈ before, s.length ≤ p) → firstRead seen p = some line) ∧
        ∃ first, firstRead seen p = some first ∧
          if Line.hasSeparator first = true then
            after.desk.Records id ⟨worker.name, generation, p⟩ first worker.host
          else ⟨worker.name, generation, p⟩ ∉ after.desk.allocator.keys := by
  intro start after lines before seen
  have hstart := tracking_start_beside worker (Store.run_sound others)
    (Store.sound_empty.find?_run_of_none rfl free)
  obtain ⟨_, _, hearlier⟩ := hstart.run_any [] earlier
  obtain ⟨past, generation, hafter⟩ := hearlier.poll_any m
  obtain ⟨⟨stored, hstored⟩, hgeneration⟩ := hearlier.poll_returns returned
  have hrun : after = (start.run earlier).poll m := run_append start earlier [m]
  rw [List.nil_append] at hafter
  rw [← hrun] at hafter hstored hgeneration
  have hcurrent : after.watcher.generation = some generation := by
    rcases hafter.seen with hsome | ⟨hnone, -⟩
    · exact hsome
    · exact absurd hnone hgeneration
  refine ⟨stored, generation, hstored, hcurrent, ?_⟩
  intro p line hline
  have hlines : lines ≠ [] := List.ne_nil_of_mem (List.mem_of_getElem? hline)
  have hseen : seen = sinceRestart (snapshots worker earlier ++ [lines]) := by
    simp only [seen]
    rw [snapshots_concat, Moment.snapshot?_of_read returned hlines]
    rfl
  refine ⟨?_, ?_, ?_⟩
  · intro hfirst hs
    rw [← getElem?_asRead] at hfirst
    exact hafter.records hfirst hs
  · rw [hseen]
    exact firstRead_of_new hline
  · have hreached : p < (asRead seen).length := by
      rw [lt_length_asRead_iff, hseen]
      exact ⟨lines, mem_sinceRestart_append _ lines, (List.getElem?_eq_some_iff.1 hline).1⟩
    have hfirst := List.getElem?_eq_getElem hreached
    refine ⟨_, (getElem?_asRead seen p).symm.trans hfirst, ?_⟩
    split
    · rename_i hs
      exact hafter.records hfirst hs
    · rename_i hs
      exact hafter.not_mem_keys hfirst (Bool.eq_false_iff.2 hs)

/-- A log of two lines, and a log that begins like it. -/
def firstLog : List String := ["1 - USMEventLogger.starting", "2 - USMEventLogger.ready"]

def otherLog : List String := ["1 - USMEventLogger.starting", "2 - USMEventLogger.failed"]

theorem further_line_is_stored :
    let worker : Worker := ⟨"pod-0", ⟨"node-1", "10.0.0.1"⟩⟩
    let others : List Store.Action := [.put 0 "green" 0 ⟨0, "a", .zero false⟩]
    let line := "3 - USMEventLogger.gone"
    let last := finding (otherLog ++ [line])
    (∀ action ∈ others, action.putsTo "blue" = false) ∧
      (last.source.read worker).value = .ok (otherLog ++ [line]) ∧
      ∃ generation,
        (run { watcher := { deployment := "blue", worker }, desk := ⟨{}, ({} : Store).run others⟩ }
          ([finding firstLog] ++ [last])).desk.Records "blue" ⟨"pod-0", generation, 2⟩ line
            worker.host := by
  intro worker others line last
  have free : ∀ action ∈ others, action.putsTo "blue" = false := by decide
  have returned : (last.source.read worker).value = .ok (otherLog ++ [line]) := rfl
  have isLast : ((otherLog ++ [line]).filter Line.isEvent)[2]? = some line := by decide
  have isBehind : ∀ s ∈ sinceRestart (snapshots worker [finding firstLog]), s.length ≤ 2 := by
    decide
  have isTranslated : Line.hasSeparator line = true := by decide
  obtain ⟨-, generation, -, -, hlines⟩ :=
    lines_are_stored_as_first_read worker "blue" others free [finding firstLog] last returned
  obtain ⟨hrecords, hnew, -⟩ := hlines 2 line isLast
  exact ⟨free, returned, generation, hrecords (hnew (Or.inr isBehind)) isTranslated⟩

/-- Not every line of the last snapshot is in the store. If a log is replaced by one that begins
with the same line and is no shorter, the lines at the positions read before are not read. -/
theorem replaced_log_is_passed_over :
    ¬∀ (worker : Worker) (id : String) (earlier : List Moment) (m : Moment) (read : List String)
      (generation p : Nat) (line : String),
      let after := run { watcher := { deployment := id, worker } } (earlier ++ [m])
      (m.source.read worker).value = .ok read → after.watcher.generation = some generation →
      (read.filter Line.isEvent)[p]? = some line → Line.hasSeparator line = true →
      after.desk.Records id ⟨worker.name, generation, p⟩ line worker.host := by
  intro h
  obtain ⟨index, event, hassign, hevent, hline⟩ :=
    h ⟨"pod-0", ⟨"node-1", "10.0.0.1"⟩⟩ "blue" [finding firstLog] (finding otherLog) otherLog 0 1
      "2 - USMEventLogger.failed" rfl rfl (by decide) (by decide)
  obtain rfl : 1 = index := congrArg Prod.fst hassign
  have hkept : some "[node-1/10.0.0.1] - ready" = some event.description :=
    congrArg (Option.map Event.description) hevent
  rw [← Option.some.inj hkept] at hline
  exact absurd hline (by decide)

end Polls

end Lifecycle
