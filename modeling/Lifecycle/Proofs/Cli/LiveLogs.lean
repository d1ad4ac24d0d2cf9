import Lifecycle.Proofs.Cli.Offline
import Lifecycle.Proofs.Text.Breaks
import Lifecycle.Proofs.Watcher.PodLogs

/-! # Logs as files and as they are written

The log of a pod may be collected while it is written, or be saved and read as a file. Both ways
find the same lines exactly if the text has none of the characters that break the lines of logs
alone. Then the loaded file and the live collection give every line of the log the same index,
however often the log was read before it was complete. -/

namespace Lifecycle.Cli

/-! ### The same log of two workers -/

/-- The keys of the lines under the name of another worker. -/
def renamed (name : String) (key : LineKey) : LineKey := { key with worker := name }

theorem entries_renamed (name : String) (worker : Worker) (generation position : Nat)
    (lines : List String) :
    Worker.entries ⟨name, worker.host⟩ generation position lines =
      (worker.entries generation position lines).map fun e => (renamed name e.1, e.2) := by
  induction lines generalizing position with
  | nil => rfl
  | cons line rest ih =>
    -- a translation depends on the host alone, not on the name of the worker
    cases h : Line.translate line worker.host with
    | ok description =>
      have hother : Line.translate line (Worker.host ⟨name, worker.host⟩) = .ok description := h
      rw [Worker.entries_cons_of_ok h, Worker.entries_cons_of_ok hother, List.map_cons, ih]
      rfl
    | error bad =>
      have hother : Line.translate line (Worker.host ⟨name, worker.host⟩) = .error bad := h
      rw [Worker.entries_cons_of_error h, Worker.entries_cons_of_error hother, ih]

theorem contents_eq_zip_ledger {desk : Desk} {id : String} (h : desk.InStep id) :
    ((desk.store.contents id).map fun e => (e.1, e.2.description)) =
      ((List.range (desk.ledger id).length).map Int.ofNat).zip
        ((desk.ledger id).map Prod.snd) := by
  have hlength : (desk.ledger id).length = desk.allocator.size := by
    rw [Allocator.size, ← h.map_fst_ledger, List.length_map]
  rw [hlength, ← h.indices, h.map_snd_ledger, List.zip_map']

/-- Two desks in step whose ledgers differ in the name of the worker alone. -/
theorem same_indices_of_renamed {live offline : Desk} {id name : String} (hlive : live.InStep id)
    (hoffline : offline.InStep id)
    (h : live.ledger id = (offline.ledger id).map fun e => (renamed name e.1, e.2)) :
    live.allocator.keys = offline.allocator.keys.map (renamed name) ∧
      ((live.store.contents id).map fun e => (e.1, e.2.description)) =
        (offline.store.contents id).map fun e => (e.1, e.2.description) := by
  constructor
  · rw [← hlive.map_fst_ledger, ← hoffline.map_fst_ledger, h, List.map_map, List.map_map]
    rfl
  · rw [contents_eq_zip_ledger hlive, contents_eq_zip_ledger hoffline, h, List.length_map,
      List.map_map]
    rfl

/-! ### A file and a log with the same text -/

variable {worker : Worker} {space text : String} {container : Option String}

theorem ledger_load (id : String) (clock : Clock) (text : String) (worker : Worker) :
    (load worker.host id clock (Text.fileLines text)).state.2.ledger id =
      Worker.entries ⟨worker.host.name, worker.host⟩ 0 0
        ((Text.fileLines text).filter Line.isEvent) :=
  (tracking_load worker.host id clock (Text.fileLines text)).ledger

theorem tracking_visits (id : String) {visits : List Visit} {last : Visit}
    (begun : ∀ v ∈ visits, Visit.Begins text (v.text? space container worker.name))
    (grown : visits.Pairwise fun earlier later =>
      ∀ t ∈ earlier.text? space container worker.name,
        ∀ u ∈ later.text? space container worker.name, t.length ≤ u.length)
    (whole : (last.cluster.readLog space worker.name (nonEmpty container)).value =
      .ok (some text)) :
    Polls.Tracking worker id [] 0 ((Text.logLines text).filter Line.isEvent)
      (Polls.run { watcher := { deployment := id, worker } }
        ((visits ++ [last]).map (Visit.moment space container))) := by
  have hchain := isChain_snapshots_visits_concat begun grown whole
  rw [← getLast?_snapshots_visits_concat begun whole]
  exact (Polls.tracking_start worker id).run_grown _ (Polls.grown_from_nil hchain)

theorem read_ofCluster_of_whole {cluster : Cluster}
    (whole : (cluster.readLog space worker.name (nonEmpty container)).value = .ok (some text)) :
    ((Source.ofCluster cluster space container).read worker).value = .ok (Text.logLines text) := by
  rw [Source.read_ofCluster, whole]
  rfl

/-- A file and a pod's log with the same text have the same lines exactly if no character of it
breaks the lines of logs alone. Then the loaded file and a watcher that reads the log again and
again, the last time to its end, number the lines alike. -/
theorem file_and_pod_log_agree_iff (text : String) (worker : Worker) (space : String)
    (container : Option String) (last : Visit)
    (whole : (last.cluster.readLog space worker.name (nonEmpty container)).value =
      .ok (some text)) :
    (((Source.ofCluster last.cluster space container).read worker).value =
        .ok (Text.fileLines text) ↔
      ∀ c ∈ text.toList, c ∉ Text.logOnlyBreaks) ∧
    (Text.fileLines text = (Text.fedFrom [] (Text.unified text.toList)).map fun line =>
      String.ofList (Text.stripped line)) ∧
    ∀ (id : String) (clock : Clock) (visits : List Visit),
      (∀ c ∈ text.toList, c ∉ Text.logOnlyBreaks) →
      (∀ v ∈ visits, Visit.Begins text (v.text? space container worker.name)) →
      (visits.Pairwise fun earlier later => ∀ t ∈ earlier.text? space container worker.name,
        ∀ u ∈ later.text? space container worker.name, t.length ≤ u.length) →
      let offline := (load worker.host id clock (Text.fileLines text)).state.2
      let live := (Polls.run { watcher := { deployment := id, worker } }
        ((visits ++ [last]).map (Visit.moment space container))).desk
      live.allocator.keys = offline.allocator.keys.map (renamed worker.name) ∧
        ((live.store.contents id).map fun e => (e.1, e.2.description)) =
          (offline.store.contents id).map fun e => (e.1, e.2.description) := by
  refine ⟨?_, Text.fileLines_eq_stripped text, ?_⟩
  · rw [read_ofCluster_of_whole whole, Except.ok.injEq, eq_comm]
    exact Text.fileLines_eq_logLines_iff
  · intro id clock visits free begun grown offline live
    have htracking := tracking_visits id begun grown whole
    refine same_indices_of_renamed htracking.inStep (load_inStep _ id clock _) ?_
    rw [htracking.ledger, ledger_load, ← Text.fileLines_eq_logLines_iff.2 free]
    exact entries_renamed worker.name ⟨worker.host.name, worker.host⟩ 0 0 _

/-- A log that ends within a line. One of its lines ends in two characters and one in a carriage
return. -/
def savedLog : String :=
  "1 - USMEventLogger.starting\r\n2 USMEventLogger\r3 - USMEventLogger.started"

theorem saved_log_is_numbered_alike :
    let worker : Worker := ⟨"pod-0", ⟨"node-1", "10.0.0.1"⟩⟩
    let last := visitOf (.ok savedLog)
    let visits := [visitOf (.error 400), visitOf (.ok "1 - USMEventLogger.starting\r")]
    let offline := (load worker.host "blue" ⟨0, 0, none⟩ (Text.fileLines savedLog)).state.2
    let live := (Polls.run { watcher := { deployment := "blue", worker } }
      ((visits ++ [last]).map (Visit.moment "live" none))).desk
    (last.cluster.readLog "live" "pod-0" (nonEmpty none)).value = .ok (some savedLog) ∧
      ((Source.ofCluster last.cluster "live" none).read worker).value =
        .ok (Text.fileLines savedLog) ∧
      live.allocator.keys = [⟨"pod-0", 0, 0⟩, ⟨"pod-0", 0, 2⟩] ∧
      ((live.store.contents "blue").map fun e => (e.1, e.2.description)) =
        (offline.store.contents "blue").map fun e => (e.1, e.2.description) := by
  intro worker last visits offline live
  obtain ⟨hlines, -, halike⟩ := file_and_pod_log_agree_iff savedLog worker "live" none last rfl
  have checked : (savedLog.toList.all fun c => !Text.isLogOnlyBreak c) = true := by decide +kernel
  have free : ∀ c ∈ savedLog.toList, c ∉ Text.logOnlyBreaks := fun c hc hbreak => by
    simpa [Text.isLogOnlyBreak_iff.2 hbreak] using List.all_eq_true.1 checked c hc
  have begun : ∀ v ∈ visits, Visit.Begins savedLog (v.text? "live" none "pod-0") := by
    unfold Visit.Begins
    decide +kernel
  have grown : visits.Pairwise fun earlier later => ∀ t ∈ earlier.text? "live" none "pod-0",
      ∀ u ∈ later.text? "live" none "pod-0", t.length ≤ u.length := by
    decide +kernel
  have hoffline : offline.allocator.keys = [⟨"node-1", 0, 0⟩, ⟨"node-1", 0, 2⟩] := by
    decide +kernel
  obtain ⟨hkeys, hcontents⟩ := halike "blue" ⟨0, 0, none⟩ visits free begun grown
  refine ⟨rfl, hlines.2 free, ?_, hcontents⟩
  rw [hkeys, hoffline]
  rfl

end Lifecycle.Cli
