import Lifecycle.Proofs.Text.Lines
import Lifecycle.Proofs.Watcher.Generations

/-! # Logs of pods

A cluster keeps the log of a pod as one text, and each read cuts what there is of it into lines. As
long as a read finds whole lines, its lines are the first lines of the text, and a watcher that
reads again and again sees a log that only grows. Reads that are refused and reads that find nothing
come in between and change nothing. Once the text has been read to its end every line of it has been
collected, and none twice. -/

namespace Lifecycle

/-- The text that a read of a pod's log finds, unless it is refused or finds none. -/
def Cluster.logText? (c : Cluster) (space pod : String) (container : Option String) :
    Option String :=
  nonEmpty (c.readLog space pod container).value.toOption.join

/-- The event lines of a text, unless there are none. -/
def eventLines? (text : String) : Option (List String) :=
  let lines := (Text.logLines text).filter Line.isEvent
  if lines.isEmpty then none else some lines

theorem exists_of_eventLines? {text : String} {lines : List String}
    (h : eventLines? text = some lines) :
    lines ≠ [] ∧ (Text.logLines text).filter Line.isEvent = lines := by
  simp only [eventLines?] at h
  split at h
  · exact absurd h (by simp)
  · rename_i hlines
    rw [List.isEmpty_iff] at hlines
    have heq := Option.some.inj h
    exact ⟨heq ▸ hlines, heq⟩

theorem eventLines?_eq_none_iff {text : String} :
    eventLines? text = none ↔ (Text.logLines text).filter Line.isEvent = [] := by
  simp only [eventLines?, List.isEmpty_iff]
  split
  · rename_i hlines
    simp only [hlines]
  · rename_i hlines
    simp only [hlines, reduceCtorEq]

/-! ### One read -/

theorem nonEmpty_eq_some_iff {text : Option String} {t : String} :
    nonEmpty text = some t ↔ text = some t ∧ t ≠ "" := by
  rw [nonEmpty, Option.filter_eq_some_iff, decide_eq_true_iff]

theorem bind_nonEmpty_eventLines? (text : String) :
    (nonEmpty (some text)).bind eventLines? = eventLines? text := by
  by_cases htext : text = ""
  · rw [htext]
    rfl
  · rw [nonEmpty_eq_some_iff.2 ⟨rfl, htext⟩, Option.bind_some]

/-- What a worker's log holds by what the cluster answers: a read that is refused finds no lines while
the container starts or the pod is gone, and fails for any other reason. -/
theorem Source.read_ofCluster (c : Cluster) (space : String) (container : Option String)
    (worker : Worker) :
    ((Source.ofCluster c space container).read worker).value =
      match (c.readLog space worker.name (nonEmpty container)).value with
      | .ok text => .ok ((text.map Text.logLines).getD [])
      | .error fault =>
        if fault = .refused 400 ∨ fault = .refused 404 then .ok [] else .error fault := by
  rw [ofCluster, Traced.value_recover, Traced.value_bind]
  cases (c.readLog space worker.name (nonEmpty container)).value with
  | ok text => rfl
  | error fault =>
    simp only [bind, Except.bind]
    split
    · rfl
    · rfl
    · rename_i hstarting hgone
      rw [if_neg (not_or.2 ⟨hstarting, hgone⟩)]
      rfl

theorem Cluster.readLog_cases (c : Cluster) (space pod : String) (container : Option String) :
    (∃ status, (c.readLog space pod container).value = .error (.refused status)) ∨
      ∃ text, (c.readLog space pod container).value = .ok text := by
  simp only [readLog, ask]
  cases Keyed.get? c.refusals.logs pod with
  | none => exact Or.inr ⟨_, rfl⟩
  | some status => exact Or.inl ⟨status, rfl⟩

/-- The cluster and the clock at the time of a read. -/
structure Visit where
  cluster : Cluster
  clock : Clock

namespace Visit

variable {v : Visit} {space : String} {container : Option String} {worker : Worker}

/-- The text of a pod's log at that time, if it can be read. -/
def text? (v : Visit) (space : String) (container : Option String) (pod : String) :
    Option String :=
  v.cluster.logText? space pod (nonEmpty container)

/-- The visit as a watcher's poll makes it. -/
def moment (space : String) (container : Option String) (v : Visit) : Moment :=
  ⟨.ofCluster v.cluster space container, v.clock⟩

/-- A poll sees the event lines of the text that it finds. -/
theorem snapshot?_moment (v : Visit) (space : String) (container : Option String)
    (worker : Worker) :
    (v.moment space container).snapshot? worker =
      (v.text? space container worker.name).bind eventLines? := by
  rw [Moment.snapshot?, moment, Source.read_ofCluster, text?, Cluster.logText?]
  rcases v.cluster.readLog_cases space worker.name (nonEmpty container) with
    ⟨status, hstatus⟩ | ⟨text, htext⟩
  · rw [hstatus]
    by_cases hnotReady : Fault.refused status = .refused 400 ∨ Fault.refused status = .refused 404
    · simp only [if_pos hnotReady]
      rfl
    · simp only [if_neg hnotReady]
      rfl
  · rw [htext]
    cases text with
    | none => rfl
    | some t =>
      by_cases ht : t = ""
      · rw [ht]
        rfl
      · have hfound : nonEmpty (some t) = some t := nonEmpty_eq_some_iff.2 ⟨rfl, ht⟩
        simp only [Except.toOption, Option.join_some, hfound]
        rfl

/-- All that a visit finds is a beginning of the text that ends with a break. -/
def Begins (text : String) (found : Option String) : Prop :=
  ∀ t ∈ found, t.toList <+: text.toList ∧ Text.endsLine Text.isLogBreak t.toList = true

theorem Begins.isPrefix {text : String} {found : Option String} (h : Begins text found)
    {lines : List String} (hlines : lines ∈ found.bind eventLines?) :
    lines <+: (Text.logLines text).filter Line.isEvent := by
  obtain ⟨t, ht, heq⟩ := Option.bind_eq_some_iff.1 hlines
  obtain ⟨hbegins, hends⟩ := h t ht
  rw [← (exists_of_eventLines? heq).2]
  exact (Text.logLines_isPrefix hbegins hends).filter Line.isEvent

end Visit

/-! ### Reads of a growing text -/

section

variable {worker : Worker} {space text : String} {container : Option String} {visits : List Visit}

theorem snapshots_visits (worker : Worker) (space : String) (container : Option String)
    (visits : List Visit) :
    snapshots worker (visits.map (Visit.moment space container)) =
      visits.filterMap fun v => (v.text? space container worker.name).bind eventLines? := by
  rw [snapshots, List.filterMap_map]
  congr 1
  funext v
  exact v.snapshot?_moment space container worker

theorem isPrefix_of_longer {t u : String}
    (ht : t.toList <+: text.toList ∧ Text.endsLine Text.isLogBreak t.toList = true)
    (hu : u.toList <+: text.toList) (hlength : t.length ≤ u.length) :
    (Text.logLines t).filter Line.isEvent <+: (Text.logLines u).filter Line.isEvent := by
  have hle : t.toList.length ≤ u.toList.length := by
    rwa [String.length_toList, String.length_toList]
  -- both are beginnings of one text, so the shorter one is a beginning of the longer one
  have hbegins := List.prefix_of_prefix_length_le ht.1 hu hle
  exact (Text.logLines_isPrefix hbegins ht.2).filter Line.isEvent

/-- The snapshots of a text that is being written only grow. -/
theorem pairwise_snapshots_visits
    (begun : ∀ v ∈ visits, Visit.Begins text (v.text? space container worker.name))
    (grown : visits.Pairwise fun earlier later =>
      ∀ t ∈ earlier.text? space container worker.name,
        ∀ u ∈ later.text? space container worker.name, t.length ≤ u.length) :
    (snapshots worker (visits.map (Visit.moment space container))).Pairwise (· <+: ·) := by
  rw [snapshots_visits, List.pairwise_filterMap]
  refine List.Pairwise.imp_of_mem ?_ grown
  intro earlier later hearlier hlater hlength lines hlines more hmore
  obtain ⟨t, ht, htlines⟩ := Option.bind_eq_some_iff.1 hlines
  obtain ⟨u, hu, hulines⟩ := Option.bind_eq_some_iff.1 hmore
  rw [← (exists_of_eventLines? htlines).2, ← (exists_of_eventLines? hulines).2]
  exact isPrefix_of_longer (begun earlier hearlier t ht) (begun later hlater u hu).1
    (hlength t ht u hu)

theorem isPrefix_of_mem_snapshots_visits
    (begun : ∀ v ∈ visits, Visit.Begins text (v.text? space container worker.name))
    {lines : List String}
    (h : lines ∈ snapshots worker (visits.map (Visit.moment space container))) :
    lines <+: (Text.logLines text).filter Line.isEvent := by
  rw [snapshots_visits, List.mem_filterMap] at h
  obtain ⟨v, hv, hlines⟩ := h
  exact (begun v hv).isPrefix hlines

/-! ### The last read

It finds the whole text, whose last line need not end with a break. -/

variable {last : Visit}

theorem snapshots_visits_concat
    (whole : (last.cluster.readLog space worker.name (nonEmpty container)).value =
      .ok (some text)) (visits : List Visit) :
    snapshots worker ((visits ++ [last]).map (Visit.moment space container)) =
      snapshots worker (visits.map (Visit.moment space container)) ++
        (eventLines? text).toList := by
  have hlast : (last.text? space container worker.name).bind eventLines? = eventLines? text := by
    rw [Visit.text?, Cluster.logText?, whole]
    exact bind_nonEmpty_eventLines? text
  rw [snapshots_visits, snapshots_visits, List.filterMap_append, List.filterMap_cons, hlast]
  cases eventLines? text <;> rfl

theorem isChain_snapshots_visits_concat
    (begun : ∀ v ∈ visits, Visit.Begins text (v.text? space container worker.name))
    (grown : visits.Pairwise fun earlier later =>
      ∀ t ∈ earlier.text? space container worker.name,
        ∀ u ∈ later.text? space container worker.name, t.length ≤ u.length)
    (whole : (last.cluster.readLog space worker.name (nonEmpty container)).value =
      .ok (some text)) :
    (snapshots worker ((visits ++ [last]).map (Visit.moment space container))).IsChain
      (· <+: ·) := by
  rw [snapshots_visits_concat whole]
  refine List.Pairwise.isChain (List.pairwise_append.2 ⟨pairwise_snapshots_visits begun grown, ?_, ?_⟩)
  · cases eventLines? text with
    | none => exact List.Pairwise.nil
    | some lines => exact List.pairwise_singleton _ _
  · intro lines hlines more hmore
    rw [Option.mem_toList] at hmore
    rw [← (exists_of_eventLines? hmore).2]
    exact isPrefix_of_mem_snapshots_visits begun hlines

theorem getLast?_snapshots_visits_concat
    (begun : ∀ v ∈ visits, Visit.Begins text (v.text? space container worker.name))
    (whole : (last.cluster.readLog space worker.name (nonEmpty container)).value =
      .ok (some text)) :
    (snapshots worker ((visits ++ [last]).map (Visit.moment space container))).getLast?.getD [] =
      (Text.logLines text).filter Line.isEvent := by
  rw [snapshots_visits_concat whole]
  cases hlines : eventLines? text with
  | some lines =>
    rw [Option.toList_some, List.getLast?_concat, Option.getD_some]
    exact (exists_of_eventLines? hlines).2.symm
  | none =>
    -- no beginning of a text without event lines has any
    rw [eventLines?_eq_none_iff] at hlines
    have hnone : snapshots worker (visits.map (Visit.moment space container)) = [] := by
      rw [List.eq_nil_iff_forall_not_mem]
      intro lines hmem
      have hbegins := isPrefix_of_mem_snapshots_visits begun hmem
      rw [hlines, List.prefix_nil] at hbegins
      exact ne_nil_of_mem_snapshots hmem hbegins
    rw [hnone, hlines]
    rfl

end

/-- A log that is read while it is being written, with reads that fail in between and a last one
that finds all of it, is collected line by line, each line once and in order. -/
theorem growing_log_collected_once (worker : Worker) (id space : String)
    (container : Option String) (text : String) (visits : List Visit) (last : Visit)
    (begun : ∀ v ∈ visits, Visit.Begins text (v.text? space container worker.name))
    (grown : visits.Pairwise fun earlier later =>
      ∀ t ∈ earlier.text? space container worker.name,
        ∀ u ∈ later.text? space container worker.name, t.length ≤ u.length)
    (whole : (last.cluster.readLog space worker.name (nonEmpty container)).value =
      .ok (some text)) :
    let after := Polls.run { watcher := { deployment := id, worker } }
      ((visits ++ [last]).map (Visit.moment space container))
    let events := after.desk.store.contents id
    (events.map fun e => (.ok e.2.description : Except MalformedLine String)) =
        ((Text.logLines text).filter Line.makesEvent).map
          (fun line => Line.translate line worker.host) ∧
      events.map Prod.fst = (List.range events.length).map Int.ofNat ∧
      after.desk.allocator.size = events.length ∧ after.stored = events.length := by
  intro after events
  have hchain := isChain_snapshots_visits_concat begun grown whole
  have hafter := (Polls.tracking_start worker id).run_grown _ (Polls.grown_from_nil hchain)
  rw [getLast?_snapshots_visits_concat begun whole] at hafter
  obtain ⟨-, hindices, hsize, hstored⟩ := hafter.collected
  exact ⟨hafter.translated, hindices, hsize, hstored⟩

/-- A visit that finds a text, or is refused. -/
def visitOf (answer : Except Int String) : Visit where
  cluster :=
    match answer with
    | .ok text => { logs := [("pod-0", some text)] }
    | .error status => { refusals := { logs := [("pod-0", status)] } }
  clock := ⟨0, 0, none⟩

/-- A log whose first line is read when its carriage return has been written and its line feed has
not. The container is not ready at first, one read fails, and the last line is left open. -/
def firstVisits : List Visit :=
  [visitOf (.error 400), visitOf (.ok "1 - USMEventLogger.starting\r"), visitOf (.error 500),
    visitOf (.ok ""), visitOf (.ok "1 - USMEventLogger.starting\r\n2 USMEventLogger\x0b"),
    visitOf (.error 404)]

theorem log_read_between_two_characters :
    let worker : Worker := ⟨"pod-0", ⟨"node-1", "10.0.0.1"⟩⟩
    let text := "1 - USMEventLogger.starting\r\n2 USMEventLogger\x0b3 - USMEventLogger.started"
    (∀ v ∈ firstVisits, Visit.Begins text (v.text? "live" none "pod-0")) ∧
      (firstVisits.Pairwise fun earlier later => ∀ t ∈ earlier.text? "live" none "pod-0",
        ∀ u ∈ later.text? "live" none "pod-0", t.length ≤ u.length) ∧
      ((Polls.run { watcher := { deployment := "blue", worker } }
          ((firstVisits ++ [visitOf (.ok text)]).map
            (Visit.moment "live" none))).desk.store.contents "blue").map
          (fun e => (.ok e.2.description : Except MalformedLine String)) =
        [.ok "[node-1/10.0.0.1] - starting", .ok "[node-1/10.0.0.1] - started"] := by
  intro worker text
  have begun : ∀ v ∈ firstVisits, Visit.Begins text (v.text? "live" none "pod-0") := by
    unfold Visit.Begins
    decide +kernel
  have grown : firstVisits.Pairwise fun earlier later => ∀ t ∈ earlier.text? "live" none "pod-0",
      ∀ u ∈ later.text? "live" none "pod-0", t.length ≤ u.length := by
    decide +kernel
  refine ⟨begun, grown, ?_⟩
  rw [(growing_log_collected_once worker "blue" "live" none text firstVisits _ begun grown rfl).1]
  decide +kernel

end Lifecycle
