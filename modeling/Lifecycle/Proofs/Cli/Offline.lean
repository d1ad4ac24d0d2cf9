import Lifecycle.Cli.Run
import Lifecycle.Proofs.Cli.Shown
import Lifecycle.Proofs.Desk.Reads
import Lifecycle.Proofs.Watcher.Generations

/-! # Log files and their pages

A log file is loaded by one pass of a watcher, so its events are the translations of those of its
event lines that can be translated, numbered from 0 in the order of the lines. A window that ends
among them is shown with its events, for people under a title that has to be readable as marked-up
text, and of any other one is told how many events it has and how many it lacks. The same lines,
given on the standard input, are translated one by one to the same descriptions. -/

namespace Lifecycle

/-! ### Event lines are not blank -/

theorem Line.mem_of_hasMarker {text : List Char} (h : hasMarker text = true) : 'U' ∈ text := by
  induction text with
  | nil => exact absurd h Bool.false_ne_true
  | cons c rest ih =>
    rw [hasMarker, Bool.and_eq_true, Bool.or_eq_true] at h
    rcases h.2 with hhere | hrest
    · have hmarker : marker <+: rest := List.isPrefixOf_iff_prefix.1 hhere
      exact List.mem_cons_of_mem c (hmarker.subset List.mem_cons_self)
    · exact List.mem_cons_of_mem c (ih hrest)

theorem Line.allBlank_of_isEvent {line : String} (h : isEvent line = true) :
    Text.allBlank line = false := by
  rw [← Bool.not_eq_true, Text.allBlank, List.all_eq_true]
  intro hblank
  have hletter := hblank 'U' (mem_of_hasMarker h)
  exact absurd hletter (by decide)

namespace Cli

/-! ### Lines on the standard input -/

theorem translateAll_false (host : Host) (lines : List String) :
    translateAll host false lines =
      (lines.filter Line.isEvent).map fun line => Line.translate line host := by
  rw [translateAll]
  congr 1
  refine List.filter_congr ?_
  intro line _
  rw [isWanted, Bool.false_or]
  cases h : Line.isEvent line with
  | false => rw [Bool.and_false]
  | true => rw [Line.allBlank_of_isEvent h, Bool.not_false, Bool.and_true]

/-- The descriptions among the results of a translation. They are printed for another program. -/
def described (results : List (Except MalformedLine String)) : List String :=
  results.filterMap Except.toOption

theorem map_ok_described (host : Host) (lines : List String) :
    (described (translateAll host false lines)).map Except.ok =
      (lines.filter Line.makesEvent).map fun line => Line.translate line host := by
  have hsame : described (translateAll host false lines) =
      Line.descriptions host (lines.filter Line.isEvent) := by
    rw [translateAll_false, described, List.filterMap_map]
    rfl
  rw [hsame, Line.map_ok_descriptions, Line.filter_hasSeparator_filter_isEvent]

theorem isMalformed_translate (line : String) (host : Host) :
    isMalformed (Line.translate line host) = !Line.hasSeparator line := by
  cases h : Line.hasSeparator line with
  | true =>
    obtain ⟨description, hd⟩ := Line.translate_of_hasSeparator h host
    rw [hd]
    rfl
  | false =>
    rw [Line.translate_of_not_hasSeparator h]
    rfl

theorem any_isMalformed_iff {host : Host} {lines : List String} :
    (translateAll host false lines).any isMalformed = true ↔
      ∃ line ∈ lines, Line.isEvent line = true ∧ Line.hasSeparator line = false := by
  rw [translateAll_false, List.any_map, List.any_filter, List.any_eq_true]
  simp only [Function.comp_apply, isMalformed_translate, Bool.and_eq_true, Bool.not_eq_true']

/-! ### Loading a log -/

variable {host : Host} {deployment : String} {clock : Clock} {lines : List String}

theorem read_fixed (host : Host) (lines : List String) :
    ((Source.fixed [(host.name, lines)]).read ⟨host.name, host⟩).value = .ok lines := by
  simp only [Source.fixed, Traced.of, Keyed.get?_cons, beq_self_eq_true, if_true, Option.getD_some]

/-- The watcher that loads a log has dealt with all event lines of it. -/
theorem tracking_load (host : Host) (deployment : String) (clock : Clock) (lines : List String) :
    Polls.Tracking ⟨host.name, host⟩ deployment [] 0 (lines.filter Line.isEvent)
      (Polls.poll { watcher := { deployment, worker := ⟨host.name, host⟩ } }
        ⟨.fixed [(host.name, lines)], clock⟩) :=
  (Polls.tracking_start _ deployment).poll_grown (read_fixed host lines) List.nil_prefix

theorem load_inStep (host : Host) (deployment : String) (clock : Clock) (lines : List String) :
    (load host deployment clock lines).state.2.InStep deployment :=
  (tracking_load host deployment clock lines).inStep

theorem value_load (host : Host) (deployment : String) (clock : Clock) (lines : List String) :
    ∃ count, (load host deployment clock lines).value = .ok count := by
  obtain ⟨-, hvalue⟩ := Watcher.catchUp_of_ok (w := { deployment, worker := ⟨host.name, host⟩ })
    (read_fixed host lines) clock ⟨{}, {}⟩
  obtain ⟨hpass, -⟩ := Watcher.pass_of_not_halting
    (w := { deployment, worker := ⟨host.name, host⟩ }) (Desk.inStep_empty deployment) rfl clock
    (lines.filter Line.isEvent)
  exact ⟨_, hvalue.trans hpass⟩

/-- A loaded log holds the translations of its lines in their order. -/
theorem descriptions_load (host : Host) (deployment : String) (clock : Clock)
    (lines : List String) :
    ((load host deployment clock lines).state.2.store.contents deployment).map
        (fun e => (.ok e.2.description : Except MalformedLine String)) =
      (lines.filter Line.makesEvent).map fun line => Line.translate line host :=
  (tracking_load host deployment clock lines).translated

theorem size_load (host : Host) (deployment : String) (clock : Clock) (lines : List String) :
    (load host deployment clock lines).state.2.store.size deployment =
      (lines.filter Line.makesEvent).length := by
  have hlength := congrArg List.length (descriptions_load host deployment clock lines)
  rwa [List.length_map, List.length_map, ← Store.size_eq_length_contents] at hlength

/-- The event at an index is the translation of the line with that number. -/
theorem event?_load {i : Int} {event : Event}
    (h : (load host deployment clock lines).state.2.store.event? deployment i = some event) :
    event.index = i ∧ ∃ line, (lines.filter Line.makesEvent)[i.toNat]? = some line ∧
      Line.translate line host = .ok event.description := by
  have hd := load_inStep host deployment clock lines
  have hmem := Store.mem_contents_iff.2 h
  refine ⟨hd.labelled _ hmem, ?_⟩
  obtain ⟨n, rfl⟩ := Int.eq_ofNat_of_zero_le (hd.mem_contents_lt hmem).1
  have hplace := congrArg (fun l => l[n]?) (descriptions_load host deployment clock lines)
  simp only [List.getElem?_map, hd.getElem?_contents_iff.2 hmem, Option.map_some] at hplace
  obtain ⟨line, hline, htranslate⟩ := Option.map_eq_some_iff.1 hplace.symm
  exact ⟨line, hline, htranslate⟩

/-! ### A page of a loaded log -/

variable {console : Console} {request : PageRequest} {loaded : Outcome (Watcher × Desk) Nat}
  {count : Nat}

theorem pageOf_of_negative (hload : loaded.value = .ok count)
    (h : request.start < 0 ∨ request.stop < 0) (deployment : String) :
    (pageOf console request deployment loaded).ending = .refused := by
  obtain ⟨text, htext⟩ := exists_boundsComplaint console ⟨request.start, request.stop⟩
  simp only [pageOf, hload, Window.ofBounds, if_pos h, htext, showText]

theorem pageOf_of_untellable (hload : loaded.value = .ok count) (h0 : 0 ≤ request.start)
    (h1 : 0 ≤ request.stop) (hlong : Journal.isTellable ⟨request.start, request.stop⟩ = false)
    (deployment : String) :
    (pageOf console request deployment loaded).ending = .failed (.service .unwritable) := by
  have hwindow := Window.ofBounds_eq_ok_iff.2 ⟨h0, h1, rfl⟩
  simp only [pageOf, hload, hwindow, Journal.handOver, Page.read, Page.window_between, hlong,
    Bool.false_eq_true, if_false]
  rfl

theorem pageOf_of_tellable (console : Console) (hload : loaded.value = .ok count)
    (h0 : 0 ≤ request.start) (h1 : 0 ≤ request.stop)
    (hshort : Journal.isTellable ⟨request.start, request.stop⟩ = true) (deployment : String) :
    ((pageOf console request deployment loaded).ending,
        (pageOf console request deployment loaded).output) =
      showPage console request deployment (fileGap request)
        (Page.read loaded.state.2.store deployment ⟨request.start, request.stop⟩ none) := by
  have hwindow := Window.ofBounds_eq_ok_iff.2 ⟨h0, h1, rfl⟩
  simp only [pageOf, hload, hwindow, Journal.handOver, Page.read, Page.window_between, hshort,
    if_true]

variable {start stop : Int}

/-- The page of a loaded log whose window ends among its events. -/
theorem read_load_of_lt (host : Host) (deployment : String) (clock : Clock) (h0 : 0 ≤ start)
    (h : stop < start ∨ stop < (lines.filter Line.makesEvent).length) :
    ∃ events, Page.read (load host deployment clock lines).state.2.store deployment ⟨start, stop⟩
          none = ⟨deployment, ⟨start, stop⟩, .complete events⟩ ∧
      events.map Event.index = Window.indices ⟨start, stop⟩ ∧
      ∀ e ∈ events, ∃ line, (lines.filter Line.makesEvent)[e.index.toNat]? = some line ∧
        Line.translate line host = .ok e.description := by
  have hd := load_inStep host deployment clock lines
  have labelled : ∀ i event,
      (load host deployment clock lines).state.2.store.event? deployment i = some event →
        event.index = i := fun i event hevent => (event?_load hevent).1
  have hlength : ((load host deployment clock lines).state.2.store.extract deployment
      ⟨start, stop⟩).length = Window.size ⟨start, stop⟩ := by
    rcases h with hempty | hlt
    · rw [Store.extract_of_empty _ deployment hempty, List.length_nil, eq_comm,
        Window.size_eq_zero_iff, Window.isEmpty_iff]
      exact hempty
    · -- a loaded log has no gap, so no index of the window is missing
      rw [← size_load host deployment clock] at hlt
      exact hd.length_extract_of_lt h0 hlt
  have hcomplete := (hd.sound.isComplete_iff h0).2 (Store.length_extract_eq_size_iff.1 hlength)
  refine ⟨_, Page.between_of_full ⟨hcomplete, hlength⟩ none,
    Page.map_index_extract hlength labelled, ?_⟩
  intro e he
  exact (event?_load ((Store.mem_extract_iff labelled).1 he).2.2).2

/-- The page of a loaded log whose window ends behind its events. -/
theorem read_load_of_le (host : Host) (deployment : String) (clock : Clock) (h0 : 0 ≤ start)
    (hle : start ≤ stop) (h : ((lines.filter Line.makesEvent).length : Int) ≤ stop) :
    ∃ present : Nat, Page.read (load host deployment clock lines).state.2.store deployment
          ⟨start, stop⟩ none = ⟨deployment, ⟨start, stop⟩, .incomplete present none⟩ ∧
      (present : Int) = max 0 ((lines.filter Line.makesEvent).length - start) := by
  have hd := load_inStep host deployment clock lines
  rw [← size_load host deployment clock] at h ⊢
  have hpresent := hd.length_extract_of_le h0 h
  refine ⟨_, Page.between_of_gap ?_ none, hpresent⟩
  rintro ⟨-, hfull⟩
  simp only [Window.size] at hfull
  omega

/-! ### Commands -/

theorem run_page {s : Surroundings} {path content : String}
    (readable : s.fileAt path = .text content) (host : Host) (deployment : String)
    (request : PageRequest) :
    Command.run s (.page path host.name host.address deployment request) =
      pageOf s.console request deployment
        (load host deployment s.clock (Text.fileLines content)) := by
  rw [Command.run, runPage, readable]

theorem run_translate {s : Surroundings} {content : String} (piped : s.input = content)
    (host : Host) :
    Command.run s (.translate host.name host.address none false) =
      let results := translateAll host false (Text.fileLines content)
      { ending := if results.any isMalformed then .refused else .done
        output := "".intercalate (results.map (showTranslated s.console)) } := by
  rw [Command.run, runTranslate, piped]

/-- A log file is shown by windows over the translations of its lines, and the same lines on the
standard input are translated alike. A window with too many digits to be told is not shown, and for
people none whose title closes a tag that nothing opens. -/
theorem log_file_is_shown_by_windows (s piping : Surroundings) (path content deployment : String)
    (host : Host) (request : PageRequest) (readable : s.fileAt path = .text content)
    (piped : piping.input = content) :
    let lines := Text.fileLines content
    let told := lines.filter Line.makesEvent
    let w : Window := ⟨request.start, request.stop⟩
    let report := Command.run s (.page path host.name host.address deployment request)
    let results := translateAll host false lines
    let title := s.console.shown (pageTitle request deployment)
    let translation := Command.run piping (.translate host.name host.address none false)
    (w.start < 0 ∨ w.stop < 0 → report.ending.exitCode = 2) ∧
      (0 ≤ w.start → 0 ≤ w.stop → Journal.isTellable w = true →
        (w.stop < w.start ∨ w.stop < told.length → ∃ events,
          (request.json = true → report.ending.exitCode = 0 ∧
            report.output = (pageJson events).pretty ++ "\n") ∧
          (request.json = false →
            (∀ text, title = .ok text → report.ending.exitCode = 0 ∧
              report.output = (pageTable s.console text events).render) ∧
            ∀ fault, title = .error fault → report.ending = .garbled fault) ∧
          events.map Event.index = w.indices ∧
          ∀ e ∈ events, ∃ line, told[e.index.toNat]? = some line ∧
            Line.translate line host = .ok e.description) ∧
        (w.start ≤ w.stop → told.length ≤ w.stop → ∃ (present : Nat) (missing : Int),
          report.ending.exitCode = 3 ∧
          (report.output = if request.json then (gapJson present missing).inline ++ "\n"
            else printedLine
              s!"Range {w.start}..{w.stop} incomplete: {present} present, {missing} missing") ∧
          (present : Int) = max 0 (told.length - w.start) ∧
          missing = w.stop - w.start + 1 - present)) ∧
      (0 ≤ w.start → 0 ≤ w.stop → Journal.isTellable w = false →
        report.ending = .failed (.service .unwritable)) ∧
      ((∀ c ∈ deployment.toList, c ≠ '[' ∧ c ≠ '\\') → ∃ text, title = .ok text) ∧
      translation.output = "".intercalate (results.map (showTranslated piping.console)) ∧
      (described results).map Except.ok = told.map (fun line => Line.translate line host) ∧
      translation.ending.exitCode =
        if ∃ line ∈ lines, Line.isEvent line = true ∧ Line.hasSeparator line = false then 2
        else 0 := by
  intro lines told w report results title translation
  obtain ⟨count, hload⟩ := value_load host deployment s.clock lines
  have hreport : report = pageOf s.console request deployment (load host deployment s.clock lines) :=
    run_page readable host deployment request
  have htranslation := run_translate piped host
  refine ⟨?_, ?_, ?_, fun plain => exists_title_iff.2 (Markup.readable_of_plain plain),
    congrArg Report.output htranslation, map_ok_described host lines, ?_⟩
  · intro hneg
    rw [hreport, pageOf_of_negative hload hneg]
    rfl
  · intro h0 h1 hshort
    have hshown := pageOf_of_tellable s.console hload h0 h1 hshort deployment
    rw [← hreport] at hshown
    constructor
    · intro hends
      obtain ⟨events, hpage, hindices, htranslated⟩ :=
        read_load_of_lt host deployment s.clock h0 hends
      rw [hpage] at hshown
      refine ⟨events, fun hjson => ?_,
        fun hpeople => ⟨fun text htitle => ?_, fun fault htitle => ?_⟩, hindices, htranslated⟩
      · rw [showPage_json hjson rfl, Prod.ext_iff] at hshown
        exact ⟨congrArg Ending.exitCode hshown.1, hshown.2⟩
      · rw [showPage_table hpeople rfl htitle, Prod.ext_iff] at hshown
        exact ⟨congrArg Ending.exitCode hshown.1, hshown.2⟩
      · rw [showPage_garbled hpeople rfl htitle, Prod.ext_iff] at hshown
        exact hshown.1
    · intro hle hends
      obtain ⟨present, hpage, hpresent⟩ := read_load_of_le host deployment s.clock h0 hle hends
      rw [hpage, showPage_gap rfl (line_fileGap _ _ _), Prod.ext_iff] at hshown
      refine ⟨present, _, congrArg Ending.exitCode hshown.1, hshown.2, hpresent, ?_⟩
      simp only [Page.missing, Page.present, Window.size]
      omega
  · intro h0 h1 hlong
    rw [hreport]
    exact pageOf_of_untellable hload h0 h1 hlong deployment
  · rw [congrArg (fun r => r.ending.exitCode) htranslation]
    simp only [any_isMalformed_iff]
    split <;> rfl

/-- A log of four lines, the first of which ends in two characters. The second one is malformed and
the third one is no event line. -/
def shortLog : String :=
  "1 - USMEventLogger.starting\r\n2 USMEventLogger\n3 - Kernel.idle\n4 - USMEventLogger.started\n"

theorem short_log_and_a_window_behind_it :
    let s : Surroundings := { fileAt := fun _ => .text shortLog, input := shortLog }
    let report := Command.run s (.page "w.log" "node-1" "10.0.0.1" "blue" ⟨1, 5, true⟩)
    report.ending.exitCode = 3 ∧
      report.output = "\x7b\"complete\": false, \"present\": 1, \"missing\": 4\x7d\n" ∧
      (Command.run s (.translate "node-1" "10.0.0.1" none false)).ending.exitCode = 2 := by
  intro s report
  obtain ⟨-, hpage, -, -, -, -, htranslation⟩ :=
    log_file_is_shown_by_windows s s "w.log" shortLog "blue" ⟨"node-1", "10.0.0.1"⟩ ⟨1, 5, true⟩
      rfl rfl
  have htold : ((Text.fileLines shortLog).filter Line.makesEvent).length = 2 := by decide +kernel
  obtain ⟨-, hgap⟩ := hpage (by decide) (by decide) (by decide)
  simp only [htold] at hgap
  obtain ⟨present, missing, hcode, houtput, hpresent, hmissing⟩ := hgap (by decide) (by decide)
  obtain rfl : present = 1 := by omega
  obtain rfl : missing = 4 := by omega
  refine ⟨hcode, houtput.trans (by decide +kernel), htranslation.trans (if_pos ?_)⟩
  decide +kernel

def oneLine : String := "1 - USMEventLogger.starting\n"

/-- A window whose bounds can be written and whose size has a digit too many. It ends behind the
events of the log, and instead of telling what it lacks the command fails. -/
theorem huge_window_is_not_shown :
    let s : Surroundings := { fileAt := fun _ => .text oneLine }
    let stop : Int := ((10 ^ Number.maxDigits : Nat) : Int) - 1
    let report := Command.run s (.page "w.log" "node-1" "10.0.0.1" "blue" ⟨0, stop, true⟩)
    ((Text.fileLines oneLine).filter Line.makesEvent).length = 1 ∧ 1 ≤ stop ∧
      report.ending = .failed (.service .unwritable) ∧ report.ending.exitCode = 1 := by
  intro s stop report
  have hlarge : 2 ≤ 10 ^ Number.maxDigits := by
    have hten : 10 ^ 1 ≤ 10 ^ Number.maxDigits := Nat.pow_le_pow_right (by decide) (by decide)
    omega
  have h1 : 1 ≤ stop := by omega
  -- the size of the window is the first number that is too long
  have hlong : Journal.isTellable ⟨0, stop⟩ = false := by
    rw [← Bool.not_eq_true, Journal.isTellable_iff]
    simp only [Window.size]
    omega
  let host : Host := ⟨"node-1", "10.0.0.1"⟩
  let request : PageRequest := ⟨0, stop, true⟩
  have hstart : 0 ≤ request.start := Int.le_refl 0
  have hstop : 0 ≤ request.stop := Int.le_trans (by decide) h1
  obtain ⟨count, hload⟩ := value_load host "blue" s.clock (Text.fileLines oneLine)
  have hreport : report = pageOf s.console request "blue"
      (load host "blue" s.clock (Text.fileLines oneLine)) := run_page rfl host "blue" request
  have hending : report.ending = .failed (.service .unwritable) :=
    (congrArg Report.ending hreport).trans (pageOf_of_untellable hload hstart hstop hlong "blue")
  exact ⟨by decide +kernel, h1, hending, congrArg Ending.exitCode hending⟩

end Cli

end Lifecycle
