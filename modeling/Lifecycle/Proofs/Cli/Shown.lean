import Lifecycle.Cli.Offline
import Lifecycle.Cli.Session
import Lifecycle.Proofs.Markup

/-! # What the commands can show

The words for a gap and those for bounds that make no window hold numbers and no text from outside,
and they are shown whatever the numbers are. A complaint about a line has the line escaped, and it is
always shown as well. The title over a page and the announcement of a collection hold the id of the
operation as it is. They can be shown for the same ids, but not for all: an id may close a tag that
nothing opens. -/

namespace Lifecycle.Cli

open Markup

variable {console : Console} {request : PageRequest}

/-! ### Words with numbers -/

theorem quiet_natural (n : Nat) : ∀ c ∈ (toString n).toList, IsQuiet c :=
  fun _ hc => (numeral_of_mem_natural hc).isQuiet.1

theorem quiet_integer (n : Int) : ∀ c ∈ (toString n).toList, IsQuiet c :=
  fun _ hc => (numeral_of_mem_integer hc).isQuiet.1

theorem exists_line_iff {s : String} :
    (∃ text, console.line s = .ok text) ↔ ∃ text, console.shown s = .ok text := by
  rw [Console.line]
  cases console.shown s with
  | error fault => simp [Except.map]
  | ok text => simp [Except.map]

theorem line_of_shown {s text : String} (h : console.shown s = .ok text) :
    console.line s = .ok (printedLine text) := by
  rw [Console.line, h]
  rfl

theorem isName_yellow : IsName "yellow".toList := by decide

theorem line_fileGap (console : Console) (request : PageRequest) (p : Page) :
    console.line (fileGap request p) = .ok (printedLine
      s!"Range {request.start}..{request.stop} incomplete: {p.present} present, {p.missing} missing") := by
  have hlabel : IsSeen s!"Range {request.start}..{request.stop} incomplete:".toList := by
    rw [String.toList_append]
    refine isSeen_append ?_ ⟨by decide, by decide⟩
    simp only [String.toList_append, List.forall_mem_append]
    exact ⟨⟨⟨by decide, quiet_integer _⟩, by decide⟩, quiet_integer _⟩
  have htext : IsSeen s!" {p.present} present, {p.missing} missing".toList := by
    refine isSeen_of_quiet ?_
    simp only [String.toList_append, List.forall_mem_append]
    exact ⟨⟨⟨⟨by decide, quiet_natural _⟩, by decide⟩, quiet_integer _⟩, by decide⟩
  have hsplit : " incomplete: " = " incomplete:" ++ " " := rfl
  rw [fileGap, line_of_shown (shown_styled isName_yellow hlabel htext), hsplit]
  simp only [toString, String.append_assoc]

theorem line_timeoutGap (console : Console) (p : Page) :
    console.line (timeoutGap p) =
      .ok (printedLine s!"Timed out: {p.present} of {p.window.size} events present") := by
  have htext : IsSeen s!" {p.present} of {p.window.size} events present".toList := by
    refine isSeen_of_quiet ?_
    simp only [String.toList_append, List.forall_mem_append]
    exact ⟨⟨⟨⟨by decide, quiet_natural _⟩, by decide⟩, quiet_natural _⟩, by decide⟩
  have hsplit : "Timed out: " = "Timed out:" ++ " " := rfl
  rw [timeoutGap, line_of_shown (shown_styled isName_yellow ⟨by decide, by decide⟩ htext), hsplit]
  simp only [toString, String.append_assoc]

/-! ### Complaints -/

/-- A number behind a bracket makes no tag of what stands in the brackets. -/
theorem tagBody?_number (n : Int) (rest : List Char) :
    tagBody? ((toString n).toList ++ ',' :: rest) = none := by
  have hnone (c : Char) (more : List Char) (h : beginsTag c = false) :
      tagBody? (c :: more) = none := by simp [tagBody?, h]
  cases hdigits : (toString n).toList with
  | nil => exact hnone ',' rest (by decide)
  | cons d more =>
    have hd : d ∈ (toString n).toList := hdigits ▸ List.mem_cons_self
    exact hnone d (more ++ ',' :: rest) (numeral_of_mem_integer hd).isQuiet.2

theorem exists_boundsComplaint (console : Console) (bounds : BadBounds) :
    ∃ text, console.line (boundsComplaint bounds) = .ok text := by
  have hred : IsName "red".toList := by decide
  let numbers := (toString bounds.start).toList ++ ',' :: (" ".toList ++
    ((toString bounds.stop).toList ++ "]".toList))
  have hnumbers : ∀ c ∈ numbers, IsPlain c := by
    simp only [numbers, List.forall_mem_append, List.forall_mem_cons]
    exact ⟨fun c hc => (quiet_integer _ c hc).1, by decide, by decide,
      fun c hc => (quiet_integer _ c hc).1, by decide⟩
  have hlist : (boundsComplaint bounds).toList = labelled "red".toList "Error:".toList
      (" range bounds must be non-negative, got ".toList ++ '[' :: numbers) := by
    have hwords : (toString "range bounds must be non-negative, got [").toList =
        "range bounds must be non-negative, got ".toList ++ ['['] := by decide +kernel
    have hcomma : (toString ", ").toList = ',' :: " ".toList := rfl
    have hblank : " range bounds must be non-negative, got ".toList =
        ' ' :: "range bounds must be non-negative, got ".toList := by decide +kernel
    have hmessage : (" " ++ bounds.message).toList =
        " range bounds must be non-negative, got ".toList ++ '[' :: numbers := by
      unfold BadBounds.message
      rw [hblank]
      simp only [String.toList_append, hwords, hcomma, numbers, List.append_assoc, List.cons_append]
      rfl
    rw [boundsComplaint, String.append_assoc, toList_styled, hmessage]
  rw [exists_line_iff, exists_shown_iff, hlist, readable_labelled hred (by decide),
    readable_append (by decide), pieces_bracket (tagBody?_number _ _), readable_consPlain]
  exact readable_of_plain hnumbers

/-- A line that is complained about is escaped, so the complaint can always be shown. -/
theorem read_complaint (console : Console) (message : String) :
    console.read (complaint message) = .ok (seen console (complaint message)) := by
  have hred : IsName "red".toList := by decide
  have hpieces : pieces 0 (styled "red" "Error:").toList =
      [.mark 0 "red".toList, .plain "Error:".toList, .mark 0 ('/' :: "red".toList)] := by
    decide +kernel
  have hreadable : Readable console [] (complaint message) := by
    rw [complaint, hpieces, List.cons_append, readable_mark (afterTag_name hred), List.cons_append,
      readable_plain, List.cons_append, readable_mark (afterTag_close hred)]
    exact readable_guarded _
  rw [Readable] at hreadable
  rw [Console.read, hreadable]
  rfl

/-! ### The id of an operation -/

theorem exists_title_iff {operation : String} :
    (∃ title, console.shown (pageTitle request operation) = .ok title) ↔
      Readable console [] (pieces 0 operation.toList) := by
  have hfront : ∀ c ∈ s!"Events {request.start}..{request.stop}: ".toList, IsPlain c := by
    simp only [String.toList_append, List.forall_mem_append]
    exact ⟨⟨⟨⟨by decide, fun c hc => (quiet_integer _ c hc).1⟩, by decide⟩,
      fun c hc => (quiet_integer _ c hc).1⟩, by decide⟩
  rw [exists_shown_iff, pageTitle, String.toList_append]
  exact readable_append hfront

/-- The words that announce a collection can be shown for the ids that can stand in a title. -/
theorem exists_announcement_iff {kind : Kind} {operation : String} (people : request.json = false) :
    (∃ words, announcement console request kind operation = .ok words) ↔
      Readable console [] (pieces 0 operation.toList) := by
  have hname : ∀ c ∈ kind.name.toList, IsPlain c := by cases kind <;> decide
  have hbold : IsName "bold".toList := by decide
  have hlist : ("Collecting " ++ styled "bold" kind.name ++ " events for " ++ operation).toList =
      "Collecting ".toList ++ labelled "bold".toList kind.name.toList
        (" events for ".toList ++ operation.toList) := by
    rw [← String.toList_append, ← toList_styled, ← String.toList_append]
    simp only [String.append_assoc]
  rw [announcement, people, if_neg Bool.false_ne_true, exists_line_iff, exists_shown_iff, hlist,
    readable_append (by decide), readable_labelled hbold hname, readable_append (by decide)]

/-! ### Pages -/

section

variable {id : String} {gap : Page → String} {p : Page}

theorem showPage_json {events : List Event} (json : request.json = true)
    (complete : p.content = .complete events) :
    showPage console request id gap p = (.done, (pageJson events).pretty ++ "\n") := by
  rw [showPage, complete]
  exact if_pos json

theorem showPage_table {events : List Event} {title : String} (people : request.json = false)
    (complete : p.content = .complete events)
    (shown : console.shown (pageTitle request id) = .ok title) :
    showPage console request id gap p = (.done, (pageTable console title events).render) := by
  simp only [showPage, complete, people, shown]
  rfl

theorem showPage_garbled {events : List Event} {fault : Markup.Fault}
    (people : request.json = false) (complete : p.content = .complete events)
    (garbled : console.shown (pageTitle request id) = .error fault) :
    showPage console request id gap p = (.garbled fault, "") := by
  simp only [showPage, complete, people, garbled]
  rfl

theorem showPage_gap {present : Nat} {maxWait : Option Binary64} {text : String}
    (incomplete : p.content = .incomplete present maxWait)
    (shown : console.line (gap p) = .ok text) :
    showPage console request id gap p = (.incomplete,
      if request.json then (gapJson present p.missing).inline ++ "\n" else text) := by
  rw [showPage, incomplete]
  dsimp only
  rw [shown]
  split <;> rfl

end

end Lifecycle.Cli
