import Lifecycle.Proofs.Collector.Dense

/-! # Watchers that work alike

What a pass does depends on what the watcher is there for and how far it got, on the indices given
out so far and on the log. It does not depend on the time, on whether the pass is made by a loop, or
on what other deployments have in the store. So two crews with the same watchers and the same ledger
gain the same entries from the same logs. -/

namespace Lifecycle

namespace Watcher

/-! ### A pass by its run over the lines -/

section

variable (w : Watcher) (clock : Clock) (lines : List String) (desk : Desk)

/-- The generation of the log that a pass reads. -/
def readAs : Nat := (desk.allocator.observe w.worker.name lines).1

theorem pass_value : (w.pass clock lines desk).value =
    match (w.passRun clock lines desk).ended with
    | some stop => .error stop.2
    | none => .ok (w.passRun clock lines desk).stored := by
  simp only [pass]
  split
  · rename_i stop hstop
    have hended : (w.passRun clock lines desk).ended = some stop := hstop
    rw [hended]
  · rename_i hstop
    have hended : (w.passRun clock lines desk).ended = none := hstop
    rw [hended]
    rfl

theorem pass_watcher : (w.pass clock lines desk).state.1 =
    w.moveTo (w.readAs lines desk)
      (match (w.passRun clock lines desk).ended with
      | some stop => positionAfter (w.startAt (w.readAs lines desk)) stop
      | none => max (w.startAt (w.readAs lines desk)) lines.length) := by
  simp only [pass]
  split
  · rename_i stop hstop
    have hended : (w.passRun clock lines desk).ended = some stop := hstop
    rw [hended]
    rfl
  · rename_i hstop
    have hended : (w.passRun clock lines desk).ended = none := hstop
    rw [hended]
    rfl

theorem pass_desk : (w.pass clock lines desk).state.2 = (w.passRun clock lines desk).desk := by
  simp only [pass]
  split <;> rfl

end

/-! ### A pass and the loop that makes it -/

/-- The watcher apart from its loop. -/
def bare (w : Watcher) : Watcher := { w with error := none, loop := none }

section

variable (w : Watcher) (source : Source) (clock : Clock) (desk : Desk)

theorem takeLines_bare (generation position : Nat) (lines : List String) :
    w.bare.takeLines clock generation position lines desk =
      w.takeLines clock generation position lines desk := by
  induction lines generalizing position desk with
  | nil => rfl
  | cons line rest ih =>
    have hline : w.bare.takeLine clock generation position line desk =
        w.takeLine clock generation position line desk := rfl
    simp only [takeLines, hline, ih]

theorem passRun_bare (lines : List String) :
    w.bare.passRun clock lines desk = w.passRun clock lines desk :=
  w.takeLines_bare clock _ _ _ _

theorem pass_bare (lines : List String) :
    (w.bare.pass clock lines desk).value = (w.pass clock lines desk).value ∧
      (w.bare.pass clock lines desk).state.1 = (w.pass clock lines desk).state.1.bare ∧
      (w.bare.pass clock lines desk).state.2 = (w.pass clock lines desk).state.2 := by
  rw [pass_value, pass_value, pass_watcher, pass_watcher, pass_desk, pass_desk, passRun_bare]
  exact ⟨rfl, rfl, rfl⟩

theorem catchUp_bare :
    (w.bare.catchUp source clock desk).value = (w.catchUp source clock desk).value ∧
      (w.bare.catchUp source clock desk).state.1 = (w.catchUp source clock desk).state.1.bare ∧
      (w.bare.catchUp source clock desk).state.2 = (w.catchUp source clock desk).state.2 := by
  have hworker : w.bare.worker = w.worker := rfl
  simp only [catchUp, hworker]
  cases (source.read w.worker).value with
  | error fault => exact ⟨rfl, rfl, rfl⟩
  | ok lines => exact w.pass_bare clock desk _

theorem catchUp_of_bare {v : Watcher} (h : w.bare = v.bare) :
    (w.catchUp source clock desk).value = (v.catchUp source clock desk).value ∧
      (w.catchUp source clock desk).state.1.bare = (v.catchUp source clock desk).state.1.bare ∧
      (w.catchUp source clock desk).state.2 = (v.catchUp source clock desk).state.2 := by
  obtain ⟨hvalue, hwatcher, hdesk⟩ := w.catchUp_bare source clock desk
  obtain ⟨hvalue', hwatcher', hdesk'⟩ := v.catchUp_bare source clock desk
  rw [h] at hvalue hwatcher hdesk
  exact ⟨hvalue.symm.trans hvalue', hwatcher.symm.trans hwatcher', hdesk.symm.trans hdesk'⟩

theorem catchUp_loop :
    (w.catchUp source clock desk).state.1.loop = w.loop ∧
      (w.catchUp source clock desk).state.1.error = w.error := by
  cases hread : (source.read w.worker).value with
  | error fault =>
    rw [(catchUp_of_error hread clock desk).1]
    exact ⟨rfl, rfl⟩
  | ok lines =>
    obtain ⟨generation, position, hmove⟩ := pass_moveTo (w := w) clock (lines.filter Line.isEvent) desk
    rw [(catchUp_of_ok hread clock desk).1, hmove]
    exact ⟨rfl, rfl⟩

theorem wake_of_halt {line : MalformedLine}
    (h : (w.catchUp source clock desk).value = .error (.malformedLine line)) :
    (w.wake source clock desk).state =
      ({ (w.catchUp source clock desk).state.1 with error := some line, loop := none },
        (w.catchUp source clock desk).state.2) := by
  simp only [wake, h]

theorem wake_of_not_halt
    (h : ∀ line, (w.catchUp source clock desk).value ≠ .error (.malformedLine line)) :
    (w.wake source clock desk).state = (w.catchUp source clock desk).state := by
  simp only [wake]
  split
  · rfl
  · rename_i line hline
    exact absurd hline (h line)
  · rfl

theorem wake_bare :
    (w.wake source clock desk).state.1.bare = (w.catchUp source clock desk).state.1.bare ∧
      (w.wake source clock desk).state.2 = (w.catchUp source clock desk).state.2 := by
  simp only [wake]
  split <;> exact ⟨rfl, rfl⟩

theorem start_bare (h : w.loop = none) (rank : Nat) :
    (w.start rank source clock desk).state.1.bare = (w.catchUp source clock desk).state.1.bare ∧
      (w.start rank source clock desk).state.2 = (w.catchUp source clock desk).state.2 := by
  have hrunning : w.isRunning = false := by rw [isRunning, h, Option.isSome_none]
  obtain ⟨hwatcher, hdesk⟩ := wake_bare { w with loop := some rank } source clock desk
  obtain ⟨-, hranked, hranked'⟩ :=
    catchUp_of_bare { w with loop := some rank } source clock desk (v := w) rfl
  rw [start, hrunning, if_neg Bool.false_ne_true]
  exact ⟨hwatcher.trans hranked, hdesk.trans hranked'⟩

end

end Watcher

/-! ### Desks that look alike -/

/-- The same indices were given out for the same entries of a deployment. -/
structure Desk.Alike (id : String) (desk other : Desk) : Prop where
  inStep : desk.InStep id
  inStep' : other.InStep id
  allocator : desk.allocator = other.allocator
  ledger : desk.ledger id = other.ledger id

/-- Two outcomes of a watcher tell the same and leave the same behind. -/
structure Watcher.SameOutcome {α : Type} (id : String) (one two : Outcome (Watcher × Desk) α) :
    Prop where
  value : one.value = two.value
  watcher : one.state.1.bare = two.state.1.bare
  desk : Desk.Alike id one.state.2 two.state.2

namespace Watcher

variable {id : String} {w v : Watcher} {desk other : Desk}

theorem passRun_ended (hd : desk.InStep w.deployment) (clock : Clock) (lines : List String) :
    (w.passRun clock lines desk).ended =
      let start := w.startAt (w.readAs lines desk)
      (lines.drop start)[(w.reach (lines.drop start)).length]?.map fun line =>
        (start + (w.reach (lines.drop start)).length, .malformedLine ⟨line⟩) :=
  (takeLines_spec (hd.note w.worker.name lines) clock _ _ _).2.2

theorem readAs_congr (h : desk.allocator = other.allocator) (lines : List String) :
    w.readAs lines desk = w.readAs lines other := by
  rw [readAs, readAs, h]

theorem gains_congr (h : desk.allocator = other.allocator) (lines : List String) :
    w.gains desk lines = w.gains other lines := by
  simp only [gains, Desk.news, h]

theorem pass_alike (hw : w.deployment = id) (h : Desk.Alike id desk other) (clock clock' : Clock)
    (lines : List String) :
    SameOutcome id (w.pass clock lines desk) (w.pass clock' lines other) := by
  subst hw
  have hread := readAs_congr (w := w) h.allocator lines
  have hgains := gains_congr (w := w) h.allocator lines
  have hstored := (passRun_spec h.inStep clock lines).2.1
  have hstored' := (passRun_spec h.inStep' clock' lines).2.1
  have hended := passRun_ended h.inStep clock lines
  have hended' := passRun_ended h.inStep' clock' lines
  have hadvance := pass_advance h.inStep clock lines
  have hadvance' := pass_advance h.inStep' clock' lines
  have hnote : (desk.note w.worker.name lines).allocator =
      (other.note w.worker.name lines).allocator := by
    rw [Desk.note, Desk.note, h.allocator]
  rw [← hread] at hended'
  rw [← hgains] at hadvance' hstored'
  constructor
  · rw [pass_value, pass_value, hstored, hstored', hended, hended']
  · rw [pass_watcher, pass_watcher, ← hread, hended, hended']
  · refine ⟨hadvance.inStep, hadvance'.inStep, ?_, ?_⟩
    · have hkeys := hadvance.keys (h.inStep.note w.worker.name lines)
      have hkeys' := hadvance'.keys (h.inStep'.note w.worker.name lines)
      rw [hnote, ← hkeys'] at hkeys
      have hlogs := hadvance.logs
      rw [hnote, ← hadvance'.logs] at hlogs
      exact congrArg₂ Allocator.mk hkeys hlogs
    · rw [hadvance.ledger, hadvance'.ledger]
      exact congrArg (· ++ w.gains desk lines) h.ledger

theorem catchUp_alike (hw : w.deployment = id) (hwv : w.bare = v.bare)
    (h : Desk.Alike id desk other) (source : Source) (clock clock' : Clock) :
    SameOutcome id (w.catchUp source clock desk) (v.catchUp source clock' other) := by
  have hbare : SameOutcome id (w.bare.catchUp source clock desk)
      (w.bare.catchUp source clock' other) := by
    cases hread : (source.read w.bare.worker).value with
    | error fault =>
      obtain ⟨hstate, hvalue⟩ := catchUp_of_error hread clock desk
      obtain ⟨hstate', hvalue'⟩ := catchUp_of_error hread clock' other
      exact ⟨by rw [hvalue, hvalue'], by rw [hstate, hstate'], by rw [hstate, hstate']; exact h⟩
    | ok lines =>
      obtain ⟨hstate, hvalue⟩ := catchUp_of_ok hread clock desk
      obtain ⟨hstate', hvalue'⟩ := catchUp_of_ok hread clock' other
      have hpass := pass_alike (w := w.bare) hw h clock clock' (lines.filter Line.isEvent)
      exact ⟨by rw [hvalue, hvalue', hpass.value], by rw [hstate, hstate', hpass.watcher],
        by rw [hstate, hstate']; exact hpass.desk⟩
  obtain ⟨hvalue, hwatcher, hdesk⟩ := w.catchUp_of_bare source clock desk (v := w.bare) rfl
  obtain ⟨hvalue', hwatcher', hdesk'⟩ := v.catchUp_of_bare source clock' other (v := w.bare) hwv.symm
  refine ⟨hvalue.trans (hbare.value.trans hvalue'.symm),
    hwatcher.trans (hbare.watcher.trans hwatcher'.symm), ?_⟩
  rw [hdesk, hdesk']
  exact hbare.desk

theorem start_alike (hw : w.deployment = id) (hloop : w.loop = none)
    (h : Desk.Alike id desk other) (source : Source) (clock clock' : Clock) (rank rank' : Nat) :
    (w.start rank source clock desk).state.1.bare =
        (w.start rank' source clock' other).state.1.bare ∧
      Desk.Alike id (w.start rank source clock desk).state.2
        (w.start rank' source clock' other).state.2 := by
  have hcatchUp := catchUp_alike hw rfl h source clock clock'
  obtain ⟨hwatcher, hdesk⟩ := w.start_bare source clock desk hloop rank
  obtain ⟨hwatcher', hdesk'⟩ := w.start_bare source clock' other hloop rank'
  rw [hwatcher, hwatcher', hdesk, hdesk']
  exact ⟨hcatchUp.watcher, hcatchUp.desk⟩

end Watcher

/-! ### Crews -/

namespace Crew

variable {id : String} {watchers watchers' : List Watcher} {desk other : Desk}

theorem pollAll_alike (hw : ∀ w ∈ watchers, w.deployment = id)
    (hsame : watchers.map Watcher.bare = watchers'.map Watcher.bare)
    (h : Desk.Alike id desk other) (source : Source) (clock clock' : Clock) :
    (pollAll source clock watchers desk).value = (pollAll source clock' watchers' other).value ∧
      (pollAll source clock watchers desk).state.1.map Watcher.bare =
        (pollAll source clock' watchers' other).state.1.map Watcher.bare ∧
      Desk.Alike id (pollAll source clock watchers desk).state.2
        (pollAll source clock' watchers' other).state.2 := by
  induction watchers generalizing watchers' desk other with
  | nil =>
    rw [List.map_nil, eq_comm, List.map_eq_nil_iff] at hsame
    rw [hsame]
    exact ⟨rfl, rfl, h⟩
  | cons w rest ih =>
    obtain ⟨v, rest', rfl, hv, hrest⟩ := List.map_eq_cons_iff.1 hsame.symm
    have hfirst := Watcher.catchUp_alike (hw w List.mem_cons_self) hv.symm h source clock clock'
    simp only [pollAll, hfirst.value]
    split
    · refine ⟨rfl, ?_, hfirst.desk⟩
      rw [List.map_cons, List.map_cons, hfirst.watcher, hrest]
    · obtain ⟨hvalue, hothers, hdesk⟩ :=
        ih (fun u hu => hw u (List.mem_cons_of_mem w hu)) hrest.symm hfirst.desk
      refine ⟨by rw [hvalue], ?_, hdesk⟩
      rw [List.map_cons, List.map_cons, hfirst.watcher, hothers]

theorem startFrom_alike (hw : ∀ w ∈ watchers, w.deployment = id)
    (hloop : ∀ w ∈ watchers, w.loop = none) (h : Desk.Alike id desk other) (source : Source)
    (clock clock' : Clock) (rank rank' : Nat) :
    (startFrom source clock rank watchers desk).1.1.map Watcher.bare =
        (startFrom source clock' rank' watchers other).1.1.map Watcher.bare ∧
      Desk.Alike id (startFrom source clock rank watchers desk).1.2
        (startFrom source clock' rank' watchers other).1.2 := by
  induction watchers generalizing desk other rank rank' with
  | nil => exact ⟨rfl, h⟩
  | cons w rest ih =>
    obtain ⟨hwatcher, hdesk⟩ := Watcher.start_alike (hw w List.mem_cons_self)
      (hloop w List.mem_cons_self) h source clock clock' rank rank'
    obtain ⟨hothers, hlast⟩ := ih (fun u hu => hw u (List.mem_cons_of_mem w hu))
      (fun u hu => hloop u (List.mem_cons_of_mem w hu)) hdesk (rank + 1) (rank' + 1)
    simp only [startFrom]
    exact ⟨by rw [List.map_cons, List.map_cons, hwatcher, hothers], hlast⟩

end Crew

/-! ### Stored events apart from their stamps -/

/-- The events of a deployment with their indices, apart from the times they were seen at. -/
def Store.undated (store : Store) (id : String) : List (Int × Event) :=
  (store.contents id).map fun (index, event) => (index, { event with timestamp := .zero false })

theorem Desk.InStep.undated_eq {desk : Desk} {id : String} (h : desk.InStep id) :
    desk.store.undated id = List.zipWith
      (fun index description => (index, ⟨index, description, .zero false⟩))
      ((List.range desk.allocator.size).map Int.ofNat) ((desk.ledger id).map Prod.snd) := by
  rw [← h.indices, h.map_snd_ledger, List.zipWith_map, List.zipWith_self, Store.undated]
  refine List.map_congr_left ?_
  rintro ⟨index, event⟩ he
  have hindex : event.index = index := h.labelled _ he
  rw [← hindex]

theorem Desk.Alike.undated {desk other : Desk} {id : String} (h : Desk.Alike id desk other) :
    desk.store.undated id = other.store.undated id := by
  rw [h.inStep.undated_eq, h.inStep'.undated_eq, h.allocator, h.ledger]

end Lifecycle
