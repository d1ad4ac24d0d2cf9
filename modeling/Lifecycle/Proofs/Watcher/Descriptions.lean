import Lifecycle.Proofs.Line.Names
import Lifecycle.Proofs.Watcher.Alike

/-! # Event lines on their way into the store

A pass gives each line that it gets to an index and puts the event of the line there. What is then
stored is what translating the line by itself gives, whatever else the store and the allocator hold:
only an event that was at the index before is kept instead. A line that cannot be translated gets
neither an index nor an event, and ends the pass if the watcher halts. -/

namespace Lifecycle

/-! ### Deliveries -/

namespace Desk

/-- Gives an entry its index and puts its event there. -/
def deliver (id : String) (clock : Clock) (desk : Desk) (e : LineKey × String) : Desk :=
  let index := (desk.allocator.assign e.1).1
  ⟨(desk.allocator.assign e.1).2,
    desk.store.act (.put clock.monotonic id index ⟨index, e.2, clock.stamp⟩)⟩

/-- Delivers one entry after the other. -/
def deliverAll (id : String) (clock : Clock) (desk : Desk) (entries : List (LineKey × String)) :
    Desk := entries.foldl (deliver id clock) desk

variable (id : String) (clock : Clock) {desk : Desk}

theorem check_assigned (index : Nat) (description : String) :
    Store.check index ⟨index, description, clock.stamp⟩ = .ok () :=
  Store.check_eq_ok_iff.2 ⟨Int.natCast_nonneg index, rfl⟩

theorem sound_deliver (hs : desk.store.Sound) (e : LineKey × String) :
    (desk.deliver id clock e).store.Sound := by
  simp only [deliver]
  exact hs.act _

theorem event?_deliver (hs : desk.store.Sound) (e : LineKey × String) (i : Int) :
    (desk.deliver id clock e).store.event? id i =
      if i = (desk.allocator.assign e.1).1 then
        some ((desk.store.event? id i).getD ⟨i, e.2, clock.stamp⟩)
      else desk.store.event? id i := by
  have hput := hs.event?_put (check_assigned clock (desk.allocator.assign e.1).1 e.2)
    clock.monotonic id id i
  rw [deliver, hput]
  by_cases hi : i = (desk.allocator.assign e.1).1
  · rw [if_pos ⟨rfl, hi⟩, if_pos hi, hi]
  · rw [if_neg fun h => hi h.2, if_neg hi]

theorem indexOf?_deliverAll {key : LineKey} {index : Nat}
    (h : desk.allocator.indexOf? key = some index) (entries : List (LineKey × String)) :
    (desk.deliverAll id clock entries).allocator.indexOf? key = some index := by
  induction entries generalizing desk with
  | nil => exact h
  | cons e rest ih =>
    apply ih
    exact Allocator.indexOf?_assign h e.1

theorem indexOf?_deliverAll_cons (e : LineKey × String) (rest : List (LineKey × String)) :
    (desk.deliverAll id clock (e :: rest)).allocator.indexOf? e.1 =
      some (desk.allocator.assign e.1).1 := by
  have hindex : (desk.deliver id clock e).allocator.indexOf? e.1 =
      some (desk.allocator.assign e.1).1 := Allocator.indexOf?_assign_self desk.allocator e.1
  exact indexOf?_deliverAll id clock hindex rest

theorem mem_keys_deliverAll {key : LineKey} {entries : List (LineKey × String)} :
    key ∈ (desk.deliverAll id clock entries).allocator.keys ↔
      key ∈ desk.allocator.keys ∨ key ∈ entries.map Prod.fst := by
  induction entries generalizing desk with
  | nil =>
    rw [List.map_nil, or_iff_left List.not_mem_nil]
    rfl
  | cons e rest ih =>
    rw [deliverAll, List.foldl_cons, ← deliverAll, ih, deliver, Allocator.mem_keys_assign,
      List.map_cons, List.mem_cons, or_assoc]

theorem event?_deliverAll_of_some (hs : desk.store.Sound) {i : Int} {kept : Event}
    (h : desk.store.event? id i = some kept) (entries : List (LineKey × String)) :
    (desk.deliverAll id clock entries).store.event? id i = some kept := by
  induction entries generalizing desk with
  | nil => exact h
  | cons e rest ih =>
    apply ih (sound_deliver id clock hs e)
    rw [event?_deliver id clock hs, h, Option.getD_some, ite_self]

/-- What is stored in the end was stored before or is the event of an entry, at its index. -/
theorem event?_of_deliverAll (hs : desk.store.Sound) {i : Int} {event : Event}
    {entries : List (LineKey × String)}
    (h : (desk.deliverAll id clock entries).store.event? id i = some event) :
    desk.store.event? id i = some event ∨
      ∃ e ∈ entries, ∃ index : Nat,
        (desk.deliverAll id clock entries).allocator.indexOf? e.1 = some index ∧
          i = index ∧ event = ⟨index, e.2, clock.stamp⟩ := by
  induction entries generalizing desk with
  | nil => exact Or.inl h
  | cons e rest ih =>
    rcases ih (sound_deliver id clock hs e) h with hfirst | ⟨e', he', hlater⟩
    · rw [event?_deliver id clock hs] at hfirst
      split at hfirst
      · rename_i hi
        cases hbefore : desk.store.event? id i with
        | some kept =>
          rw [hbefore, Option.getD_some] at hfirst
          exact Or.inl hfirst
        | none =>
          rw [hbefore, Option.getD_none, Option.some.injEq, hi] at hfirst
          exact Or.inr ⟨e, List.mem_cons_self, _, indexOf?_deliverAll_cons id clock e rest, hi,
            hfirst.symm⟩
      · exact Or.inl hfirst
    · exact Or.inr ⟨e', List.mem_cons_of_mem e he', hlater⟩

theorem exists_of_mem_deliverAll (hs : desk.store.Sound) {e : LineKey × String}
    {entries : List (LineKey × String)} (h : e ∈ entries) :
    ∃ (index : Nat) (event : Event),
      (desk.deliverAll id clock entries).allocator.indexOf? e.1 = some index ∧
        (desk.deliverAll id clock entries).store.event? id index = some event := by
  induction entries generalizing desk with
  | nil => exact absurd h List.not_mem_nil
  | cons first rest ih =>
    have hfirst := sound_deliver id clock hs first
    rcases List.mem_cons.1 h with rfl | h
    · have hstored := event?_deliver id clock hs e (desk.allocator.assign e.1).1
      rw [if_pos rfl] at hstored
      exact ⟨_, _, indexOf?_deliverAll_cons id clock e rest,
        event?_deliverAll_of_some id clock hfirst hstored rest⟩
    · exact ih hfirst h

/-- Each entry's event is at its index in the end, unless another event was there before. -/
theorem event?_deliverAll_of_mem (hs : desk.store.Sound) {entries : List (LineKey × String)}
    (distinct : (entries.map Prod.fst).Nodup) {e : LineKey × String} (h : e ∈ entries) :
    ∃ index : Nat, (desk.deliverAll id clock entries).allocator.indexOf? e.1 = some index ∧
      (desk.deliverAll id clock entries).store.event? id index =
        some ((desk.store.event? id index).getD ⟨index, e.2, clock.stamp⟩) := by
  obtain ⟨index, event, hindex, hevent⟩ := exists_of_mem_deliverAll id clock hs h
  refine ⟨index, hindex, ?_⟩
  cases hbefore : desk.store.event? id index with
  | some kept => rw [event?_deliverAll_of_some id clock hs hbefore, Option.getD_some]
  | none =>
    rw [Option.getD_none, hevent, Option.some.injEq]
    rcases event?_of_deliverAll id clock hs hevent with hkept | ⟨e', he', index', hindex', hi, rfl⟩
    · rw [hbefore] at hkept
      exact absurd hkept (by simp)
    · obtain rfl := Int.ofNat.inj hi
      have hkey := Allocator.eq_of_indexOf? hindex' hindex
      rw [List.inj_on_of_nodup_map distinct he' h hkey]

end Desk

/-! ### Passes over any desk -/

theorem Line.toEvent_of_ok {line description : String} {host : Host}
    (h : translate line host = .ok description) (index : Int) (timestamp : Binary64) :
    toEvent line host index timestamp = .ok ⟨index, description, timestamp⟩ := by
  rw [toEvent, h]
  rfl

namespace Worker

theorem nodup_entries (worker : Worker) (generation position : Nat) (lines : List String) :
    ((worker.entries generation position lines).map Prod.fst).Nodup := by
  rw [List.Nodup, List.pairwise_map]
  refine (worker.pairwise_entries generation position lines).imp ?_
  intro a b hlt heq
  rw [heq] at hlt
  exact absurd hlt (Int.lt_irrefl _)

theorem key_mem_entries_iff {worker : Worker} {generation position k : Nat} {lines : List String} :
    ⟨worker.name, generation, (position + k : Nat)⟩ ∈
        (worker.entries generation position lines).map Prod.fst ↔
      ∃ line, lines[k]? = some line ∧ Line.hasSeparator line = true := by
  rw [List.mem_map]
  constructor
  · rintro ⟨e, he, hkey⟩
    obtain ⟨k', line, hline, htranslate, hkey'⟩ := mem_entries_iff.1 he
    have hposition := congrArg LineKey.position (hkey'.symm.trans hkey)
    simp only [Int.natCast_inj, Nat.add_left_cancel_iff] at hposition
    rw [hposition] at hline
    refine ⟨line, hline, ?_⟩
    by_contra hmalformed
    rw [Bool.not_eq_true] at hmalformed
    rw [Line.translate_of_not_hasSeparator hmalformed] at htranslate
    exact absurd htranslate (by simp)
  · rintro ⟨line, hline, hseparator⟩
    obtain ⟨description, htranslate⟩ := Line.translate_of_hasSeparator hseparator worker.host
    exact ⟨(_, description), mem_entries_iff.2 ⟨k, line, hline, htranslate, rfl⟩, rfl⟩

end Worker

namespace Watcher

variable {w : Watcher} {desk : Desk}

theorem takeLine_delivers (hs : desk.store.Sound) {line description : String}
    (h : Line.translate line w.worker.host = .ok description) (clock : Clock)
    (generation position : Nat) :
    (w.takeLine clock generation position line desk).desk =
        desk.deliver w.deployment clock (⟨w.worker.name, generation, position⟩, description) ∧
      (w.takeLine clock generation position line desk).fault = none := by
  obtain ⟨report, next, hput, -, -⟩ := hs.put_spec (Desk.check_assigned clock
    (desk.allocator.assign ⟨w.worker.name, generation, position⟩).1 description)
    clock.monotonic w.deployment
  simp only [takeLine, h, hput, Desk.deliver, Store.act_put_of_ok hput, and_self]

theorem takeLines_delivers (hs : desk.store.Sound) (clock : Clock) (generation position : Nat)
    (lines : List String) :
    (w.takeLines clock generation position lines desk).desk =
        desk.deliverAll w.deployment clock
          (w.worker.entries generation position (w.reach lines)) ∧
      (w.takeLines clock generation position lines desk).ended =
        lines[(w.reach lines).length]?.map fun line =>
          (position + (w.reach lines).length, .malformedLine ⟨line⟩) := by
  induction lines generalizing position desk with
  | nil =>
    have hnil : w.reach [] = [] := by
      rw [reach]
      split <;> rfl
    rw [hnil]
    exact ⟨rfl, rfl⟩
  | cons line rest ih =>
    cases hline : Line.hasSeparator line with
    | true =>
      obtain ⟨description, h⟩ := Line.translate_of_hasSeparator hline w.worker.host
      obtain ⟨hdesk, hfault⟩ := takeLine_delivers (w := w) hs h clock generation position
      have hsound : (w.takeLine clock generation position line desk).desk.store.Sound := by
        rw [hdesk]
        exact Desk.sound_deliver _ _ hs _
      obtain ⟨hrest, hended⟩ := ih hsound (position + 1)
      rw [takeLines_cons_of_none hfault, reach_cons_of_hasSeparator hline,
        Worker.entries_cons_of_ok h]
      simp only
      rw [hrest, hended, hdesk, List.length_cons, List.getElem?_cons_succ, Nat.add_assoc,
        Nat.add_comm 1]
      exact ⟨rfl, rfl⟩
    | false =>
      obtain ⟨hdesk, -, hfault⟩ := takeLine_malformed hline w clock generation position desk
      cases hw : w.halting with
      | true =>
        rw [hw, if_pos rfl] at hfault
        rw [takeLines_cons_of_fault hfault, reach_cons_of_halting hw hline, hdesk]
        exact ⟨rfl, rfl⟩
      | false =>
        rw [hw, if_neg Bool.false_ne_true] at hfault
        obtain ⟨hrest, hended⟩ := ih hs (position + 1)
        rw [reach_of_not_halting hw] at hrest hended ⊢
        rw [takeLines_cons_of_none hfault,
          Worker.entries_cons_of_error (Line.translate_of_not_hasSeparator hline _)]
        simp only [hdesk]
        refine ⟨hrest, ?_⟩
        rw [hended, List.length_cons, List.getElem?_cons_succ, Nat.add_assoc, Nat.add_comm 1]

/-- A line that a watcher gets to is one that it gets past, or the malformed one that it halts on. -/
theorem getElem?_reach {lines : List String} {k : Nat} {line : String} (h : lines[k]? = some line)
    (hk : k ≤ (w.reach lines).length) :
    ((w.reach lines)[k]? = some line ∧
        (w.halting = true → Line.hasSeparator line = true)) ∨
      (k = (w.reach lines).length ∧ w.halting = true ∧ Line.hasSeparator line = false) := by
  cases hw : w.halting with
  | false =>
    rw [reach_of_not_halting hw]
    exact Or.inl ⟨h, fun hfalse => absurd hfalse Bool.false_ne_true⟩
  | true =>
    have hreach : w.reach lines = lines.takeWhile Line.hasSeparator := if_pos hw
    rw [hreach] at hk ⊢
    have hsplit := List.takeWhile_append_dropWhile (p := Line.hasSeparator) (l := lines)
    rcases Nat.lt_or_eq_of_le hk with hlt | heq
    · left
      rw [← hsplit, List.getElem?_append_left hlt] at h
      exact ⟨h, fun _ => List.mem_takeWhile_imp (List.mem_of_getElem? h)⟩
    · right
      rw [← hsplit, List.getElem?_append_right (Nat.le_of_eq heq.symm), heq, Nat.sub_self,
        ← List.head?_eq_getElem?] at h
      have hhead := List.head?_dropWhile_not Line.hasSeparator lines
      rw [h] at hhead
      exact ⟨heq, rfl, hhead⟩

/-- The event of a line that the watcher gets past is at the index of the line. -/
theorem exists_event_of_reach (hs : desk.store.Sound) {lines : List String} {k : Nat}
    {line : String} (h : (w.reach lines)[k]? = some line) (hline : Line.hasSeparator line = true)
    (clock : Clock) (generation start : Nat) :
    let after := desk.deliverAll w.deployment clock
      (w.worker.entries generation start (w.reach lines))
    ∃ index event,
      after.allocator.indexOf? ⟨w.worker.name, generation, (start + k : Nat)⟩ = some index ∧
        Line.toEvent line w.worker.host index clock.stamp = .ok event ∧
        after.store.event? w.deployment index =
          some ((desk.store.event? w.deployment index).getD event) := by
  intro after
  obtain ⟨description, htranslate⟩ := Line.translate_of_hasSeparator hline w.worker.host
  have hmem := Worker.mem_entries_iff
    (e := (⟨w.worker.name, generation, (start + k : Nat)⟩, description)).2
    ⟨k, line, h, htranslate, rfl⟩
  obtain ⟨index, hindex, hevent⟩ := Desk.event?_deliverAll_of_mem w.deployment clock hs
    (w.worker.nodup_entries generation start _) hmem
  exact ⟨index, _, hindex, Line.toEvent_of_ok htranslate index clock.stamp, hevent⟩

/-- Nothing but the events of lines that the watcher gets past is added to the store. -/
theorem exists_line_of_event? (hs : desk.store.Sound) {lines : List String} {i : Int}
    {event : Event} {clock : Clock} {generation start : Nat} :
    let after := desk.deliverAll w.deployment clock
      (w.worker.entries generation start (w.reach lines))
    after.store.event? w.deployment i = some event →
      desk.store.event? w.deployment i = some event ∨
        ∃ k line index, (w.reach lines)[k]? = some line ∧
          after.allocator.indexOf? ⟨w.worker.name, generation, (start + k : Nat)⟩ = some index ∧
          i = index ∧ Line.toEvent line w.worker.host index clock.stamp = .ok event := by
  intro after h
  rcases Desk.event?_of_deliverAll w.deployment clock hs h with hkept | ⟨e, he, index, hindex, hi, rfl⟩
  · exact Or.inl hkept
  · obtain ⟨k, line, hline, htranslate, hkey⟩ := Worker.mem_entries_iff.1 he
    rw [hkey] at hindex
    exact Or.inr ⟨k, line, index, hline, hindex, hi,
      Line.toEvent_of_ok htranslate index clock.stamp⟩

/-- A malformed line that the watcher gets to is given no index. -/
theorem key_mem_of_malformed {lines : List String} {k : Nat} {line : String}
    (h : lines[k]? = some line) (hk : k ≤ (w.reach lines).length)
    (hline : Line.hasSeparator line = false) (clock : Clock) (generation start : Nat) :
    let key : LineKey := ⟨w.worker.name, generation, (start + k : Nat)⟩
    let after := desk.deliverAll w.deployment clock
      (w.worker.entries generation start (w.reach lines))
    key ∈ after.allocator.keys ↔ key ∈ desk.allocator.keys := by
  intro key after
  rw [Desk.mem_keys_deliverAll, Worker.key_mem_entries_iff, or_iff_left]
  rintro ⟨other, hother, hgood⟩
  rcases getElem?_reach h hk with hpast | ⟨hlast, -, -⟩
  · rw [hpast.1, Option.some.injEq] at hother
    rw [hother, hgood] at hline
    exact absurd hline (by simp)
  · rw [hlast, List.getElem?_eq_none (Nat.le_refl _)] at hother
    exact absurd hother (by simp)

/-- What a poll over any desk does, if the log can be read. -/
theorem catchUp_delivers (hs : desk.store.Sound) {source : Source} {lines : List String}
    (h : (source.read w.worker).value = .ok lines) (clock : Clock) :
    let events := lines.filter Line.isEvent
    let generation := w.readAs events desk
    let start := w.startAt generation
    let recent := events.drop start
    (w.catchUp source clock desk).state.2 =
        (desk.note w.worker.name events).deliverAll w.deployment clock
          (w.worker.entries generation start (w.reach recent)) ∧
      (w.catchUp source clock desk).value =
        match recent[(w.reach recent).length]? with
        | some line => .error (.malformedLine ⟨line⟩)
        | none => .ok (w.passRun clock events desk).stored := by
  intro events generation start recent
  have hnote : (desk.note w.worker.name events).store.Sound := hs
  obtain ⟨hstate, hvalue⟩ := catchUp_of_ok h clock desk
  obtain ⟨hdesk, hended⟩ := takeLines_delivers hnote clock generation start recent
  refine ⟨?_, ?_⟩
  · rw [hstate, pass_desk, ← hdesk]
    rfl
  · have hrun : (w.passRun clock events desk).ended = _ := hended
    rw [hvalue, pass_value, hrun]
    cases recent[(w.reach recent).length]? <;> rfl

/-- A poll that gets to a malformed line halts there, or comes to its end past it. -/
theorem catchUp_of_malformed (hs : desk.store.Sound) {source : Source} {lines : List String}
    (h : (source.read w.worker).value = .ok lines) (clock : Clock) {k : Nat} {line : String} :
    let events := lines.filter Line.isEvent
    let recent := events.drop (w.startAt (w.readAs events desk))
    recent[k]? = some line → k ≤ (w.reach recent).length → Line.hasSeparator line = false →
      (w.halting = true → (w.catchUp source clock desk).value = .error (.malformedLine ⟨line⟩)) ∧
        (w.halting = false → ∃ stored, (w.catchUp source clock desk).value = .ok stored) := by
  intro events recent hk hreach hline
  obtain ⟨-, hvalue⟩ := catchUp_delivers hs h clock
  refine ⟨?_, ?_⟩
  · intro hhalting
    rcases getElem?_reach hk hreach with hpast | ⟨hlast, -, -⟩
    · rw [hpast.2 hhalting] at hline
      exact absurd hline (by simp)
    · rw [hvalue, ← hlast, hk]
  · intro hhalting
    refine ⟨(w.passRun clock events desk).stored, ?_⟩
    rw [hvalue, reach_of_not_halting hhalting, List.getElem?_eq_none (Nat.le_refl _)]

end Watcher

/-! ### Main result -/

namespace Line

/-- A line is described by what stands behind its first separator and behind the name there, and
every watcher of the host stores that description for it, if it can, and drops the line or halts at
it if not. -/
theorem lines_are_described_by_their_texts (line : String) (host : Host) :
    (∀ bad, translate line host = .error bad ↔ ¬ separator <:+: line.toList ∧ bad = ⟨line⟩) ∧
    (separator <:+: line.toList → ∃ before rest blocks text,
      CutAtSeparator line.toList before rest ∧ CutBehindBlocks rest blocks text ∧
        ¬ BeginsWithBlock text ∧
        translate line host =
          .ok ("[" ++ host.name ++ "/" ++ host.address ++ "] - " ++ String.ofList text)) ∧
    (∀ index timestamp, toEvent line host index timestamp =
      (translate line host).map fun description => ⟨index, description, timestamp⟩) ∧
    ∀ (w : Watcher) (source : Source) (clock : Clock) (desk : Desk) (lines : List String),
      w.worker.host = host → desk.store.Sound → (source.read w.worker).value = .ok lines →
      let events := lines.filter isEvent
      let generation := w.readAs events desk
      let start := w.startAt generation
      let recent := events.drop start
      let key (k : Nat) : LineKey := ⟨w.worker.name, generation, (start + k : Nat)⟩
      let poll := w.catchUp source clock desk
      let after := poll.state.2
      (∀ i event, after.store.event? w.deployment i = some event →
        desk.store.event? w.deployment i = some event ∨
          ∃ k other index, (w.reach recent)[k]? = some other ∧
            after.allocator.indexOf? (key k) = some index ∧ i = index ∧
            toEvent other host index clock.stamp = .ok event) ∧
      ∀ k, recent[k]? = some line → k ≤ (w.reach recent).length →
        (separator <:+: line.toList → ∃ index event,
          after.allocator.indexOf? (key k) = some index ∧
            toEvent line host index clock.stamp = .ok event ∧
            after.store.event? w.deployment index =
              some ((desk.store.event? w.deployment index).getD event)) ∧
        (¬ separator <:+: line.toList →
          (key k ∈ after.allocator.keys ↔ key k ∈ desk.allocator.keys) ∧
            (w.halting = true → poll.value = .error (.malformedLine ⟨line⟩)) ∧
            (w.halting = false → ∃ stored, poll.value = .ok stored)) := by
  refine ⟨?_, ?_, fun index timestamp => rfl, ?_⟩
  · intro bad
    rw [translate_eq_error_iff, ← afterSeparator_isSome_iff, Option.not_isSome_iff_eq_none]
  · intro hseparator
    rw [← afterSeparator_isSome_iff] at hseparator
    obtain ⟨rest, hrest⟩ := Option.isSome_iff_exists.1 hseparator
    obtain ⟨before, hbefore⟩ := exists_cutAtSeparator hrest
    obtain ⟨blocks, hblocks⟩ := cutBehindBlocks rest
    obtain ⟨-, -, -, hbegins⟩ := exists_dotted rest
    refine ⟨before, rest, blocks, dropName rest, hbefore, hblocks, hbegins, ?_⟩
    rw [translate, hrest]
    rfl
  · intro w source clock desk lines hhost hs hread events generation start recent key poll after
    subst hhost
    have hnote : (desk.note w.worker.name events).store.Sound := hs
    obtain ⟨hdesk, -⟩ := Watcher.catchUp_delivers hs hread clock
    have hafter : after = (desk.note w.worker.name events).deliverAll w.deployment clock
        (w.worker.entries generation start (w.reach recent)) := hdesk
    rw [hafter]
    refine ⟨?_, ?_⟩
    · intro i event hevent
      exact Watcher.exists_line_of_event? hnote hevent
    · intro k hk hreach
      refine ⟨?_, ?_⟩
      · intro hseparator
        have hgood : hasSeparator line = true := decide_eq_true hseparator
        rcases Watcher.getElem?_reach hk hreach with hpast | ⟨-, -, hmalformed⟩
        · exact Watcher.exists_event_of_reach hnote hpast.1 hgood clock generation start
        · rw [hgood] at hmalformed
          exact absurd hmalformed (by simp)
      · intro hseparator
        have hmalformed : hasSeparator line = false := decide_eq_false hseparator
        exact ⟨Watcher.key_mem_of_malformed hk hreach hmalformed clock generation start,
          Watcher.catchUp_of_malformed hs hread clock hk hreach hmalformed⟩

theorem line_is_stored_before_a_broken_one :
    let host : Host := ⟨"node-1", "10.0.0.1"⟩
    let w : Watcher := { deployment := "blue", worker := ⟨"pod-0", host⟩, halting := true }
    let line := "1 - org.USMEventLogger.Step 1 - done."
    let broken := "2 USMEventLogger.failed"
    let clock : Clock := { wall := 0, monotonic := 0 }
    let poll := w.catchUp (.fixed [("pod-0", [line, broken])]) clock ⟨{}, {}⟩
    (∃ (index : Nat) (event : Event), toEvent line host index clock.stamp = .ok event ∧
      poll.state.2.store.event? "blue" index = some event) ∧
      poll.value = .error (.malformedLine ⟨broken⟩) := by
  intro host w line broken clock poll
  have hread : ((Source.fixed [("pod-0", [line, broken])]).read w.worker).value =
      .ok [line, broken] := rfl
  obtain ⟨-, -, -, hline⟩ := lines_are_described_by_their_texts line host
  obtain ⟨-, hlines⟩ := hline w _ clock ⟨{}, {}⟩ _ rfl Store.sound_empty hread
  obtain ⟨-, -, -, hbroken⟩ := lines_are_described_by_their_texts broken host
  obtain ⟨-, hbrokens⟩ := hbroken w _ clock ⟨{}, {}⟩ _ rfl Store.sound_empty hread
  obtain ⟨index, event, -, hevent, hstored⟩ :=
    (hlines 0 (by decide) (Nat.zero_le _)).1 (by decide)
  obtain ⟨-, hhalts, -⟩ := (hbrokens 1 (by decide) (by decide)).2 (by decide)
  exact ⟨⟨index, event, hevent, hstored⟩, hhalts rfl⟩

end Line

end Lifecycle
