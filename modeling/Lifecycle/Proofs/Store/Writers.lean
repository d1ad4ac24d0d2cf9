import Lifecycle.Proofs.Page.Poll

/-! # Writers in any order

Several producers put events of one deployment, each in its own order, and their calls are
interleaved somehow. If no two of them put different events at one index, it does not matter how:
every event that may be put is stored in the end, and nothing else is, so all that is read is the
same. The mark is moved along as the events come, but where it ends depends on them alone. -/

namespace Lifecycle.Store

/-- A call of one of the producers. -/
structure Turn where
  producer : Nat
  now : Rat
  index : Int
  event : Event

/-- The call is a put of the deployment. -/
def Turn.action (id : String) (turn : Turn) : Action := .put turn.now id turn.index turn.event

/-- What a producer puts, in its own order. -/
def callsOf (turns : List Turn) (producer : Nat) : List (Int × Event) :=
  (turns.filter fun turn => turn.producer == producer).map fun turn => (turn.index, turn.event)

section

variable {turns : List Turn} {id : String}

theorem keeps_turns (store : Store) (id : String) (turns : List Turn) :
    store.keeps id (turns.map (Turn.action id)) = true := by
  induction turns generalizing store with
  | nil => rfl
  | cons turn rest ih =>
    rw [List.map_cons, keeps, ih]
    rfl

/-- What is put is there in the end: at the latest its own call fills the index. -/
theorem isSome_event?_of_mem (id : String) {turn : Turn} (hmem : turn ∈ turns)
    (ok : check turn.index turn.event = .ok ()) :
    ((({} : Store).run (turns.map (Turn.action id))).event? id turn.index).isSome = true := by
  obtain ⟨before, after, rfl⟩ := List.append_of_mem hmem
  have hbefore := run_sound (before.map (Turn.action id))
  have hput := hbefore.event?_put ok turn.now id id turn.index
  rw [if_pos ⟨rfl, rfl⟩] at hput
  have hlater := (hbefore.act _).event?_run (keeps_turns _ id after) hput
  rw [List.map_append, List.map_cons, run_append]
  exact Option.isSome_iff_exists.2 ⟨_, hlater⟩

/-- The stored events are those that were put in order. -/
theorem event?_turns_iff
    (agree : ∀ a ∈ turns, ∀ b ∈ turns, a.index = b.index → a.event = b.event) {i : Int}
    {event : Event} :
    (({} : Store).run (turns.map (Turn.action id))).event? id i = some event ↔
      ∃ turn ∈ turns, turn.index = i ∧ turn.event = event ∧ check i event = .ok () := by
  have hput {kept : Event}
      (h : (({} : Store).run (turns.map (Turn.action id))).event? id i = some kept) :
      ∃ turn ∈ turns, turn.index = i ∧ turn.event = kept ∧ check i kept = .ok () := by
    rcases sound_empty.event?_of_run h with hempty | ⟨now, hmem, ok⟩
    · exact absurd hempty (by simp [event?, find?])
    · obtain ⟨turn, hturn, haction⟩ := List.mem_map.1 hmem
      obtain ⟨-, -, hindex, hevent⟩ := Action.put.inj haction
      exact ⟨turn, hturn, hindex, hevent, ok⟩
  constructor
  · exact hput
  · rintro ⟨turn, hmem, rfl, rfl, ok⟩
    have hstored := isSome_event?_of_mem id hmem ok
    obtain ⟨kept, hkept⟩ := Option.isSome_iff_exists.1 hstored
    obtain ⟨first, hfirst, hindex, rfl, -⟩ := hput hkept
    rw [hkept, agree first hfirst turn hmem hindex]

/-- The same calls were made in two interleavings. -/
theorem exists_mem_of_callsOf {first second : List Turn}
    (same : ∀ producer, callsOf first producer = callsOf second producer) {turn : Turn}
    (hmem : turn ∈ first) :
    ∃ t ∈ second, t.index = turn.index ∧ t.event = turn.event := by
  have hcall : (turn.index, turn.event) ∈ callsOf first turn.producer :=
    List.mem_map_of_mem (List.mem_filter.2 ⟨hmem, beq_self_eq_true _⟩)
  rw [same] at hcall
  obtain ⟨t, ht, heq⟩ := List.mem_map.1 hcall
  obtain ⟨hindex, hevent⟩ := Prod.mk.inj heq
  exact ⟨t, (List.mem_filter.1 ht).1, hindex, hevent⟩

end

/-! ### Main result -/

/-- Two interleavings of the same calls are read alike, and no event is lost. -/
theorem interleavings_are_read_alike (id : String) (first second : List Turn)
    (same : ∀ producer, callsOf first producer = callsOf second producer)
    (agree : ∀ a ∈ first, ∀ b ∈ first, a.index = b.index → a.event = b.event) :
    let one := ({} : Store).run (first.map (Turn.action id))
    let other := ({} : Store).run (second.map (Turn.action id))
    one.size id = other.size id ∧ one.mark id = other.mark id ∧
      one.contents id = other.contents id ∧
      (∀ start stop w, Window.ofBounds start stop = .ok w →
        one.isComplete id w = other.isComplete id w ∧ one.extract id w = other.extract id w) ∧
      (∀ start stop maxWait correlation,
        Page.poll one one id start stop maxWait correlation =
          Page.poll other other id start stop maxWait correlation) ∧
      (∀ i event, one.event? id i = some event ↔
        ∃ turn ∈ first, turn.index = i ∧ turn.event = event ∧ check i event = .ok ()) ∧
      ∀ i, (one.event? id i).isSome = true ↔
        ∃ turn ∈ first, turn.index = i ∧ check turn.index turn.event = .ok () := by
  intro one other
  have hone : one.Sound := run_sound _
  have hother : other.Sound := run_sound _
  have same' : ∀ producer, callsOf second producer = callsOf first producer :=
    fun producer => (same producer).symm
  have agree' : ∀ a ∈ second, ∀ b ∈ second, a.index = b.index → a.event = b.event := by
    intro a ha b hb hab
    obtain ⟨c, hc, hci, hce⟩ := exists_mem_of_callsOf same' ha
    obtain ⟨d, hd, hdi, hde⟩ := exists_mem_of_callsOf same' hb
    rw [← hce, ← hde]
    exact agree c hc d hd (by rw [hci, hdi, hab])
  have hevents : ∀ i, one.event? id i = other.event? id i := by
    intro i
    apply Option.ext
    intro event
    rw [event?_turns_iff agree, event?_turns_iff agree']
    constructor
    · rintro ⟨turn, hmem, rfl, rfl, ok⟩
      obtain ⟨t, ht, hindex, hevent⟩ := exists_mem_of_callsOf same hmem
      exact ⟨t, ht, hindex, hevent, ok⟩
    · rintro ⟨turn, hmem, rfl, rfl, ok⟩
      obtain ⟨t, ht, hindex, hevent⟩ := exists_mem_of_callsOf same' hmem
      exact ⟨t, ht, hindex, hevent, ok⟩
  have hwindow : ∀ start stop w, Window.ofBounds start stop = .ok w →
      one.isComplete id w = other.isComplete id w ∧ one.extract id w = other.extract id w := by
    intro start stop w hw
    obtain ⟨h0, -, rfl⟩ := Window.ofBounds_eq_ok_iff.1 hw
    exact ⟨hone.isComplete_congr hother hevents h0, extract_congr hevents _⟩
  have hcontents := contents_eq_of_event? hevents
  refine ⟨?_, hone.mark_congr hother hevents, hcontents, hwindow, ?_, ?_, ?_⟩
  · rw [size_eq_length_contents, size_eq_length_contents, hcontents]
  · intro start stop maxWait correlation
    rw [Page.poll, Page.poll]
    cases hw : Window.asked start stop with
    | error fault => rfl
    | ok w =>
      have hbounds := Window.ofBounds_eq_ok_iff.2 (Window.asked_eq_ok_iff.1 hw)
      obtain ⟨hcomplete, hextract⟩ := hwindow start stop w hbounds
      simp only [Page.between, hcomplete, hextract]
  · intro i event
    exact event?_turns_iff agree
  · intro i
    rw [Option.isSome_iff_exists]
    constructor
    · rintro ⟨event, hevent⟩
      obtain ⟨turn, hmem, rfl, rfl, ok⟩ := (event?_turns_iff agree).1 hevent
      exact ⟨turn, hmem, rfl, ok⟩
    · rintro ⟨turn, hmem, rfl, ok⟩
      exact ⟨turn.event, (event?_turns_iff agree).2 ⟨turn, hmem, rfl, rfl, ok⟩⟩

/-- Two producers that meet at one index, and a call that is refused. -/
def turnsInOrder : List Turn :=
  [⟨0, 0, 0, ⟨0, "a", .zero false⟩⟩, ⟨0, 1, 1, ⟨1, "b", .zero false⟩⟩,
    ⟨0, 1, -1, ⟨-1, "z", .zero false⟩⟩, ⟨1, 2, 3, ⟨3, "d", .zero false⟩⟩,
    ⟨1, 2, 1, ⟨1, "b", .zero false⟩⟩]

/-- The second producer runs ahead of the first. -/
def turnsAhead : List Turn :=
  [⟨1, 0, 3, ⟨3, "d", .zero false⟩⟩, ⟨0, 0, 0, ⟨0, "a", .zero false⟩⟩,
    ⟨1, 1, 1, ⟨1, "b", .zero false⟩⟩, ⟨0, 4, 1, ⟨1, "b", .zero false⟩⟩,
    ⟨0, 4, -1, ⟨-1, "z", .zero false⟩⟩]

theorem two_interleavings_are_read_alike :
    let one := ({} : Store).run (turnsInOrder.map (Turn.action "d"))
    let other := ({} : Store).run (turnsAhead.map (Turn.action "d"))
    one.size "d" = other.size "d" ∧ one.mark "d" = other.mark "d" ∧
      one.contents "d" = other.contents "d" ∧
      one.extract "d" ⟨0, 3⟩ = other.extract "d" ⟨0, 3⟩ ∧
      Page.poll one one "d" 0 1 none none = Page.poll other other "d" 0 1 none none ∧
      one.mark "d" = 1 ∧ (one.event? "d" 3).isSome = true ∧ one.event? "d" (-1) = none := by
  have same : ∀ producer, callsOf turnsInOrder producer = callsOf turnsAhead producer := by
    rintro (_ | _ | producer) <;> rfl
  have agree : ∀ a ∈ turnsInOrder, ∀ b ∈ turnsInOrder, a.index = b.index → a.event = b.event := by
    decide +kernel
  obtain ⟨hsize, hmark, hcontents, hwindow, hpoll, -, hstored⟩ :=
    interleavings_are_read_alike "d" turnsInOrder turnsAhead same agree
  exact ⟨hsize, hmark, hcontents, (hwindow 0 3 ⟨0, 3⟩ rfl).2, hpoll 0 1 none none, rfl,
    (hstored 3).2 ⟨_, .tail _ (.tail _ (.tail _ (.head _))), rfl, rfl⟩, rfl⟩

end Lifecycle.Store
