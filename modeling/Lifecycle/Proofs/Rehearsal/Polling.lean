import Lifecycle.Proofs.Rehearsal.History

/-! # Schedules

A schedule is a script that starts and stops loops, lets them tick and changes the world. It can be
told without loops: each watcher has a history of starts, stops and halts, it is live as long as the
last of them is a start, and it is polled at each start that finds it dead and at each tick that finds
it live. Faults of these polls are swallowed, but a malformed line goes down in the history as a halt. -/

namespace Lifecycle

/-- A turn of a schedule: something happens to a watcher, to all loops, or to the world. -/
inductive Turn
  | create (name allocator deployment : String) (worker : Worker) (halting : Bool)
  | start (name : String)
  | stop (name : String)
  | tick
  | advance (seconds : Rat)
  | setLines (worker : String) (lines : List String)
  | append (worker line : String)
  | fail (worker : String) (message : Option String)
  | setCluster (change : ClusterChange)

/-- The line of a script that makes a turn. -/
def Turn.step : Turn → Rehearsal.Step
  | .create name allocator deployment worker halting =>
    .newWatcher name allocator { deployment, worker, halting }
  | .start name => .start name
  | .stop name => .stop name
  | .tick => .tick
  | .advance seconds => .advance seconds
  | .setLines worker lines => .setLines worker lines
  | .append worker line => .append worker line
  | .fail worker message => .fail worker message
  | .setCluster change => .setCluster change

namespace Rehearsal

/-- The rehearsal without its watchers. -/
def unmanned (r : Rehearsal) : Rehearsal :=
  { r with crews := [], named := [], collector := { r.collector with tracked := [] } }

/-- The rehearsal after some turns. -/
def playAll (r : Rehearsal) (turns : List Turn) : Rehearsal :=
  turns.foldl (fun r turn => (r.play turn.step).state) r

/-- The place of a named watcher. -/
def placeOf? (r : Rehearsal) (name : String) : Option Place :=
  (Keyed.get? r.named name).filter fun place => (r.watcherAt place).isSome

variable {r : Rehearsal} {name : String} {place : Place} {w : Watcher}

theorem placeOf?_eq_some (h : r.placeOf? name = some place) :
    Keyed.get? r.named name = some place ∧ ∃ w, r.watcherAt place = some w := by
  obtain ⟨hnamed, hw⟩ := Option.filter_eq_some_iff.1 h
  exact ⟨hnamed, Option.isSome_iff_exists.1 hw⟩

theorem watcher?_eq (r : Rehearsal) (name : String) :
    r.watcher? name = (r.placeOf? name).bind r.watcherAt := by
  rw [watcher?, placeOf?]
  cases Keyed.get? r.named name with
  | none => rfl
  | some place =>
    show r.watcherAt place = _
    cases hw : r.watcherAt place with
    | none => rw [Option.filter_some, hw]; rfl
    | some w => rw [Option.filter_some, hw, Option.isSome_some, if_pos rfl, Option.bind_some, hw]

theorem actNamed_of_none (h : r.placeOf? name = none)
    (f : Watcher → Desk → Outcome (Watcher × Desk) Answer) :
    r.actNamed name f = r.refuse (.unknownName name) := by
  rw [placeOf?] at h
  rw [actNamed]
  cases hnamed : Keyed.get? r.named name with
  | none => rfl
  | some place =>
    rw [hnamed, Option.filter_some] at h
    have hnone : r.watcherAt place = none := by
      cases hw : r.watcherAt place with
      | none => rfl
      | some w => exact absurd h (by rw [hw]; simp)
    have hact := act_of_none hnone f
    simp only [Option.bind_eq_bind, Option.bind_some, hact]

theorem actNamed_of_placeOf? (h : r.placeOf? name = some place) (hw : r.watcherAt place = some w)
    (f : Watcher → Desk → Outcome (Watcher × Desk) Answer) :
    r.actNamed name f =
      let outcome := f w (r.deskOf place)
      ⟨r.putBack place outcome.state.1 outcome.state.2, outcome.value, outcome.effects⟩ := by
  have hact := act_of_watcherAt hw f
  rw [actNamed, (placeOf?_eq_some h).1]
  simp only [Option.bind_eq_bind, Option.bind_some, hact]

end Rehearsal

/-! ### Schedules without loops -/

/-- A rehearsal in which no loop is ever run, and the history of the loops. -/
structure Polling where
  rehearsal : Rehearsal
  history : List (Place × Sign) := []

namespace Polling

/-- Adds to the history of the loops. -/
def note (p : Polling) (place : Place) (sign : Sign) : Polling :=
  { p with history := p.history ++ [(place, sign)] }

/-- Polls the watcher at a place once. A malformed line that it halts on is noted, and any other
fault is swallowed. -/
def poll (p : Polling) (place : Place) : Polling :=
  let polled := p.rehearsal.act place.1 place.2 fun w desk =>
    w.catchUp p.rehearsal.source p.rehearsal.clock desk
  match polled with
  | none => p
  | some outcome =>
    let after := { p with rehearsal := outcome.state }
    match outcome.value with
    | .error (.malformedLine line) => after.note place (.halted line)
    | _ => after

/-- One turn: a start polls a dead watcher, a tick polls each live one, and a stop polls none. -/
def turn (p : Polling) : Turn → Polling
  | .start name =>
    match p.rehearsal.placeOf? name with
    | none => p
    | some place =>
      let started := p.note place .started
      if place ∈ live p.history then started else started.poll place
  | .stop name =>
    match p.rehearsal.placeOf? name with
    | none => p
    | some place => p.note place .stopped
  | .tick => (live p.history).foldl poll p
  | other => { p with rehearsal := (p.rehearsal.play other.step).state }

/-- A rehearsal after some turns, with all that polling has done. -/
def after (r : Rehearsal) (turns : List Turn) : Polling := turns.foldl turn ⟨r, []⟩

variable {p : Polling} {place : Place} {v : Watcher}

theorem poll_of_none (h : p.rehearsal.watcherAt place = none) : p.poll place = p := by
  rw [poll, Rehearsal.act_of_none h]

/-- The poll of a watcher that stands at a place. -/
def pollOf (p : Polling) (place : Place) (v : Watcher) : Outcome (Watcher × Desk) Nat :=
  v.catchUp p.rehearsal.source p.rehearsal.clock (p.rehearsal.deskOf place)

theorem poll_of_halt (h : p.rehearsal.watcherAt place = some v) {line : MalformedLine}
    (halt : (p.pollOf place v).value = .error (.malformedLine line)) :
    p.poll place =
      ⟨p.rehearsal.putBack place (p.pollOf place v).state.1 (p.pollOf place v).state.2,
        p.history ++ [(place, .halted line)]⟩ := by
  rw [pollOf] at halt
  rw [poll, Rehearsal.act_of_watcherAt h]
  simp only [halt]
  rfl

theorem poll_of_not_halt (h : p.rehearsal.watcherAt place = some v)
    (halt : ∀ line, (p.pollOf place v).value ≠ .error (.malformedLine line)) :
    p.poll place =
      ⟨p.rehearsal.putBack place (p.pollOf place v).state.1 (p.pollOf place v).state.2,
        p.history⟩ := by
  rw [poll, Rehearsal.act_of_watcherAt h]
  simp only
  split
  · rename_i line hline
    exact absurd hline (halt line)
  · rfl

end Polling

theorem Rehearsal.wake_of_watcherAt {r : Rehearsal} {place : Place} {w : Watcher}
    (h : r.watcherAt place = some w) :
    (r.wake (false, place)).1 =
      r.putBack place (w.wake r.source r.clock (r.deskOf place)).state.1
        (w.wake r.source r.clock (r.deskOf place)).state.2 := by
  rw [wake, act_of_watcherAt h]

theorem Rehearsal.wake_of_none {r : Rehearsal} {place : Place} (h : r.watcherAt place = none) :
    (r.wake (false, place)).1 = r := by
  rw [wake, act_of_none h]

end Lifecycle
