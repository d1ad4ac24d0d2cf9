import Lifecycle.Sequence

/-! # The store

The store keeps a sequence for every deployment. It remembers each sequence it ever opened, in order
of opening, and says of each whether it is registered: the registered sequence of a deployment is
the one that reads and puts go to. Evicting a deployment takes its sequence out of the registry and
marks it, so that a writer who found it earlier is refused and looks again. Later events of the
deployment open a new sequence.

A put is made of steps that other writers and evictions may come between: `lookup` finds or opens
the registered sequence, `write` puts into the sequence found, `detach` and `markEvicted` are the
two halves of an eviction. -/

namespace Lifecycle

/-- A sequence the store opened. -/
structure Slot where
  deployment : String
  /-- Reads and puts of the deployment go to this sequence. -/
  registered : Bool := true
  sequence : Sequence

/-- All sequences ever opened, in order of opening. -/
structure Store where
  slots : List Slot := []

instance : Inhabited Store := ⟨{}⟩

/-- Why an event cannot be put. -/
inductive PutFault
  | negativeIndex (index : Int)
  | otherIndex (eventIndex index : Int)
  deriving DecidableEq, Repr

/-- The text of the refusal. -/
def PutFault.message : PutFault → String
  | .negativeIndex index => s!"event index must be non-negative, got {index}"
  | .otherIndex eventIndex index =>
    s!"event index {eventIndex} does not match put index {index}"

/-- What a put did, and what it took. -/
structure PutReport where
  put : Put
  /-- The sequence that answered. -/
  slot : Nat
  /-- A new sequence was opened. -/
  opened : Bool
  /-- How often a sequence had to be found. -/
  lookups : Nat
  deriving DecidableEq, Repr, Inhabited

namespace Slot

/-- The slot serves the deployment. -/
def serves (s : Slot) (id : String) : Bool := s.registered && s.deployment == id

/-- Reads and puts no longer go to the sequence. -/
def detach (s : Slot) : Slot := { s with registered := false }

/-- The sequence takes no more events. -/
def markEvicted (s : Slot) : Slot := { s with sequence := { s.sequence with evicted := true } }

/-- The registered sequence has been idle too long. -/
def isIdle (s : Slot) (maxIdle now : Rat) : Bool := s.registered && s.sequence.isIdle maxIdle now

end Slot

namespace Store

/-- The number of the sequence that serves a deployment. -/
def current? (store : Store) (id : String) : Option Nat :=
  store.slots.findIdx? fun s => s.serves id

/-- The sequence that serves a deployment. -/
def find? (store : Store) (id : String) : Option Sequence :=
  (store.slots.find? fun s => s.serves id).map Slot.sequence

/-- Finds the sequence of a deployment, opening one if there is none. -/
def lookup (store : Store) (now : Rat) (id : String) : Nat × Store :=
  match store.current? id with
  | some slot => (slot, store)
  | none =>
    let opened : Slot := { deployment := id, sequence := { lastWrite := now } }
    (store.slots.length, ⟨store.slots ++ [opened]⟩)

theorem lookup_slot_lt (store : Store) (now : Rat) (id : String) :
    (store.lookup now id).1 < (store.lookup now id).2.slots.length := by
  unfold lookup
  split
  · next h => exact (List.findIdx?_eq_some_iff_findIdx_eq.1 h).1
  · simp

/-- Replaces the sequence with the given number. -/
def setSequence (store : Store) (slot : Nat) (s : Sequence) : Store :=
  ⟨store.slots.modify slot fun old => { old with sequence := s }⟩

/-- Puts into the sequence with the given number, unless it is evicted. -/
def write (store : Store) (now : Rat) (slot : Nat) (index : Int) (event : Event) :
    Option (Put × Store) :=
  match store.slots[slot]? with
  | none => none
  | some s => (s.sequence.put now index event).map fun r => (r.1, store.setSequence slot r.2)

/-- Takes a sequence out of the registry. -/
def detach (store : Store) (slot : Nat) : Store := ⟨store.slots.modify slot Slot.detach⟩

/-- Marks a sequence as evicted. -/
def markEvicted (store : Store) (slot : Nat) : Store := ⟨store.slots.modify slot Slot.markEvicted⟩

/-- What must hold of an index and its event. -/
def check (index : Int) (event : Event) : Except PutFault Unit :=
  if index < 0 then .error (.negativeIndex index)
  else if event.index ≠ index then .error (.otherIndex event.index index)
  else .ok ()

/-- Puts into the first of the sequences in `found` that takes the event, and else into the one that
a new lookup finds. `found` are sequences that earlier lookups found and that may have been evicted
since; the registered sequence is never an evicted one. -/
def putVia (store : Store) (now : Rat) (id : String) (index : Int) (event : Event) :
    List Nat → PutReport × Store
  | [] =>
    let found := store.lookup now id
    let slot := found.2.slots.get ⟨found.1, store.lookup_slot_lt now id⟩
    let (put, sequence) := slot.sequence.insert now index event
    (⟨put, found.1, (store.current? id).isNone, 1⟩, found.2.setSequence found.1 sequence)
  | slot :: found =>
    match store.write now slot index event with
    | some (put, next) => (⟨put, slot, false, 1⟩, next)
    | none =>
      let (report, next) := putVia store now id index event found
      ({ report with lookups := report.lookups + 1 }, next)

/-- Puts an event of a deployment whose sequence was found before. -/
def putFound (store : Store) (now : Rat) (id : String) (index : Int) (event : Event)
    (found : List Nat) : Except PutFault (PutReport × Store) :=
  (check index event).map fun _ => store.putVia now id index event found

/-- Puts an event of a deployment. -/
def put (store : Store) (now : Rat) (id : String) (index : Int) (event : Event) :
    Except PutFault (PutReport × Store) :=
  store.putFound now id index event []

/-- The events of a window in ascending order of their indices; none for an unknown deployment. -/
def extract (store : Store) (id : String) (w : Window) : List Event :=
  match store.find? id with
  | none => []
  | some s => s.extract w

/-- Every index of the window is present. An empty window is complete even for an unknown
deployment. -/
def isComplete (store : Store) (id : String) (w : Window) : Bool :=
  if w.isEmpty then true
  else match store.find? id with
    | none => false
    | some s => s.isComplete w

/-- The mark of a deployment, -1 if it is unknown. -/
def mark (store : Store) (id : String) : Int := ((store.find? id).map Sequence.mark).getD (-1)

/-- The number of events of a deployment. -/
def size (store : Store) (id : String) : Nat := ((store.find? id).map Sequence.size).getD 0

/-- The registered deployments in the order of their sequences. -/
def registered (store : Store) : List String :=
  (store.slots.filter Slot.registered).map Slot.deployment

/-- The registered deployments in alphabetical order. -/
def ids (store : Store) : List String := store.registered.mergeSort fun a b => a ≤ b

/-- Drops the sequence of a deployment, and says whether there was one. -/
def evict (store : Store) (id : String) : Bool × Store :=
  match store.current? id with
  | none => (false, store)
  | some slot => (true, (store.detach slot).markEvicted slot)

/-- Drops every sequence without a new event for longer than `maxIdle`, and says of which
deployments they were. -/
def evictIdle (store : Store) (maxIdle now : Rat) : List String × Store :=
  ((store.slots.filter fun s => s.isIdle maxIdle now).map Slot.deployment,
    ⟨store.slots.map fun s => if s.isIdle maxIdle now then s.detach.markEvicted else s⟩)

theorem check_eq_ok_iff {index : Int} {event : Event} :
    check index event = .ok () ↔ 0 ≤ index ∧ event.index = index := by
  unfold check
  split
  · simp only [reduceCtorEq, false_iff]
    omega
  · split <;> simp_all

end Store

end Lifecycle
