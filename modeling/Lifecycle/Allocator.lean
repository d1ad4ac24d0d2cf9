import Lifecycle.Keyed

/-! # Index allocation

An allocator gives the event lines of one deployment their indices. A line is known by its worker,
by the generation of the worker's log and by its position in that log. The first time a line is
asked for it takes the next free index, and it keeps that index, so a line that is read again lands
where it landed before.

A worker's log moves on to the next generation when it has visibly started anew: it has become
shorter than it once was, or its first line has changed. A read without lines is no evidence of
that. -/

namespace Lifecycle

/-- What a line is known by. -/
structure LineKey where
  worker : String
  generation : Int
  position : Int
  deriving DecidableEq, Repr, Inhabited

/-- What is remembered of a worker's log. -/
structure LogMemory where
  generation : Nat := 0
  /-- The first line of this generation. -/
  first : Option String := none
  /-- The largest number of lines seen in this generation. -/
  longest : Nat := 0
  deriving DecidableEq, Repr, Inhabited

namespace LogMemory

/-- The snapshot shows that the log has started anew. -/
def restartedBy (m : LogMemory) (lines : List String) : Bool :=
  m.first.isSome && !lines.isEmpty && (lines.length < m.longest || lines.head? != m.first)

/-- What is remembered after a snapshot. -/
def observe (m : LogMemory) (lines : List String) : LogMemory :=
  if m.restartedBy lines then ⟨m.generation + 1, lines.head?, lines.length⟩
  else ⟨m.generation, m.first.or lines.head?, max m.longest lines.length⟩

end LogMemory

/-- The lines that have an index, in the order of their indices, and what is remembered of the logs.
-/
structure Allocator where
  keys : List LineKey := []
  logs : Keyed String LogMemory := []
  deriving DecidableEq, Repr, Inhabited

namespace Allocator

/-- The number of indices given out. -/
def size (a : Allocator) : Nat := a.keys.length

/-- What is remembered of a worker's log. -/
def memory (a : Allocator) (worker : String) : LogMemory := (Keyed.get? a.logs worker).getD {}

/-- Takes note of a snapshot of a worker's event lines, and gives the generation of the log. -/
def observe (a : Allocator) (worker : String) (lines : List String) : Nat × Allocator :=
  let memory := (a.memory worker).observe lines
  (memory.generation, { a with logs := Keyed.set a.logs worker memory })

/-- The index of a line, which takes the next one if it has none. -/
def assign (a : Allocator) (key : LineKey) : Nat × Allocator :=
  match a.keys.idxOf? key with
  | some index => (index, a)
  | none => (a.keys.length, { a with keys := a.keys ++ [key] })

theorem memory_observe (a : Allocator) (worker other : String) (lines : List String) :
    (a.observe worker lines).2.memory other =
      if worker == other then (a.memory worker).observe lines else a.memory other := by
  simp only [observe, memory, Keyed.get?_set]
  split <;> simp

end Allocator

end Lifecycle
