import Lifecycle.Watcher

/-! # Crews

A crew is a group of watchers that take their indices from one allocator. -/

namespace Lifecycle

/-- Watchers in order of joining, and the allocator they share. -/
structure Crew where
  allocator : Allocator := {}
  watchers : List Watcher := []
  deriving DecidableEq, Repr, Inhabited

namespace Crew

/-- Lets one watcher act. -/
def act {α : Type} (crew : Crew) (store : Store) (k : Nat)
    (f : Watcher → Desk → Outcome (Watcher × Desk) α) : Option (Outcome (Crew × Store) α) :=
  crew.watchers[k]?.map fun w =>
    let outcome := f w ⟨crew.allocator, store⟩
    let (after, desk) := outcome.state
    ⟨(⟨desk.allocator, crew.watchers.set k after⟩, desk.store), outcome.value, outcome.effects⟩

/-- A watcher of the crew watches the worker of this name. -/
def watches (crew : Crew) (worker : String) : Bool :=
  crew.watchers.any fun w => w.worker.name == worker

/-- The running loops: rank and place of the watcher. -/
def loops (crew : Crew) : List (Nat × Nat) :=
  crew.watchers.zipIdx.filterMap fun (w, k) => w.loop.map (·, k)

/-- One pass of each watcher in turn. The first fault ends it; the watchers behind are not asked. -/
def pollAll (source : Source) (clock : Clock) : List Watcher → Desk →
    Outcome (List Watcher × Desk) Nat
  | [], desk => ⟨([], desk), .ok 0, []⟩
  | w :: rest, desk =>
    let first := w.catchUp source clock desk
    match first.value with
    | .error fault => ⟨(first.state.1 :: rest, first.state.2), .error fault, first.effects⟩
    | .ok stored =>
      let others := pollAll source clock rest first.state.2
      ⟨(first.state.1 :: others.state.1, others.state.2), others.value.map (stored + ·),
        first.effects ++ others.effects⟩

/-- One pass of the whole crew. Its value is the number of new events. -/
def collect (crew : Crew) (store : Store) (source : Source) (clock : Clock) :
    Outcome (Crew × Store) Nat :=
  let outcome := pollAll source clock crew.watchers ⟨crew.allocator, store⟩
  ⟨(⟨outcome.state.2.allocator, outcome.state.1⟩, outcome.state.2.store), outcome.value,
    outcome.effects⟩

/-- Starts the loops of the watchers from place `k` on, with ranks from `rank` on. -/
def startFrom (source : Source) (clock : Clock) (rank : Nat) : List Watcher → Desk →
    (List Watcher × Desk) × List Effect
  | [], desk => (([], desk), [])
  | w :: rest, desk =>
    let first := w.start rank source clock desk
    let ((others, desk), effects) := startFrom source clock (rank + 1) rest first.state.2
    ((first.state.1 :: others, desk), first.effects ++ effects)

/-- Takes new watchers into the crew. -/
def join (crew : Crew) (newcomers : List Watcher) : Crew :=
  { crew with watchers := crew.watchers ++ newcomers }

/-- Stops every loop. -/
def stop (crew : Crew) : Crew × List Effect :=
  ({ crew with watchers := crew.watchers.map fun w => w.stop.1 },
    crew.watchers.flatMap fun w => w.stop.2)

end Crew

end Lifecycle
