import Lifecycle.Crew

/-! # What watchers do to their allocator

Whatever a watcher does, with whatever log, the allocator of its crew only gains keys, so no line
loses its index, and it looks at no other log than that of the watcher's own worker. -/

namespace Lifecycle

/-- From one allocator to the next, keys have come behind the old ones, and no log was looked at but
those of the workers named. -/
structure Allocator.Grows (names : List String) (before after : Allocator) : Prop where
  keys : before.keys <+: after.keys
  memory : ∀ name, name ∉ names → after.memory name = before.memory name

namespace Allocator

variable {names more : List String} {a b : Allocator}

theorem Grows.refl (names : List String) (a : Allocator) : Grows names a a :=
  ⟨List.prefix_rfl, fun _ _ => rfl⟩

theorem Grows.trans {last : Allocator} (first : Grows names a b) (second : Grows more b last) :
    Grows (names ++ more) a last where
  keys := first.keys.trans second.keys
  memory := by
    intro name hname
    rw [List.mem_append, not_or] at hname
    rw [second.memory name hname.2, first.memory name hname.1]

theorem Grows.mono (h : Grows names a b) (wider : names ⊆ more) : Grows more a b :=
  ⟨h.keys, fun name hname => h.memory name fun hmem => hname (wider hmem)⟩

theorem grows_assign (a : Allocator) (key : LineKey) : Grows [] a (a.assign key).2 := by
  rw [assign]
  split
  · exact Grows.refl [] a
  · exact ⟨List.prefix_append _ _, fun _ _ => rfl⟩

theorem grows_observe (a : Allocator) (worker : String) (lines : List String) :
    Grows [worker] a (a.observe worker lines).2 where
  keys := List.prefix_rfl
  memory := by
    intro name hname
    have hother : (worker == name) = false := beq_false_of_ne fun heq => hname (by simp [heq])
    rw [memory_observe, hother]
    rfl

end Allocator

open Allocator

namespace Watcher

variable (w : Watcher) (source : Source) (clock : Clock) (desk : Desk)

theorem grows_takeLine (generation position : Nat) (line : String) :
    Grows [] desk.allocator (w.takeLine clock generation position line desk).desk.allocator := by
  have hassign := desk.allocator.grows_assign ⟨w.worker.name, generation, position⟩
  unfold takeLine
  split
  · split <;> exact Grows.refl [] _
  · simp only
    split <;> exact hassign

theorem grows_takeLines (generation position : Nat) (lines : List String) :
    Grows [] desk.allocator (w.takeLines clock generation position lines desk).desk.allocator := by
  induction lines generalizing position desk with
  | nil => exact Grows.refl [] _
  | cons line rest ih =>
    have hfirst := w.grows_takeLine clock desk generation position line
    rw [takeLines]
    split
    · exact hfirst
    · exact hfirst.trans (ih _ (position + 1))

theorem grows_pass (lines : List String) :
    Grows [w.worker.name] desk.allocator (w.pass clock lines desk).state.2.allocator := by
  have hobserve := desk.allocator.grows_observe w.worker.name lines
  have hrun (start : Nat) := w.grows_takeLines clock
    { desk with allocator := (desk.allocator.observe w.worker.name lines).2 }
    (desk.allocator.observe w.worker.name lines).1 start (lines.drop start)
  simp only [pass]
  split <;> exact hobserve.trans (hrun _)

theorem grows_catchUp :
    Grows [w.worker.name] desk.allocator (w.catchUp source clock desk).state.2.allocator := by
  simp only [catchUp]
  split
  · exact Grows.refl _ _
  · exact w.grows_pass clock desk _

theorem grows_wake :
    Grows [w.worker.name] desk.allocator (w.wake source clock desk).state.2.allocator := by
  have hpass := w.grows_catchUp source clock desk
  simp only [wake]
  split <;> exact hpass

theorem grows_start (rank : Nat) :
    Grows [w.worker.name] desk.allocator (w.start rank source clock desk).state.2.allocator := by
  simp only [start]
  split
  · exact Grows.refl _ _
  · exact grows_wake { w with loop := some rank } source clock desk

end Watcher

namespace Crew

variable (source : Source) (clock : Clock) (watchers : List Watcher) (desk : Desk)

theorem grows_pollAll :
    Grows (watchers.map fun w => w.worker.name) desk.allocator
      (pollAll source clock watchers desk).state.2.allocator := by
  induction watchers generalizing desk with
  | nil => exact Grows.refl _ _
  | cons w rest ih =>
    have hfirst := w.grows_catchUp source clock desk
    simp only [pollAll]
    split
    · exact hfirst.mono (List.cons_subset_cons _ (List.nil_subset _))
    · exact hfirst.trans (ih _)

theorem grows_startFrom (rank : Nat) :
    Grows (watchers.map fun w => w.worker.name) desk.allocator
      (startFrom source clock rank watchers desk).1.2.allocator := by
  induction watchers generalizing desk rank with
  | nil => exact Grows.refl _ _
  | cons w rest ih =>
    simp only [startFrom]
    exact (w.grows_start source clock desk rank).trans (ih _ (rank + 1))

end Crew

end Lifecycle
