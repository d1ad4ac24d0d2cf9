import Lifecycle.Proofs.Collector.Discovery

/-! # Tracking that fails

Tracking asks the topology four times. It asks for the units to tell the kind of the operation, and
enrols the operation. Then the refresh asks for the units to tell the kind again, for the units to
find the operation's unit, and for the zone of that unit. Each question may fail, and it may find
another topology than the one before. If the first fails, nothing has been done. If a later one
fails, the operation stays enrolled: tracking reports a fault, and the operation is tracked all the
same, without a watcher unless it had one before. -/

namespace Lifecycle

/-! ### Questions that fail -/

theorem Traced.bind_error_iff {α β : Type} {x : Traced α} {f : α → Traced β} {fault : Fault} :
    (x >>= f).value = .error fault ↔
      x.value = .error fault ∨ ∃ a, x.value = .ok a ∧ (f a).value = .error fault := by
  rw [Traced.value_bind]
  cases x.value with
  | error other =>
    show (Except.error other : Except Fault β) = .error fault ↔ _
    simp only [Except.error.injEq, reduceCtorEq, false_and, exists_false, or_false]
  | ok a =>
    simp only [reduceCtorEq, false_or, Except.ok.injEq, exists_eq_left']
    exact Iff.rfl

namespace Classifier

variable {classifier : Classifier} {operation : String} {fault : Fault}

theorem classify_error_iff : (classifier.classify operation).value = .error fault ↔
    classifier.topology.units.value = .error fault := by
  simp only [classify, isDeployment, Traced.bind_error_iff, Traced.value_pure, reduceCtorEq,
    and_false, exists_false, or_false]

theorem findUnit_error_iff {kind : Kind} :
    (classifier.findUnit operation kind).value = .error fault ↔
      classifier.topology.units.value = .error fault := by
  simp only [findUnit, Traced.bind_error_iff, Traced.value_pure, reduceCtorEq, and_false,
    exists_false, or_false]

theorem workersOf_error_iff {u : DeployedUnit} :
    (classifier.workersOf u).value = .error fault ↔
      (classifier.topology.zone u.name).value = .error fault := by
  rw [workersOf, Traced.bind_error_iff, or_iff_left]
  rintro ⟨zone, -, h⟩
  cases zone <;> exact absurd h (by simp)

end Classifier

/-! ### Questions that find different topologies -/

/-- What each question of a tracking is put to, in the order in which they are asked: the kind of
the operation, its kind again, its unit, and the workers of the unit. -/
structure Inquiry where
  kind : Classifier
  kindAgain : Classifier
  unit : Classifier
  workers : Classifier

namespace Inquiry

/-- All questions find the same. -/
def still (classifier : Classifier) : Inquiry := ⟨classifier, classifier, classifier, classifier⟩

/-- The workers that take part in an operation. -/
def workersFor (asked : Inquiry) (operation : String) : Traced (List Worker) := do
  let kind ← asked.kindAgain.classify operation
  match ← asked.unit.findUnit operation kind with
  | none =>
    Traced.emit (.record (Journal.noUnit kind.name operation))
    return []
  | some u => asked.workers.workersOf u

/-- A question that is asked once the operation is enrolled fails: for the units, for the units
again, or for the zone of the unit that was found. -/
inductive FailsLater (asked : Inquiry) (operation : String) (fault : Fault) : Prop
  | kindAgain (h : asked.kindAgain.topology.units.value = .error fault)
  | unit (kind : Kind) (hkind : (asked.kindAgain.classify operation).value = .ok kind)
      (h : asked.unit.topology.units.value = .error fault)
  | workers (kind : Kind) (u : DeployedUnit)
      (hkind : (asked.kindAgain.classify operation).value = .ok kind)
      (hunit : (asked.unit.findUnit operation kind).value = .ok (some u))
      (h : (asked.workers.topology.zone u.name).value = .error fault)

variable {asked : Inquiry} {operation : String} {fault : Fault}

theorem workersFor_error_iff :
    (asked.workersFor operation).value = .error fault ↔ asked.FailsLater operation fault := by
  rw [workersFor, Traced.bind_error_iff, Classifier.classify_error_iff]
  simp only [Traced.bind_error_iff, Classifier.findUnit_error_iff]
  constructor
  · rintro (h | ⟨kind, hkind, h | ⟨found, hunit, h⟩⟩)
    · exact .kindAgain h
    · exact .unit kind hkind h
    · cases found with
      | none => exact absurd h nofun
      | some u => exact .workers kind u hkind hunit (Classifier.workersOf_error_iff.1 h)
  · rintro (h | ⟨kind, hkind, h⟩ | ⟨kind, u, hkind, hunit, h⟩)
    · exact Or.inl h
    · exact Or.inr ⟨kind, hkind, Or.inl h⟩
    · exact Or.inr ⟨kind, hkind, Or.inr ⟨some u, hunit, Classifier.workersOf_error_iff.2 h⟩⟩

end Inquiry

namespace Collector

/-- Begins to collect the events of an operation, while the topology may change from one question
to the next. -/
def trackAsking (c : Collector) (asked : Inquiry) (source : Source) (clock : Clock) (rank : Nat)
    (operation : String) (start : Bool) : Outcome Collector Kind :=
  c.trackWith (asked.kind.classify operation)
    (fun d => d.refreshWith (asked.workersFor operation) source clock rank operation start) operation

variable {c : Collector} {operation : String}

/-- Tracking is this, in a world that stays as it is. -/
theorem trackAsking_still (c : Collector) (world : World) (rank : Nat) (operation : String)
    (start : Bool) :
    c.trackAsking (.still world.classifier) world.source world.clock rank operation start =
      c.track world rank operation start := rfl

theorem refreshWith_of_error {found : Traced (List Worker)} {fault : Fault}
    (h : found.value = .error fault) (c : Collector) (source : Source) (clock : Clock) (rank : Nat)
    (operation : String) (start : Bool) :
    (c.refreshWith found source clock rank operation start).state = c ∧
      (c.refreshWith found source clock rank operation start).value = .error fault := by
  simp only [refreshWith, h, and_self]

theorem refreshWith_of_ok {found : Traced (List Worker)} {workers : List Worker} {crew : Crew}
    (h : found.value = .ok workers) (hcrew : c.crew? operation = some crew) (source : Source)
    (clock : Clock) (rank : Nat) (start : Bool) :
    ((c.refreshWith found source clock rank operation start).state.crew? operation).isSome = true ∧
      ∃ created, (c.refreshWith found source clock rank operation start).value = .ok created := by
  simp only [refreshWith, h, hcrew, crew?_update, if_true, Option.isSome_some, true_and]
  exact ⟨_, rfl⟩

/-- The collector in which an operation is enrolled differs in nothing but its crew. -/
theorem crew?_enrol_other (c : Collector) (operation other : String) :
    (c.enrol operation).crew? other =
      if operation = other then some ((c.crew? operation).getD {}) else c.crew? other := by
  split
  · rename_i heq
    rw [← heq, crew?_enrol]
  · rename_i hne
    rw [enrol]
    split
    · rfl
    · rw [crew?, Keyed.get?_set, beq_false_of_ne hne, if_neg Bool.false_ne_true, crew?]

theorem enrol_eq_iff : c.enrol operation = c ↔ (c.crew? operation).isSome = true := by
  constructor
  · intro h
    rw [← h, crew?_enrol]
    rfl
  · intro h
    obtain ⟨crew, hcrew⟩ := Option.isSome_iff_exists.1 h
    rw [enrol, hcrew]

/-! ### Main result -/

/-- Tracking gives the kind of the operation and tracks it, or fails. If it fails at its first
question, the collector is as it was. If it fails later, the operation has got a crew, without a
watcher if it had no crew before, and nothing else has changed: so the collector is as it was only if
the operation was tracked already. -/
theorem failed_tracking_only_enrols (c : Collector) (asked : Inquiry) (source : Source)
    (clock : Clock) (rank : Nat) (operation : String) (start : Bool) :
    let outcome := c.trackAsking asked source clock rank operation start
    let after := outcome.state
    (∃ kind workers, outcome.value = .ok kind ∧
        (asked.kind.classify operation).value = .ok kind ∧
        (asked.workersFor operation).value = .ok workers ∧
        (after.crew? operation).isSome = true) ∨
      (∃ fault, outcome.value = .error fault ∧
        asked.kind.topology.units.value = .error fault ∧ after = c) ∨
      ∃ fault kind, outcome.value = .error fault ∧
        (asked.kind.classify operation).value = .ok kind ∧
        asked.FailsLater operation fault ∧
        after.store = c.store ∧ after.halting = c.halting ∧
        (∀ other, after.crew? other =
          if operation = other then some ((c.crew? operation).getD {}) else c.crew? other) ∧
        (after = c ↔ (c.crew? operation).isSome = true) := by
  intro outcome after
  cases hkind : (asked.kind.classify operation).value with
  | error fault =>
    right; left
    have houtcome : outcome = ⟨c, .error fault, (asked.kind.classify operation).effects⟩ := by
      simp only [outcome, trackAsking, trackWith, hkind]
    exact ⟨fault, by rw [houtcome], Classifier.classify_error_iff.1 hkind,
      congrArg Outcome.state houtcome⟩
  | ok kind =>
    have hstate : after = ((c.enrol operation).refreshWith (asked.workersFor operation) source
        clock rank operation start).state := by
      simp only [after, outcome, trackAsking, trackWith, hkind]
    have hvalue : outcome.value = ((c.enrol operation).refreshWith (asked.workersFor operation)
        source clock rank operation start).value.map fun _ => kind := by
      simp only [outcome, trackAsking, trackWith, hkind]
    cases hfound : (asked.workersFor operation).value with
    | error fault =>
      right; right
      obtain ⟨hsame, hfault⟩ := refreshWith_of_error hfound (c.enrol operation) source clock rank
        operation start
      rw [hfault] at hvalue
      rw [hsame] at hstate
      refine ⟨fault, kind, hvalue, rfl, Inquiry.workersFor_error_iff.1 hfound, ?_⟩
      rw [hstate]
      exact ⟨c.enrol_store operation, c.halting_enrol operation, c.crew?_enrol_other operation,
        enrol_eq_iff⟩
    | ok workers =>
      left
      obtain ⟨htracked, created, hcreated⟩ := refreshWith_of_ok hfound (c.crew?_enrol operation)
        source clock rank start
      rw [hcreated] at hvalue
      rw [← hstate] at htracked
      exact ⟨kind, workers, hvalue, rfl, rfl, htracked⟩

/-- The zone of the operation's unit cannot be asked for, and the operation, unknown before, is
tracked in spite of the fault. -/
theorem failed_tracking_is_not_undone :
    ¬∀ (c : Collector) (world : World) (rank : Nat) (operation : String) (start : Bool),
      let outcome := c.track world rank operation start
      (∃ kind, outcome.value = .ok kind ∧ (outcome.state.crew? operation).isSome = true) ∨
        ∃ fault, outcome.value = .error fault ∧ outcome.state.tracked = c.tracked := by
  intro h
  have hvalue : (track {} refusing 0 "blue" true).value = .error (.refused 500) := rfl
  have htracked : (track {} refusing 0 "blue" true).state.tracked = [("blue", {})] := rfl
  rcases h {} refusing 0 "blue" true with ⟨kind, hok, -⟩ | ⟨fault, -, hsame⟩
  · rw [hvalue] at hok
    exact absurd hok (by simp)
  · rw [htracked] at hsame
    exact List.cons_ne_nil _ _ hsame

end Collector

end Lifecycle
