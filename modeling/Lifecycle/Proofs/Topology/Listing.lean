import Lifecycle.Rehearsal

/-! # Operations read off a cluster

A cluster is asked for its deployments and for the pods of one zone, and either call may be refused.
If calls are refused only because there is nothing to be found, the cluster is as good as two fixed
lists, one of units and one of zones, and an operation has the kind and the workers that these lists
give it. Any other refusal is a fault of the question, if the question makes that call. -/

namespace Lifecycle

/-! ### What the lists say of an operation -/

/-- Some unit outside the management application was installed by the operation. -/
def Installs (units : List DeployedUnit) (management operation : String) : Prop :=
  ∃ u ∈ units, u.application ≠ some management ∧ u.deployment = some operation

instance (units : List DeployedUnit) (management operation : String) :
    Decidable (Installs units management operation) :=
  inferInstanceAs (Decidable (∃ u ∈ units, u.application ≠ some management ∧
    u.deployment = some operation))

/-- The kind of an operation by the units that there are. -/
def kindAmong (units : List DeployedUnit) (management operation : String) : Kind :=
  if Installs units management operation then .deployment else .undeployment

/-- No unit before `u` belongs to the operation as one of this kind. -/
def IsFirstUnit (units : List DeployedUnit) (kind : Kind) (operation : String)
    (u : DeployedUnit) : Prop :=
  ∃ before after, units = before ++ u :: after ∧ u.operation kind = some operation ∧
    ∀ v ∈ before, v.operation kind ≠ some operation

theorem Installs.perm {units others : List DeployedUnit} (h : units.Perm others)
    (management operation : String) :
    Installs units management operation ↔ Installs others management operation := by
  simp only [Installs, h.mem_iff]

theorem kindAmong_perm {units others : List DeployedUnit} (h : units.Perm others)
    (management operation : String) :
    kindAmong units management operation = kindAmong others management operation := by
  simp only [kindAmong, Installs.perm h]

theorem find?_unit_eq_some_iff {units : List DeployedUnit} {kind : Kind} {operation : String}
    {u : DeployedUnit} :
    (units.find? fun u => u.operation kind == some operation) = some u ↔
      IsFirstUnit units kind operation u := by
  rw [List.find?_eq_some_iff_append, IsFirstUnit]
  simp only [beq_iff_eq, Bool.not_eq_true', beq_eq_false_iff_ne]
  constructor
  · rintro ⟨hu, before, after, hsplit, hbefore⟩
    exact ⟨before, after, hsplit, hu, hbefore⟩
  · rintro ⟨before, after, hsplit, hu, hbefore⟩
    exact ⟨hu, before, after, hsplit, hbefore⟩

/-! ### What a classifier answers -/

namespace Classifier

variable {c : Classifier} {units : List DeployedUnit} {fault : Fault}

theorem isDeployment_of_units (h : c.topology.units.value = .ok units) (operation : String) :
    (c.isDeployment operation).value = .ok (decide (Installs units c.management operation)) := by
  have hany : (units.any fun u => !c.isManagement u && u.deployment == some operation) =
      decide (Installs units c.management operation) := by
    rw [Bool.eq_iff_iff, List.any_eq_true, decide_eq_true_iff, Installs]
    simp only [isManagement, Bool.and_eq_true, Bool.not_eq_true', beq_eq_false_iff_ne, beq_iff_eq]
  rw [isDeployment, Traced.value_bind, h, ← hany]
  rfl

theorem value_classify (c : Classifier) (operation : String) :
    (c.classify operation).value =
      (c.isDeployment operation).value.map fun b => if b then .deployment else .undeployment := by
  rw [classify, Traced.value_bind]
  cases (c.isDeployment operation).value <;> rfl

theorem classify_of_units (h : c.topology.units.value = .ok units) (operation : String) :
    (c.classify operation).value = .ok (kindAmong units c.management operation) := by
  rw [value_classify, isDeployment_of_units h, kindAmong, Except.map]
  simp only [decide_eq_true_iff]

/-- The workers of a zone that may not be there. -/
def workersIn (zone : Option Zone) : List Worker := (zone.map Zone.workers).getD []

theorem value_workersOf (c : Classifier) (u : DeployedUnit) :
    (c.workersOf u).value = (c.topology.zone u.name).value.map workersIn := by
  rw [workersOf, Traced.value_bind]
  cases (c.topology.zone u.name).value with
  | error fault => rfl
  | ok zone => cases zone <;> rfl

theorem workersFor_of_units (h : c.topology.units.value = .ok units) (operation : String) :
    (c.workersFor operation).value =
      match units.find? fun u =>
        u.operation (kindAmong units c.management operation) == some operation with
      | none => .ok []
      | some u => (c.topology.zone u.name).value.map workersIn := by
  rw [workersFor, Traced.value_bind, classify_of_units h]
  show ((c.findUnit operation (kindAmong units c.management operation)) >>= _).value = _
  have hfound : (c.findUnit operation (kindAmong units c.management operation)).value =
      .ok (units.find? fun u =>
        u.operation (kindAmong units c.management operation) == some operation) := by
    rw [findUnit, Traced.value_bind, h]
    rfl
  rw [Traced.value_bind, hfound]
  cases units.find? fun u =>
      u.operation (kindAmong units c.management operation) == some operation with
  | none => rfl
  | some u => exact c.value_workersOf u

/-- If the units cannot be listed, no question has an answer. -/
theorem isDeployment_of_fault (h : c.topology.units.value = .error fault) (operation : String) :
    (c.isDeployment operation).value = .error fault := by
  rw [isDeployment, Traced.value_bind, h]
  rfl

theorem classify_of_fault (h : c.topology.units.value = .error fault) (operation : String) :
    (c.classify operation).value = .error fault := by
  rw [classify, Traced.value_bind, isDeployment_of_fault h]
  rfl

theorem workersFor_of_fault (h : c.topology.units.value = .error fault) (operation : String) :
    (c.workersFor operation).value = .error fault := by
  rw [workersFor, Traced.value_bind, classify_of_fault h]
  rfl

end Classifier

/-! ### A cluster as two lists -/

/-- A call with this refusal has an answer: it is not refused, or nothing was found. -/
def Answered (refusal : Option Int) : Prop := ∀ status, refusal = some status → status = 404

theorem answered_none : Answered none := fun _ h => absurd h (by simp)

theorem answered_notFound : Answered (some 404) := fun _ h => (Option.some.inj h).symm

/-- A call is refused for a reason other than that nothing was found, or it has an answer. -/
theorem answered_or_refused (refusal : Option Int) :
    Answered refusal ∨ ∃ status, refusal = some status ∧ status ≠ 404 := by
  cases refusal with
  | none => exact Or.inl answered_none
  | some status =>
    by_cases h : status = 404
    · rw [h]
      exact Or.inl answered_notFound
    · exact Or.inr ⟨status, rfl, h⟩

theorem Traced.value_map {α β : Type} (f : α → β) (x : Traced α) :
    (f <$> x).value = x.value.map f := by
  show (x.andThen fun a => of (f a)).value = x.value.map f
  unfold andThen
  cases x.value <;> rfl

theorem Traced.value_recover_refused {α : Type} {x : Traced α} {handler : Fault → Option α}
    (status : Int) (h : x.value = .error (.refused status))
    (unknown : handler (.refused status) = none) :
    (x.recover handler).value = .error (.refused status) := by
  unfold recover
  rw [h]
  simp only [unknown, h]

namespace Cluster

variable {c : Cluster}

/-- The units that the deployments of the cluster stand for, in the order of the listing. -/
def listedUnits (c : Cluster) : List DeployedUnit :=
  if c.refusals.deployments = none then c.deployments.map ListedDeployment.unit else []

/-- The zones that the labelled pods of the cluster make. -/
def listedZones (c : Cluster) : List Zone :=
  if c.refusals.pods = none then
    c.pods.map fun (name, pods) => .ofList name (pods.map ListedPod.worker)
  else []

/-- The two lists of the cluster as a topology that does not change. -/
def listed (c : Cluster) : Topology := .fixed c.listedUnits c.listedZones

theorem units_of_answered (h : Answered c.refusals.deployments) (space : String) :
    (c.units space).value = .ok c.listedUnits := by
  unfold units listDeployments ask listedUnits Traced.recover
  cases hrefusal : c.refusals.deployments with
  | none => rfl
  | some status =>
    rw [h status hrefusal]
    rfl

theorem units_of_refused {status : Int} (h : c.refusals.deployments = some status)
    (hstatus : status ≠ 404) (space : String) :
    (c.units space).value = .error (.refused status) := by
  unfold units listDeployments ask
  rw [h, Traced.value_map, Traced.value_recover_refused status rfl]
  · rfl
  · split
    · rename_i hfound
      exact absurd (Fault.refused.inj hfound) hstatus
    · rfl

/-- The pods that the cluster lists for a zone. -/
def podsOf (c : Cluster) (zone : String) : List ListedPod :=
  if c.refusals.pods = none then (Keyed.get? c.pods zone).getD [] else []

/-- The workers of a zone are those of its pods, each once. -/
def workersOfPods (pods : List ListedPod) : List Worker :=
  (Zone.ofList "" (pods.map ListedPod.worker)).workers

theorem workersOfPods_nil : workersOfPods [] = [] := by
  simp [workersOfPods, Zone.ofList]

theorem mem_workersOfPods {pods : List ListedPod} {w : Worker} :
    w ∈ workersOfPods pods ↔ ∃ pod ∈ pods, pod.worker = w := by
  rw [workersOfPods, Zone.ofList]
  simp only [List.mem_mergeSort, List.mem_eraseDups, List.mem_map]

theorem find?_map_zone (pods : Keyed String (List ListedPod)) (name : String) :
    ((pods.map fun (name, pods) => Zone.ofList name (pods.map ListedPod.worker)).find? fun z =>
        z.name == name) =
      (Keyed.get? pods name).map fun pods => Zone.ofList name (pods.map ListedPod.worker) := by
  induction pods with
  | nil => rfl
  | cons e rest ih =>
    rw [List.map_cons, List.find?_cons, Keyed.get?_cons, ih]
    by_cases h : e.1 = name
    · simp [Zone.ofList, h]
    · simp [Zone.ofList, beq_false_of_ne h]

theorem listed_zone (c : Cluster) (name : String) :
    (c.listed.zone name).value.map Classifier.workersIn = .ok (workersOfPods (c.podsOf name)) := by
  show Except.ok (Classifier.workersIn (c.listedZones.find? fun z => z.name == name)) = _
  unfold listedZones podsOf
  split
  · rw [find?_map_zone]
    cases Keyed.get? c.pods name with
    | none =>
      rw [Option.getD_none, workersOfPods_nil]
      rfl
    | some pods => rfl
  · rw [workersOfPods_nil]
    rfl

/-- A zone without pods is not there, which makes no difference to its workers. -/
theorem zone_of_answered (h : Answered c.refusals.pods) (space name : String) :
    (c.zone space name).value.map Classifier.workersIn = .ok (workersOfPods (c.podsOf name)) := by
  unfold zone
  rw [Traced.value_bind]
  unfold listPods ask podsOf Traced.recover
  cases hrefusal : c.refusals.pods with
  | none =>
    rw [if_pos rfl]
    cases (Keyed.get? c.pods name).getD [] with
    | nil =>
      rw [workersOfPods_nil]
      rfl
    | cons pod rest => rfl
  | some status =>
    rw [h status hrefusal, if_neg (by simp), workersOfPods_nil]
    rfl

theorem zone_of_refused {status : Int} (h : c.refusals.pods = some status)
    (hstatus : status ≠ 404) (space name : String) :
    (c.zone space name).value.map Classifier.workersIn = .error (.refused status) := by
  unfold zone
  rw [Traced.value_bind]
  unfold listPods ask
  rw [h, Traced.value_recover_refused status rfl]
  · rfl
  · split
    · rename_i hfound
      exact absurd (Fault.refused.inj hfound) hstatus
    · rfl

/-! ### The workers of an operation -/

/-- The unit whose workers take part in an operation. -/
def firstUnit? (c : Cluster) (management operation : String) : Option DeployedUnit :=
  c.listedUnits.find? fun u =>
    u.operation (kindAmong c.listedUnits management operation) == some operation

/-- The workers that take part in an operation. -/
def workersOf (c : Cluster) (management operation : String) : List Worker :=
  ((c.firstUnit? management operation).map fun u => workersOfPods (c.podsOf u.name)).getD []

theorem firstUnit?_eq_some_iff {management operation : String} {u : DeployedUnit} :
    c.firstUnit? management operation = some u ↔
      IsFirstUnit c.listedUnits (kindAmong c.listedUnits management operation) operation u :=
  find?_unit_eq_some_iff

theorem mem_workersOf_iff {management operation : String} {w : Worker} :
    w ∈ c.workersOf management operation ↔
      ∃ u, IsFirstUnit c.listedUnits (kindAmong c.listedUnits management operation) operation u ∧
        ∃ pod ∈ c.podsOf u.name, pod.worker = w := by
  simp only [← firstUnit?_eq_some_iff, ← mem_workersOfPods, workersOf]
  cases c.firstUnit? management operation with
  | none => simp
  | some u => simp

section

variable (management operation : String)

theorem workersFor_listed :
    (Classifier.workersFor ⟨c.listed, management⟩ operation).value =
      .ok (c.workersOf management operation) := by
  have hunits : c.listed.units.value = .ok c.listedUnits := rfl
  rw [Classifier.workersFor_of_units hunits, workersOf, firstUnit?]
  simp only
  split
  · rename_i hnone
    rw [hnone]
    rfl
  · rename_i u hu
    rw [hu]
    exact c.listed_zone u.name

theorem workersFor_of_no_unit (hunits : Answered c.refusals.deployments) (space : String)
    (hnone : c.firstUnit? management operation = none) :
    (Classifier.workersFor ⟨c.topology space, management⟩ operation).value =
      .ok (c.workersOf management operation) := by
  rw [Classifier.workersFor_of_units (units_of_answered hunits space), workersOf, hnone]
  rw [firstUnit?] at hnone
  simp only [hnone]
  rfl

/-- The pods are asked for only if the operation has a unit. -/
theorem workersFor_of_unit (hunits : Answered c.refusals.deployments) (space : String)
    {u : DeployedUnit} (hu : c.firstUnit? management operation = some u) :
    (Classifier.workersFor ⟨c.topology space, management⟩ operation).value =
      (c.zone space u.name).value.map Classifier.workersIn := by
  rw [Classifier.workersFor_of_units (units_of_answered hunits space)]
  rw [firstUnit?] at hu
  simp only [hu]
  rfl

theorem workersFor_of_answered (hunits : Answered c.refusals.deployments)
    (hzones : Answered c.refusals.pods) (space : String) :
    (Classifier.workersFor ⟨c.topology space, management⟩ operation).value =
      .ok (c.workersOf management operation) := by
  cases hu : c.firstUnit? management operation with
  | none => exact workersFor_of_no_unit management operation hunits space hu
  | some u =>
    rw [workersFor_of_unit management operation hunits space hu, zone_of_answered hzones,
      workersOf, hu]
    rfl

/-! ### When a question is a fault -/

theorem isDeployment_eq_error_iff (space : String) {fault : Fault} :
    (Classifier.isDeployment ⟨c.topology space, management⟩ operation).value = .error fault ↔
      ∃ status, fault = .refused status ∧ c.refusals.deployments = some status ∧ status ≠ 404 := by
  rcases answered_or_refused c.refusals.deployments with hunits | ⟨status, hstatus, hne⟩
  · rw [Classifier.isDeployment_of_units (units_of_answered hunits space)]
    constructor
    · intro h
      exact absurd h (by simp)
    · rintro ⟨status, -, hstatus, hne⟩
      exact absurd (hunits status hstatus) hne
  · rw [Classifier.isDeployment_of_fault (units_of_refused hstatus hne space), Except.error.injEq]
    constructor
    · intro h
      exact ⟨status, h.symm, hstatus, hne⟩
    · rintro ⟨other, rfl, hother, -⟩
      rw [Option.some.inj (hstatus.symm.trans hother)]

theorem workersFor_eq_error_iff (space : String) {fault : Fault} :
    (Classifier.workersFor ⟨c.topology space, management⟩ operation).value = .error fault ↔
      ∃ status, fault = .refused status ∧ status ≠ 404 ∧
        (c.refusals.deployments = some status ∨ c.refusals.pods = some status ∧
          Answered c.refusals.deployments ∧ ∃ u, IsFirstUnit c.listedUnits
            (kindAmong c.listedUnits management operation) operation u) := by
  simp only [← firstUnit?_eq_some_iff]
  rcases answered_or_refused c.refusals.deployments with hunits | ⟨status, hstatus, hne⟩
  · cases hu : c.firstUnit? management operation with
    | none =>
      rw [workersFor_of_no_unit management operation hunits space hu]
      constructor
      · intro h
        exact absurd h (by simp)
      · rintro ⟨status, -, hne, hstatus | ⟨-, -, u, hsome⟩⟩
        · exact absurd (hunits status hstatus) hne
        · exact absurd hsome (by simp)
    | some u =>
      rw [workersFor_of_unit management operation hunits space hu]
      rcases answered_or_refused c.refusals.pods with hzones | ⟨status, hstatus, hne⟩
      · rw [zone_of_answered hzones]
        constructor
        · intro h
          exact absurd h (by simp)
        · rintro ⟨status, -, hne, hstatus | ⟨hstatus, -, -⟩⟩
          · exact absurd (hunits status hstatus) hne
          · exact absurd (hzones status hstatus) hne
      · rw [zone_of_refused hstatus hne, Except.error.injEq]
        constructor
        · intro h
          exact ⟨status, h.symm, hne, Or.inr ⟨hstatus, hunits, u, rfl⟩⟩
        · rintro ⟨other, rfl, hother, hdeployments | ⟨hpods, -, -⟩⟩
          · exact absurd (hunits other hdeployments) hother
          · rw [Option.some.inj (hstatus.symm.trans hpods)]
  · rw [Classifier.workersFor_of_fault (units_of_refused hstatus hne space), Except.error.injEq]
    constructor
    · intro h
      exact ⟨status, h.symm, hne, Or.inl hstatus⟩
    · rintro ⟨other, rfl, -, hother | ⟨-, hanswered, -⟩⟩
      · rw [Option.some.inj (hstatus.symm.trans hother)]
      · exact absurd (hanswered status hstatus) hne

end

end Cluster

/-! ### Questions of a rehearsal -/

theorem map_eq_error_iff {ε α β : Type} {f : α → β} {x : Except ε α} {e : ε} :
    x.map f = .error e ↔ x = .error e := by
  cases x with
  | error _ => simp [Except.map]
  | ok _ => simp [Except.map]

namespace Rehearsal

theorem act?_classify (r : Rehearsal) (operation : String) :
    (r.act? (.classify operation)).value =
      ((r.world.classifier.isDeployment operation).value.map fun b =>
        if b then .deployment else .undeployment).map .kind := by
  rw [← Classifier.value_classify]
  rfl

/-- The rehearsal with the two lists of its cluster in place of the cluster. -/
def overLists (r : Rehearsal) : Rehearsal :=
  { r with backing := none, units := r.cluster.listedUnits, zones := r.cluster.listedZones }

/-- If the cluster refuses no more than what is not there, questions about an operation are answered
as over its two lists. The kind is that of the units in any order, and the workers are those of the
pods of the first unit, the management application included. Any other refusal is a fault of just the
questions that make the call. -/
theorem operations_over_a_cluster (r : Rehearsal) (backing : Backing) (operation : String) :
    let live := { r with backing := some backing }
    let units := r.cluster.listedUnits
    let refusals := r.cluster.refusals
    let kind := kindAmong units r.management operation
    (Answered refusals.deployments → Answered refusals.pods →
      ∀ question ∈ [Step.classify operation, .isDeployment operation, .isUndeployment operation,
          .workersFor operation],
        (live.act? question).value = (r.overLists.act? question).value) ∧
      (r.overLists.act? (.isDeployment operation)).value =
        .ok (.flag (decide (Installs units r.management operation))) ∧
      (r.overLists.act? (.isUndeployment operation)).value =
        .ok (.flag !(decide (Installs units r.management operation))) ∧
      (∀ listed, listed.Perm units →
        ({ r.overLists with units := listed }.act? (.classify operation)).value =
          .ok (.kind kind)) ∧
      (∃ workers, (r.overLists.act? (.workersFor operation)).value = .ok (.workers workers) ∧
        ∀ w, w ∈ workers ↔ ∃ u, IsFirstUnit units kind operation u ∧
          ∃ pod ∈ r.cluster.podsOf u.name, pod.worker = w) ∧
      (∀ fault, ∀ question ∈ [Step.classify operation, .isDeployment operation,
          .isUndeployment operation],
        (live.act? question).value = .error fault ↔
          ∃ status, fault = .refused status ∧ refusals.deployments = some status ∧
            status ≠ 404) ∧
      (∀ fault, (live.act? (.workersFor operation)).value = .error fault ↔
        ∃ status, fault = .refused status ∧ status ≠ 404 ∧
          (refusals.deployments = some status ∨ refusals.pods = some status ∧
            Answered refusals.deployments ∧ ∃ u, IsFirstUnit units kind operation u)) := by
  intro live units refusals kind
  have hlisted : r.overLists.world.classifier.topology.units.value = .ok units := rfl
  have hdeployment := Classifier.isDeployment_of_units hlisted operation
  have hworkers : (r.overLists.world.classifier.workersFor operation).value =
      .ok (r.cluster.workersOf r.management operation) :=
    Cluster.workersFor_listed r.management operation
  refine ⟨?_, congrArg (Except.map Answer.flag) hdeployment,
    congrArg (Except.map fun b => Answer.flag !b) hdeployment, ?_, ?_, ?_, ?_⟩
  · intro hunits hzones question hquestion
    have hsame : (live.world.classifier.isDeployment operation).value =
        (r.overLists.world.classifier.isDeployment operation).value :=
      (Classifier.isDeployment_of_units (Cluster.units_of_answered hunits backing.space)
        operation).trans hdeployment.symm
    simp only [List.mem_cons, List.not_mem_nil, or_false] at hquestion
    rcases hquestion with rfl | rfl | rfl | rfl
    · rw [act?_classify, act?_classify, hsame]
    · exact congrArg (Except.map Answer.flag) hsame
    · exact congrArg (Except.map fun b => Answer.flag !b) hsame
    · refine congrArg (Except.map Answer.workers) (Eq.trans ?_ hworkers.symm)
      exact Cluster.workersFor_of_answered r.management operation hunits hzones backing.space
  · intro listed hperm
    have hkind := Classifier.classify_of_units
      (c := ⟨.fixed listed r.cluster.listedZones, r.management⟩) rfl operation
    rw [kindAmong_perm hperm] at hkind
    exact congrArg (Except.map Answer.kind) hkind
  · refine ⟨_, congrArg (Except.map Answer.workers) hworkers, ?_⟩
    exact fun w => Cluster.mem_workersOf_iff
  · intro fault question hquestion
    rw [← Cluster.isDeployment_eq_error_iff r.management operation backing.space]
    simp only [List.mem_cons, List.not_mem_nil, or_false] at hquestion
    rcases hquestion with rfl | rfl | rfl
    · rw [act?_classify, map_eq_error_iff, map_eq_error_iff]
      rfl
    · exact map_eq_error_iff
    · exact map_eq_error_iff
  · intro fault
    rw [← Cluster.workersFor_eq_error_iff r.management operation backing.space]
    exact map_eq_error_iff

/-- A cluster whose first unit of the operation belongs to the management application. -/
def twoUnits : Cluster where
  deployments :=
    [⟨"console", [("deploy-events.io/deployment-id", "blue")],
        [("deploy-events.io/application", "management")]⟩,
      ⟨"web", [("deploy-events.io/deployment-id", "blue"),
        ("deploy-events.io/undeployment-id", "green")], []⟩]
  pods := [("web", [⟨"web-0", some ⟨some "node-2"⟩, some ⟨some "10.0.0.2"⟩⟩]),
    ("console", [⟨"console-0", none, some ⟨some ""⟩⟩])]

/-- The other unit makes it a deployment, and the workers are those of the first. -/
theorem management_lends_its_workers :
    let r : Rehearsal := { cluster := twoUnits, backing := some { space := "default" } }
    Answered twoUnits.refusals.deployments ∧ Answered twoUnits.refusals.pods ∧
      (r.act? (.classify "blue")).value = .ok (.kind .deployment) ∧
      (r.act? (.workersFor "blue")).value =
        .ok (.workers [⟨"console-0", ⟨"console-0", "unknown"⟩⟩]) := by
  intro r
  have hsame := (operations_over_a_cluster r { space := "default" } "blue").1 answered_none
    answered_none
  refine ⟨answered_none, answered_none, ?_, ?_⟩
  · exact (hsame (.classify "blue") (by simp)).trans rfl
  · have hworkers : twoUnits.workersOf "management" "blue" =
        [⟨"console-0", ⟨"console-0", "unknown"⟩⟩] := by
      decide +kernel
    rw [← hworkers]
    refine (hsame (.workersFor "blue") (by simp)).trans ?_
    exact congrArg (Except.map Answer.workers)
      (Cluster.workersFor_listed (c := twoUnits) "management" "blue")

end Rehearsal

end Lifecycle
