import Lifecycle.Rehearsal

/-! # Asking and stopping leave no counts

Whatever a classifier or a source is asked, it makes calls and log records and nothing else, as long
as that is true of the topology and of the reads underneath. It is true of the world of a rehearsal,
whose answers come from lists or from a cluster. A loop that is stopped leaves a record. So no sort
of effects to which calls and records do not belong ever comes from asking or from stopping. -/

namespace Lifecycle

namespace Effect

/-- No effect is of this sort. -/
def Free (sort : Effect → Bool) (effects : List Effect) : Prop := ∀ e ∈ effects, sort e = false

/-- No call and no log record is of this sort. -/
structure OfCounts (sort : Effect → Bool) : Prop where
  call : ∀ call, sort (.call call) = false
  record : ∀ record, sort (.record record) = false

variable {sort : Effect → Bool}

theorem free_nil (sort : Effect → Bool) : Free sort [] := fun _ he => absurd he List.not_mem_nil

theorem free_append {a b : List Effect} : Free sort (a ++ b) ↔ Free sort a ∧ Free sort b :=
  List.forall_mem_append

theorem OfCounts.free_record (h : OfCounts sort) (record : Record) : Free sort [.record record] :=
  fun _ he => by rw [List.mem_singleton.1 he]; exact h.record record

/-- The effect is a count. -/
def isTally : Effect → Bool
  | .tally _ => true
  | _ => false

theorem ofCounts_isTally : OfCounts isTally := ⟨fun _ => rfl, fun _ => rfl⟩

theorem tallies_of_free {effects : List Effect} (h : Free isTally effects) :
    tallies effects = [] := by
  refine List.filterMap_eq_nil_iff.2 ?_
  intro e he
  cases e with
  | tally tally => exact absurd (h _ he) (Bool.false_ne_true ∘ Eq.symm)
  | _ => rfl

end Effect

open Effect

variable {sort : Effect → Bool}

namespace Traced

theorem free_bind {α β : Type} {x : Traced α} {f : α → Traced β} (hx : Free sort x.effects)
    (hf : ∀ a, Free sort (f a).effects) : Free sort (x >>= f).effects := by
  show Free sort (x.andThen f).effects
  unfold andThen
  split
  · exact hx
  · exact free_append.2 ⟨hx, hf _⟩

theorem free_recover {α : Type} {x : Traced α} (hx : Free sort x.effects)
    (handler : Fault → Option α) : Free sort (x.recover handler).effects := by
  unfold recover
  split
  · exact hx
  · split <;> exact hx

end Traced

/-! ### Classifiers -/

/-- What is asked outside leaves no effects of this sort. -/
structure World.Free (sort : Effect → Bool) (world : World) : Prop where
  units : Effect.Free sort world.classifier.topology.units.effects
  zone : ∀ name, Effect.Free sort (world.classifier.topology.zone name).effects
  read : ∀ worker, Effect.Free sort (world.source.read worker).effects

namespace World.Free

variable {world : World}

theorem isDeployment (h : world.Free sort) (operation : String) :
    Effect.Free sort (world.classifier.isDeployment operation).effects :=
  Traced.free_bind h.units fun _ => free_nil sort

theorem classify (h : world.Free sort) (operation : String) :
    Effect.Free sort (world.classifier.classify operation).effects :=
  Traced.free_bind (h.isDeployment operation) fun _ => free_nil sort

theorem workersOf (h : world.Free sort) (u : DeployedUnit) :
    Effect.Free sort (world.classifier.workersOf u).effects := by
  refine Traced.free_bind (h.zone u.name) ?_
  intro zone
  cases zone <;> exact free_nil sort

theorem workersFor (h : world.Free sort) (counts : OfCounts sort) (operation : String) :
    Effect.Free sort (world.classifier.workersFor operation).effects := by
  refine Traced.free_bind (h.classify operation) ?_
  intro kind
  refine Traced.free_bind (Traced.free_bind h.units fun _ => free_nil sort) ?_
  intro found
  cases found with
  | none =>
    refine Traced.free_bind (counts.free_record _) ?_
    exact fun _ => free_nil sort
  | some u => exact h.workersOf u

end World.Free

/-! ### The world of a rehearsal -/

namespace Cluster

theorem free_ask {α : Type} (counts : OfCounts sort) (call : Call) (refusal : Option Int)
    (answer : α) : Free sort (ask call refusal answer).effects :=
  fun _ he => by rw [List.mem_singleton.1 he]; exact counts.call call

theorem free_zone (c : Cluster) (counts : OfCounts sort) (space name : String) :
    Free sort (c.zone space name).effects := by
  have hpods : Free sort (some <$> c.listPods space name).effects :=
    Traced.free_bind (free_ask counts _ _ _) fun _ => free_nil sort
  refine Traced.free_bind (Traced.free_recover hpods _) ?_
  intro pods
  match pods with
  | none => exact free_nil sort
  | some [] =>
    refine Traced.free_bind (counts.free_record _) ?_
    exact fun _ => free_nil sort
  | some (_ :: _) => exact free_nil sort

end Cluster

theorem Source.free_ofCluster (counts : OfCounts sort) (cluster : Cluster) (space : String)
    (container : Option String) (worker : Worker) :
    Free sort ((ofCluster cluster space container).read worker).effects := by
  refine Traced.free_recover (Traced.free_bind (Cluster.free_ask counts _ _ _) ?_) _
  exact fun _ => free_nil sort

theorem Rehearsal.free_world (r : Rehearsal) (counts : OfCounts sort) : r.world.Free sort where
  units := by
    show Free sort r.topology.units.effects
    unfold topology
    split
    · exact free_nil sort
    · exact Traced.free_bind (Traced.free_recover (Cluster.free_ask counts _ _ _) _) fun _ =>
        free_nil sort
  zone := by
    intro name
    show Free sort (r.topology.zone name).effects
    unfold topology
    split
    · exact free_nil sort
    · exact Cluster.free_zone _ counts _ _
  read := by
    intro worker
    show Free sort (r.source.read worker).effects
    simp only [source, Source.failing]
    split
    · exact free_nil sort
    · split
      · exact free_nil sort
      · exact Source.free_ofCluster counts _ _ _ worker

/-! ### Stops -/

theorem Crew.free_stop (crew : Crew) (counts : OfCounts sort) : Free sort crew.stop.2 := by
  intro e he
  obtain ⟨w, -, hw⟩ := List.mem_flatMap.1 he
  rw [Watcher.stop] at hw
  split at hw
  · exact counts.free_record _ e hw
  · exact absurd hw List.not_mem_nil

theorem Collector.free_stop (c : Collector) (counts : OfCounts sort) : Free sort c.stop.2 := by
  intro e he
  obtain ⟨⟨operation, crew⟩, -, hcrew⟩ := List.mem_flatMap.1 he
  exact crew.free_stop counts e hcrew

end Lifecycle
