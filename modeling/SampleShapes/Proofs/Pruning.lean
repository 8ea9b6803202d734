/-
**What pruning keeps.**

Pruning follows the children of shapes that are kept. What is reached keeps its shape, so that the
same is reached once more afterwards, and pruning again drops nothing. Nothing is asked of the
registry for that: a shape may point at what was dropped before, and such a node is reached, but not
kept. Only the count of what is dropped is taken from the index, so that the index has to be in step
with the slots.

* `isReached_prune_iff`: **what is reached stays reached,** and nothing else comes to be;
* `prune_prune`: pruning again changes nothing;
* `Indexed.size_sub_size`: the index loses as many entries as slots are emptied;
* `Indexed.prunes`: **pruning keeps exactly what was kept and is reached**;
* `ShapeGraph.isPruned_of_infer`: the graph of a sample holds what is reached in it, and all of it;
* `keeps_what_is_reached`: both for every registry and every sample.
-/

import SampleShapes.Proofs.Inference
import SampleShapes.Proofs.Registry.Operations

namespace SampleShapes

namespace Registry

variable {registry later : Registry} {roots : List ShapeId} {index : Nat}

/-! ### Pruning again -/

/-- **What is reached stays reached** when the rest is dropped. -/
theorem isReached_prune_iff :
    (registry.prune roots).IsReached roots index ↔ registry.IsReached roots index := by
  constructor
  · intro reached
    induction reached with
    | start member => exact .start member
    | step _ next before =>
      obtain ⟨shape, found, child⟩ := mem_childNodes_iff.mp next
      have found := within_prune roots registry _ _ found
      exact .step before (mem_childNodes_iff.mpr ⟨shape, found, child⟩)
  · intro reached
    induction reached with
    | start member => exact .start member
    | step here next before =>
      -- The place before keeps its shape, since it is reached itself.
      obtain ⟨shape, found, child⟩ := mem_childNodes_iff.mp next
      rw [← shapeAt?_prune_of_isReached here] at found
      exact .step before (mem_childNodes_iff.mpr ⟨shape, found, child⟩)

/-- What is dropped depends on what is listed, but not on how. -/
theorem retain_congr {kept kept' : List Nat} (same : ∀ index, index ∈ kept ↔ index ∈ kept') :
    registry.retain kept = registry.retain kept' := by
  simp only [retain, same]

theorem retain_retain (kept : List Nat) (registry : Registry) :
    (registry.retain kept).retain kept = registry.retain kept := by
  unfold retain
  congr 1
  · refine Array.ext (by simp) fun index _ _ => ?_
    by_cases member : index ∈ kept <;> simp [member]
  · simp

/-- **Pruning again changes nothing.** -/
theorem prune_prune (roots : List ShapeId) (registry : Registry) :
    (registry.prune roots).prune roots = registry.prune roots := by
  have same : ∀ index, index ∈ (registry.prune roots).reachable roots ↔
      index ∈ registry.reachable roots := fun index => by
    rw [mem_reachable_iff, mem_reachable_iff, isReached_prune_iff]
  unfold prune at same ⊢
  rw [retain_congr same, retain_retain]

/-! ### Counting -/

/-- The slots of `registry` that are emptied in `later`. -/
def cleared (registry later : Registry) : List Nat :=
  (List.range registry.capacity).filter fun index =>
    (registry.shapeAt? index).isSome && (later.shapeAt? index).isNone

theorem length_live (registry : Registry) :
    registry.live.length =
      (List.range registry.capacity).countP fun index => (registry.shapeAt? index).isSome := by
  simp [live, List.length_filterMap_eq_countP]

/-- What was kept is still kept, or emptied. -/
theorem Drops.length_live (drops : registry.Drops later) :
    registry.live.length = later.live.length + (registry.cleared later).length := by
  rw [Registry.length_live registry, Registry.length_live later, drops.capacity_eq, cleared,
    ← List.countP_eq_length_filter, List.countP_eq_length_filter,
    List.length_eq_countP_add_countP fun index => (later.shapeAt? index).isSome,
    List.countP_filter, List.countP_filter]
  congr 1
  · refine List.countP_congr fun index _ => ?_
    cases found : later.shapeAt? index with
    | none => simp
    | some shape => simp [drops.within index shape found]
  · refine List.countP_congr fun index _ => ?_
    cases later.shapeAt? index <;> simp

/-- **The index loses as many entries as slots are emptied.** -/
theorem Indexed.size_sub_size (indexed : registry.Indexed) (indexed' : later.Indexed)
    (drops : registry.Drops later) :
    registry.size - later.size = (registry.cleared later).length := by
  rw [indexed.size_eq_length_live, indexed'.size_eq_length_live, drops.length_live,
    Nat.add_sub_cancel_left]

/-! ### Pruning -/

/-- What pruning from `roots` leaves of a registry, and what it counts. -/
structure Prunes (registry : Registry) (roots : List ShapeId) (result : Nat × Registry) :
    Prop where
  /-- A slot is live if it was so before and children of live nodes lead to it from a root. -/
  holds_iff : ∀ index, result.2.Holds (.node index) ↔
    registry.Holds (.node index) ∧ registry.IsReached roots index
  /-- Slots are emptied, but no shape changes. -/
  drops : registry.Drops result.2
  /-- The slots that were emptied are counted. -/
  count : result.1 = (registry.cleared result.2).length
  /-- Pruning from the same roots again drops nothing. -/
  again : result.2.pruneCounting roots = (0, result.2)

theorem holds_prune_iff :
    (registry.prune roots).Holds (.node index) ↔
      registry.Holds (.node index) ∧ registry.IsReached roots index := by
  constructor
  · rintro ⟨shape, found⟩
    exact ⟨⟨shape, within_prune roots registry _ _ found⟩, isReached_of_shapeAt?_prune found⟩
  · rintro ⟨⟨shape, found⟩, reached⟩
    exact ⟨shape, (shapeAt?_prune_of_isReached reached).trans found⟩

/-- A registry that is pruned stays as it is. -/
theorem pruneCounting_of_prune_eq (pruned : registry.prune roots = registry) :
    registry.pruneCounting roots = (0, registry) := by
  have kept : registry.retain (registry.reachable roots) = registry := pruned
  simp [pruneCounting, retainCounting, kept]

/-- **Pruning keeps exactly what was kept and is reached.** -/
theorem Indexed.prunes (indexed : registry.Indexed) (roots : List ShapeId) :
    registry.Prunes roots (registry.pruneCounting roots) where
  holds_iff _ := holds_prune_iff
  drops := drops_retain _ registry
  count := indexed.size_sub_size (indexed.retain _) (drops_retain _ registry)
  again := pruneCounting_of_prune_eq (prune_prune roots registry)

end Registry

/-! ### The graph of a sample -/

namespace ShapeGraph

variable {graph : ShapeGraph} {options : Options} {sample : Json}

/-- What a graph is read from: its root, and the merges that aliases lead to. -/
def roots (graph : ShapeGraph) : List ShapeId :=
  graph.root :: graph.aliases.values.map ShapeId.node

/-- A graph holds what is reached in it, and all of it. -/
structure IsPruned (graph : ShapeGraph) : Prop where
  /-- A node is live if it is reached from the root or a merge. -/
  holds_iff : ∀ index, graph.registry.Holds (.node index) ↔
    graph.registry.IsReached graph.roots index
  /-- What a live node points at is live. -/
  child : ∀ id shape, graph.registry.shape? id = some shape → ∀ child ∈ shape.children,
    graph.registry.Holds child
  /-- Pruning drops nothing from it. -/
  again : graph.registry.pruneCounting graph.roots = (0, graph.registry)

/-- **The graph of a sample holds what is reached in it, and all of it.** -/
theorem isPruned_of_infer (inferred : infer options sample = .ok graph) : graph.IsPruned := by
  have sound := (represents_of_infer inferred).toSound
  obtain ⟨_, root, _, rfl⟩ := infer_eq_ok_iff.mp inferred
  obtain ⟨observer, left⟩ : ∃ observer, (Observer.empty.observe options sample).2 = observer :=
    ⟨_, rfl⟩
  rw [left] at sound ⊢
  obtain ⟨unified, made⟩ : ∃ unified : Registry, (ofObserver root observer).registry =
      unified.prune (ofObserver root observer).roots := ⟨_, rfl⟩
  have again := Registry.prune_prune (ofObserver root observer).roots unified
  rw [← made] at again
  refine ⟨fun index => ⟨fun held => ?_, fun reached => ?_⟩, fun id shape found child member => ?_,
    Registry.pruneCounting_of_prune_eq again⟩
  · rw [← again] at held
    exact (Registry.holds_prune_iff.mp held).2
  · refine Registry.holds_of_isReached sound.registry (fun start member => ?_) reached
    rcases List.mem_cons.mp member with rfl | member
    · exact sound.root.holds
    · obtain ⟨merge, value, rfl⟩ := List.mem_map.mp member
      obtain ⟨member, under⟩ := Table.mem_values_iff.mp value
      exact (sound.merge member merge under).holds
  · exact (sound.registry.child found member).1

end ShapeGraph

/-- **Pruning keeps exactly what is reached,** in every registry whose index is in step with its
slots, and so does inference. -/
theorem keeps_what_is_reached :
    (∀ registry : Registry, registry.Indexed → ∀ roots,
      registry.Prunes roots (registry.pruneCounting roots)) ∧
    ∀ options sample graph, ShapeGraph.infer options sample = .ok graph → graph.IsPruned :=
  ⟨fun _ indexed roots => indexed.prunes roots,
    fun _ _ _ inferred => ShapeGraph.isPruned_of_infer inferred⟩

/-- The list `#1` points at what was dropped before, and the list `#2` is dropped; in the graph of
two references the objects that are merged are kept beside their merge. -/
theorem keeps_what_is_reached_of_dangling :
    (∃ registry : Registry, registry.Indexed ∧ registry.IsReached [.node 1] 0 ∧
      ¬ registry.Holds (.node 0) ∧ registry.Holds (.node 2) ∧
      (registry.pruneCounting [.node 1]).1 = 1 ∧
      registry.Prunes [.node 1] (registry.pruneCounting [.node 1])) ∧
    ∃ graph, ShapeGraph.infer {} (.object [("a[T]", .object [("x", .null)]),
        ("b[T]", .array [.object [], .object [("z", .null)]])]) = .ok graph ∧
      graph.aliases.size = 2 ∧ graph.IsPruned := by
  refine ⟨?_, ?_⟩
  · have indexed := (Registry.indexed_runAll Registry.indexed_empty
      [.intern (.list (.singleton .null)), .intern (.list (.singleton (.node 0))),
        .intern (.list (.singleton (.node 1))), .retain [1, 2]]).1
    refine ⟨_, indexed, Registry.mem_reachable_iff.mp (by decide +kernel), ?_, ⟨_, rfl⟩,
      by decide +kernel, keeps_what_is_reached.1 _ indexed [.node 1]⟩
    rintro ⟨shape, found⟩
    cases found
  · obtain ⟨graph, inferred, aliased⟩ : ∃ graph, ShapeGraph.infer {} (.object
        [("a[T]", .object [("x", .null)]),
          ("b[T]", .array [.object [], .object [("z", .null)]])]) = .ok graph ∧
        graph.aliases.size = 2 := ShapeGraph.exists_of_decided (by decide +kernel)
    exact ⟨graph, inferred, aliased, keeps_what_is_reached.2 _ _ graph inferred⟩

end SampleShapes
