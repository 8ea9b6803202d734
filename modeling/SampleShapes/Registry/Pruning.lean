/-
**Pruning.**

Merging interns shapes on the way that its result does not point at. Pruning keeps what is
reachable from some roots, and drops the rest.

* `mem_reachable_iff`: the walk lists what is reached from the roots, and nothing else;
* `shapeAt?_prune`: what is reached keeps its shape.
-/

import SampleShapes.Reach
import SampleShapes.Registry.Basic

namespace SampleShapes.Registry

/-- The nodes that the node at `index` points at, in order. -/
def childNodes (registry : Registry) (index : Nat) : List Nat :=
  match registry.shapeAt? index with
  | some shape => shape.children.filterMap ShapeId.index?
  | none => []

/-- The nodes that are reachable from `roots`, by first arrival of a depth-first walk. A dropped
node is reached if something points at it, but leads no further. -/
def reachable (registry : Registry) (roots : List ShapeId) : List Nat :=
  Reach.explore registry.childNodes registry.capacity (roots.filterMap ShapeId.index?)

/-- Drop every shape that is not reachable from `roots`. -/
def prune (roots : List ShapeId) (registry : Registry) : Registry :=
  registry.retain (registry.reachable roots)

/-- Drop every shape that is not reachable from `roots`; the number of shapes that were dropped
comes with the result. -/
def pruneCounting (roots : List ShapeId) (registry : Registry) : Nat × Registry :=
  registry.retainCounting (registry.reachable roots)

/-! ### What is reached -/

/-- The node at `index` is reached from `roots`. -/
def IsReached (registry : Registry) (roots : List ShapeId) (index : Nat) : Prop :=
  Reach.Reached registry.childNodes (roots.filterMap ShapeId.index?) index

/-- **The walk lists what is reached from the roots, and nothing else.** -/
theorem mem_reachable_iff {registry : Registry} {roots : List ShapeId} {index : Nat} :
    index ∈ registry.reachable roots ↔ registry.IsReached roots index := by
  refine Reach.mem_explore_iff (List.range registry.capacity) ?_ (by simp)
  intro place leads
  rw [List.mem_range]
  unfold childNodes at leads
  split at leads
  · next found => exact lt_capacity_of_shapeAt? found
  · exact absurd rfl leads

/-- **What is reached keeps its shape,** and everything else is dropped. -/
theorem shapeAt?_prune {registry : Registry} {roots : List ShapeId} {index : Nat} :
    (registry.prune roots).shapeAt? index =
      if index ∈ registry.reachable roots then registry.shapeAt? index else none :=
  shapeAt?_retain _ registry index

end SampleShapes.Registry
