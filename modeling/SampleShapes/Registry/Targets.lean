/-
**Unifying explicit references.**

Every object under a field that refers to the same target describes one declaration, so these
objects are merged. They keep their places in the graph; aliases lead from each to the merge. A
merge may hold references itself, which brings new objects to the groups: rounds of merging follow
each other until nothing changes, at most sixteen times.
-/

import SampleShapes.Registry.Merge
import SampleShapes.Registry.Pruning

namespace SampleShapes.Registry

/-! ### Groups -/

/-- The objects with fields that the position of `id` is built from: itself, or those inside of
lists and unions, at most `depth` of them inside each other. -/
def boundObjects (registry : Registry) : Nat → ShapeId → List ShapeId
  | 0, _ => []
  | depth + 1, id =>
    match registry.shape? id with
    | some (.object fields) => if fields.isEmpty then [] else [id]
    | some (.list elements) => elements.toList.flatMap (registry.boundObjects depth)
    | some (.union members) => members.toList.flatMap (registry.boundObjects depth)
    | none => []

/-- Add what one field binds to the group of its target. -/
def groupField (registry : Registry) (groups : Table String IdSet) (field : Field) :
    Table String IdSet :=
  match field.key.target? with
  | some target =>
    let bound := registry.boundObjects field.shape.ceiling field.shape
    groups.alter target fun group => (group.getD ∅).insertAll bound
  | none => groups

/-- The objects under each target that is reached from `roots`, by first arrival. -/
def groups (registry : Registry) (roots : List ShapeId) : Table String IdSet :=
  (registry.reachable roots).foldl
    (fun groups index =>
      match registry.shapeAt? index with
      | some (.object fields) => fields.values.foldl registry.groupField groups
      | _ => groups)
    ∅

/-! ### Rounds -/

/-- The merges found so far, by target, and the registry they live in. -/
structure Unification where
  /-- The node of each merge. -/
  merged : Table String Nat
  /-- The registry, grown by the merges. -/
  registry : Registry

/-- Merge the group of one target with what it was merged to before. A group of one object needs
no merge. -/
def Unification.absorb (state : Unification) (target : String) (group : IdSet) : Unification :=
  let current := (state.merged.get? target).map ShapeId.node
  let candidates := group.toList ++ current.toList.filter (· ∉ group)
  if candidates.length < 2 then state
  else
    match state.registry.merge candidates with
    | (.node index, registry) =>
      { registry
        merged :=
          if current = some (.node index) then state.merged else state.merged.put target index }
    | (_, registry) => { state with registry }

/-- Run up to `rounds` rounds; the groups of the last one come with the result. -/
def unifyRounds (root : ShapeId) :
    Nat → Table String IdSet → Unification → Table String IdSet × Unification
  | 0, groups, state => (groups, state)
  | rounds + 1, _, state =>
    let groups := state.registry.groups (root :: state.merged.values.map ShapeId.node)
    let after :=
      groups.entries.foldl (fun state (target, group) => state.absorb target group) state
    if after.merged = state.merged then (groups, after) else unifyRounds root rounds groups after

/-- The most rounds that are run. -/
def maxRounds : Nat := 16

/-- Lead the members of every group to the merge of its target. An object under two targets follows
the first. -/
def aliases (groups : Table String IdSet) (merged : Table String Nat) : Table Nat Nat :=
  groups.entries.foldl
    (fun aliases (target, group) =>
      match merged.get? target with
      | some index =>
        (group.toList.filterMap ShapeId.index?).foldl
          (fun aliases member => if member = index then aliases else aliases.putNew member index)
          aliases
      | none => aliases)
    ∅

/-- Merge the objects under each target that is reached from `root`. The result leads from every
object that was merged to its merge. -/
def unifyTargets (root : ShapeId) (registry : Registry) : Table Nat Nat × Registry :=
  let (groups, state) := unifyRounds root maxRounds ∅ ⟨∅, registry⟩
  (aliases groups state.merged, state.registry)

end SampleShapes.Registry
