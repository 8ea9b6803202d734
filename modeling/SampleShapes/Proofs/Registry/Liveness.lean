/-
**What is left when shapes are dropped.**

Dropping what is not reached changes no unfolding of what is left, and what is reached from a shape
is told by what the shape unfolds to: of two shapes that unfold alike, in whichever registries, the
same number of shapes is reached.

* `Within.unfolding_eq`: a shape unfolds to the same in a larger registry;
* `matches_reachable`: **what is reached from identities that match matches**;
* `length_live_prune`: what is left is what is reached.
-/

import SampleShapes.Proofs.Registry.Matching

namespace SampleShapes.Registry

variable {registry later : Registry} {roots roots' : List ShapeId} {id other : ShapeId}
  {index : Nat}

/-! ### Larger registries -/

/-- **A shape unfolds to the same in a larger registry.** -/
theorem Within.unfolding_eq (within : registry.Within later) (sound : registry.Sound)
    (soundLater : later.Sound) (held : registry.Holds id) :
    registry.unfolding id = later.unfolding id := by
  refine sound.induct (fun _ => rfl) rfl (fun index shape kept step => ?_) held
  have found : registry.shape? (.node index) = some shape := kept
  have children : ∀ child ∈ shape.children, registry.unfolding child = later.unfolding child :=
    fun child member => step child member (sound.child found member).1
  rw [unfolding_eq_iff_same, tree_of_shape? sound found,
    tree_of_shape? soundLater (within.shape? found)]
  cases shape with
  | object fields =>
    refine same_objectTree_iff.mpr fun raw => Option.map_congr fun field under => ?_
    have value : field ∈ fields.values := Table.mem_values_iff.mpr ⟨raw, under⟩
    rw [children field.shape (List.mem_map_of_mem value)]
  | list elements => exact same_setTree_iff.mpr ⟨rfl, Set.image_congr children⟩
  | union members => exact same_setTree_iff.mpr ⟨rfl, Set.image_congr children⟩

/-- Dropping what is not reached changes no unfolding of what is left. -/
theorem unfolding_prune (sound : registry.Sound) (held : (registry.prune roots).Holds id) :
    (registry.prune roots).unfolding id = registry.unfolding id :=
  (within_prune roots registry).unfolding_eq (sound.prune roots) sound held

/-! ### What is reached -/

/-- What shapes that unfold alike point at matches. -/
theorem matches_children {shape shape' : Shape}
    (same : (registry.shapeTree shape).Same (later.shapeTree shape')) :
    registry.Matches later shape.children shape'.children := by
  cases shape with
  | object fields =>
    cases shape' with
    | object fields' =>
      have entries := same_objectTree_iff.mp same
      refine ⟨fun child member => ?_, fun child member => ?_⟩
      · obtain ⟨field, value, rfl⟩ := List.mem_map.mp member
        obtain ⟨raw, under⟩ := Table.mem_values_iff.mp value
        obtain ⟨field', under', _, inside⟩ := exists_get?_of_entriesAt_eq (entries raw) under
        exact ⟨_, List.mem_map_of_mem (Table.mem_values_iff.mpr ⟨raw, under'⟩), inside⟩
      · obtain ⟨field', value, rfl⟩ := List.mem_map.mp member
        obtain ⟨raw, under'⟩ := Table.mem_values_iff.mp value
        obtain ⟨field, under, _, inside⟩ :=
          exists_get?_of_entriesAt_eq (entries raw).symm under'
        exact ⟨_, List.mem_map_of_mem (Table.mem_values_iff.mpr ⟨raw, under⟩), inside.symm⟩
    | list => exact same.elim
    | union => exact same.elim
  | list elements =>
    cases shape' with
    | object => exact same.elim
    | list => exact Matches.toList_iff.mpr (same_setTree_iff.mp same).2
    | union => exact absurd (same_setTree_iff.mp same).1 (by decide)
  | union members =>
    cases shape' with
    | object => exact same.elim
    | list => exact absurd (same_setTree_iff.mp same).1 (by decide)
    | union => exact Matches.toList_iff.mpr (same_setTree_iff.mp same).2

section Sound

variable (sound : registry.Sound) (soundLater : later.Sound)
include sound soundLater

/-- What unfolds like a node is a node. -/
theorem exists_node (same : registry.unfolding (.node index) = later.unfolding other) :
    ∃ index', other = .node index' := by
  cases found : registry.shape? (.node index) with
  | none => exact ⟨index, eq_of_shape?_eq_none soundLater same found⟩
  | some shape =>
    obtain ⟨shape', found', _⟩ := exists_shape? sound soundLater same found
    obtain ⟨index', isNode, _⟩ := shape?_eq_some_iff.mp found'
    exact ⟨index', isNode⟩

/-- What is reached unfolds like something that is reached from roots that match. -/
theorem exists_isReached (matching : registry.Matches later roots roots')
    (reached : registry.IsReached roots index) :
    ∃ index', later.IsReached roots' index' ∧
      registry.unfolding (.node index) = later.unfolding (.node index') := by
  induction reached with
  | start member =>
    obtain ⟨root, inside, isNode⟩ := List.mem_filterMap.mp member
    obtain ⟨root', inside', same⟩ := matching.forth root inside
    cases root with
    | node index =>
      obtain rfl := Option.some.inj isNode
      obtain ⟨index', rfl⟩ := exists_node sound soundLater same
      exact ⟨index', .start (List.mem_filterMap.mpr ⟨_, inside', rfl⟩), same⟩
    | primitive kind => cases isNode
    | date => cases isNode
  | @step place below _ next before =>
    obtain ⟨index', reached, same⟩ := before
    obtain ⟨shape, found, child⟩ := mem_childNodes_iff.mp next
    obtain ⟨shape', found', trees⟩ := exists_shape? sound soundLater same found
    obtain ⟨child', member', same'⟩ := (matches_children trees).forth _ child
    obtain ⟨below', rfl⟩ := exists_node sound soundLater same'
    exact ⟨below', .step reached (mem_childNodes_iff.mpr ⟨shape', found', member'⟩), same'⟩

/-- **What is reached from identities that match matches.** -/
theorem matches_reachable (matching : registry.Matches later roots roots') :
    registry.Matches later ((registry.reachable roots).map ShapeId.node)
      ((later.reachable roots').map ShapeId.node) where
  forth id member := by
    obtain ⟨index, listed, rfl⟩ := List.mem_map.mp member
    obtain ⟨index', reached, same⟩ :=
      exists_isReached sound soundLater matching (mem_reachable_iff.mp listed)
    exact ⟨_, List.mem_map_of_mem (mem_reachable_iff.mpr reached), same⟩
  back id' member := by
    obtain ⟨index', listed, rfl⟩ := List.mem_map.mp member
    obtain ⟨index, reached, same⟩ :=
      exists_isReached soundLater sound matching.symm (mem_reachable_iff.mp listed)
    exact ⟨_, List.mem_map_of_mem (mem_reachable_iff.mpr reached), same.symm⟩

/-- As much is reached from the ones as from the others. -/
theorem length_reachable_eq (matching : registry.Matches later roots roots') :
    (registry.reachable roots).length = (later.reachable roots').length := by
  have node : Function.Injective ShapeId.node := fun _ _ same => ShapeId.node.inj same
  have count := (matches_reachable sound soundLater matching).length_eq sound soundLater
    (Reach.nodup_explore.map node) (Reach.nodup_explore.map node)
  simpa using count

end Sound

/-! ### What is left -/

/-- **What is left is what is reached.** -/
theorem length_live_prune (sound : registry.Sound)
    (held : ∀ root ∈ roots, registry.Holds root) :
    (registry.prune roots).live.length = (registry.reachable roots).length := by
  have listed : ((List.range (registry.prune roots).capacity).filter fun index =>
      ((registry.prune roots).shapeAt? index).isSome).Perm (registry.reachable roots) := by
    refine (List.perm_ext_iff_of_nodup (List.nodup_range.filter _) Reach.nodup_explore).mpr ?_
    intro index
    rw [List.mem_filter, List.mem_range]
    show _ ↔ index ∈ registry.reachable roots
    rw [shapeAt?_prune]
    by_cases member : index ∈ registry.reachable roots
    · obtain ⟨shape, found⟩ := holds_of_isReached sound held (mem_reachable_iff.mp member)
      have inside : index < (registry.prune roots).capacity := by
        show index < (registry.retain _).capacity
        rw [capacity_retain]
        exact lt_capacity_of_shapeAt? found
      simp [member, found, inside]
    · simp [member]
  rw [← listed.length_eq, live, List.length_filterMap_eq_countP, List.countP_eq_length_filter]
  simp

end SampleShapes.Registry
