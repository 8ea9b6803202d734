/-
**Graphs under other nodes.**

The graph of a list of one object keeps the shapes of the object's own graph under other nodes, and
the list at its root. Whatever is asked from the root downwards has the same answer in both, under
other names: which values are placeholders, what an object stands for, and the objects in a
position.

* `Relocates.of_copies`: **a copy of what was observed leads to such a graph**;
* `Relocates.objectsAt_rename`: **the same objects stand in a position,** however deep it is.
-/

import SampleShapes.Proofs.Naming.Walk
import SampleShapes.Proofs.Registry.CopiedTargets

namespace SampleShapes

open Registry

/-! ### What is kept -/

namespace Registry.Embeds

variable {registry copy : Registry} {nodes : Nat ↪o Nat} {id : ShapeId} {index : Nat}

/-- What is reached by way of what is kept is reached in the copy. -/
theorem isReached_rename (embeds : registry.Embeds nodes copy) {roots roots' : List ShapeId}
    (starts : ∀ index, ShapeId.node index ∈ roots → copy.IsReached roots' (nodes index))
    (reached : registry.IsReached roots index) : copy.IsReached roots' (nodes index) := by
  induction reached with
  | start member =>
    obtain ⟨id, listed, isNode⟩ := List.mem_filterMap.mp member
    rw [node_of_index? isNode] at listed
    exact starts _ listed
  | step _ leads before =>
    obtain ⟨shape, found, child⟩ := mem_childNodes_iff.mp leads
    refine .step before (mem_childNodes_iff.mpr ⟨_, embeds _ shape found, ?_⟩)
    rw [Shape.children_rename]
    exact List.mem_map_of_mem child

/-- Placeholders stay placeholders, and nothing else becomes one. -/
theorem isPlaceholder_rename (embeds : registry.Embeds nodes copy) (sound : registry.Sound)
    (held : registry.Holds id) :
    copy.isPlaceholder (id.rename nodes) = registry.isPlaceholder id := by
  unfold isPlaceholder
  rw [embeds.shape?_rename held, decide_eq_decide.mpr ShapeId.rename_eq_null_iff]
  cases found : registry.shape? id with
  | none => rfl
  | some shape =>
    cases shape with
    | object fields => exact congrArg _ (Table.isEmpty_map _ fields)
    | union members => rfl
    | list elements =>
      refine congrArg _ ?_
      show ((elements.toList.map (ShapeId.rename nodes)).all _) = elements.toList.all _
      rw [List.all_map, Bool.eq_iff_iff, List.all_eq_true, List.all_eq_true]
      refine forall₂_congr fun element member => ?_
      have inside := (sound.element (elements?_eq_some_iff.mpr found) member).1
      rw [Function.comp_apply, embeds.members?_rename inside]
      cases registry.members? element with
      | none => rfl
      | some members =>
        show (members.rename nodes).isEmpty = true ↔ _
        rw [IdSet.isEmpty_rename]
        rfl

end Registry.Embeds

/-- From the list everything is reached that what is left is reached from: the list leads to the
top, and the merges are the same. -/
theorem Registry.Copies.isReached_starts {move : Relocation} {registry copy : Registry}
    (copies : registry.Copies move copy) {aliases aliases' : Table Nat Nat}
    (same : SameAliases move.nodes aliases aliases') (index : Nat)
    (start : .node index ∈ ShapeId.node move.top :: aliases.values.map ShapeId.node) :
    copy.IsReached (.node move.listed :: aliases'.values.map ShapeId.node) (move.nodes index) := by
  have listed : copy.IsReached (.node move.listed :: aliases'.values.map ShapeId.node)
      move.listed := .start List.mem_cons_self
  rcases List.mem_cons.mp start with top | merge
  · rw [ShapeId.node.inj top]
    exact .step listed (mem_childNodes_iff.mpr ⟨_, copies.listed, List.mem_singleton_self _⟩)
  · obtain ⟨merged, value, equal⟩ := List.mem_map.mp merge
    obtain rfl := ShapeId.node.inj equal
    obtain ⟨place, found⟩ := Table.mem_values_iff.mp value
    have there := same place
    rw [found] at there
    have value' : move.nodes merged ∈ aliases'.values := Table.mem_values_iff.mpr ⟨_, there⟩
    refine .start (List.mem_filterMap.mpr ⟨.node (move.nodes merged), ?_, rfl⟩)
    exact List.mem_cons_of_mem _ (List.mem_map_of_mem value')

namespace ShapeGraph

/-- `copy` keeps the shapes of `graph` under other nodes, with the list of its root at the root. -/
structure Relocates (nodes : Nat ↪o Nat) (graph copy : ShapeGraph) : Prop where
  /-- The graph is sound. -/
  sound : graph.Sound
  /-- So is the other one. -/
  soundCopy : copy.Sound
  /-- What is kept is kept in the other one. -/
  kept : graph.registry.Embeds nodes copy.registry
  /-- Objects stand for the same. -/
  aliases : SameAliases nodes graph.aliases copy.aliases
  /-- The root is an object. -/
  object : (graph.registry.fields? graph.root).isSome
  /-- The root of the other one is its list. -/
  list : copy.registry.elements? copy.root = some (.singleton (graph.root.rename nodes))

variable {nodes : Nat ↪o Nat} {graph copy : ShapeGraph} {id : ShapeId}

/-- **A copy of what was observed leads to the same graph under other nodes.** -/
theorem Relocates.of_copies {move : Relocation} {observer observer' : Observer}
    (copies : observer.registry.Copies move observer'.registry)
    (object : (observer.registry.fields? (.node move.top)).isSome)
    (sound : (ofObserver (.node move.top) observer).Sound)
    (soundCopy : (ofObserver (.node move.listed) observer').Sound) :
    Relocates move.nodes (ofObserver (.node move.top) observer)
      (ofObserver (.node move.listed) observer') := by
  obtain ⟨aliases, after⟩ := copies.unifyTargets
  have grows := (unifyTargets_sound copies.sound (.node move.top)).2.1
  unfold ofObserver at sound soundCopy ⊢
  obtain ⟨⟨merges, unified⟩, result⟩ :
      ∃ result, observer.registry.unifyTargets (.node move.top) = result := ⟨_, rfl⟩
  obtain ⟨⟨merges', unified'⟩, result'⟩ :
      ∃ result, observer'.registry.unifyTargets (.node move.listed) = result := ⟨_, rfl⟩
  rw [result, result'] at aliases after
  rw [result] at sound grows
  rw [result'] at soundCopy
  rw [result, result']
  dsimp only at aliases after sound soundCopy grows ⊢
  refine ⟨sound, soundCopy, fun index shape found => ?_, aliases, ?_, ?_⟩
  · have reached := isReached_of_shapeAt?_prune found
    rw [shapeAt?_prune_of_isReached reached] at found
    have reached' := after.kept.isReached_rename (after.isReached_starts aliases) reached
    rw [shapeAt?_prune_of_isReached reached']
    exact after.kept index shape found
  · rw [fields?_prune_of_holds (holds_prune_root after.holds List.mem_cons_self),
      grows.fields?_eq copies.holds]
    exact object
  · have holds : unified'.Holds (.node move.listed) := ⟨_, after.listed⟩
    rw [elements?_prune_of_holds (holds_prune_root holds List.mem_cons_self)]
    exact elements?_eq_some_iff.mpr after.listed

namespace Relocates

variable (relocates : Relocates nodes graph copy)
include relocates

/-! ### Objects in a position -/

theorem canonicalNode_rename (index : Nat) :
    copy.canonicalNode (nodes index) = nodes (graph.canonicalNode index) := by
  unfold canonicalNode
  rw [relocates.aliases index]
  cases graph.aliases.get? index <;> rfl

/-- Objects stand for the same. -/
theorem canonical_rename :
    copy.canonical (id.rename nodes) = (graph.canonical id).rename nodes := by
  cases id with
  | node index => exact congrArg ShapeId.node (relocates.canonicalNode_rename index)
  | primitive kind => rfl
  | date => rfl

/-- **The same objects stand in a position,** however deep it is looked at. -/
theorem objectsAt_rename (element : Bool) (held : graph.registry.Holds id) (depth depth' : Nat)
    (enough : id.ceiling ≤ depth) (enough' : (id.rename nodes).ceiling ≤ depth') :
    copy.objectsAt depth' element (id.rename nodes) =
      (graph.objectsAt depth element id).map fun entry => (nodes entry.1, entry.2) := by
  revert element depth depth'
  refine relocates.sound.registry.induct (fun kind => ?_) ?_
    (fun index shape kept step => ?_) held
  · intro element depth depth' _ _
    cases depth <;> cases depth' <;> rfl
  · intro element depth depth' _ _
    cases depth <;> cases depth' <;> rfl
  · intro element depth depth' enough enough'
    obtain _ | depth := depth
    · exact absurd enough (Nat.not_succ_le_zero index)
    obtain _ | depth' := depth'
    · exact absurd enough' (Nat.not_succ_le_zero _)
    have found : graph.registry.shape? (.node index) = some shape := kept
    have found' : copy.registry.shape? (.node (nodes index)) = some (shape.rename nodes) :=
      relocates.kept index shape kept
    -- Children lie further down, in the copy as well, so that one level less is enough for them.
    have deeper : ∀ element, ∀ child ∈ shape.children,
        copy.objectsAt depth' element (child.rename nodes) =
          (graph.objectsAt depth element child).map fun entry => (nodes entry.1, entry.2) := by
      intro element child member
      obtain ⟨inside, below⟩ := relocates.sound.registry.child found member
      have below' : (child.rename nodes).ceiling < (ShapeId.node (nodes index)).ceiling :=
        ShapeId.ceiling_rename_lt below
      exact step child member inside element _ _
        (Nat.le_of_lt_succ (Nat.lt_of_lt_of_le below enough))
        (Nat.le_of_lt_succ (Nat.lt_of_lt_of_le below' enough'))
    cases shape with
    | object fields =>
      have object := Option.isSome_of_eq_some (fields?_eq_some_iff.mpr found)
      have object' := Option.isSome_of_eq_some (fields?_eq_some_iff.mpr found')
      obtain ⟨place, same, _, only⟩ := objectsAt_of_fields? relocates.sound depth element object
      obtain ⟨place', same', _, only'⟩ :=
        objectsAt_of_fields? relocates.soundCopy depth' element object'
      rw [← ShapeId.rename_node, relocates.canonical_rename, same] at same'
      obtain rfl := ShapeId.node.inj same'
      rw [ShapeId.rename_node, only, only']
      rfl
    | list elements =>
      rw [ShapeId.rename_node,
        objectsAt_of_elements? relocates.sound _ _ (elements?_eq_some_iff.mpr found),
        objectsAt_of_elements? relocates.soundCopy _ _ (elements?_eq_some_iff.mpr found'),
        IdSet.toList_rename, List.flatMap_map, List.map_flatMap]
      exact List.flatMap_congr (deeper true)
    | union members =>
      rw [ShapeId.rename_node,
        objectsAt_of_members? relocates.sound _ _ (members?_eq_some_iff.mpr found),
        objectsAt_of_members? relocates.soundCopy _ _ (members?_eq_some_iff.mpr found'),
        IdSet.toList_rename, List.flatMap_map, List.map_flatMap]
      exact List.flatMap_congr (deeper element)

theorem holds_rename (held : graph.registry.Holds id) : copy.registry.Holds (id.rename nodes) := by
  cases id with
  | node index =>
    obtain ⟨shape, found⟩ := held
    exact ⟨_, relocates.kept index shape found⟩
  | primitive kind => trivial
  | date => trivial

end Relocates

end ShapeGraph

end SampleShapes
