/-
**Names under other nodes.**

In the graph of a list of one object the walk goes the same way as in the object's own graph, and
notes the same hints, except that the hint for the root comes through a list. That changes nothing
about its name, which is taken as it is, so that objects choose the same names in the same order.

* `Walk.visit_rename`: **a visit notes the same under other names;**
* `Walk.ofGraph_rename`, `Walk.best?_rename`: so the walk does, and best hints are the same;
* `Naming.nameAll_rename`: the same objects choose the same names;
* `Naming.ofGraph_relocates`: **graphs that are the same under other nodes have the same names.**
-/

import SampleShapes.Proofs.Naming.Assignment
import SampleShapes.Proofs.Relocating

namespace SampleShapes

variable {nodes : Nat ↪o Nat} {graph copy : ShapeGraph} {rootName : String}

/-! ### Hints -/

namespace Hint

/-- The hint as it is noted in the graph of the list: that for the root comes through a list. -/
def relocate (hint : Hint) : Hint :=
  if hint.tier = .root ∧ hint.verbatim then { hint with element := true } else hint

@[simp] theorem tier_relocate (hint : Hint) : hint.relocate.tier = hint.tier := by
  unfold relocate
  split <;> rfl

/-- What is taken as it is does not become a singular. -/
@[simp] theorem name_relocate (hint : Hint) : hint.relocate.name = hint.name := by
  unfold relocate
  split
  · next root => simp only [name, root.2, if_true]
  · rfl

theorem relocate_of_tier_ne (hint : Hint) (apart : hint.tier ≠ .root) : hint.relocate = hint :=
  if_neg fun root => apart root.1

end Hint

namespace Walk

/-- What is noted under other nodes. -/
def renameEntry (nodes : Nat ↪o Nat) (entry : Nat × Hint) : Nat × Hint :=
  (nodes entry.1, entry.2.relocate)

/-- The walk under other nodes. -/
def rename (nodes : Nat ↪o Nat) (walk : Walk) : Walk :=
  ⟨walk.entered.map nodes, walk.hints.map (renameEntry nodes)⟩

end Walk

namespace ShapeGraph.Relocates

open Registry

variable (relocates : ShapeGraph.Relocates nodes graph copy)
include relocates

theorem ofField_rename (field : Field) (held : graph.registry.Holds field.shape) :
    Hint.ofField copy.registry (field.rename nodes) = Hint.ofField graph.registry field := by
  unfold Hint.ofField
  rw [Field.key_rename, Field.shape_rename,
    relocates.kept.isPlaceholder_rename relocates.sound.registry held]

/-- **An object leads to the same objects, with the same hints.** -/
theorem links_rename {index : Nat} (held : graph.registry.Holds (.node index)) :
    copy.links (nodes index) = (graph.links index).map (Walk.renameEntry nodes) := by
  obtain ⟨shape, found⟩ := held
  unfold links
  rw [found, relocates.kept index shape found]
  cases shape with
  | list elements => rfl
  | union members => rfl
  | object fields =>
    dsimp only [Shape.rename]
    rw [Table.values_map, List.flatMap_map, List.map_flatMap]
    refine List.flatMap_congr fun field value => ?_
    have held : graph.registry.Holds field.shape :=
      (relocates.sound.registry.carries index _ found).holds _ (List.mem_map_of_mem value)
    have inside := ceiling_le_capacity held
    have inside' := ceiling_le_capacity (relocates.holds_rename held)
    unfold hintsAt
    rw [relocates.ofField_rename field held, Field.shape_rename,
      relocates.objectsAt_rename false held _ _ (Nat.le_succ_of_le inside)
        (Nat.le_succ_of_le inside'),
      List.map_map, List.map_map]
    refine List.map_congr_left fun entry _ => ?_
    refine congrArg (nodes entry.1, ·) (Hint.relocate_of_tier_ne _ ?_).symm
    exact Hint.tier_ofField_ne_root graph.registry field

/-- **The roots lead to the same object,** once through the list. -/
theorem hintsAt_root (name : String) :
    copy.hintsAt (Hint.ofRoot name) copy.root =
      (graph.hintsAt (Hint.ofRoot name) graph.root).map (Walk.renameEntry nodes) := by
  have held := holds_of_fields? relocates.object
  have inside := ceiling_le_capacity held
  have inside' := ceiling_le_capacity (relocates.holds_rename held)
  have below : copy.objectsAt (copy.registry.capacity + 1) false copy.root =
      copy.objectsAt copy.registry.capacity true (graph.root.rename nodes) := by
    rw [objectsAt_of_elements? relocates.soundCopy _ _ relocates.list]
    exact List.flatMap_singleton _ _
  obtain ⟨index, same, _, direct⟩ :=
    objectsAt_of_fields? relocates.sound graph.registry.capacity false relocates.object
  obtain ⟨index', same', _, listed⟩ :=
    objectsAt_of_fields? relocates.sound graph.registry.capacity true relocates.object
  obtain rfl : index = index' := ShapeId.node.inj (same.symm.trans same')
  unfold hintsAt
  rw [below, relocates.objectsAt_rename true held _ _ (Nat.le_succ_of_le inside) inside',
    direct, listed]
  rfl

end ShapeGraph.Relocates

namespace Walk

open Registry

/-! ### The walk -/

section Visits

variable (relocates : graph.Relocates nodes copy) {fuel fuel' : Nat} {walk : Walk}

/-- Visits in a row note the same, if each of them does. -/
theorem foldl_visit_rename {entries : List (Nat × Hint)}
    (one : ∀ walk entry, graph.registry.Holds (.node entry.1) → ahead graph walk < fuel →
      ahead copy (walk.rename nodes) < fuel' →
      visit copy fuel' (walk.rename nodes) (renameEntry nodes entry) =
        (visit graph fuel walk entry).rename nodes)
    (held : ∀ entry ∈ entries, graph.registry.Holds (.node entry.1))
    (enough : ahead graph walk < fuel) (enough' : ahead copy (walk.rename nodes) < fuel') :
    (entries.map (renameEntry nodes)).foldl (visit copy fuel') (walk.rename nodes) =
      (entries.foldl (visit graph fuel) walk).rename nodes := by
  induction entries generalizing walk with
  | nil => rfl
  | cons entry rest step =>
    rw [List.forall_mem_cons] at held
    have same := one walk entry held.1 enough enough'
    rw [List.map_cons, List.foldl_cons, List.foldl_cons, same]
    refine step held.2 (Nat.lt_of_le_of_lt (ahead_visit_le walk entry) enough) ?_
    rw [← same]
    exact Nat.lt_of_le_of_lt (ahead_visit_le _ _) enough'

include relocates

/-- **A visit notes the same under other names.** -/
theorem visit_rename (walk : Walk) (entry : Nat × Hint)
    (held : graph.registry.Holds (.node entry.1)) (enough : ahead graph walk < fuel)
    (enough' : ahead copy (walk.rename nodes) < fuel') :
    visit copy fuel' (walk.rename nodes) (renameEntry nodes entry) =
      (visit graph fuel walk entry).rename nodes := by
  induction fuel generalizing fuel' walk entry with
  | zero => exact absurd enough (Nat.not_lt_zero _)
  | succ fuel step =>
    obtain _ | fuel' := fuel'
    · exact absurd enough' (Nat.not_lt_zero _)
    obtain ⟨index, hint⟩ := entry
    have entered : nodes index ∈ (walk.rename nodes).entered ↔ index ∈ walk.entered :=
      List.mem_map_of_injective nodes.injective
    unfold visit renameEntry
    dsimp only
    by_cases known : index ∈ walk.entered
    · rw [if_pos known, if_pos (entered.mpr known)]
      rfl
    · rw [if_neg known, if_neg (entered.not.mpr known), relocates.links_rename held]
      by_cases last : graph.links index = []
      · rw [last]
        rfl
      · -- The object leads on, so that fewer objects are still to be entered.
        have last' : copy.links (nodes index) ≠ [] := by
          rw [relocates.links_rename held]
          exact mt List.map_eq_nil_iff.mp last
        have fewer := ahead_cons_lt ((index, hint) :: walk.hints) (lt_capacity_of_links last) known
        have fewer' := ahead_cons_lt (renameEntry nodes (index, hint) :: (walk.rename nodes).hints)
          (lt_capacity_of_links last') (entered.not.mpr known)
        exact foldl_visit_rename (fun walk entry => step walk entry)
          (fun entry linked => holds_of_fields? (ShapeGraph.isObject_of_mem_links linked))
          (Nat.lt_of_lt_of_le fewer (Nat.le_of_lt_succ enough))
          (Nat.lt_of_lt_of_le fewer' (Nat.le_of_lt_succ enough'))

/-- **The walks note the same under other names.** -/
theorem ofGraph_rename (rootName : String) :
    ofGraph copy rootName = (ofGraph graph rootName).rename nodes := by
  unfold ofGraph
  rw [relocates.hintsAt_root rootName]
  show List.foldl _ ((⟨[], []⟩ : Walk).rename nodes) _ = _
  refine foldl_visit_rename (fun walk entry => visit_rename relocates walk entry)
    (fun entry member => ?_) (ahead_lt graph _) (ahead_lt copy _)
  obtain ⟨place, inside, rfl⟩ := List.mem_map.mp member
  exact holds_of_fields? (ShapeGraph.isObject_of_mem_objectsAt inside)

end Visits

/-! ### Best hints -/

section Best

variable (walk : Walk) (index : Nat)

theorem order_rename : (walk.rename nodes).order = walk.order.map nodes :=
  List.map_reverse.symm

theorem hintsFor_rename :
    (walk.rename nodes).hintsFor (nodes index) = (walk.hintsFor index).map Hint.relocate := by
  unfold hintsFor rename
  have same : ((fun entry : Nat × Hint => decide (entry.1 = nodes index)) ∘ renameEntry nodes) =
      fun entry => decide (entry.1 = index) := by
    funext entry
    exact decide_eq_decide.mpr nodes.injective.eq_iff
  rw [List.filter_map, same, ← List.map_reverse, List.map_map, List.map_map]
  rfl

/-- **Best hints are the same.** -/
theorem best?_rename :
    (walk.rename nodes).best? (nodes index) = (walk.best? index).map Hint.relocate := by
  unfold best?
  dsimp only
  rw [hintsFor_rename, List.map_findSome?]
  refine congrArg (List.findSome? · Tier.all) (funext fun tier => ?_)
  rw [List.find?_map, Function.comp_apply]
  refine congrArg _ (congrArg (List.find? · _) (funext fun hint => ?_))
  rw [Function.comp_apply, Hint.tier_relocate]

end Best

end Walk

namespace Naming

open Registry

/-! ### Choices -/

theorem candidates_rename (walk : Walk) :
    candidates (walk.rename nodes) = (candidates walk).map (Walk.renameEntry nodes) := by
  unfold candidates
  rw [Walk.order_rename, List.filterMap_map, List.map_filterMap]
  refine List.filterMap_congr fun index _ => ?_
  rw [Function.comp_apply, Walk.best?_rename]
  cases walk.best? index <;> rfl

/-- **The same objects choose in the same order.** -/
theorem choosing_rename (walk : Walk) :
    choosing (walk.rename nodes) = (choosing walk).map (Walk.renameEntry nodes) := by
  show (Tier.all.flatMap fun tier => (candidates (walk.rename nodes)).filter (·.2.tier = tier)) =
    (Tier.all.flatMap fun tier => (candidates walk).filter (·.2.tier = tier)).map _
  rw [candidates_rename, List.map_flatMap]
  refine List.flatMap_congr fun tier _ => ?_
  rw [List.filter_map]
  refine congrArg _ (List.filter_congr fun entry _ => ?_)
  exact congrArg (decide <| · = tier) (Hint.tier_relocate entry.2)

/-- What is assigned under other nodes. -/
def Assignment.rename (nodes : Nat ↪o Nat) (assignment : Assignment) : Assignment where
  named := assignment.named.map fun entry => (nodes entry.1, entry.2)
  targets := assignment.targets
  synthesized := assignment.synthesized.map nodes
  warnings := assignment.warnings

theorem Assignment.name_rename (assignment : Assignment) (index : Nat) (hint : Hint) :
    (assignment.rename nodes).name (nodes index) hint.relocate =
      (assignment.name index hint).rename nodes := by
  have used : (assignment.rename nodes).named.map Prod.snd = assignment.named.map Prod.snd :=
    List.map_map
  unfold name
  rw [used, Hint.name_relocate, Hint.tier_relocate]
  unfold rename
  dsimp only
  congr 1
  split <;> rfl

/-- **The same objects choose the same names.** -/
theorem nameAll_rename (choices : List (Nat × Hint)) (assignment : Assignment) :
    nameAll (choices.map (Walk.renameEntry nodes)) (assignment.rename nodes) =
      (nameAll choices assignment).rename nodes := by
  unfold nameAll
  rw [List.foldl_map]
  exact List.foldl_hom (Assignment.rename nodes)
    fun assignment entry => assignment.name_rename entry.1 entry.2

/-! ### Names -/

/-- The names of the same objects under other nodes. -/
structure Relocates (nodes : Nat ↪o Nat) (naming copy : Naming) : Prop where
  /-- The same objects have the same names. -/
  entries : copy.entries = naming.entries.map fun entry => (nodes entry.1, entry.2)
  /-- The same names collide. -/
  warnings : copy.warnings = naming.warnings
  /-- Placeholders lead to the same objects. -/
  synthesized : copy.synthesized = naming.synthesized.map nodes
  /-- Objects stand for the same. -/
  aliases : SameAliases nodes naming.aliases copy.aliases

/-- **Graphs that are the same under other nodes have the same names.** -/
theorem ofGraph_relocates (relocates : graph.Relocates nodes copy) (rootName : String) :
    Relocates nodes (ofGraph graph rootName) (ofGraph copy rootName) := by
  have assigned : nameAll (choosing (Walk.ofGraph copy rootName)) ⟨[], [], [], []⟩ =
      (nameAll (choosing (Walk.ofGraph graph rootName)) ⟨[], [], [], []⟩).rename nodes := by
    rw [Walk.ofGraph_rename relocates, choosing_rename]
    exact nameAll_rename _ ⟨[], [], [], []⟩
  refine ⟨?_, congrArg (·.warnings.reverse) assigned, congrArg (·.synthesized) assigned,
    relocates.aliases⟩
  have named : named (Walk.ofGraph copy rootName) =
      (named (Walk.ofGraph graph rootName)).map fun entry => (nodes entry.1, entry.2) :=
    congrArg (·.named) assigned
  rw [entries_ofGraph, entries_ofGraph, named, Walk.ofGraph_rename relocates, Walk.order_rename,
    List.filterMap_map, List.map_filterMap]
  refine List.filterMap_congr fun index _ => ?_
  rw [Function.comp_apply, Lists.lookup_map_fst nodes.injective]
  cases (Naming.named (Walk.ofGraph graph rootName)).lookup index <;> rfl

end Naming

end SampleShapes
