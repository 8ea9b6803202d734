/-
**Targets that compete with themselves.**

Objects under one target are merged, so that one object should ask for the name of the target.
Unification and the walk look at the target in different ways, though. Unification passes over
objects without fields, while the walk hands the target to whatever lies in a position that is no
placeholder as a whole. And an object that was collected under several targets follows the merge of
one of them, while the walk may come to it under another one first.

Apart from these two cases, and if the rounds of unification come to rest, a target does not compete
with itself: what asks for it was bound under it, and all that was bound under it stands for one
shape.

* `Edge.exists_isBound`: an object with fields that a reference leads to stands for what was bound;
* `eq_of_same_target`: **one object asks for the name of a target,** unless one of two has no fields
  or follows another target;
* `target_competes`: in both of these cases two may.
-/

import SampleShapes.Proofs.Naming.Hints

namespace SampleShapes

open Registry

/-- A field gives the hint of a target if it names the target for a value with structure. -/
theorem Hint.target?_of_tier_ofField {registry : Registry} {field : Field}
    (reference : (Hint.ofField registry field).tier = .target) :
    field.key.target? = some (Hint.ofField registry field).word := by
  unfold Hint.ofField at reference ⊢
  cases names : field.key.target? with
  | none =>
    rw [names] at reference
    cases reference
  | some target =>
    rw [names] at reference
    dsimp only at reference ⊢
    split at reference
    · cases reference
    · next structured => rw [if_neg structured]

namespace ShapeGraph

variable {graph : ShapeGraph} {options : Options} {sample : Json} {target rootName : String}
  {index parent : Nat} {field : Field} {hint : Hint}

/-- **An object with fields that a reference leads to** stands for something that the reference
binds. -/
theorem Edge.exists_isBound (sound : graph.Sound) (edge : graph.Edge parent field index)
    (names : field.key.target? = some target) (object : graph.registry.HasFields (.node index)) :
    ∃ id, graph.IsBound target id ∧ graph.canonical id = .node index := by
  obtain ⟨fields, owner, value⟩ := edge.owns
  obtain ⟨member, inside, stands⟩ := edge.leads
  obtain ⟨raw, under⟩ := Table.mem_values_iff.mp value
  have held := (sound.registry.field owner under).1
  have same : graph.canonical (.node member) = .node index := congrArg ShapeId.node stands
  have hasFields : graph.registry.HasFields (.node member) := by
    rcases graph.canonical_cases (.node member) with itself | ⟨_, merge, isNode, leads, _⟩
    · rwa [← itself, same]
    · obtain rfl := ShapeId.node.inj isNode
      exact sound.merged member merge leads (holds_of_fields? inside.isSome_fields?)
  refine ⟨.node member, ⟨parent, fields, field, edge.read, fields?_eq_some_iff.mp owner, value,
    names, ?_⟩, same⟩
  exact (mem_boundObjects_iff sound.registry held _ (Nat.le_refl _)).mpr ⟨inside, hasFields⟩

/-- A hint of a target comes from a reference to it. -/
theorem exists_edge_of_reference (sound : graph.Sound)
    (chosen : (index, hint) ∈ Naming.choosing (Walk.ofGraph graph rootName))
    (reference : hint.tier = .target) :
    ∃ parent field, graph.Edge parent field index ∧ field.key.target? = some hint.word := by
  have noted := Walk.mem_hints_of_best? (Naming.mem_choosing_iff.mp chosen).2
  obtain ⟨parent, field, element, edge, rfl⟩ := exists_edge_of_mem_hints sound noted fun root => by
    rw [(Walk.of_mem_hintsAt_root root).2.1] at reference
    cases reference
  exact ⟨parent, field, edge, Hint.target?_of_tier_ofField reference⟩

/-- What stands for the object and is bound under the target was collected under no other one. -/
def FollowsOnly (graph : ShapeGraph) (options : Options) (sample : Json) (target : String)
    (index : Nat) : Prop :=
  ∀ id, graph.IsBound target id → graph.canonical id = .node index →
    ∀ other, Collected options sample other id → other = target

end ShapeGraph

namespace Naming

open ShapeGraph

variable {graph : ShapeGraph} {options : Options} {sample : Json} {rootName : String}
  {first second : Nat} {hint hint' : Hint}

/-- **One object asks for the name of a target,** unless one of two has no fields or follows another
target. -/
theorem eq_of_same_target (inferred : infer options sample = .ok graph)
    (rests : Rests options sample)
    (chosen : (first, hint) ∈ choosing (Walk.ofGraph graph rootName))
    (chosen' : (second, hint') ∈ choosing (Walk.ofGraph graph rootName))
    (reference : hint.tier = .target) (reference' : hint'.tier = .target)
    (same : hint'.word = hint.word)
    (alike : graph.registry.HasFields (.node first) ↔ graph.registry.HasFields (.node second))
    (alone : graph.FollowsOnly options sample hint.word first)
    (alone' : graph.FollowsOnly options sample hint.word second) : first = second := by
  have sound := (represents_of_infer inferred).toSound
  by_cases object : graph.registry.HasFields (.node first)
  · obtain ⟨_, _, edge, names⟩ := exists_edge_of_reference sound chosen reference
    obtain ⟨_, _, edge', names'⟩ := exists_edge_of_reference sound chosen' reference'
    obtain ⟨id, bound, stands⟩ := edge.exists_isBound sound names object
    obtain ⟨id', bound', stands'⟩ :=
      edge'.exists_isBound sound (names'.trans (congrArg some same)) (alike.mp object)
    have one := canonical_eq_of_isBound inferred rests bound bound' (alone id bound stands)
      (alone' id' bound' stands')
    exact ShapeId.node.inj (stands.symm.trans (one.trans stands'))
  · exact sound.registry.eq_of_not_hasFields
      (Walk.isObject_of_mem_order (mem_choosing_iff.mp chosen).1)
      (Walk.isObject_of_mem_order (mem_choosing_iff.mp chosen').1) object
      (mt alike.mpr object)

/-- Two references to one target, and the merge alone asks for its name. -/
theorem eq_of_two_references :
    ∃ graph hint, infer {} (.object [("a[T]", .object [("x", .null)]),
        ("b[T]", .object [("y", .null)])]) = .ok graph ∧
      (3, hint) ∈ choosing (Walk.ofGraph graph "Root") ∧ hint.tier = .target ∧ hint.word = "T" ∧
      ∀ second hint', (second, hint') ∈ choosing (Walk.ofGraph graph "Root") →
        hint'.tier = .target → hint'.word = "T" → graph.registry.HasFields (.node second) →
          3 = second := by
  have only : ∀ id other, Collected {} (.object [("a[T]", .object [("x", .null)]),
      ("b[T]", .object [("y", .null)])]) other id → other = "T" := fun id other collected =>
    List.mem_singleton.mp (collected.mem_of_keys (by decide +kernel))
  obtain ⟨graph, inferred, chosen, object⟩ : ∃ graph,
      infer {} (.object [("a[T]", .object [("x", .null)]), ("b[T]", .object [("y", .null)])]) =
        .ok graph ∧
      (3, (⟨"T", .target, true, false⟩ : Hint)) ∈ choosing (Walk.ofGraph graph "Root") ∧
      (graph.registry.fields? (.node 3)).any (!·.isEmpty) :=
    exists_of_decided (by decide +kernel)
  obtain ⟨fields, found, notEmpty⟩ := (Option.any_eq_true _ _).mp object
  have object : graph.registry.HasFields (.node 3) := ⟨fields, found, by simpa using notEmpty⟩
  refine ⟨graph, _, inferred, chosen, rfl, rfl, ?_⟩
  intro second hint' chosen' reference' word other
  exact eq_of_same_target inferred (by decide +kernel) chosen chosen' rfl reference' word
    (iff_of_true object other) (fun id _ _ => only id) (fun id _ _ => only id)

/-- Two objects ask for the name of the target. -/
def Competes (graph : ShapeGraph) (rootName target : String) : Prop :=
  ∃ choice ∈ choosing (Walk.ofGraph graph rootName),
    ∃ other ∈ choosing (Walk.ofGraph graph rootName), choice.1 ≠ other.1 ∧
      choice.2.tier = .target ∧ other.2.tier = .target ∧
      choice.2.word = target ∧ other.2.word = target

instance (graph : ShapeGraph) (rootName target : String) :
    Decidable (Competes graph rootName target) :=
  inferInstanceAs (Decidable (∃ choice ∈ _, ∃ other ∈ _, _))

/-- **Two objects may ask for the name of one target,** and one of them gets another name: one has
no fields and lies in a list, or one follows another target. -/
theorem target_competes :
    (∃ graph, infer {} (.object [("x[T]", .array [.object [], .number "1"]),
        ("y[T]", .object [("a", .number "1")])]) = .ok graph ∧ Competes graph "Root" "T" ∧
      (ofGraph graph "Root").warnings = [.nameCollision "T" "T2"]) ∧
    ∃ graph, infer {} (.object [("n", .object [("t[T]", .object [("a", .number "1")]),
          ("u[T]", .object [("b", .number "1")])]),
        ("z[P]", .object [("a", .number "1")]), ("w[P]", .object [("c", .number "1")])]) =
          .ok graph ∧ Competes graph "Root" "T" ∧
      (ofGraph graph "Root").warnings = [.nameCollision "T" "T2"] :=
  ⟨exists_of_decided (by decide +kernel), exists_of_decided (by decide +kernel)⟩

end Naming

end SampleShapes
