/-
**The graph of a sample.**

The graph that is inferred from a sample is sound: its registry is, its root is the shape of a
sample, and its aliases lead between objects with fields. Observation gives a shape that the sample
conforms to, and neither the aliases nor pruning lose it.

* `covers_canonical`: what an object stands for has all of its values;
* `represents_of_infer`: what is known of a graph that is inferred;
* `conforms_root_of_infer`: **a sample conforms to the root of its graph.**
-/

import SampleShapes.Proofs.Observation
import SampleShapes.Proofs.Registry.Unification
import SampleShapes.ShapeGraph

namespace SampleShapes

/-! ### Pruning -/

namespace Registry

variable {registry : Registry} {roots : List ShapeId} {id : ShapeId}

theorem HasFields.prune (object : registry.HasFields id)
    (held : (registry.prune roots).Holds id) : (registry.prune roots).HasFields id := by
  obtain ⟨fields, found, notEmpty⟩ := object
  exact ⟨fields, (fields?_prune_of_holds held).trans found, notEmpty⟩

theorem IsRoot.prune (sound : registry.Sound) (root : registry.IsRoot id)
    (held : (registry.prune roots).Holds id) : (registry.prune roots).IsRoot id := by
  rcases root with object | ⟨element, list, object⟩
  · exact .inl (by rwa [fields?_prune_of_holds held])
  · rw [← elements?_prune_of_holds held] at list
    have inside := ((sound.prune roots).element list (List.mem_singleton_self element)).1
    exact .inr ⟨element, list, by rwa [fields?_prune_of_holds inside]⟩

end Registry

namespace ShapeGraph

open Registry

variable {graph : ShapeGraph} {options : Options} {sample : Json}

/-! ### Aliases -/

/-- The value conforms to the shape, where every object is read as what it stands for. -/
def Conforms (graph : ShapeGraph) (value : Json) (id : ShapeId) : Prop :=
  graph.registry.Conforms graph.canonical value id

/-- A shape stands for itself, or an alias says what it stands for. -/
theorem canonical_cases (graph : ShapeGraph) (id : ShapeId) :
    graph.canonical id = id ∨ ∃ member index, id = .node member ∧
      graph.aliases.get? member = some index ∧ graph.canonical id = .node index := by
  cases id with
  | node member =>
    cases found : graph.aliases.get? member with
    | none => exact .inl (by simp [canonical, canonicalNode, found])
    | some index =>
      exact .inr ⟨member, index, rfl, found, by simp [canonical, canonicalNode, found]⟩
  | primitive kind => exact .inl rfl
  | date => exact .inl rfl

/-- **What an object stands for has all of its values,** if it was merged into it. -/
theorem covers_canonical {registry : Registry}
    (leads : ∀ member index, graph.aliases.get? member = some index →
      registry.HasFields (.node index) ∧ registry.MergedInto (.node member) (.node index)) :
    registry.Covers graph.canonical := by
  intro id object
  rcases graph.canonical_cases id with same | ⟨member, index, rfl, found, same⟩
  · rw [same]
    exact ⟨object, fun value fits => fits⟩
  · obtain ⟨merge, candidates, inside, _, joins⟩ := leads member index found
    rw [same]
    exact ⟨merge.isSome_fields?, fun value fits => joins.fits inside fits⟩

/-- A graph that pruning may have left: what its shapes point at is there, and so is what they
stand for. -/
structure Sound (graph : ShapeGraph) : Prop where
  /-- The registry is sound. -/
  registry : graph.registry.Sound
  /-- The root is the shape of a sample. -/
  root : graph.registry.IsRoot graph.root
  /-- Aliases lead to objects with fields. -/
  merge : ∀ member index, graph.aliases.get? member = some index →
    graph.registry.HasFields (.node index)
  /-- They lead from objects with fields, unless these were dropped. -/
  merged : ∀ member index, graph.aliases.get? member = some index →
    graph.registry.Holds (.node member) → graph.registry.HasFields (.node member)

/-- What is known of the graph of a sample. -/
structure Represents (graph : ShapeGraph) (sample : Json) : Prop extends graph.Sound where
  /-- The sample conforms to the root. -/
  conforms : sample.KeysDistinct → graph.Conforms sample graph.root

/-! ### Inference -/

/-- Unification and pruning keep what observation found. -/
theorem represents_ofObserver {observer : Observer} {root : ShapeId} (sound : observer.Sound)
    (sees : observer.registry.Sees sample root) (accepted : refusedRoot? sample = none) :
    (ofObserver root observer).Represents sample := by
  obtain ⟨⟨aliases, unified⟩, result⟩ :
      ∃ result, observer.registry.unifyTargets root = result := ⟨_, rfl⟩
  obtain ⟨soundLast, grows, leads⟩ := unifyTargets_sound sound.registry root
  rw [result] at soundLast grows leads
  have made : ofObserver root observer =
      ⟨root, unified.prune (root :: aliases.values.map ShapeId.node), aliases⟩ := by
    unfold ofObserver
    rw [result]
  obtain ⟨roots, rooted⟩ : ∃ roots, root :: aliases.values.map ShapeId.node = roots := ⟨_, rfl⟩
  rw [made, rooted]
  have within := grows.within
  have holds : (unified.prune roots).Holds root :=
    holds_prune_root (grows.holds sees.holds) (rooted ▸ List.mem_cons_self)
  have merge : ∀ member index, aliases.get? member = some index →
      (unified.prune roots).HasFields (.node index) := by
    intro member index found
    have object := (leads member index found).1
    refine object.prune (holds_prune_root object.holds (rooted ▸ List.mem_cons_of_mem _ ?_))
    exact List.mem_map_of_mem (Table.mem_values_iff.mpr ⟨member, found⟩)
  refine { registry := soundLast.prune roots
           root := ((sees.root accepted).within within).prune soundLast holds
           merge := merge
           merged := fun member index found held => ?_
           conforms := fun distinct => ?_ }
  · obtain ⟨candidates, inside, objects, _⟩ := (leads member index found).2
    exact (objects _ inside).prune held
  · -- An object may stand for its merge first, and what is not reached is dropped afterwards.
    have fits := (sees.fits distinct).within within
    have covers : unified.Covers (canonical ⟨root, unified.prune roots, aliases⟩) :=
      covers_canonical leads
    refine (Conforms.of_fits covers fits).prune soundLast (fun id held => ?_) holds
    rcases canonical_cases ⟨root, unified.prune roots, aliases⟩ id with
      same | ⟨member, index, _, found, same⟩
    · rw [same]
      exact held
    · rw [same]
      exact (merge member index found).holds

/-- A graph is inferred from a sample that is accepted and observed. -/
theorem infer_eq_ok_iff :
    infer options sample = .ok graph ↔
      refusedRoot? sample = none ∧ ∃ root, (Observer.empty.observe options sample).1 = .ok root ∧
        ofObserver root (Observer.empty.observe options sample).2 = graph := by
  unfold infer checkRoot
  cases refusedRoot? sample with
  | some found => exact ⟨fun same => (by cases same), fun ⟨same, _⟩ => (by cases same)⟩
  | none =>
    rcases Observer.empty.observe options sample with ⟨failure | root, observer⟩
    · exact ⟨fun same => (by cases same), fun ⟨_, _, same, _⟩ => (by cases same)⟩
    · constructor
      · intro same
        exact ⟨rfl, root, rfl, Except.ok.inj same⟩
      · rintro ⟨_, _, same, rfl⟩
        obtain rfl := Except.ok.inj same
        rfl

/-- What is decided of the result holds of the graph. -/
theorem exists_of_decided {good : ShapeGraph → Prop} [DecidablePred good]
    (decided : (infer options sample).toOption.any (fun graph => decide (good graph)) = true) :
    ∃ graph, infer options sample = .ok graph ∧ good graph := by
  obtain ⟨graph, found, holds⟩ := (Option.any_eq_true _ _).mp decided
  cases inferred : infer options sample with
  | error failure =>
    rw [inferred] at found
    cases found
  | ok other =>
    rw [inferred] at found
    obtain rfl := Option.some.inj found
    exact ⟨other, rfl, of_decide_eq_true holds⟩

/-- **What is known of a graph that is inferred.** -/
theorem represents_of_infer (inferred : infer options sample = .ok graph) :
    graph.Represents sample := by
  obtain ⟨accepted, root, observed, rfl⟩ := infer_eq_ok_iff.mp inferred
  have sound := Observer.sound_empty
  exact represents_ofObserver (Observer.observe_sound sound options sample)
    (Observer.observe_sees sound observed) accepted

/-- **A sample conforms to the root of its graph,** whatever its keys say. -/
theorem conforms_root_of_infer (distinct : sample.KeysDistinct)
    (inferred : infer options sample = .ok graph) : graph.Conforms sample graph.root :=
  (represents_of_infer inferred).conforms distinct

/-- Two objects under one target stand for their merge, and the sample conforms all the same. -/
theorem conforms_root_of_two_references :
    ∃ graph, infer {} (.object [("a[T]", .object [("x", .null)]),
        ("b[T]", .object [("y", .array [])])]) = .ok graph ∧ graph.aliases.size = 2 ∧
      graph.Conforms (.object [("a[T]", .object [("x", .null)]),
        ("b[T]", .object [("y", .array [])])]) graph.root := by
  have aliased : (infer {} (.object [("a[T]", .object [("x", .null)]),
      ("b[T]", .object [("y", .array [])])])).toOption.map (·.aliases.size) = some 2 := by
    decide +kernel
  cases inferred : infer {} (.object [("a[T]", .object [("x", .null)]),
      ("b[T]", .object [("y", .array [])])]) with
  | error failure =>
    rw [inferred] at aliased
    cases aliased
  | ok graph =>
    rw [inferred] at aliased
    refine ⟨graph, rfl, Option.some.inj aliased, ?_⟩
    exact conforms_root_of_infer (by decide +kernel) inferred

end ShapeGraph

end SampleShapes
