/-
**The order of a sample does not matter.**

Two samples without references that are the same up to order, of the elements of arrays and of the
members of objects, have the same graph: both have one or neither, the roots unfold alike, and as
many shapes are left.

* `Mirrors.isPlain`: a shape that is observed where no key names a target is plain;
* `infer_unmarked_iff`: the graph of such a sample is what observation leaves, with no alias;
* `infer_reordered`: **samples that are the same up to order have the same graph.**
-/

import SampleShapes.Proofs.Inference
import SampleShapes.Proofs.Mirroring
import SampleShapes.Proofs.Registry.Liveness
import SampleShapes.Proofs.Registry.Plainness

namespace SampleShapes

namespace Registry

variable {registry : Registry} {detectDates : Bool} {sample : Json} {id : ShapeId}

/-- **A shape that is observed where no key names a target is plain.** -/
theorem Mirrors.isPlain (unmarked : sample.Unmarked)
    (mirrors : registry.Mirrors detectDates sample id) : registry.IsPlain id := by
  induction sample using Json.induct generalizing id with
  | step sample parts =>
    cases mirrors with
    | scalar => exact everyField_of_shape?_eq_none (shape?_scalarId registry)
    | @list elements ids _ element each joins found =>
      have unmarked := Json.unmarked_array.mp unmarked
      refine (everyField_iff_of_elements? found).mpr fun part member => ?_
      rw [List.mem_singleton.mp member]
      refine joins.isPlain fun id listed => ?_
      obtain ⟨value, inside, mirrors⟩ := Lists.exists_mem_of_forall₂_right each listed
      exact parts value inside (unmarked value inside) mirrors
    | @object members fields _ found keys required each =>
      have unmarked := Json.unmarked_object.mp unmarked
      refine (everyField_iff_of_fields? found).mpr fun raw field under => ?_
      obtain ⟨⟨_, value⟩, listed, rfl⟩ :=
        List.mem_map.mp ((keys raw).mp (Table.mem_keys_of_get? under))
      obtain ⟨plain, inside⟩ := unmarked _ listed
      have mirrors := each _ value field listed under
      exact ⟨plain, parts value (Json.parts_inside listed) inside mirrors⟩

end Registry

namespace ShapeGraph

open Registry

variable {options : Options} {sample other : Json} {graph : ShapeGraph}

/-- **The graph of a sample without references** is what observation leaves of it, and no object
stands for another. -/
theorem exists_mirrors_of_infer (distinct : sample.KeysDistinct) (unmarked : sample.Unmarked)
    (inferred : infer options sample = .ok graph) :
    ∃ registry : Registry, registry.Sound ∧
      registry.Mirrors options.detectDates sample graph.root ∧
      graph = ⟨graph.root, registry.prune [graph.root], ∅⟩ := by
  obtain ⟨_, root, observed, rfl⟩ := infer_eq_ok_iff.mp inferred
  have yields := Observing.value_mirrors options 0 sample distinct unmarked Observer.sound_empty
  have sound := yields.sound.registry
  have mirrors := yields.good root observed
  refine ⟨_, sound, ?_, ?_⟩
  · unfold ofObserver
    exact mirrors
  · show ofObserver root ((Observing.value options 0 sample).run.run ∅).2 = _
    unfold ofObserver
    rw [unifyTargets_of_isPlain sound (mirrors.isPlain unmarked)]
    rfl

/-- **A sample without references has a graph** exactly if it is one and does not nest too deep. -/
theorem exists_infer_iff (unmarked : sample.Unmarked) :
    (∃ graph, infer options sample = .ok graph) ↔
      refusedRoot? sample = none ∧ sample.Shallow options.maxDepth 0 := by
  have succeeds : Observing.Succeeds ∅ (Observing.value options 0 sample) ↔
      sample.Shallow options.maxDepth 0 := Observing.succeeds_value_iff options 0 sample unmarked
  simp only [infer_eq_ok_iff, ← succeeds]
  constructor
  · rintro ⟨_, accepted, root, observed, _⟩
    exact ⟨accepted, root, observed⟩
  · rintro ⟨accepted, root, observed⟩
    exact ⟨_, accepted, root, observed, rfl⟩

/-- **Samples that are the same up to order have the same graph:** both have one or neither, the
roots unfold alike, and as many shapes are left. -/
theorem infer_reordered (distinct : sample.KeysDistinct) (unmarked : sample.Unmarked)
    (reordered : sample.Reordered other) (options : Options) :
    ((∃ graph, infer options sample = .ok graph) ↔ ∃ graph, infer options other = .ok graph) ∧
      ∀ graph graph', infer options sample = .ok graph → infer options other = .ok graph' →
        graph.registry.unfolding graph.root = graph'.registry.unfolding graph'.root ∧
          graph.registry.live.length = graph'.registry.live.length := by
  have distinct' := reordered.keysDistinct distinct
  have unmarked' := reordered.unmarked unmarked
  refine ⟨?_, fun graph graph' inferred inferred' => ?_⟩
  · rw [exists_infer_iff unmarked, exists_infer_iff unmarked', reordered.refusedRoot?_eq,
      reordered.shallow_iff]
  · obtain ⟨registry, sound, mirrors, made⟩ := exists_mirrors_of_infer distinct unmarked inferred
    obtain ⟨registry', sound', mirrors', made'⟩ :=
      exists_mirrors_of_infer distinct' unmarked' inferred'
    generalize graph.root = root at mirrors made
    generalize graph'.root = root' at mirrors' made'
    subst made made'
    have same := mirrors.unfolding_eq sound sound' reordered mirrors'
    have held : ∀ id ∈ [root], registry.Holds id := by simpa using mirrors.holds
    have held' : ∀ id ∈ [root'], registry'.Holds id := by simpa using mirrors'.holds
    dsimp only
    constructor
    · rw [unfolding_prune sound (holds_prune_root mirrors.holds (List.mem_singleton_self root)),
        unfolding_prune sound' (holds_prune_root mirrors'.holds (List.mem_singleton_self root')),
        same]
    · rw [length_live_prune sound held, length_live_prune sound' held']
      exact length_reachable_eq sound sound' (Matches.singletons_iff.mpr same)

/-- Two elements and two members change places. -/
theorem infer_reordered_two_elements :
    ∃ graph graph',
      infer {} (.object [("x", .array [.object [("a", .null)], .array []]), ("y", .null)]) =
        .ok graph ∧
      infer {} (.object [("y", .null), ("x", .array [.array [], .object [("a", .null)]])]) =
        .ok graph' ∧
      graph.registry.unfolding graph.root = graph'.registry.unfolding graph'.root ∧
      graph.registry.live.length = graph'.registry.live.length ∧
      graph.registry.live.length = 6 := by
  have swapped : List.Forall₂ Json.Reordered [.object [("a", .null)], .array []]
      [.object [("a", .null)], .array []] :=
    .cons (.object (.cons (.under (.scalar nofun nofun)) .nil) (.refl _))
      (.cons (.array .nil (.refl _)) .nil)
  have reordered : Json.Reordered
      (.object [("x", .array [.object [("a", .null)], .array []]), ("y", .null)])
      (.object [("y", .null), ("x", .array [.array [], .object [("a", .null)]])]) :=
    .object (.cons (.under (.array swapped (.swap _ _ []))) (.cons (.under (.scalar nofun nofun))
      .nil)) (.swap _ _ [])
  have kept : (infer {} (.object [("x", .array [.object [("a", .null)], .array []]),
      ("y", .null)])).toOption.map (·.registry.live.length) = some 6 := by
    decide +kernel
  obtain ⟨both, alike⟩ := infer_reordered (by decide +kernel) (by decide +kernel) reordered {}
  cases inferred : infer {} (.object [("x", .array [.object [("a", .null)], .array []]),
      ("y", .null)]) with
  | error failure =>
    rw [inferred] at kept
    cases kept
  | ok graph =>
    rw [inferred] at kept
    obtain ⟨graph', inferred'⟩ := both.mp ⟨graph, inferred⟩
    obtain ⟨root, count⟩ := alike graph graph' inferred inferred'
    exact ⟨graph, graph', rfl, inferred', root, count, Option.some.inj kept⟩

end ShapeGraph

end SampleShapes
