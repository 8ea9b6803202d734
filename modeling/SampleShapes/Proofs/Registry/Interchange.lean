/-
**Scalars among candidates.**

Merging looks at scalars as a set. What it does with candidates that are nodes depends on their
order, since objects are merged in this order and their fields are listed in it; but where scalars
stand among them, and how often, does not matter: a scalar other than null makes a union of what is
merged, which has no order, and null is only looked for.

* `InStep`: the same identities, and the same nodes in the same order;
* `InStep.flatten`: candidates in step are flat candidates in step;
* `mergeStep_eq_of_inStep`: one step down makes the same of candidates in step;
* `merge_eq_of_inStep`: **merging makes the same of candidates in step,** and interns the same.
-/

import SampleShapes.Proofs.Registry.Spreading

namespace SampleShapes

/-- The identity is that of an object, a list or a union. -/
def ShapeId.isNode : ShapeId → Bool
  | node _ => true
  | _ => false

namespace Registry

variable {registry : Registry} {ids others : List ShapeId} {id : ShapeId}

theorem shape?_eq_none_of_not_isNode (scalar : id.isNode = false) : registry.shape? id = none := by
  cases id with
  | node index => cases scalar
  | primitive kind => rfl
  | date => rfl

theorem fields?_eq_none_of_not_isNode (scalar : id.isNode = false) :
    registry.fields? id = none := by
  rw [fields?, shape?_eq_none_of_not_isNode scalar, Option.bind_none]

theorem elements?_eq_none_of_not_isNode (scalar : id.isNode = false) :
    registry.elements? id = none := by
  rw [elements?, shape?_eq_none_of_not_isNode scalar, Option.bind_none]

theorem members?_eq_none_of_not_isNode (scalar : id.isNode = false) :
    registry.members? id = none := by
  rw [members?, shape?_eq_none_of_not_isNode scalar, Option.bind_none]

/-- The identities are the same as a set, and the nodes among them come in the same order. -/
structure InStep (ids others : List ShapeId) : Prop where
  nodes : ids.filter ShapeId.isNode = others.filter ShapeId.isNode
  mem_iff : ∀ id, id ∈ ids ↔ id ∈ others

namespace InStep

theorem refl (ids : List ShapeId) : InStep ids ids := ⟨rfl, fun _ => Iff.rfl⟩

theorem eraseDups (inStep : InStep ids others) : InStep ids.eraseDups others.eraseDups where
  nodes := by rw [← Lists.eraseDups_filter, ← Lists.eraseDups_filter, inStep.nodes]
  mem_iff id := by rw [List.mem_eraseDups, List.mem_eraseDups, inStep.mem_iff]

/-- What identities in step count as is in step, since scalars count as themselves. -/
theorem alternatives (inStep : InStep ids others) (registry : Registry) :
    InStep (ids.flatMap registry.alternatives) (others.flatMap registry.alternatives) where
  nodes := by
    have nodesOf : ∀ ids : List ShapeId, (ids.flatMap registry.alternatives).filter ShapeId.isNode =
        (ids.filter ShapeId.isNode).flatMap fun id =>
          (registry.alternatives id).filter ShapeId.isNode := by
      intro ids
      induction ids with
      | nil => rfl
      | cons first rest step =>
        rw [List.flatMap_cons, List.filter_append, step]
        cases node : first.isNode with
        | true => rw [List.filter_cons_of_pos node, List.flatMap_cons]
        | false =>
          rw [List.filter_cons_of_neg (by rw [node]; decide),
            alternatives_of_flat (members?_eq_none_of_not_isNode node),
            List.filter_cons_of_neg (by rw [node]; decide)]
          rfl
    rw [nodesOf, nodesOf, inStep.nodes]
  mem_iff id := by
    rw [List.mem_flatMap, List.mem_flatMap]
    simp only [inStep.mem_iff]

/-- **Candidates in step are flat candidates in step.** -/
theorem flatten (inStep : InStep ids others) (registry : Registry) :
    InStep (registry.flatten ids) (registry.flatten others) := by
  have once := inStep.eraseDups
  have perm := Lists.eraseDups_perm fun id => (inStep.mem_iff id).symm
  rw [flatten_eq, flatten_eq, perm.length_eq]
  split
  · exact once
  · exact (once.alternatives registry).eraseDups

/-- A partial map that is for nodes alone succeeds alike on what is not null. -/
theorem mapM_eq {β : Type} (inStep : InStep ids others) (partialMap : ShapeId → Option β)
    (onlyNodes : ∀ id, id.isNode = false → partialMap id = none) :
    (ids.filter (· ≠ .null)).mapM partialMap = (others.filter (· ≠ .null)).mapM partialMap := by
  by_cases scalar : ∃ id ∈ ids, id ≠ .null ∧ id.isNode = false
  · obtain ⟨id, member, solid, notNode⟩ := scalar
    rw [mapM_eq_none_of_mem member solid (onlyNodes id notNode),
      mapM_eq_none_of_mem ((inStep.mem_iff id).mp member) solid (onlyNodes id notNode)]
  · -- Nothing is left but nodes, and these come in the same order.
    have nodesOf : ∀ list : List ShapeId, (∀ id ∈ list, id ∈ ids) →
        list.filter (· ≠ .null) = list.filter ShapeId.isNode := by
      intro list among
      refine List.filter_congr fun id member => ?_
      cases node : id.isNode with
      | true =>
        refine decide_eq_true ?_
        rintro rfl
        cases node
      | false =>
        refine decide_eq_false fun solid => scalar ⟨id, among id member, solid, node⟩
    rw [nodesOf ids fun _ member => member, nodesOf others fun id => (inStep.mem_iff id).mpr,
      inStep.nodes]

end InStep

/-! ### Merges -/

/-- **One step down makes the same of candidates in step.** -/
theorem mergeStep_eq_of_inStep (inStep : InStep ids others) (deeper : Merger)
    (registry : Registry) :
    mergeStep deeper ids registry = mergeStep deeper others registry := by
  have flat := inStep.flatten registry
  have perm : (registry.flatten ids).Perm (registry.flatten others) :=
    (List.perm_ext_iff_of_nodup (nodup_flatten _ _) (nodup_flatten _ _)).mpr flat.mem_iff
  have fields := flat.mapM_eq registry.fields? fun _ => fields?_eq_none_of_not_isNode
  have elements := flat.mapM_eq registry.elements? fun _ => elements?_eq_none_of_not_isNode
  have orNull_eq : orNull (registry.flatten ids) = orNull (registry.flatten others) := by
    unfold orNull
    simp only [flat.mem_iff]
  cases registry.kinds ids with
  | nothing none =>
    rw [mergeStep_of_nil none, mergeStep_of_nil (none ▸ perm).nil_eq.symm]
  | alone one =>
    rw [mergeStep_of_singleton one,
      mergeStep_of_singleton (List.perm_singleton.mp (one ▸ perm.symm))]
  | objects several all =>
    rw [mergeStep_of_objects several all,
      mergeStep_of_objects (perm.length_eq ▸ several) (fields ▸ all), orNull_eq]
  | lists several all =>
    rw [mergeStep_of_lists several all,
      mergeStep_of_lists (perm.length_eq ▸ several) (elements ▸ all), orNull_eq]
  | mixed several notObjects notLists =>
    rw [mergeStep_of_mix several notObjects notLists,
      mergeStep_of_mix (perm.length_eq ▸ several) (fields ▸ notObjects) (elements ▸ notLists),
      IdSet.ofList_congr flat.mem_iff]

/-- **Merging makes the same of candidates in step,** and interns the same. -/
theorem merge_eq_of_inStep (inStep : InStep ids others) (registry : Registry) :
    registry.merge ids = registry.merge others := by
  rw [merge, merge, ceiling_eq_of_mem_iff inStep.mem_iff]
  exact mergeStep_eq_of_inStep inStep _ registry

end Registry

end SampleShapes
