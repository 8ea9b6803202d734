/-
**Alternatives of a shape.**

Once null is taken out of the type of a field, what is left is the type of the alternatives that are
not null. No alternative is a union or says nothing, so that they can be read off the type: two
fields have one type exactly if their alternatives look alike, one by one.

* `TypeRef.alternatives_ofArms`: the arms of a type can be read off it;
* `ShapeGraph.collapseNull_typeOf`: **the type of a field is that of its solid alternatives**;
* `ShapeGraph.collapseNull_typeOf_eq_iff`: **fields have one type exactly if these look alike.**
-/

import SampleShapes.Proofs.Naming.Lookalikes
import SampleShapes.Proofs.Registry.Spreading

namespace SampleShapes

open Registry

variable {graph : ShapeGraph} {naming : Naming} {id other : ShapeId}

/-! ### Arms -/

namespace TypeRef

variable {arms arms' : List TypeRef}

/-- The types that a type is one of. -/
def alternatives : TypeRef → List TypeRef
  | union arms => arms
  | type => if type = any then [] else [type]

/-- The union of some types is one of these, unless one of them is a union or says nothing. -/
theorem alternatives_ofArms (plain : ∀ arm ∈ arms, arm.isUnion = false ∧ arm ≠ any) :
    (ofArms arms).alternatives = arms := by
  match arms with
  | [] => rfl
  | [arm] =>
    obtain ⟨notUnion, told⟩ := plain arm List.mem_cons_self
    show arm.alternatives = [arm]
    cases arm with
    | union others => cases notUnion
    | primitive | date | named | array => simp [alternatives, told]
  | first :: second :: rest => rfl

theorem ofArms_eq_iff (plain : ∀ arm ∈ arms, arm.isUnion = false ∧ arm ≠ any)
    (plain' : ∀ arm ∈ arms', arm.isUnion = false ∧ arm ≠ any) :
    ofArms arms = ofArms arms' ↔ arms = arms' := by
  refine ⟨fun same => ?_, congrArg ofArms⟩
  rw [← alternatives_ofArms plain, same, alternatives_ofArms plain']

/-- Where null is taken out of several arms, the others are left. -/
theorem collapseNull_union (several : 2 ≤ arms.length) :
    (union arms).collapseNull.1 = ofArms (arms.filter (· ≠ null)) := by
  unfold collapseNull
  dsimp only
  split
  · rfl
  · next absent =>
    have all : arms.filter (· ≠ null) = arms := List.filter_eq_self.mpr fun arm member =>
      decide_eq_true fun isNull => absent (isNull ▸ member)
    rw [all, ofArms_eq_union several]

/-- What is neither null nor a union stays as it is. -/
theorem collapseNull_of_plain {type : TypeRef} (notUnion : type.isUnion = false)
    (notNull : type ≠ null) : type.collapseNull.1 = type := by
  unfold collapseNull
  split
  · exact absurd rfl notNull
  · cases notUnion
  · rfl

end TypeRef

/-! ### Solid alternatives -/

/-- The alternatives of a shape, null left out. -/
def Registry.solid (registry : Registry) (id : ShapeId) : List ShapeId :=
  (registry.alternatives id).filter (· ≠ .null)

theorem Registry.nodup_solid (registry : Registry) (id : ShapeId) : (registry.solid id).Nodup := by
  refine List.Nodup.filter _ ?_
  unfold alternatives
  split
  · next members _ => exact members.nodup_toList
  · exact List.nodup_singleton id

namespace ShapeGraph

section Normal

variable (sound : graph.registry.Sound) (normal : graph.registry.Normal)
include sound normal

/-- **Without null the type of a shape is that of its solid alternatives.** -/
theorem collapseNull_typeOf (held : graph.registry.Holds id) :
    (naming.typeOf graph.registry id).collapseNull.1 =
      .ofArms ((graph.registry.solid id).map (naming.typeOf graph.registry)) := by
  cases found : graph.registry.members? id with
  | none =>
    unfold Registry.solid
    rw [alternatives_of_flat found]
    by_cases isNull : id = .null
    · rw [isNull, Naming.typeOf, Naming.typeWithin]
      rfl
    · have notNull : naming.typeOf graph.registry id ≠ .null :=
        mt (Naming.typeOf_eq_null_iff_of_flat found).mp isNull
      rw [TypeRef.collapseNull_of_plain (Naming.isUnion_typeOf_of_flat sound held found) notNull]
      simp [isNull, TypeRef.ofArms]
  | some members =>
    have flat := (normal.union found).flat
    have kept : (members.toList.map (naming.typeOf graph.registry)).filter (· ≠ .null) =
        (members.toList.filter (· ≠ .null)).map (naming.typeOf graph.registry) := by
      rw [List.filter_map]
      refine congrArg _ (List.filter_congr fun member inside => ?_)
      have same : naming.typeOf graph.registry member = .null ↔ member = .null :=
        Naming.typeOf_eq_null_iff_of_flat (flat member inside)
      simp [same]
    unfold Registry.solid
    rw [alternatives_of_members? found, Naming.typeOf_of_members? sound found, ← kept]
    rcases (normal.union found).empty_or_several with none | several
    · rw [none]
      rfl
    · rw [TypeRef.ofArms_eq_union (by rwa [List.length_map]),
        TypeRef.collapseNull_union (by rwa [List.length_map])]

/-- A solid alternative stands where the shape does, and its type is one arm. -/
theorem Types.of_mem_solid (definite : graph.registry.Definite) (types : graph.Types naming id)
    {alternative : ShapeId} (member : alternative ∈ graph.registry.solid id) :
    graph.Types naming alternative ∧ alternative ≠ .null ∧
      (naming.typeOf graph.registry alternative).isUnion = false ∧
      naming.typeOf graph.registry alternative ≠ .any := by
  obtain ⟨inside, solid⟩ := List.mem_filter.mp member
  have solid : alternative ≠ .null := of_decide_eq_true solid
  have among : graph.Types naming alternative ∧
      graph.registry.members? alternative = none := by
    cases found : graph.registry.members? id with
    | none =>
      rw [alternatives_of_flat found] at inside
      rw [List.mem_singleton.mp inside]
      exact ⟨types, found⟩
    | some members =>
      rw [alternatives_of_members? found] at inside
      exact ⟨types.member sound definite found inside, (normal.union found).flat _ inside⟩
  obtain ⟨own, flat⟩ := among
  refine ⟨own, solid, Naming.isUnion_typeOf_of_flat sound own.held flat, fun isAny => ?_⟩
  have hasType := own.hasType sound normal
  rw [isAny] at hasType
  rcases hasType.of_primitive with isAny | ⟨_, nothing⟩
  · exact own.definite isAny
  · cases flat.symm.trans nothing

theorem Types.of_mem_arms (definite : graph.registry.Definite) (types : graph.Types naming id) :
    ∀ arm ∈ (graph.registry.solid id).map (naming.typeOf graph.registry),
      arm.isUnion = false ∧ arm ≠ .any := by
  intro arm member
  obtain ⟨alternative, inside, rfl⟩ := List.mem_map.mp member
  exact (types.of_mem_solid sound normal definite inside).2.2

end Normal

/-- **Fields of named objects have one type, null aside, exactly if their solid alternatives look
alike,** one by one. -/
theorem collapseNull_typeOf_eq_iff {options : Options} {sample : Json} {rootName : String}
    (inferred : infer options sample = .ok graph)
    (types : graph.Types (Naming.ofGraph graph rootName) id)
    (types' : graph.Types (Naming.ofGraph graph rootName) other) :
    ((Naming.ofGraph graph rootName).typeOf graph.registry id).collapseNull.1 =
        ((Naming.ofGraph graph rootName).typeOf graph.registry other).collapseNull.1 ↔
      List.Forall₂ graph.LooksAlike (graph.registry.solid id) (graph.registry.solid other) := by
  have sound := (represents_of_infer inferred).registry
  have produced := produced_of_infer inferred
  have same : ∀ first ∈ graph.registry.solid id, ∀ second ∈ graph.registry.solid other,
      (Naming.ofGraph graph rootName).typeOf graph.registry first =
          (Naming.ofGraph graph rootName).typeOf graph.registry second ↔
        graph.LooksAlike first second := fun first member second member' =>
    looksAlike_iff inferred (types.of_mem_solid sound produced.normal produced.definite member).1
      (types'.of_mem_solid sound produced.normal produced.definite member').1
  rw [collapseNull_typeOf sound produced.normal types.held,
    collapseNull_typeOf sound produced.normal types'.held,
    TypeRef.ofArms_eq_iff (types.of_mem_arms sound produced.normal produced.definite)
      (types'.of_mem_arms sound produced.normal produced.definite),
    Lists.map_eq_map_iff_forall₂]
  exact ⟨Lists.forall₂_imp_of_mem fun first member second member' =>
      (same first member second member').mp,
    Lists.forall₂_imp_of_mem fun first member second member' =>
      (same first member second member').mpr⟩

end ShapeGraph

end SampleShapes
